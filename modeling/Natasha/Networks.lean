import Natasha.Lexer
import Natasha.Fragments

/-! Network literals, from their text to the condition a packet is tested with. The scanner takes
`a.b.c.d/m` for one token, `sscanf` splits it again, and `ipv4_in_network` compares under a mask
that it shifts out of `m`. -/
namespace Natasha

open Interaction Regex

/-! ## Decimal fields -/

/-- One to `width` digits that spell at most `most`. -/
structure Digits (width most : Nat) (text : List Char) : Prop where
  nonempty : text ≠ []
  digits : ∀ c ∈ text, c.isDigit = true
  short : text.length ≤ width
  bound : decimal text ≤ most

section Fields

variable {text rest : List Char}

/-- The conversion stops where the digits do. -/
theorem Digits.scan (field : Digits width most text) (stop : ∀ c ∈ rest.head?, c.isDigit = false) :
    scanUnsigned width (text ++ rest) = some (decimal text,rest) := by
  have taken : ((text ++ rest).take width).takeWhile Char.isDigit = text := by
    rw [List.take_append,List.take_of_length_le field.short,List.takeWhile_append_of_pos field.digits]
    cases rest with
    | nil => simp
    | cons c rest =>
      cases width - text.length with
      | zero => simp
      | succ n => simp [stop c rfl]
  simp only [scanUnsigned,taken,field.nonempty,if_false,List.drop_left]

/-- The characters of a range of digits. -/
theorem range_digit {low high : Char} (least : '0' ≤ low) (most : high ≤ '9')
    (found : (range low high).Matches text) :
    ∃ c, text = [c] ∧ c.isDigit = true ∧ digitValue c ≤ digitValue high := by
  obtain ⟨c,rfl,accepted⟩ := Pattern.matches_set.mp found
  simp only [Bool.and_eq_true,decide_eq_true_eq,Char.le_def,UInt32.le_iff_toNat_le] at accepted least most
  refine ⟨c,rfl,?_,Nat.sub_le_sub_right accepted.2 _⟩
  simp only [Char.isDigit,Bool.and_eq_true,decide_eq_true_eq,ge_iff_le,UInt32.le_iff_toNat_le]
  exact ⟨least.trans accepted.1,accepted.2.trans most⟩

theorem digits_one {c : Char} (isDigit : c.isDigit = true) (value : digitValue c ≤ n) : Digits 1 n [c] where
  nonempty := List.cons_ne_nil _ _
  digits := by simpa using isDigit
  short := le_rfl
  bound := by simpa [decimal] using value

theorem decimal_foldl (text : List Char) (n : Nat) :
    text.foldl (fun n c => 10*n + digitValue c) n = n * 10^text.length + decimal text := by
  induction text generalizing n with
  | nil => simp [decimal]
  | cons c text ih =>
    simp only [decimal,List.foldl_cons,List.length_cons] at ih ⊢
    rw [ih,ih (10*0 + digitValue c)]
    ring

theorem decimal_cons (c : Char) (text : List Char) :
    decimal (c :: text) = digitValue c * 10^text.length + decimal text := by
  rw [decimal,List.foldl_cons,decimal_foldl,Nat.mul_zero,Nat.zero_add]

theorem Digits.cons {c : Char} (field : Digits width most text) (isDigit : c.isDigit = true)
    (value : digitValue c ≤ n) : Digits (width+1) (n * 10^width + most) (c :: text) where
  nonempty := List.cons_ne_nil _ _
  digits := List.forall_mem_cons.mpr ⟨isDigit,field.digits⟩
  short := Nat.succ_le_succ field.short
  bound := by
    rw [decimal_cons]
    have power : 10^text.length ≤ 10^width := Nat.pow_le_pow_right (by decide) field.short
    have := Nat.mul_le_mul value power
    have := field.bound
    omega

theorem Digits.mono (field : Digits width most text) (wider : width ≤ width') (le : most ≤ most') :
    Digits width' most' text :=
  ⟨field.nonempty,field.digits,field.short.trans wider,field.bound.trans le⟩

end Fields

/-! ## Network literals -/

/-- The text `a.b.c.d/m`. -/
structure NetworkLiteral where
  a : List Char
  b : List Char
  c : List Char
  d : List Char
  m : List Char
  bytes : Digits 3 255 a ∧ Digits 3 255 b ∧ Digits 3 255 c ∧ Digits 3 255 d
  mask : Digits 2 32 m

namespace NetworkLiteral

def text (literal : NetworkLiteral) : List Char :=
  literal.a ++ '.' :: (literal.b ++ '.' :: (literal.c ++ '.' :: (literal.d ++ '/' :: literal.m)))

def address (literal : NetworkLiteral) : U32 :=
  .ofNat 32 (((decimal literal.a * 256 + decimal literal.b) * 256 + decimal literal.c) * 256 + decimal literal.d)

/-- The number of bits that a packet's address has to share with `address`. -/
def length (literal : NetworkLiteral) : Nat := decimal literal.m

end NetworkLiteral

theorem bytePattern_digits {text : List Char} (found : bytePattern.Matches text) : Digits 3 255 text := by
  simp only [bytePattern,Pattern.matches_alt,Pattern.matches_seq,Pattern.matches_opt,Pattern.matches_literal] at found
  rcases found with ⟨_,_,rfl,first,_,_,rfl,second,third⟩ | ⟨_,_,rfl,rfl,_,_,rfl,second,third⟩ | ⟨_,_,rfl,rfl,third⟩
  · obtain ⟨z,rfl,isDigit,value⟩ := range_digit (by decide) (by decide) third
    have one := digits_one isDigit value
    rcases second with second | rfl
    · obtain ⟨y,rfl,isDigit,value⟩ := range_digit (by decide) (by decide) second
      have two := one.cons isDigit value
      rcases first with first | rfl
      · obtain ⟨x,rfl,isDigit,value⟩ := range_digit (by decide) (by decide) first
        exact (two.cons isDigit value).mono (by decide) (by decide)
      · exact two.mono (by decide) (by decide)
    · rcases first with first | rfl
      · obtain ⟨x,rfl,isDigit,value⟩ := range_digit (by decide) (by decide) first
        exact (one.cons isDigit value).mono (by decide) (by decide)
      · exact one.mono (by decide) (by decide)
  · obtain ⟨y,rfl,isDigit,value⟩ := range_digit (by decide) (by decide) second
    obtain ⟨z,rfl,isDigit',value'⟩ := range_digit (by decide) (by decide) third
    have two := (digits_one isDigit' value').cons isDigit value
    exact (two.cons (c := '2') (n := 2) (by decide) (by decide)).mono (by decide) (by decide)
  · obtain ⟨z,rfl,isDigit,value⟩ := range_digit (by decide) (by decide) third
    have two := (digits_one isDigit value).cons (c := '5') (n := 5) (by decide) (by decide)
    exact (two.cons (c := '2') (n := 2) (by decide) (by decide)).mono (by decide) (by decide)

theorem ipv4NetworkPattern_literal {text : List Char} (found : ipv4NetworkPattern.Matches text) :
    ∃ literal : NetworkLiteral, literal.text = text := by
  simp only [ipv4NetworkPattern,ipv4AddressPattern,Pattern.rep,Pattern.matches_alt,Pattern.matches_seq,
    Pattern.matches_literal,Pattern.matches_blank] at found
  obtain ⟨_,_,rfl,⟨_,_,rfl,⟨_,_,rfl,⟨a,_,rfl,byteA,rfl⟩,_,_,rfl,⟨b,_,rfl,byteB,rfl⟩,_,_,rfl,
    ⟨c,_,rfl,byteC,rfl⟩,rfl⟩,byteD⟩,_,m,rfl,rfl,mask⟩ := found
  rename_i d
  have field : Digits 2 32 m := by
    rcases mask with mask | ⟨_,_,rfl,first,second⟩ | ⟨_,_,rfl,rfl,second⟩
    · obtain ⟨x,rfl,isDigit,value⟩ := range_digit (by decide) (by decide) mask
      exact (digits_one isDigit value).mono (by decide) (by decide)
    · obtain ⟨x,rfl,isDigit,value⟩ := range_digit (by decide) (by decide) first
      obtain ⟨y,rfl,isDigit',value'⟩ := range_digit (by decide) (by decide) second
      exact ((digits_one isDigit' value').cons isDigit value).mono (by decide) (by decide)
    · obtain ⟨y,rfl,isDigit,value⟩ := range_digit (by decide) (by decide) second
      exact ((digits_one isDigit value).cons (c := '3') (n := 3) (by decide) (by decide)).mono (by decide) (by decide)
  refine ⟨⟨a,b,c,d,m,⟨bytePattern_digits byteA,bytePattern_digits byteB,bytePattern_digits byteC,
    bytePattern_digits byteD⟩,field⟩,?_⟩
  simp [NetworkLiteral.text]

/-- The macro puts the four bytes side by side. -/
theorem ipv4_eq (a b c d : Nat) (ha : a ≤ 255) (hb : b ≤ 255) (hc : c ≤ 255) (hd : d ≤ 255) :
    ipv4 a b c d = .ofNat 32 (((a * 256 + b) * 256 + c) * 256 + d) := by
  have byte {n : Nat} (le : n ≤ 255) : BitVec.ofNat 32 n &&& 0xff#32 = .ofNat 32 n := by
    apply BitVec.eq_of_toNat_eq
    rw [BitVec.toNat_and,BitVec.toNat_ofNat,Nat.mod_eq_of_lt (by omega)]
    exact Nat.and_two_pow_sub_one_of_lt_two_pow (n := 8) (by omega)
  rw [ipv4,byte ha,byte hb,byte hc,byte hd]
  have shifted {n k : Nat} (le : n ≤ 255) (fits : k ≤ 24) : n % 2^32 * 2^k % 2^32 = 2^k * n := by
    have power : 2^k ≤ 2^24 := Nat.pow_le_pow_right (by decide) fits
    have product : n * 2^k ≤ 255 * 2^24 := Nat.mul_le_mul le power
    rw [Nat.mod_eq_of_lt (a := n) (by omega),Nat.mod_eq_of_lt (by omega),Nat.mul_comm]
  apply BitVec.eq_of_toNat_eq
  simp only [BitVec.toNat_or,BitVec.toNat_shiftLeft,BitVec.toNat_ofNat,Nat.shiftLeft_eq]
  rw [shifted ha (by decide),shifted hb (by decide),shifted hc (by decide),Nat.mod_eq_of_lt (a := d) (by omega)]
  -- the bytes do not overlap, so that each `or` is a sum
  have first : 2^24 * a ||| 2^16 * b = 2^16 * (2^8 * a + b) := by
    rw [← Nat.two_pow_add_eq_or_of_lt (by omega)]
    omega
  have second : 2^16 * (2^8 * a + b) ||| 2^8 * c = 2^8 * (2^16 * a + 2^8 * b + c) := by
    rw [← Nat.two_pow_add_eq_or_of_lt (by omega)]
    omega
  have third : 2^8 * (2^16 * a + 2^8 * b + c) ||| d = 2^8 * (2^16 * a + 2^8 * b + c) + d :=
    (Nat.two_pow_add_eq_or_of_lt (by omega) _).symm
  rw [first,second,third,Nat.mod_eq_of_lt (by omega)]
  omega

theorem scanNetwork_literal (literal : NetworkLiteral) :
    scanNetwork literal.text = some ⟨literal.address,.ofNat 32 literal.length⟩ := by
  obtain ⟨a,b,c,d,m,⟨byteA,byteB,byteC,byteD⟩,mask⟩ := literal
  have dot {text : List Char} (byte : Digits 3 255 text) (rest : List Char) :
      scanUnsigned 3 (text ++ '.' :: rest) = some (decimal text,'.' :: rest) := byte.scan fun c here => by cases here; rfl
  have slash : scanUnsigned 3 (d ++ '/' :: m) = some (decimal d,'/' :: m) := byteD.scan fun c here => by cases here; rfl
  have last : scanUnsigned 2 (m ++ []) = some (decimal m,[]) := mask.scan nofun
  rw [List.append_nil] at last
  simp only [NetworkLiteral.text,scanNetwork,scanIpv4,Option.bind_eq_bind,dot byteA,dot byteB,dot byteC,slash,last,
    scanChar,if_true,Option.bind_some,Option.pure_def]
  rw [ipv4_eq _ _ _ _ byteA.bound byteB.bound byteC.bound byteD.bound]
  rfl

/-! ## The rule that is taken -/

/-- flex takes one of the rules, for the longest text that it matches. -/
theorem chooseRule_mem {condition : StartCondition} {text : List Char} {n : Nat} {action : LexAction}
    (chosen : chooseRule condition text = some (n,action)) :
    ∃ rule ∈ lexRules, rule.action = action ∧ rule.pattern.longest text = some n := by
  revert chosen
  unfold chooseRule
  refine List.foldlRecOn (motive := fun best => best = some (n,action) →
    ∃ rule ∈ lexRules, rule.action = action ∧ rule.pattern.longest text = some n) _ _ nofun ?_
  intro best origin rule member chosen
  split at chosen
  · split at chosen
    · exact origin chosen
    · cases chosen
      exact ⟨rule,member,rfl,‹_›⟩
    · split at chosen
      · cases chosen
        exact ⟨rule,member,rfl,‹_›⟩
      · exact origin chosen
  · exact origin chosen

/-- Only the rule for networks makes a network. -/
theorem lexRules_network {rule : LexRule} (member : rule ∈ lexRules) {value : List Char → Token}
    (action : rule.action = .token value) {text : List Char} {network : Ipv4Network}
    (token : value text = .ipv4Network network) :
    rule.pattern = ipv4NetworkPattern ∧ scanNetwork text = some network := by
  simp only [lexRules,word,scanned,List.mem_cons,List.not_mem_nil] at member
  -- one goal for each rule; those of a constant token, or of none, go at once
  repeat' rcases member with rfl | member
  all_goals cases action
  all_goals try cases token
  · cases scans : scanIpv4 text <;> simp [scans] at token
  · cases scans : scanNetwork text with
    | none => simp [scans] at token
    | some found =>
      simp only [scans,Option.map_some,Option.getD_some,Token.ipv4Network.injEq] at token
      exact ⟨rfl,congrArg some token⟩
  · cases scans : scanMac text <;> simp [scans] at token

/-- The scanner makes a network out of a literal only, and the literal is what it takes. -/
theorem scan_network {files : List Char → Option (List Char)} {s s' : Scanner} {network : Ipv4Network}
    (scans : s.scan files = .token (.ipv4Network network) s') :
    ∃ (literal : NetworkLiteral) (rest : List Char) (buffers : List (List Char)),
      s.buffers = (literal.text ++ rest) :: buffers ∧ s'.buffers = rest :: buffers ∧
        network = ⟨literal.address,.ofNat 32 literal.length⟩ := by
  unfold Scanner.scan at scans
  split at scans
  · cases scans
  · cases scans
  · cases scans
  · rename_i text rest _ _ read
    split at scans
    · cases scans
    · rename_i n action chosen
      obtain ⟨rule,member,rfl,longest⟩ := chooseRule_mem chosen
      dsimp only at scans
      split at scans
      · cases scans
      · rename_i value token
        injection scans with same next
        subst next
        obtain ⟨pattern,scanned⟩ := lexRules_network member token same
        rw [pattern] at longest
        obtain ⟨literal,written⟩ := ipv4NetworkPattern_literal (Pattern.matches_of_longest _ _ _ longest)
        rw [← written,scanNetwork_literal literal] at scanned
        refine ⟨literal,text.drop n,rest,?_,rfl,(Option.some.inj scanned).symm⟩
        rw [read,written,List.take_append_drop]
      · cases scans
      · split at scans
        · cases scans
        · cases scans

/-! ## The mask -/

/-- The `n` most significant bits of two addresses are equal. -/
def SamePrefix (n : Nat) (x y : U32) : Prop := ∀ i < n, x.getMsbD i = y.getMsbD i

instance (n : Nat) (x y : U32) : Decidable (SamePrefix n x y) := inferInstanceAs (Decidable (∀ i < n, _))

theorem samePrefix_all (x y : U32) : SamePrefix 32 x y ↔ x = y := by
  constructor
  · intro same
    exact BitVec.eq_of_getMsbD_eq same
  · rintro rfl i _
    rfl

theorem networkMask_zero : networkMask 0#32 = BitVec.allOnes 32 := by decide

theorem networkMask_getMsbD {length : Nat} (positive : 0 < length) (le : length ≤ 32) (i : Nat) :
    (networkMask (.ofNat 32 length)).getMsbD i = decide (i < length) := by
  have count : (32 - BitVec.ofNat 32 length : U32).toNat % 32 = 32 - length := by
    rw [BitVec.toNat_sub,BitVec.toNat_ofNat,show (32 : U32).toNat = 32 from rfl]
    omega
  rw [networkMask,count,BitVec.getMsbD_shiftLeft,BitVec.getMsbD_not]
  by_cases lt : i < length
  · have inside : i + (32 - length) < 32 := by omega
    simp [lt,inside]
  · have outside : ¬i + (32 - length) < 32 := by omega
    simp [lt,outside]

/-- A mask of one bit or more compares a prefix; no bit at all compares the whole addresses. -/
theorem ipv4InNetwork_iff (ip address : U32) {length : Nat} (le : length ≤ 32) :
    ipv4InNetwork ip ⟨address,.ofNat 32 length⟩ = true ↔
      SamePrefix (if length = 0 then 32 else length) ip address := by
  rw [ipv4InNetwork,beq_iff_eq]
  dsimp only
  split
  · subst length
    rw [samePrefix_all,networkMask_zero,BitVec.and_allOnes,BitVec.and_allOnes]
  · rename_i positive
    constructor
    · intro same i lt
      have bits := congrArg (·.getMsbD i) same
      simpa [networkMask_getMsbD (Nat.pos_of_ne_zero positive) le,lt] using bits
    · intro same
      apply BitVec.eq_of_getMsbD_eq
      intro i _
      rw [BitVec.getMsbD_and,BitVec.getMsbD_and,networkMask_getMsbD (Nat.pos_of_ne_zero positive) le]
      by_cases lt : i < length
      · rw [same i lt]
      · simp [lt]

theorem ensures_condInNetwork {ok : (op : Op) → Ans op → Prop} (field : AddrField) (network : Ipv4Network) (w : Worker)
    (post : Int → Worker → Prop) : Ensures ok (condInNetwork field network) w post ↔
      post (ipv4InNetwork (rteBeToCpu32 (w.pkt.addr field)) network).toInt (w.logged .read) := by
  simp only [condInNetwork,load32,ensures_bind,ensures_readPkt,ensures_pure]
  rfl

/-- The condition of a literal tests for its prefix, and that of a `/0` for the address itself. -/
theorem scan_network_prefix (files : List Char → Option (List Char)) (s s' : Scanner) (network : Ipv4Network)
    (scans : s.scan files = .token (.ipv4Network network) s') :
    ∃ (literal : NetworkLiteral) (rest : List Char) (buffers : List (List Char)),
      s.buffers = (literal.text ++ rest) :: buffers ∧ s'.buffers = rest :: buffers ∧
      ∀ (ok : (op : Op) → Ans op → Prop) (field : AddrField) (w : Worker),
        Ensures ok (condInNetwork field network) w (fun ret _ =>
            ret ≠ 0 ↔ SamePrefix literal.length (rteBeToCpu32 (w.pkt.addr field)) literal.address) ↔
          literal.length ≠ 0 ∨ rteBeToCpu32 (w.pkt.addr field) = literal.address := by
  obtain ⟨literal,rest,buffers,here,next,rfl⟩ := scan_network scans
  refine ⟨literal,rest,buffers,here,next,fun ok field w => ?_⟩
  have nonzero : ∀ value : Bool, value.toInt ≠ 0 ↔ value = true := by decide
  have bound : literal.length ≤ 32 := literal.mask.bound
  rw [ensures_condInNetwork,nonzero,ipv4InNetwork_iff _ _ bound]
  by_cases zero : literal.length = 0
  · -- every address shares no bit with the literal's, and the code asks for all of them
    have trivially : SamePrefix literal.length (rteBeToCpu32 (w.pkt.addr field)) literal.address := by
      rw [zero]
      nofun
    simp only [zero,if_true,samePrefix_all] at trivially ⊢
    simp [trivially]
  · simp [zero]

theorem scan_network_prefix_privateNetwork :
    ∃ (literal : NetworkLiteral) (rest : List Char) (buffers : List (List Char)),
      ["10.1.2.3/8;".toList] = (literal.text ++ rest) :: buffers ∧ [[';']] = rest :: buffers ∧
      ∀ (ok : (op : Op) → Ans op → Prop) (field : AddrField) (w : Worker),
        Ensures ok (condInNetwork field ⟨0x0a010203,8⟩) w (fun ret _ =>
            ret ≠ 0 ↔ SamePrefix literal.length (rteBeToCpu32 (w.pkt.addr field)) literal.address) ↔
          literal.length ≠ 0 ∨ rteBeToCpu32 (w.pkt.addr field) = literal.address :=
  scan_network_prefix (fun _ => none) ⟨["10.1.2.3/8;".toList],.initial⟩ ⟨[[';']],.initial⟩ ⟨0x0a010203,8⟩ rfl

theorem digits_zero : Digits 2 0 ['0'] := (digits_one rfl le_rfl).mono (by decide) le_rfl

/-- The literal `0.0.0.0/0`. -/
def anyAddress : NetworkLiteral :=
  have zero := digits_zero.mono (by decide) (by decide)
  ⟨['0'],['0'],['0'],['0'],['0'],⟨zero,zero,zero,zero⟩,digits_zero.mono (by decide) (by decide)⟩

/-- The network of every address does not have 10.0.0.1 in it. -/
theorem anyAddress_rejects :
    ¬∀ (files : List Char → Option (List Char)) (s s' : Scanner) (network : Ipv4Network) (literal : NetworkLiteral)
      (rest : List Char) (buffers : List (List Char)), s.scan files = .token (.ipv4Network network) s' →
      s.buffers = (literal.text ++ rest) :: buffers → s'.buffers = rest :: buffers →
      ∀ (field : AddrField) (w : Worker), Ensures (fun _ _ => True) (condInNetwork field network) w fun ret _ =>
        ret ≠ 0 ↔ SamePrefix literal.length (rteBeToCpu32 (w.pkt.addr field)) literal.address := by
  intro claim
  have matched := claim (fun _ => none) ⟨[anyAddress.text],.initial⟩ ⟨[[]],.initial⟩ ⟨0,0⟩ anyAddress [] []
    rfl rfl rfl .src (.start bareDatagram (fun _ => ⟨[],by decide⟩) fun _ => 0)
  rw [ensures_condInNetwork] at matched
  exact absurd matched (by decide)

end Natasha
