import Natasha.Denotation
import Natasha.MacLiterals
import Natasha.NatDump

/-! The texts of a configuration. A token can be written in several ways, with spaces and comments
between words and parts of the text in files of their own; the tokens are what the scanner makes
of all of them. -/
namespace Natasha

open Regex

/-! ## Words -/

/-- The tokens of one character that is no part of a word. -/
def Token.sign : Token → Option Char
  | .semicolon => some ';'
  | .lbrace => some '\x7b'
  | .rbrace => some '\x7d'
  | .lparen => some '('
  | .rparen => some ')'
  | _ => none

def Token.keyword : Token → Option String
  | .configSection => some "config"
  | .rulesSection => some "rules"
  | .tokPort => some "port"
  | .tokIp => some "ip"
  | .tokMtu => some "mtu"
  | .tokVlan => some "vlan"
  | .tokNatRule => some "nat rule"
  | .tokNatRewrite => some "nat rewrite"
  | .tokIf => some "if"
  | .tokElse => some "else"
  | .tokAnd => some "and"
  | .tokOr => some "or"
  | .tokIn => some "in"
  | .tokOut => some "out"
  | .tokMac => some "mac"
  | .tokPrint => some "print"
  | .tokDrop => some "drop"
  | .natRewriteField .src => some "ipv4.src_addr"
  | .natRewriteField .dst => some "ipv4.dst_addr"
  | _ => none

/-- The four numbers side by side. -/
def dottedAddress (a b c d : List Char) : U32 :=
  .ofNat 32 (((decimal a * 256 + decimal b) * 256 + decimal c) * 256 + decimal d)

/-- A way to write a token. -/
inductive Written : Token → List Char → Prop
  | sign {c : Char} (spelt : token.sign = some c) : Written token [c]
  | keyword {word : String} (spelt : token.keyword = some word) : Written token word.toList
  | number {text : List Char} (nonempty : text ≠ []) (digits : ∀ c ∈ text, c.isDigit = true) :
      Written (.number (atoi text)) text
  | ipv4Address {a b c d : List Char} (first : Digits 3 255 a) (second : Digits 3 255 b) (third : Digits 3 255 c)
      (fourth : Digits 3 255 d) :
      Written (.ipv4Address (dottedAddress a b c d)) (a ++ '.' :: (b ++ '.' :: (c ++ '.' :: d)))
  | ipv4Network (literal : NetworkLiteral) (matched : ipv4NetworkPattern.Matches literal.text) :
      Written (.ipv4Network ⟨literal.address,.ofNat 32 literal.length⟩) literal.text
  | macAddress {text : List Char} (matched : macAddressPattern.Matches text) (hex : AllHex (macChars text)) :
      Written (.macAddress (macValue text)) text

/-- The characters that end a word. -/
def delimiters : List Char := [' ','\t','\n','#',';','\x7b','\x7d','(',')']

/-- What holds of the members of a list is decided on them, not on every character. -/
local instance decidableAllChars (text : List Char) (p : Char → Prop) [DecidablePred p] :
    Decidable (∀ c ∈ text, p c) :=
  List.decidableBAll p text

local instance decidableHeadChar (head : Option Char) (p : Char → Prop) [DecidablePred p] :
    Decidable (∀ c ∈ head, p c) :=
  Option.decidableForallMem head

/-! ## The rule that matches the whole -/

section Whole

variable {condition : StartCondition} {text : List Char}

/-- Of the rules that match the whole text, the first one is taken. -/
theorem chooseRule_whole {rule : LexRule} (n : Nat) (here : lexRules[n]? = some rule)
    (applies : rule.condition = .any ∨ rule.condition = condition) (matched : rule.pattern.Matches text)
    (first : ∀ other ∈ lexRules.take n, (other.condition = .any ∨ other.condition = condition) →
      ¬other.pattern.Matches text) :
    chooseRule condition text = some (text.length,rule.action) := by
  have rules : lexRules = lexRules.take n ++ rule :: lexRules.drop (n+1) := by
    obtain ⟨inside,same⟩ := List.getElem?_eq_some_iff.mp here
    rw [← same,List.cons_getElem_drop_succ,List.take_append_drop]
  generalize lexRules.take n = before at rules first
  generalize lexRules.drop (n+1) = after at rules
  have longest : rule.pattern.longest text = some text.length := by
    obtain ⟨n,longest,long⟩ := Pattern.longest_of_matches matched []
    rw [List.append_nil] at longest
    rw [longest,Nat.le_antisymm (Pattern.longest_le _ _ _ longest) long]
  have shorter : Shorter condition text text.length before := by
    intro other member applies m found
    refine lt_of_le_of_ne (Pattern.longest_le _ _ _ found) ?_
    rintro rfl
    exact first other member applies (by simpa using Pattern.matches_of_longest _ _ _ found)
  have taken : takeRule condition text (before.foldl (takeRule condition text) none) rule =
      some (text.length,rule.action) := by
    have less : ∀ m action, before.foldl (takeRule condition text) none = some (m,action) → m < text.length :=
      shorter.best fun _ _ same => by cases same
    generalize before.foldl (takeRule condition text) none = chosen at less
    unfold takeRule
    rw [if_pos applies,longest]
    cases chosen with
    | none => rfl
    | some best => exact if_pos (less best.1 best.2 rfl)
  have kept (others : List LexRule) : others.foldl (takeRule condition text) (some (text.length,rule.action)) =
      some (text.length,rule.action) := by
    induction others with
    | nil => rfl
    | cons other others ih =>
      have same : takeRule condition text (some (text.length,rule.action)) other = some (text.length,rule.action) := by
        unfold takeRule
        split
        · cases found : other.pattern.longest text with
          | none => rfl
          | some m => exact if_neg (Nat.not_lt.mpr (Pattern.longest_le _ _ _ found))
        · rfl
      rw [List.foldl_cons,same,ih]
  rw [chooseRule_eq,rules,List.foldl_append,List.foldl_cons,taken,kept]

/-- No rule matches past the text. -/
def Firm (condition : StartCondition) (text rest : List Char) : Prop :=
  ∀ rule ∈ lexRules, (rule.condition = .any ∨ rule.condition = condition) →
    ∀ c more, c ∈ rest.head? → ¬rule.pattern.Matches (text ++ c :: more)

theorem Firm.chooseRule (firm : Firm condition text rest) :
    Natasha.chooseRule condition (text ++ rest) = Natasha.chooseRule condition text := by
  rw [chooseRule_eq,chooseRule_eq]
  refine List.foldl_ext _ _ none fun best rule member => ?_
  unfold takeRule
  split
  · rw [Pattern.longest_append text rest (firm rule member ‹_›)]
  · rfl

end Whole

/-! ## Where words end -/

/-- The words are those texts without a space, a comment or a directive at their beginning, but
`nat` alone goes on after a space. -/
structure Solid (text : List Char) : Prop where
  begins : ∃ c more, text = c :: more ∧ c ∉ [' ','\t','\n','#','!']
  notNat : text ≠ ['n','a','t']

/-- No delimiter is inside of a word other than `nat rule` and `nat rewrite`. -/
theorem lexRules_delimiters {rule : LexRule} (member : rule ∈ lexRules) :
    (delimiters.all rule.pattern.avoids = true ∨ ∃ c : Char, rule.pattern = .literal [c]) ∨
      rule.pattern = .set (fun _ => true) ∨ rule.condition = .includeCtx ∨
      (∀ c, rule.pattern.begins c = true → c ∈ [' ','\t','\n','#','!']) ∨
      rule.pattern = .literal "nat rule".toList ∨ rule.pattern = .literal "nat rewrite".toList := by
  simp only [lexRules,word,scanned,List.mem_cons,List.not_mem_nil] at member
  repeat' rcases member with rfl | member
  all_goals first
    | exact .inl (.inl (by decide))
    | exact .inl (.inr ⟨_,rfl⟩)
    | exact .inr (.inl rfl)
    | exact .inr (.inr (.inl rfl))
    | exact .inr (.inr (.inr (.inr (.inl rfl))))
    | exact .inr (.inr (.inr (.inr (.inr rfl))))
    | refine .inr (.inr (.inr (.inl fun c begun => ?_)))
      simp [Pattern.begins,Pattern.literal,Pattern.nullable,isSpace,isBlank,or_assoc] at begun ⊢
      tauto

/-- The part in front of the space of `nat rule` is `nat`. -/
theorem literal_split {cs text more : List Char} {c : Char} (split : text ++ c :: more = cs) (ends : c ∈ delimiters)
    (plain : (List.range cs.length).all fun k => !(delimiters.contains (cs.getD k 'x')) || cs.take k == ['n','a','t']) :
    text = ['n','a','t'] := by
  subst split
  have here := List.all_eq_true.mp plain text.length (by simp)
  simpa [ends] using here

theorem Solid.firm {text rest : List Char} (solid : Solid text) (ends : ∀ c ∈ rest.head?, c ∈ delimiters) :
    Firm .initial text rest := by
  intro rule member applies c more here found
  have delimiter := ends c here
  obtain ⟨⟨first,others,rfl,inside⟩,notNat⟩ := solid
  rcases lexRules_delimiters member with (avoids | ⟨d,one⟩) | one | condition | special | nat | nat
  · exact Pattern.not_mem_of_avoids c found (List.all_eq_true.mp avoids c delimiter) (by simp)
  · rw [one,Pattern.matches_literal] at found
    simp at found
  · rw [one,Pattern.matches_set] at found
    simp at found
  · rw [condition] at applies
    rcases applies with other | other <;> cases other
  · exact inside (special first (Pattern.begins_of_matches found))
  · rw [nat,Pattern.matches_literal] at found
    exact notNat (literal_split found delimiter (by decide))
  · rw [nat,Pattern.matches_literal] at found
    exact notNat (literal_split found delimiter (by decide))

/-- A sign is a token whatever follows it. -/
theorem firm_sign {c : Char} (sign : c ∈ [';','\x7b','\x7d','(',')']) (rest : List Char) : Firm .initial [c] rest := by
  have alone {rule : LexRule} (member : rule ∈ lexRules) : rule.pattern.begins c = false ∨
      (∃ d, rule.pattern = .literal [d]) ∨ rule.pattern = .set (fun _ => true) ∨ rule.condition = .includeCtx := by
    simp only [List.mem_cons,List.not_mem_nil,or_false] at sign
    simp only [lexRules,word,scanned,List.mem_cons,List.not_mem_nil] at member
    repeat' rcases member with rfl | member
    all_goals first
      | exact .inr (.inl ⟨_,rfl⟩)
      | exact .inr (.inr (.inl rfl))
      | exact .inr (.inr (.inr rfl))
      | (rcases sign with rfl | rfl | rfl | rfl | rfl <;> exact .inl (by decide))
  intro rule member applies d more _ found
  rcases alone member with other | ⟨e,one⟩ | one | condition
  · rw [Pattern.begins_of_matches found] at other
    cases other
  · rw [one,Pattern.matches_literal] at found
    simp at found
  · rw [one,Pattern.matches_set] at found
    simp at found
  · rw [condition] at applies
    rcases applies with other | other <;> cases other

/-! ## Numbers in words -/

theorem isDigit_iff (c : Char) : c.isDigit = true ↔ 48 ≤ c.toNat ∧ c.toNat ≤ 57 := by
  simp only [Char.isDigit,Bool.and_eq_true,decide_eq_true_eq,ge_iff_le,UInt32.le_iff_toNat_le]
  rfl

theorem range_matches {low high c : Char} (least : low.toNat ≤ c.toNat) (most : c.toNat ≤ high.toNat) :
    (range low high).Matches [c] := by
  refine .set ?_
  rw [Bool.and_eq_true,decide_eq_true_eq,decide_eq_true_eq,Char.le_def,Char.le_def,UInt32.le_iff_toNat_le,
    UInt32.le_iff_toNat_le]
  exact ⟨least,most⟩

theorem digit_matches {c : Char} (isDigit : c.isDigit = true) : digit.Matches [c] := by
  obtain ⟨least,most⟩ := (isDigit_iff c).mp isDigit
  exact range_matches least most

/-- Every byte is a byte of the scanner. -/
theorem bytePattern_matches {text : List Char} (field : Digits 3 255 text) : bytePattern.Matches text := by
  obtain ⟨nonempty,digits,short,bound⟩ := field
  simp only [bytePattern,Pattern.matches_alt,Pattern.matches_seq,Pattern.matches_opt,Pattern.matches_literal]
  rcases text with _ | ⟨x,_ | ⟨y,_ | ⟨z,_ | ⟨_,_⟩⟩⟩⟩
  · exact absurd rfl nonempty
  · exact .inl ⟨[],[x],rfl,.inr rfl,[],[x],rfl,.inr rfl,digit_matches (digits x (by simp))⟩
  · exact .inl ⟨[],[x,y],rfl,.inr rfl,[x],[y],rfl,.inl (digit_matches (digits x (by simp))),
      digit_matches (digits y (by simp))⟩
  · have hx := (isDigit_iff x).mp (digits x (by simp))
    have hy := (isDigit_iff y).mp (digits y (by simp))
    have hz := (isDigit_iff z).mp (digits z (by simp))
    have value : 10 * (10 * (x.toNat - 48) + (y.toNat - 48)) + (z.toNat - 48) ≤ 255 := by
      simpa [decimal,digitValue] using bound
    by_cases one : x.toNat ≤ 49
    · exact .inl ⟨[x],[y,z],rfl,.inl (range_matches hx.1 one),[y],[z],rfl,
        .inl (range_matches hy.1 hy.2),range_matches hz.1 hz.2⟩
    · obtain rfl : x = '2' := Char.toNat_inj.mp (show x.toNat = 50 by omega)
      by_cases four : y.toNat ≤ 52
      · exact .inr (.inl ⟨['2'],[y,z],rfl,rfl,[y],[z],rfl,range_matches hy.1 four,range_matches hz.1 hz.2⟩)
      · obtain rfl : y = '5' := Char.toNat_inj.mp (show y.toNat = 53 by omega)
        exact .inr (.inr ⟨['2','5'],[z],rfl,rfl,range_matches hz.1 (show z.toNat ≤ 53 by omega)⟩)
  · simp only [List.length_cons] at short
    omega

theorem ipv4AddressPattern_matches {a b c d : List Char} (first : Digits 3 255 a) (second : Digits 3 255 b)
    (third : Digits 3 255 c) (fourth : Digits 3 255 d) :
    ipv4AddressPattern.Matches (a ++ '.' :: (b ++ '.' :: (c ++ '.' :: d))) := by
  have dot {text : List Char} (field : Digits 3 255 text) : (Pattern.seq bytePattern (.literal ['.'])).Matches (text ++ ['.']) :=
    .seq (bytePattern_matches field) ((Pattern.matches_literal _).mpr rfl)
  have whole : ipv4AddressPattern.Matches (((a ++ ['.']) ++ ((b ++ ['.']) ++ ((c ++ ['.']) ++ []))) ++ d) :=
    .seq (.seq (dot first) (.seq (dot second) (.seq (dot third) .blank))) (bytePattern_matches fourth)
  rwa [List.append_nil,List.append_assoc,List.append_assoc,List.append_assoc,List.append_assoc,
    List.append_assoc] at whole

/-! ## Tokens -/

theorem comment_of_begins {rule : LexRule} (member : rule ∈ lexRules.take 12) (hash : rule.pattern.begins '#' = true) :
    rule.pattern = .seq (.literal ['#']) (.star (.set notNewline)) := by
  simp only [lexRules,word,scanned,List.take_succ_cons,List.take_zero,List.mem_cons,List.not_mem_nil,or_false] at member
  repeat' rcases member with rfl | member
  all_goals first
    | rfl
    | exact absurd hash (by decide)

section Literals

variable {text : List Char}

/-- The first rules do not match a text with a character that they do not get past. -/
theorem no_match_before {n : Nat} {c : Char}
    (passed : ∀ rule ∈ lexRules.take n, rule.pattern.avoids c = true ∨ rule.pattern.begins '#' = true) (few : n ≤ 12)
    (inside : c ∈ text) (head : '#' ∉ text.head?) (rule : LexRule) (member : rule ∈ lexRules.take n) :
    ¬rule.pattern.Matches text := by
  intro found
  rcases passed rule member with avoids | hash
  · exact Pattern.not_mem_of_avoids c found avoids inside
  · have early := List.take_subset_take_left lexRules few member
    rw [comment_of_begins early hash,Pattern.matches_seq] at found
    obtain ⟨first,second,rfl,literal,_⟩ := found
    rw [(Pattern.matches_literal _).mp literal] at head
    exact head rfl

theorem digits_matches (nonempty : text ≠ []) (digits : ∀ c ∈ text, c.isDigit = true) : digit.plus.Matches text := by
  obtain ⟨c,more,rfl⟩ := List.exists_cons_of_ne_nil nonempty
  obtain ⟨first,others⟩ := List.forall_mem_cons.mp digits
  refine .seq (digit_matches first) (Pattern.star_set_matches fun d member => ?_)
  obtain ⟨d,same,accepted⟩ := Pattern.matches_set.mp (digit_matches (others d member))
  cases same
  exact accepted

theorem chooseRule_number (nonempty : text ≠ []) (digits : ∀ c ∈ text, c.isDigit = true) :
    chooseRule .initial text = some (text.length,.token fun text => .number (atoi text)) := by
  obtain ⟨c,more,rfl⟩ := List.exists_cons_of_ne_nil nonempty
  have first := digits c List.mem_cons_self
  have written : c ∈ "0123456789".toList := by
    obtain ⟨least,most⟩ := (isDigit_iff c).mp first
    rw [← Char.ofNat_toNat c]
    generalize c.toNat = n at least most
    interval_cases n <;> decide
  have passed : ∀ d ∈ "0123456789".toList, ∀ rule ∈ lexRules.take 9,
      rule.pattern.avoids d = true ∨ rule.pattern.begins '#' = true := by decide
  refine chooseRule_whole 9 rfl (.inr rfl)
    (digits_matches nonempty digits)
    (fun rule member _ => no_match_before (passed c written) (by decide) List.mem_cons_self ?_ rule member)
  rintro ⟨rfl⟩
  cases first

end Literals

section Addresses

variable {a b c d : List Char} (first : Digits 3 255 a) (second : Digits 3 255 b) (third : Digits 3 255 c)
  (fourth : Digits 3 255 d)

include first second third fourth

theorem scanIpv4_dotted : scanIpv4 (a ++ '.' :: (b ++ '.' :: (c ++ '.' :: d))) = some (dottedAddress a b c d,[]) := by
  have dot {text : List Char} (byte : Digits 3 255 text) (rest : List Char) :
      scanUnsigned 3 (text ++ '.' :: rest) = some (decimal text,'.' :: rest) := byte.scan fun c here => by cases here; rfl
  have last : scanUnsigned 3 (d ++ []) = some (decimal d,[]) := fourth.scan nofun
  rw [List.append_nil] at last
  simp only [scanIpv4,Option.bind_eq_bind,dot first,dot second,dot third,last,scanChar,if_true,Option.bind_some,
    Option.pure_def]
  rw [ipv4_eq _ _ _ _ first.bound second.bound third.bound fourth.bound]
  rfl

end Addresses

/-- A text that begins with a digit is no comment. -/
theorem Digits.noComment {text rest : List Char} (field : Digits width most text) : '#' ∉ (text ++ rest).head? := by
  obtain ⟨c,more,rfl⟩ := List.exists_cons_of_ne_nil field.nonempty
  rintro ⟨rfl⟩
  exact absurd (field.digits '#' List.mem_cons_self) (by decide)

/-- A written token is taken as a whole. -/
theorem Written.chooses {text : List Char} (written : Written token text) :
    ∃ value, chooseRule .initial text = some (text.length,.token value) ∧ value text = token := by
  cases written with
  | sign spelt => cases token <;> cases spelt <;> exact ⟨_,rfl,rfl⟩
  | keyword spelt =>
    cases token with
    | natRewriteField field => cases field <;> cases spelt <;> exact ⟨_,rfl,rfl⟩
    | _ => cases spelt <;> exact ⟨_,rfl,rfl⟩
  | number nonempty digits => exact ⟨_,chooseRule_number nonempty digits,rfl⟩
  | @ipv4Address a b c d first second third fourth =>
    refine ⟨_,chooseRule_whole 10 rfl (.inr rfl)
      (ipv4AddressPattern_matches first second third fourth)
      (fun rule member _ => no_match_before (c := '.') (by decide) (by decide) (by simp) first.noComment rule member),?_⟩
    dsimp only
    rw [scanIpv4_dotted first second third fourth]
    rfl
  | ipv4Network literal matched =>
    refine ⟨_,chooseRule_whole 11 rfl (.inr rfl) matched
      (fun rule member _ => no_match_before (c := '/') (by decide) (by decide) (by simp)
        literal.bytes.1.noComment rule member),?_⟩
    dsimp only
    rw [scanNetwork_literal literal]
    rfl
  | macAddress matched hex =>
    have literal := macAddressPattern_text matched
    have colon : ':' ∈ text := by
      cases literal
      simp
    have head : '#' ∉ text.head? := fun here =>
      Pattern.not_mem_of_avoids '#' matched (by decide) (List.mem_of_mem_head? here)
    refine ⟨_,chooseRule_whole 12 rfl (.inr rfl) matched
      (fun rule member _ => no_match_before (c := ':') (by decide) (by decide) colon head rule member),?_⟩
    dsimp only
    rw [scanMac_exact literal hex]
    rfl

theorem Solid.of_matches {p : Pattern Char} {text : List Char} (matched : p.Matches text)
    (avoids : [' ','\t','\n','#','!'].all p.avoids = true) (empty : p.nullable = false) (notNat : text ≠ ['n','a','t']) :
    Solid text := by
  refine ⟨?_,notNat⟩
  cases text with
  | nil =>
    rw [Pattern.nullable_of_matches matched] at empty
    cases empty
  | cons c more =>
    refine ⟨c,more,rfl,fun special => ?_⟩
    exact Pattern.not_mem_of_avoids c matched (List.all_eq_true.mp avoids c special) List.mem_cons_self

theorem Written.solid {text : List Char} (written : Written token text) (noSign : token.sign = none) : Solid text := by
  have notNat {p : Pattern Char} {text : List Char} (matched : p.Matches text) (avoids : p.avoids 'n' = true) :
      text ≠ ['n','a','t'] := by
    rintro rfl
    exact Pattern.not_mem_of_avoids 'n' matched avoids List.mem_cons_self
  cases written with
  | sign spelt =>
    rw [noSign] at spelt
    cases spelt
  | keyword spelt =>
    cases token with
    | natRewriteField field => cases field <;> cases spelt <;> exact ⟨⟨_,_,rfl,by decide⟩,by decide⟩
    | _ => cases spelt <;> exact ⟨⟨_,_,rfl,by decide⟩,by decide⟩
  | @number text nonempty digits =>
    have matched := digits_matches nonempty digits
    exact .of_matches matched (by decide) (by decide) (notNat matched (by decide))
  | ipv4Address first second third fourth =>
    have matched := ipv4AddressPattern_matches first second third fourth
    exact .of_matches matched (by decide) (by decide) (notNat matched (by decide))
  | ipv4Network literal matched => exact .of_matches matched (by decide) (by decide) (notNat matched (by decide))
  | macAddress matched hex =>
    refine .of_matches matched (by decide) (by decide) ?_
    rintro rfl
    cases macAddressPattern_text matched

/-! ## A word for every token -/

def hexChar (n : Nat) : Char := "0123456789abcdef".toList.getD n '0'

def formatHex (byte : Byte) : List Char := [hexChar (byte.toNat / 16),hexChar (byte.toNat % 16)]

def formatMac (mac : Mac) : List Char :=
  formatHex (mac 0) ++ ':' :: (formatHex (mac 1) ++ ':' :: (formatHex (mac 2) ++ ':' :: (formatHex (mac 3) ++
    ':' :: (formatHex (mac 4) ++ ':' :: formatHex (mac 5)))))

/-- One of the ways to write a token. -/
def Token.print : Token → List Char
  | .number n => formatInt n.toNat
  | .ipv4Address ip => formatIpv4 ip
  | .ipv4Network network => formatIpv4 network.ip ++ '/' :: formatInt network.mask.toNat
  | .macAddress mac => formatMac mac
  | token => (token.sign.map ([·])).getD ((token.keyword.map String.toList).getD [])

/-- The values that can be written. -/
def Token.Printable : Token → Prop
  | .oops => False
  | .number n => FitsIn 31 n
  | .ipv4Network network => network.mask.toNat ≤ 32
  | _ => True

theorem decimal_formatInt (n : Nat) : decimal (formatInt n) = n := by
  induction n using Nat.strongRecOn with
  | ind n ih =>
    have digit : ∀ d < 10, digitValue (Nat.digitChar d) = d := by decide
    unfold formatInt at ih ⊢
    by_cases small : n < 10
    · rw [Nat.toDigits_of_lt_base small]
      simpa [decimal] using digit n small
    · have shorter := ih (n / 10) (by omega)
      rw [decimal] at shorter
      rw [Nat.toDigits_of_base_le (by decide) (by omega),decimal,List.foldl_append,shorter,List.foldl_cons,
        List.foldl_nil,digit _ (Nat.mod_lt n (by decide))]
      omega

theorem print_number {n : Int} (fits : FitsIn 31 n) : Written (.number n) (formatInt n.toNat) := by
  have written : Written (.number (atoi (formatInt n.toNat))) (formatInt n.toNat) :=
    .number Nat.toDigits_ne_nil fun c member => Nat.isDigit_of_mem_toDigits (by decide) (by decide) member
  rwa [atoi_decimal,decimal_formatInt,Int.toNat_of_nonneg fits.1,atoiValue_eq.mpr fits] at written

/-- The bytes of an address and the address that they spell. -/
theorem formatIpv4_fields (ip : U32) : ∃ a b c d : List Char, formatIpv4 ip = a ++ '.' :: (b ++ '.' :: (c ++ '.' :: d)) ∧
    Digits 3 255 a ∧ Digits 3 255 b ∧ Digits 3 255 c ∧ Digits 3 255 d ∧ dottedAddress a b c d = ip := by
  have byte (k : Nat) : ((ip >>> k) &&& 0xff#32).toNat = ip.toNat / 2^k % 256 := by
    rw [BitVec.toNat_and,BitVec.toNat_ushiftRight,Nat.shiftRight_eq_div_pow]
    exact Nat.and_two_pow_sub_one_eq_mod (ip.toNat / 2^k) 8
  have low : (ip &&& 0xff#32).toNat = ip.toNat % 256 := by
    rw [BitVec.toNat_and]
    exact Nat.and_two_pow_sub_one_eq_mod ip.toNat 8
  have field (n : Nat) : Digits 3 255 (formatInt (n % 256)) := (formatInt_digits (n % 256) (by omega)).1
  refine ⟨formatInt (ip.toNat / 2^24 % 256),formatInt (ip.toNat / 2^16 % 256),formatInt (ip.toNat / 2^8 % 256),
    formatInt (ip.toNat % 256),?_,field _,field _,field _,field _,?_⟩
  · rw [formatIpv4,byte,byte,byte,low]
  · have bound := ip.isLt
    apply BitVec.eq_of_toNat_eq
    rw [dottedAddress,decimal_formatInt,decimal_formatInt,decimal_formatInt,decimal_formatInt,BitVec.toNat_ofNat]
    omega

theorem print_ipv4Network {network : Ipv4Network} (fits : network.mask.toNat ≤ 32) :
    Written (.ipv4Network network) (formatIpv4 network.ip ++ '/' :: formatInt network.mask.toNat) := by
  have lengths : ∀ n ≤ 32, (formatInt n).length ≤ 2 ∧
      (Pattern.alt digit (.alt (.seq (range '1' '2') digit) (.seq (.literal ['3']) (range '0' '2')))).longest (formatInt n) =
        some (formatInt n).length := by decide +kernel
  obtain ⟨short,longest⟩ := lengths _ fits
  obtain ⟨a,b,c,d,spelt,first,second,third,fourth,value⟩ := formatIpv4_fields network.ip
  have mask : Digits 2 32 (formatInt network.mask.toNat) :=
    ⟨Nat.toDigits_ne_nil,fun c member => Nat.isDigit_of_mem_toDigits (by decide) (by decide) member,short,
      (decimal_formatInt _).trans_le fits⟩
  have matched : ipv4NetworkPattern.Matches ((a ++ '.' :: (b ++ '.' :: (c ++ '.' :: d))) ++
      (['/'] ++ formatInt network.mask.toNat)) := by
    refine .seq (ipv4AddressPattern_matches first second third fourth) (.seq ((Pattern.matches_literal _).mpr rfl) ?_)
    simpa using Pattern.matches_of_longest _ _ _ longest
  let literal : NetworkLiteral := ⟨a,b,c,d,formatInt network.mask.toNat,⟨first,second,third,fourth⟩,mask⟩
  have text : literal.text = formatIpv4 network.ip ++ '/' :: formatInt network.mask.toNat := by
    simp [literal,NetworkLiteral.text,spelt]
  have written := Written.ipv4Network literal (by simpa [literal,NetworkLiteral.text] using matched)
  have same : (⟨literal.address,.ofNat 32 literal.length⟩ : Ipv4Network) = network := by
    have length : literal.length = network.mask.toNat := decimal_formatInt _
    rw [length,BitVec.ofNat_toNat,BitVec.setWidth_eq]
    exact congrArg (Ipv4Network.mk · network.mask) value
  rwa [same,text] at written

theorem print_macAddress (mac : Mac) : Written (.macAddress mac) (formatMac mac) := by
  have chars : ∀ n < 16, (hexChar n ≠ ':' ∧ hexChar n ≠ '#' ∧ hexChar n ≠ 'X') ∧
      (Pattern.alt digit (range 'a' 'z')).longest [hexChar n] = some 1 := by decide
  have pairs : ∀ h < 16, ∀ l < 16, hexPair (hexChar h) (hexChar l) = some (16*h + l) := by decide +kernel
  have high (byte : Byte) : byte.toNat / 16 < 16 := by have := byte.isLt; omega
  have low (byte : Byte) : byte.toNat % 16 < 16 := Nat.mod_lt _ (by decide)
  have char {n : Nat} (small : n < 16) : MacChar (hexChar n) :=
    ⟨(chars n small).1.1,(chars n small).1.2.1,(chars n small).1.2.2⟩
  have one {n : Nat} (small : n < 16) : (Pattern.alt digit (range 'a' 'z')).Matches [hexChar n] := by
    simpa using Pattern.matches_of_longest _ _ _ (chars n small).2
  have pair (byte : Byte) : macDigits.Matches (formatHex byte) := .seq (one (high byte)) (.seq (one (low byte)) .blank)
  have value (byte : Byte) : hexPair (hexChar (byte.toNat / 16)) (hexChar (byte.toNat % 16)) = some byte.toNat := by
    rw [pairs _ (high byte) _ (low byte),Nat.div_add_mod]
  have colon (byte : Byte) : (Pattern.seq macDigits (.literal [':'])).Matches (formatHex byte ++ [':']) :=
    .seq (pair byte) ((Pattern.matches_literal _).mpr rfl)
  have matched : macAddressPattern.Matches ((formatHex (mac 0) ++ [':']) ++ ((formatHex (mac 1) ++ [':']) ++
      ((formatHex (mac 2) ++ [':']) ++ ((formatHex (mac 3) ++ [':']) ++ ((formatHex (mac 4) ++ [':']) ++ [])))) ++
        formatHex (mac 5)) :=
    .seq (.seq (colon (mac 0)) (.seq (colon (mac 1)) (.seq (colon (mac 2)) (.seq (colon (mac 3))
      (.seq (colon (mac 4)) .blank))))) (pair (mac 5))
  let h (i : Fin 6) : Char := hexChar ((mac i).toNat / 16)
  let l (i : Fin 6) : Char := hexChar ((mac i).toNat % 16)
  have digits : macChars (formatMac mac) = [h 0,l 0,h 1,l 1,h 2,l 2,h 3,l 3,h 4,l 4,h 5,l 5] :=
    macChars_literal (by simp [char,high,low])
  have hex : AllHex (macChars (formatMac mac)) := by
    have two (i : Fin 6) : (hexValue (h i)).isSome ∧ (hexValue (l i)).isSome :=
      (hexPair_isSome _ _).mp (by rw [value]; rfl)
    rw [digits]
    simp [AllHex,two]
  have same : macValue (formatMac mac) = mac := by
    funext i
    rw [macValue,digits]
    fin_cases i <;> simp [h,l,value]
  have written : Written (.macAddress (macValue (formatMac mac))) (formatMac mac) := .macAddress matched hex
  rwa [same] at written

theorem print_written (token : Token) (printable : token.Printable) : Written token token.print := by
  cases token with
  | oops => exact printable.elim
  | number n => exact print_number printable
  | ipv4Address ip =>
    obtain ⟨a,b,c,d,spelt,first,second,third,fourth,value⟩ := formatIpv4_fields ip
    rw [Token.print,spelt,← value]
    exact .ipv4Address first second third fourth
  | ipv4Network network => exact print_ipv4Network printable
  | macAddress mac => exact print_macAddress mac
  | natRewriteField field => cases field <;> exact .keyword rfl
  | _ => first | exact .sign rfl | exact .keyword rfl

/-! ## Between the words -/

/-- Only the rule for spaces matches more than one character behind a space. -/
theorem lexRules_space {rule : LexRule} (member : rule ∈ lexRules) :
    rule.pattern = .star (.set isSpace) ∨ rule.pattern = .set (fun _ => true) ∨
      ∀ c, isSpace c = true → rule.pattern.begins c = false := by
  have three {p : Pattern Char} (none : [' ','\t','\n'].all (fun c => !p.begins c) = true) (c : Char)
      (space : isSpace c = true) : p.begins c = false := by
    have member : c ∈ [' ','\t','\n'] := by simpa [isSpace,isBlank,or_assoc] using space
    simpa using List.all_eq_true.mp none c member
  simp only [lexRules,word,scanned,List.mem_cons,List.not_mem_nil] at member
  repeat' rcases member with rfl | member
  all_goals first
    | exact .inl rfl
    | exact .inr (.inl rfl)
    | exact .inr (.inr (three (by decide)))

section Between

variable {condition : StartCondition} {text rest : List Char}

theorem chooseRule_spaces (nonempty : text ≠ []) (spaces : ∀ c ∈ text, isSpace c = true)
    (ends : ∀ c ∈ rest.head?, isSpace c = false) :
    chooseRule condition (text ++ rest) = some (text.length,.ignore) := by
  have firm : Firm condition text rest := by
    intro rule member applies c more here found
    obtain ⟨d,others,rfl⟩ := List.exists_cons_of_ne_nil nonempty
    rcases lexRules_space member with run | one | other
    · rw [run] at found
      exact Pattern.not_mem_of_avoids c found (by simp [Pattern.avoids,ends c here]) (by simp)
    · rw [one,Pattern.matches_set] at found
      simp at found
    · have begun := Pattern.begins_of_matches found
      rw [other d (spaces d List.mem_cons_self)] at begun
      cases begun
  rw [firm.chooseRule]
  have none : lexRules.take 0 = [] := rfl
  exact chooseRule_whole 0 rfl (.inl rfl) (Pattern.star_set_matches spaces) (by simp [none])

theorem chooseRule_comment {line : List Char} (noNewline : ∀ c ∈ line, c ≠ '\n') (ends : ∀ c ∈ rest.head?, c = '\n') :
    chooseRule .initial ('#' :: line ++ rest) = some (('#' :: line).length,.ignore) := by
  have hash : (Pattern.literal ['#']).Matches ['#'] := (Pattern.matches_literal _).mpr rfl
  have mark {rule : LexRule} (member : rule ∈ lexRules) : rule.pattern.avoids '\n' = true ∨
      rule.pattern = .set (fun _ => true) ∨ rule.pattern.begins '#' = false := by
    simp only [lexRules,word,scanned,List.mem_cons,List.not_mem_nil] at member
    repeat' rcases member with rfl | member
    all_goals first
      | exact .inl (by decide)
      | exact .inr (.inl rfl)
      | exact .inr (.inr (by decide))
  have firm : Firm .initial ('#' :: line) rest := by
    intro rule member applies c more here found
    obtain rfl := ends c here
    rcases mark member with avoids | one | other
    · exact Pattern.not_mem_of_avoids _ found avoids (by simp)
    · rw [one,Pattern.matches_set] at found
      simp at found
    · rw [Pattern.begins_of_matches found] at other
      cases other
  rw [firm.chooseRule]
  refine chooseRule_whole 1 rfl (.inl rfl)
    (.seq (hash : (Pattern.literal ['#']).Matches ['#']) (Pattern.star_set_matches ?_)) ?_
  · exact fun c member => by simpa [notNewline] using noNewline c member
  · intro other member _ found
    obtain rfl := List.mem_singleton.mp member
    have begun := Pattern.begins_of_matches found
    cases begun

theorem chooseRule_beginInclude {blank : Char} (isBlank : isBlank blank = true) (rest : List Char) :
    chooseRule .initial (("!include".toList ++ [blank]) ++ rest) = some (9,.beginInclude) := by
  have mark {rule : LexRule} (member : rule ∈ lexRules) : rule.condition = .includeCtx ∨
      rule.pattern = .seq (.literal "!include".toList) (.set Natasha.isBlank) ∨
        rule.pattern = .set (fun _ => true) ∨ rule.pattern.begins '!' = false := by
    simp only [lexRules,word,scanned,List.mem_cons,List.not_mem_nil] at member
    repeat' rcases member with rfl | member
    all_goals first
      | exact .inl rfl
      | exact .inr (.inl rfl)
      | exact .inr (.inr (.inl rfl))
      | exact .inr (.inr (.inr (by decide)))
  have firm : Firm .initial ("!include".toList ++ [blank]) rest := by
    intro rule member applies c more here found
    rcases mark member with condition | directive | one | other
    · rw [condition] at applies
      rcases applies with other | other <;> cases other
    · rw [directive,Pattern.matches_seq] at found
      obtain ⟨first,second,whole,literal,one⟩ := found
      obtain ⟨d,rfl,-⟩ := Pattern.matches_set.mp one
      rw [(Pattern.matches_literal _).mp literal] at whole
      have lengths := congrArg List.length whole
      simp at lengths
    · rw [one,Pattern.matches_set] at found
      simp at found
    · have begun : rule.pattern.begins '!' = true := Pattern.begins_of_matches found
      rw [begun] at other
      cases other
  rw [firm.chooseRule]
  refine chooseRule_whole 30 rfl (.inr rfl)
    (.seq ((Pattern.matches_literal _).mpr rfl) (.set isBlank)) ?_
  intro other member _ found
  have none : ∀ rule ∈ lexRules.take 30, rule.pattern.begins '!' = false := by decide
  have begun : other.pattern.begins '!' = true := Pattern.begins_of_matches found
  rw [none other member] at begun
  cases begun

/-- What can be included: a name without spaces that is no comment. -/
structure FileName (name : List Char) : Prop where
  nonempty : name ≠ []
  noSpace : ∀ c ∈ name, isSpace c = false
  noComment : '#' ∉ name.head?

theorem chooseRule_openInclude (name : FileName text) (ends : ∀ c ∈ rest.head?, isSpace c = true) :
    chooseRule .includeCtx (text ++ rest) = some (text.length,.openInclude) := by
  obtain ⟨nonempty,noSpace,noComment⟩ := name
  obtain ⟨d,others,rfl⟩ := List.exists_cons_of_ne_nil nonempty
  have early {rule : LexRule} (member : rule ∈ lexRules.take 31) : rule.condition = .initial ∨
      ∀ c, rule.pattern.begins c = true → c = '#' ∨ isSpace c = true := by
    simp only [lexRules,word,scanned,List.take_succ_cons,List.take_zero,List.mem_cons,List.not_mem_nil] at member
    repeat' rcases member with rfl | member
    all_goals first
      | exact .inl rfl
      | exact .inr fun c begun => .inr begun
      | exact .inr fun c begun => .inl (by simpa [Pattern.begins,Pattern.literal,Pattern.nullable] using begun)
  have late {rule : LexRule} (member : rule ∈ lexRules) : rule ∈ lexRules.take 31 ∨
      rule.pattern = .plus (.set fun c => !isSpace c) ∨ rule.pattern = .set fun _ => true := by
    rw [← List.take_append_drop 31 lexRules,List.mem_append] at member
    rcases member with member | member
    · exact .inl member
    · simp only [lexRules,List.drop_succ_cons,List.drop_zero,List.mem_cons,List.not_mem_nil,or_false] at member
      rcases member with rfl | rfl
      · exact .inr (.inl rfl)
      · exact .inr (.inr rfl)
  have head {rule : LexRule} {more : List Char} (member : rule ∈ lexRules.take 31)
      (applies : rule.condition = .any ∨ rule.condition = .includeCtx) : ¬rule.pattern.Matches (d :: more) := by
    intro found
    rcases early member with condition | special
    · rw [condition] at applies
      rcases applies with other | other <;> cases other
    · rcases special d (Pattern.begins_of_matches found) with rfl | space
      · exact noComment rfl
      · rw [noSpace d List.mem_cons_self] at space
        cases space
  have firm : Firm .includeCtx (d :: others) rest := by
    intro rule member applies c more here found
    rcases late member with member | name | one
    · exact head member applies found
    · rw [name] at found
      refine Pattern.not_mem_of_avoids c found ?_ (by simp)
      simp [Pattern.plus,Pattern.avoids,ends c here]
    · rw [one,Pattern.matches_set] at found
      simp at found
  rw [firm.chooseRule]
  refine chooseRule_whole 31 rfl (.inr rfl)
    (.seq (.set (by simp [noSpace d])) (Pattern.star_set_matches ?_)) ?_
  · exact fun c member => by simp [noSpace c (List.mem_cons_of_mem _ member)]
  · exact fun other member applies found => head member applies found

end Between

/-! ## Layout -/

/-- The text is written for the tokens. An include stands for the text of its file, and for nothing
when there is no such file. -/
inductive Renders (files : List Char → Option (List Char)) : List Token → List Char → Prop
  | nil : Renders files [] []
  | spaces {run rest : List Char} (nonempty : run ≠ []) (spaces : ∀ c ∈ run, isSpace c = true)
      (ends : ∀ c ∈ rest.head?, isSpace c = false) (more : Renders files tokens rest) :
      Renders files tokens (run ++ rest)
  | comment {line rest : List Char} (noNewline : ∀ c ∈ line, c ≠ '\n') (ends : ∀ c ∈ rest.head?, c = '\n')
      (more : Renders files tokens rest) : Renders files tokens ('#' :: line ++ rest)
  | token {token : Token} {text rest : List Char} (written : Written token text)
      (ends : token.sign = none → ∀ c ∈ rest.head?, c ∈ delimiters) (more : Renders files tokens rest) :
      Renders files (token :: tokens) (text ++ rest)
  | included {inner : List Token} {blank : Char} {run name text rest : List Char} (isBlank : isBlank blank = true)
      (spaces : ∀ c ∈ run, isSpace c = true) (fileName : FileName name) (ends : ∀ c ∈ rest.head?, isSpace c = true)
      (found : (files name).getD [] = text) (inside : Renders files inner text) (more : Renders files tokens rest) :
      Renders files (inner ++ tokens) (("!include".toList ++ [blank]) ++ (run ++ (name ++ rest)))

/-! ## What the scanner reads -/

/-- From one state of the scanner to another, tokens are returned. -/
def Lexes (files : List Char → Option (List Char)) (s : Scanner) (tokens : List Token) (s' : Scanner) : Prop :=
  ∃ rounds, ∀ fuel, yylexAll files (rounds + fuel) s = (yylexAll files fuel s').map (tokens ++ ·)

section Scan

variable {files : List Char → Option (List Char)} {s s' s'' : Scanner} {condition : StartCondition}
  {text rest : List Char} {buffers : List (List Char)}

namespace Lexes

theorem refl (s : Scanner) : Lexes files s [] s := ⟨0,fun fuel => by simp⟩

theorem skip (scans : s.scan files = .skip s') : Lexes files s [] s' := by
  refine ⟨1,fun fuel => ?_⟩
  rw [Nat.add_comm,yylexAll,scans]
  simp

theorem token {t : Token} (scans : s.scan files = .token t s') : Lexes files s [t] s' := by
  refine ⟨1,fun fuel => ?_⟩
  rw [Nat.add_comm,yylexAll,scans]
  rfl

theorem trans (first : Lexes files s tokens s') (second : Lexes files s' tokens' s'') :
    Lexes files s (tokens ++ tokens') s'' := by
  obtain ⟨n,first⟩ := first
  obtain ⟨m,second⟩ := second
  refine ⟨n + m,fun fuel => ?_⟩
  rw [Nat.add_assoc,first,second,Option.map_map]
  congr 1
  funext more
  simp

end Lexes

/-- What an action leaves of the text that it took. -/
def LexAction.effect (files : List Char → Option (List Char)) (text rest : List Char) (buffers : List (List Char))
    (condition : StartCondition) : LexAction → Scanned
  | .ignore => .skip ⟨rest :: buffers,condition⟩
  | .token value => .token (value text) ⟨rest :: buffers,condition⟩
  | .beginInclude => .skip ⟨rest :: buffers,.includeCtx⟩
  | .openInclude =>
    match files text with
    | some newfile => .skip ⟨newfile :: rest :: buffers,.initial⟩
    | none => .skip ⟨rest :: buffers,.initial⟩

theorem scan_chosen (nonempty : text ≠ []) (chosen : chooseRule condition (text ++ rest) = some (text.length,action)) :
    Scanner.scan files ⟨(text ++ rest) :: buffers,condition⟩ = action.effect files text rest buffers condition := by
  obtain ⟨c,more,rfl⟩ := List.exists_cons_of_ne_nil nonempty
  have taken : (c :: more ++ rest).take (c :: more).length = c :: more := List.take_left
  have dropped : (c :: more ++ rest).drop (c :: more).length = rest := List.drop_left
  unfold Scanner.scan
  simp only [List.cons_append] at chosen taken dropped ⊢
  split
  · rename_i none
    rw [chosen] at none
    cases none
  · rename_i n found same
    rw [chosen] at same
    cases same
    rw [taken,dropped]
    rfl

theorem Written.stops (written : Written token text) (ends : token.sign = none → ∀ c ∈ rest.head?, c ∈ delimiters) :
    text ≠ [] ∧ Firm .initial text rest := by
  cases sign : token.sign with
  | none =>
    have solid := written.solid sign
    obtain ⟨c,more,rfl,-⟩ := solid.begins
    exact ⟨List.cons_ne_nil _ _,solid.firm (ends sign)⟩
  | some c =>
    obtain rfl : text = [c] := by
      cases written with
      | sign spelt => rw [Option.some.inj (spelt.symm.trans sign)]
      | keyword spelt => cases token <;> first | (cases spelt; done) | cases sign
      | _ => cases sign
    have signs : c ∈ [';','\x7b','\x7d','(',')'] := by cases token <;> cases sign <;> decide
    exact ⟨List.cons_ne_nil _ _,firm_sign signs rest⟩

theorem Written.lexes (written : Written token text) (ends : token.sign = none → ∀ c ∈ rest.head?, c ∈ delimiters) :
    Lexes files ⟨(text ++ rest) :: buffers,.initial⟩ [token] ⟨rest :: buffers,.initial⟩ := by
  obtain ⟨value,chosen,same⟩ := written.chooses
  obtain ⟨nonempty,firm⟩ := written.stops ends
  refine .token ((scan_chosen nonempty (firm.chooseRule.trans chosen)).trans ?_)
  rw [LexAction.effect,same]

theorem lexes_spaces (spaces : ∀ c ∈ text, isSpace c = true) (ends : ∀ c ∈ rest.head?, isSpace c = false) :
    Lexes files ⟨(text ++ rest) :: buffers,condition⟩ [] ⟨rest :: buffers,condition⟩ := by
  by_cases empty : text = []
  · subst empty
    exact .refl _
  · exact .skip (scan_chosen empty (chooseRule_spaces empty spaces ends))

theorem lexes_include {blank : Char} {run name : List Char} (isBlank : isBlank blank = true)
    (spaces : ∀ c ∈ run, isSpace c = true) (fileName : FileName name) (ends : ∀ c ∈ rest.head?, isSpace c = true) :
    Lexes files ⟨(("!include".toList ++ [blank]) ++ (run ++ (name ++ rest))) :: buffers,.initial⟩ []
      (match files name with
        | some newfile => ⟨newfile :: rest :: buffers,.initial⟩
        | none => ⟨rest :: buffers,.initial⟩) := by
  have begun : Lexes files ⟨(("!include".toList ++ [blank]) ++ (run ++ (name ++ rest))) :: buffers,.initial⟩ []
      ⟨(run ++ (name ++ rest)) :: buffers,.includeCtx⟩ :=
    .skip (scan_chosen (by simp) (chooseRule_beginInclude isBlank _))
  have stops : ∀ c ∈ (name ++ rest).head?, isSpace c = false := by
    obtain ⟨c,more,rfl⟩ := List.exists_cons_of_ne_nil fileName.nonempty
    rintro _ ⟨⟩
    exact fileName.noSpace c List.mem_cons_self
  have skipped : Lexes files ⟨(run ++ (name ++ rest)) :: buffers,.includeCtx⟩ [] ⟨(name ++ rest) :: buffers,.includeCtx⟩ :=
    lexes_spaces spaces stops
  have scans : Scanner.scan files ⟨(name ++ rest) :: buffers,.includeCtx⟩ =
      LexAction.effect files name rest buffers .includeCtx .openInclude :=
    scan_chosen fileName.nonempty (chooseRule_openInclude fileName ends)
  have opened : Lexes files ⟨(name ++ rest) :: buffers,.includeCtx⟩ [] (match files name with
      | some newfile => ⟨newfile :: rest :: buffers,.initial⟩
      | none => ⟨rest :: buffers,.initial⟩) := by
    rw [LexAction.effect] at scans
    split
    · exact .skip (scans.trans (by simp [*]))
    · exact .skip (scans.trans (by simp [*]))
  exact begun.trans (skipped.trans opened)

theorem Renders.nil_of_empty (renders : Renders files tokens text) (empty : text = []) : tokens = [] := by
  cases renders with
  | nil => rfl
  | spaces nonempty => exact absurd (List.append_eq_nil_iff.mp empty).1 nonempty
  | comment => cases empty
  | token written =>
    have stopped : _ ∧ Firm _ _ [] := written.stops fun _ _ none => absurd none (Option.not_mem_none _)
    exact absurd (List.append_eq_nil_iff.mp empty).1 stopped.1
  | included => simp at empty

/-- The scanner reads a text up to its end and returns the tokens that it is written for. -/
theorem Renders.lexes (renders : Renders files tokens text) (buffers : List (List Char)) :
    Lexes files ⟨text :: buffers,.initial⟩ tokens ⟨[] :: buffers,.initial⟩ := by
  induction renders generalizing buffers with
  | nil => exact .refl _
  | spaces nonempty spaces ends more ih => exact (lexes_spaces spaces ends).trans (ih buffers)
  | comment noNewline ends more ih =>
    exact (Lexes.skip (scan_chosen (List.cons_ne_nil _ _) (chooseRule_comment noNewline ends))).trans (ih buffers)
  | token written ends more ih => exact (written.lexes ends).trans (ih buffers)
  | @included inner tokens blank run name text rest isBlank spaces fileName ends found inside more ih ih' =>
    refine (lexes_include isBlank spaces fileName ends).trans ?_
    split
    · rename_i newfile opened
      obtain rfl : newfile = text := by simpa [opened] using found
      exact (ih (rest :: buffers)).trans ((Lexes.skip rfl).trans (ih' buffers))
    · rename_i missing
      rw [inside.nil_of_empty (by simpa [missing] using found.symm)]
      exact ih' buffers

end Scan

/-! ## Loading -/

section Load

variable {files : List Char → Option (List Char)} {argv : List String} {name : String} {text : List Char}

theorem configTokens_renders (named : configFile "/etc/natasha.conf" argv = some name)
    (found : files name.toList = some text) (renders : Renders files tokens text) :
    ∃ rounds, ∀ fuel, rounds ≤ fuel → configTokens files fuel argv = some tokens := by
  obtain ⟨rounds,lexes⟩ := renders.lexes []
  refine ⟨rounds+1,fun fuel enough => ?_⟩
  obtain ⟨more,rfl⟩ := Nat.exists_eq_add_of_le enough
  have ends : yylexAll files (1 + more) ⟨[[]],.initial⟩ = some [] := by rw [Nat.add_comm]; rfl
  have read := lexes (1 + more)
  rw [ends,← Nat.add_assoc] at read
  simp only [configTokens,named,found,Option.bind_eq_bind,Option.bind_some,read,Option.map_some,List.append_nil]

theorem appConfigLoad_run (oracle : Nat → Bool) (fuel : Nat) (read : configTokens files fuel argv = some tokens) :
    (appConfigLoad files fuel argv).run.run oracle =
      if oracle 0 then (yyparse .zeroed tokens).run.run fun i => oracle (i+1) else (none,fun i => oracle (i+1)) := by
  unfold appConfigLoad
  rw [read]
  by_cases succeeds : oracle 0 = true
  · rw [if_pos succeeds]
    exact Parse.run_bind_some _ (Prod.ext (if_pos succeeds) rfl)
  · rw [if_neg succeeds]
    exact Parse.run_bind_none _ (Prod.ext (if_neg succeeds) rfl)

/-- However a configuration is laid out, with spaces, comments and included files, it is loaded to
the meaning of any derivation of its tokens whose port lines are for the cells of the array. -/
theorem appConfigLoad_renders (named : configFile "/etc/natasha.conf" argv = some name)
    (found : files name.toList = some text) (renders : Renders files tokens text) :
    ∃ rounds, ∀ fuel, rounds ≤ fuel →
      (∀ file, Derives file tokens → (∀ text ∈ file, text.InArray) →
        ∃ config, ((appConfigLoad files fuel argv).run.run allSucceed).1 = some config ∧
          config.Contained ∧ Realizes config (meaning file)) ∧
      ∀ oracle config, ((appConfigLoad files fuel argv).run.run oracle).1 = some config →
        (∃ file, Derives file tokens) ∧ ∀ file, Derives file tokens → (∀ text ∈ file, text.InArray) →
          config.Contained ∧ Configures config (meaning file) := by
  obtain ⟨rounds,reads⟩ := configTokens_renders named found renders
  refine ⟨rounds,fun fuel enough => ⟨fun file derives inArray => ?_,fun oracle config loaded => ?_⟩⟩
  · obtain ⟨config,parsed,loaded⟩ := yyparse_contained derives inArray
    rw [appConfigLoad_run allSucceed fuel (reads fuel enough)]
    exact ⟨config,congrArg Prod.fst parsed,loaded⟩
  · rw [appConfigLoad_run oracle fuel (reads fuel enough)] at loaded
    split at loaded
    · exact yyparse_configures loaded
    · cases loaded

end Load

/-- A file of rules that includes its addresses, with a comment. -/
def splitFiles (name : List Char) : Option (List Char) :=
  if name = "/etc/natasha.conf".toList then some "!include nat.conf\nrules\x7bdrop\x7d".toList
  else if name = "nat.conf".toList then some "config \x7bnat rule 10.0.0.2 212.48.49.50;\x7d # addresses".toList
  else none

def splitTokens : List Token :=
  [.configSection,.lbrace,.tokNatRule,.ipv4Address 0x0a000002,.ipv4Address 0xd4303132,.semicolon,.rbrace] ++
    [.rulesSection,.lbrace,.tokDrop,.rbrace]

theorem splitFiles_renders : Renders splitFiles splitTokens "!include nat.conf\nrules\x7bdrop\x7d".toList := by
  have drop : Renders splitFiles [.rulesSection,.lbrace,.tokDrop,.rbrace]
      ("rules".toList ++ (['\x7b'] ++ ("drop".toList ++ (['\x7d'] ++ [])))) :=
    .token (.keyword rfl) (by decide) (.token (.sign rfl) nofun (.token (.keyword rfl) (by decide)
      (.token (.sign rfl) nofun .nil)))
  have comment : Renders splitFiles [] ([' '] ++ ('#' :: " addresses".toList ++ [])) :=
    .spaces (by decide) (by decide) (by decide) (.comment (by decide) (by decide) .nil)
  have first : Written (.ipv4Address 0x0a000002) "10.0.0.2".toList := print_written (.ipv4Address 0x0a000002) trivial
  have second : Written (.ipv4Address 0xd4303132) "212.48.49.50".toList := print_written (.ipv4Address 0xd4303132) trivial
  have space {tokens : List Token} {rest : List Char} (ends : ∀ c ∈ rest.head?, isSpace c = false)
      (more : Renders splitFiles tokens rest) : Renders splitFiles tokens ([' '] ++ rest) :=
    .spaces (by decide) (by decide) ends more
  have rule : Renders splitFiles [.tokNatRule,.ipv4Address 0x0a000002,.ipv4Address 0xd4303132,.semicolon,.rbrace]
      ("nat rule".toList ++ ([' '] ++ ("10.0.0.2".toList ++ ([' '] ++ ("212.48.49.50".toList ++
        ([';'] ++ (['\x7d'] ++ ([' '] ++ ('#' :: " addresses".toList ++ []))))))))) :=
    .token (.keyword rfl) (by decide) (space (by decide) (.token first (by decide) (space (by decide)
      (.token second (by decide) (.token (.sign rfl) nofun (.token (.sign rfl) nofun comment))))))
  have addresses : Renders splitFiles [.configSection,.lbrace,.tokNatRule,.ipv4Address 0x0a000002,
      .ipv4Address 0xd4303132,.semicolon,.rbrace] ("config".toList ++ ([' '] ++ (['\x7b'] ++ _))) :=
    .token (.keyword rfl) (by decide) (space (by decide) (.token (.sign rfl) nofun rule))
  have line : Renders splitFiles [.rulesSection,.lbrace,.tokDrop,.rbrace]
      (['\n'] ++ ("rules".toList ++ (['\x7b'] ++ ("drop".toList ++ (['\x7d'] ++ []))))) :=
    .spaces (by decide) (by decide) (by decide) drop
  have whole : Renders splitFiles splitTokens (("!include".toList ++ [' ']) ++ ([] ++ ("nat.conf".toList ++
      (['\n'] ++ ("rules".toList ++ (['\x7b'] ++ ("drop".toList ++ (['\x7d'] ++ [])))))))) :=
    .included (by decide) (by decide) ⟨by decide,by decide,by decide⟩ (by decide) rfl addresses line
  exact whole

theorem appConfigLoad_renders_splitFiles :
    ∃ rounds, ∀ fuel, rounds ≤ fuel →
      (∀ file, Derives file splitTokens → (∀ text ∈ file, text.InArray) →
        ∃ config, ((appConfigLoad splitFiles fuel []).run.run allSucceed).1 = some config ∧
          config.Contained ∧ Realizes config (meaning file)) ∧
      ∀ oracle config, ((appConfigLoad splitFiles fuel []).run.run oracle).1 = some config →
        (∃ file, Derives file splitTokens) ∧ ∀ file, Derives file splitTokens → (∀ text ∈ file, text.InArray) →
          config.Contained ∧ Configures config (meaning file) :=
  appConfigLoad_renders rfl rfl splitFiles_renders

/-! ## A text for every configuration -/

/-- The tokens with a space behind each. -/
def printTokens (tokens : List Token) : List Char := tokens.flatMap fun token => token.print ++ [' ']

theorem print_begins {token : Token} (printable : token.Printable) :
    ∃ c more, token.print = c :: more ∧ isSpace c = false := by
  have written := print_written token printable
  cases sign : token.sign with
  | none =>
    obtain ⟨⟨c,more,spelt,other⟩,-⟩ := written.solid sign
    refine ⟨c,more,spelt,?_⟩
    cases space : isSpace c
    · rfl
    · simp only [isSpace,isBlank,Bool.or_eq_true,decide_eq_true_eq] at space
      exact absurd (by simp; tauto) other
  | some c =>
    refine ⟨c,[],?_,?_⟩
    · cases token <;> cases sign <;> rfl
    · cases token <;> cases sign <;> decide

theorem printTokens_renders (files : List Char → Option (List Char)) (tokens : List Token)
    (printable : ∀ token ∈ tokens, token.Printable) : Renders files tokens (printTokens tokens) := by
  induction tokens with
  | nil => exact .nil
  | cons token tokens ih =>
    obtain ⟨first,others⟩ := List.forall_mem_cons.mp printable
    have ends : ∀ c ∈ (printTokens tokens).head?, isSpace c = false := by
      cases tokens with
      | nil => nofun
      | cons next tokens =>
        obtain ⟨c,more,spelt,noSpace⟩ := print_begins (others next List.mem_cons_self)
        simp [printTokens,spelt,noSpace]
    have rest : Renders files tokens ([' '] ++ printTokens tokens) :=
      .spaces (by simp) (by decide) ends (ih others)
    have text : printTokens (token :: tokens) = token.print ++ ([' '] ++ printTokens tokens) := by simp [printTokens]
    rw [text]
    refine .token (print_written token first) (fun _ c here => ?_) rest
    cases here
    decide

/-- Every configuration whose numbers can be written, with port lines for the cells of the array, has
a text that is loaded to its meaning. -/
theorem appConfigLoad_printTokens {files : List Char → Option (List Char)} {argv : List String} {name : String}
    (file : List SectionText) (inArray : ∀ text ∈ file, text.InArray)
    (printable : ∀ token ∈ file.flatMap SectionText.tokens, token.Printable)
    (named : configFile "/etc/natasha.conf" argv = some name)
    (found : files name.toList = some (printTokens (file.flatMap SectionText.tokens))) :
    ∃ rounds, ∀ fuel, rounds ≤ fuel →
      ∃ config, ((appConfigLoad files fuel argv).run.run allSucceed).1 = some config ∧
        config.Contained ∧ Realizes config (meaning file) := by
  obtain ⟨rounds,reads⟩ := configTokens_renders named found (printTokens_renders files _ printable)
  refine ⟨rounds,fun fuel enough => ?_⟩
  obtain ⟨config,parsed,loaded⟩ := yyparse_contained (derives_of_inArray inArray) inArray
  rw [appConfigLoad_run allSucceed fuel (reads fuel enough)]
  exact ⟨config,congrArg Prod.fst parsed,loaded⟩

/-- Two ports, and a router that translates one address. -/
def routedSections : List SectionText :=
  [.config [.port ⟨0,none,⟨none,0x0a0000fe⟩,[]⟩,.port ⟨1,some 1500,⟨some 7,0xd43031fe⟩,[]⟩,
      .natRule 0x0a000002 0xd4303132],
    .rules (.action (.action .empty (.natRewrite .dst)) (.out 1 (fun _ => 0xee) none))]

theorem routedSections_inArray : ∀ text ∈ routedSections, text.InArray := by
  simp [routedSections,SectionText.InArray,LineText.InArray,InRange,natashaMaxEthports]

theorem routedSections_printable : ∀ token ∈ routedSections.flatMap SectionText.tokens, token.Printable := by
  simp [routedSections,SectionText.tokens,LineText.tokens,PortText.tokens,headTokens,optTokens,AddressText.tokens,
    Rules.sectionTokens,Rules.tokens,RuleAction.tokens,Token.Printable,FitsIn]

def routedText : List Char := printTokens (routedSections.flatMap SectionText.tokens)

theorem appConfigLoad_printTokens_routed :
    ∃ rounds, ∀ fuel, rounds ≤ fuel → ∃ config,
      ((appConfigLoad (fun _ => some routedText) fuel []).run.run allSucceed).1 = some config ∧
        config.Contained ∧ Realizes config (meaning routedSections) :=
  appConfigLoad_printTokens routedSections routedSections_inArray routedSections_printable rfl rfl

end Natasha
