import Mathlib.Tactic.FinCases
import Natasha.Networks
import Natasha.ParseTree

/-! MAC literals. The pattern takes any lower-case letter for a digit and leaves it to the count
of `sscanf` to find the texts that are no addresses. -/
namespace Natasha

open Regex

/-! ## The rule that is taken -/

section Choice

variable {condition : StartCondition} {text : List Char}

/-- How a rule changes what is taken so far. -/
def takeRule (condition : StartCondition) (text : List Char) (best : Option (Nat × LexAction)) (rule : LexRule) :
    Option (Nat × LexAction) :=
  if rule.condition = .any ∨ rule.condition = condition then
    match rule.pattern.longest text, best with
    | none, best => best
    | some n, none => some (n,rule.action)
    | some n, some (m,action) => if m < n then some (n,rule.action) else some (m,action)
  else best

theorem chooseRule_eq : chooseRule condition text = lexRules.foldl (takeRule condition text) none := rfl

/-- Rules that apply match less than `n` characters. -/
def Shorter (condition : StartCondition) (text : List Char) (n : Nat) (rules : List LexRule) : Prop :=
  ∀ rule ∈ rules, (rule.condition = .any ∨ rule.condition = condition) →
    ∀ m, rule.pattern.longest text = some m → m < n

theorem Shorter.best {rules : List LexRule} {best : Option (Nat × LexAction)}
    (shorter : Shorter condition text n rules) (start : ∀ m action, best = some (m,action) → m < n) :
    ∀ m action, rules.foldl (takeRule condition text) best = some (m,action) → m < n := by
  induction rules generalizing best with
  | nil => exact start
  | cons rule rules ih =>
    apply ih fun other member => shorter other (List.mem_cons_of_mem _ member)
    intro m action chosen
    unfold takeRule at chosen
    split at chosen
    · rename_i applies
      have here := shorter rule List.mem_cons_self applies
      split at chosen
      · exact start m action chosen
      · cases chosen
        exact here m ‹_›
      · split at chosen
        · cases chosen
          exact here m ‹_›
        · exact start m action chosen
    · exact start m action chosen

theorem Shorter.keep {rules : List LexRule} {action : LexAction} (shorter : Shorter condition text n rules) :
    rules.foldl (takeRule condition text) (some (n,action)) = some (n,action) := by
  induction rules with
  | nil => rfl
  | cons rule rules ih =>
    have kept : takeRule condition text (some (n,action)) rule = some (n,action) := by
      unfold takeRule
      split
      · rename_i applies
        cases longest : rule.pattern.longest text with
        | none => rfl
        | some m =>
          have less := shorter rule List.mem_cons_self applies m longest
          exact if_neg (by omega)
      · rfl
    rw [List.foldl_cons,kept]
    exact ih fun other member => shorter other (List.mem_cons_of_mem _ member)

/-- A rule that matches more than all others is taken. -/
theorem chooseRule_of_shorter {before after : List LexRule} {rule : LexRule}
    (rules : lexRules = before ++ rule :: after) (applies : rule.condition = .any ∨ rule.condition = condition)
    (longest : rule.pattern.longest text = some n) (first : Shorter condition text n before)
    (last : Shorter condition text n after) : chooseRule condition text = some (n,rule.action) := by
  have taken : takeRule condition text (before.foldl (takeRule condition text) none) rule = some (n,rule.action) := by
    have less : ∀ m action, before.foldl (takeRule condition text) none = some (m,action) → m < n :=
      first.best fun _ _ same => by cases same
    generalize before.foldl (takeRule condition text) none = chosen at less
    unfold takeRule
    rw [if_pos applies,longest]
    cases chosen with
    | none => rfl
    | some best => exact if_pos (less best.1 best.2 rfl)
  rw [chooseRule_eq,rules,List.foldl_append,List.foldl_cons,taken,last.keep]

end Choice

/-! ## The text of a literal -/

/-- The digit characters of a literal. -/
def macChars (text : List Char) : List Char := text.filter (· ≠ ':')

def AllHex (chars : List Char) : Prop := ∀ c ∈ chars, (hexValue c).isSome

instance (chars : List Char) : Decidable (AllHex chars) := List.decidableBAll _ chars

def hexPair (c d : Char) : Option Nat := do
  let high ← hexValue c
  let low ← hexValue d
  return 16*high + low

/-- The address whose bytes are the values of the six pairs. -/
def macValue (text : List Char) : Mac := fun i =>
  .ofNat 8 ((hexPair ((macChars text).getD (2 * i.val) '0') ((macChars text).getD (2 * i.val + 1) '0')).getD 0)

/-- A character of `[0-9a-z]`. -/
structure MacChar (c : Char) : Prop where
  notColon : c ≠ ':'
  notHash : c ≠ '#'
  lower : c ≠ 'X'

theorem macChar_of_matches {text : List Char} (found : (Pattern.alt digit (range 'a' 'z')).Matches text) :
    ∃ c, text = [c] ∧ MacChar c := by
  rcases Pattern.matches_alt.mp found with found | found
  all_goals
    obtain ⟨c,rfl,accepted⟩ := Pattern.matches_set.mp found
    refine ⟨c,rfl,?_,?_,?_⟩
    all_goals
      rintro rfl
      exact absurd accepted (by decide)

theorem macDigits_pair {text : List Char} (found : macDigits.Matches text) :
    ∃ c d, text = [c,d] ∧ MacChar c ∧ MacChar d := by
  simp only [macDigits,Pattern.rep,Pattern.matches_seq,Pattern.matches_blank] at found
  obtain ⟨_,_,rfl,first,_,_,rfl,second,rfl⟩ := found
  obtain ⟨c,rfl,charC⟩ := macChar_of_matches first
  obtain ⟨d,rfl,charD⟩ := macChar_of_matches second
  exact ⟨c,d,rfl,charC,charD⟩

/-- Six pairs of characters with colons between them. -/
inductive MacText : List Char → Prop
  | intro {a a₂ b b₂ c c₂ d d₂ e e₂ f f₂ : Char} (chars : ∀ x ∈ [a,a₂,b,b₂,c,c₂,d,d₂,e,e₂,f,f₂], MacChar x) :
      MacText [a,a₂,':',b,b₂,':',c,c₂,':',d,d₂,':',e,e₂,':',f,f₂]

theorem macAddressPattern_text {text : List Char} (found : macAddressPattern.Matches text) : MacText text := by
  simp only [macAddressPattern,Pattern.rep,Pattern.matches_seq,Pattern.matches_literal,Pattern.matches_blank] at found
  obtain ⟨_,_,rfl,⟨_,_,rfl,⟨_,_,rfl,pairA,rfl⟩,_,_,rfl,⟨_,_,rfl,pairB,rfl⟩,_,_,rfl,⟨_,_,rfl,pairC,rfl⟩,_,_,rfl,
    ⟨_,_,rfl,pairD,rfl⟩,_,_,rfl,⟨_,_,rfl,pairE,rfl⟩,rfl⟩,pairF⟩ := found
  obtain ⟨a,a₂,rfl,charA⟩ := macDigits_pair pairA
  obtain ⟨b,b₂,rfl,charB⟩ := macDigits_pair pairB
  obtain ⟨c,c₂,rfl,charC⟩ := macDigits_pair pairC
  obtain ⟨d,d₂,rfl,charD⟩ := macDigits_pair pairD
  obtain ⟨e,e₂,rfl,charE⟩ := macDigits_pair pairE
  obtain ⟨f,f₂,rfl,charF⟩ := macDigits_pair pairF
  refine .intro ?_
  simp only [List.forall_mem_cons,charA,charB,charC,charD,charE,charF,true_and]
  exact fun x none => absurd none List.not_mem_nil

/-! ## What `sscanf` makes of it -/

/-- A field of the format with the colon after it. -/
def scanHexColon (text : List Char) : Option (Nat × List Char) := do
  let (n,text) ← scanHex text
  let text ← scanChar ':' text
  return (n,text)

theorem scanHexColon_bind (text : List Char) (next : Nat × List Char → Option α) :
    (scanHexColon text).bind next = (scanHex text).bind fun field =>
      (scanChar ':' field.2).bind fun text => next (field.1,text) := by
  unfold scanHexColon
  rcases scanHex text with _ | ⟨n,text⟩
  · rfl
  · dsimp only [Option.bind_eq_bind,Option.bind_some]
    cases scanChar ':' text <;> rfl

theorem scanMac_eq (text : List Char) : scanMac text =
    (scanHexColon text).bind fun a => (scanHexColon a.2).bind fun b => (scanHexColon b.2).bind fun c =>
    (scanHexColon c.2).bind fun d => (scanHexColon d.2).bind fun e => (scanHex e.2).bind fun f =>
      some fun i => .ofNat 8 ([a.1,b.1,c.1,d.1,e.1,f.1].getD i.val 0) := by
  simp only [scanHexColon_bind]
  rfl

theorem hexValue_x : hexValue 'x' = none := by decide

/-- In front of a colon both characters have to be digits. -/
theorem scanHexColon_pair {c d : Char} (char : MacChar d) (rest : List Char) :
    scanHexColon (c :: d :: ':' :: rest) = (hexPair c d).map fun n => (n,rest) := by
  cases high : hexValue c with
  | none => simp [scanHexColon,scanHex,hexPair,high]
  | some h =>
    by_cases stop : c = '0' ∧ d = 'x'
    · obtain ⟨rfl,rfl⟩ := stop
      simp [scanHexColon,scanHex,hexPair,high,hexValue_x]
    · cases low : hexValue d <;>
        simp [scanHexColon,scanHex,hexPair,high,low,char.lower,stop,scanChar,char.notColon]

theorem scanHex_pair {c d : Char} (value : hexPair c d = some n) : scanHex [c,d] = some (n,[]) := by
  cases high : hexValue c with
  | none => simp [hexPair,high] at value
  | some h =>
    cases low : hexValue d with
    | none => simp [hexPair,low] at value
    | some l =>
      have digit : d ≠ 'x' ∧ d ≠ 'X' := by
        constructor
        all_goals
          rintro rfl
          cases low
      simp only [hexPair,high,low,Option.bind_eq_bind,Option.bind_some,Option.pure_def,Option.some.injEq] at value
      simp [scanHex,high,low,digit,value]

/-- The last field is content with one digit. -/
theorem scanHex_last {c d : Char} (char : MacChar d) :
    (scanHex [c,d]).isSome ↔ (hexValue c).isSome ∧ ¬(c = '0' ∧ d = 'x') := by
  cases high : hexValue c with
  | none => simp [scanHex,high]
  | some h =>
    by_cases stop : c = '0' ∧ d = 'x'
    · simp [scanHex,stop]
    · cases low : hexValue d <;> simp [scanHex,high,low,char.lower,stop]

section Literal

variable {a a₂ b b₂ c c₂ d d₂ e e₂ f f₂ : Char}

theorem macChars_literal (chars : ∀ x ∈ [a,a₂,b,b₂,c,c₂,d,d₂,e,e₂,f,f₂], MacChar x) :
    macChars [a,a₂,':',b,b₂,':',c,c₂,':',d,d₂,':',e,e₂,':',f,f₂] = [a,a₂,b,b₂,c,c₂,d,d₂,e,e₂,f,f₂] := by
  simp only [List.forall_mem_cons] at chars
  obtain ⟨ca,ca',cb,cb',cc,cc',cd,cd',ce,ce',cf,cf',_⟩ := chars
  simp [macChars,ca.notColon,ca'.notColon,cb.notColon,cb'.notColon,cc.notColon,cc'.notColon,cd.notColon,cd'.notColon,
    ce.notColon,ce'.notColon,cf.notColon,cf'.notColon]

theorem scanMac_literal (chars : ∀ x ∈ [a,a₂,b,b₂,c,c₂,d,d₂,e,e₂,f,f₂], MacChar x) :
    scanMac [a,a₂,':',b,b₂,':',c,c₂,':',d,d₂,':',e,e₂,':',f,f₂] =
      (hexPair a a₂).bind fun first => (hexPair b b₂).bind fun second => (hexPair c c₂).bind fun third =>
      (hexPair d d₂).bind fun fourth => (hexPair e e₂).bind fun fifth => (scanHex [f,f₂]).bind fun last =>
        some fun i => .ofNat 8 ([first,second,third,fourth,fifth,last.1].getD i.val 0) := by
  simp only [List.forall_mem_cons] at chars
  obtain ⟨_,ca',_,cb',_,cc',_,cd',_,ce',_⟩ := chars
  simp only [scanMac_eq,scanHexColon_pair ca',scanHexColon_pair cb',scanHexColon_pair cc',scanHexColon_pair cd',
    scanHexColon_pair ce',Option.bind_map,Function.comp_def]

end Literal

theorem hexPair_isSome (c d : Char) : (hexPair c d).isSome ↔ (hexValue c).isSome ∧ (hexValue d).isSome := by
  cases high : hexValue c <;> cases low : hexValue d <;> simp [hexPair,high,low]

theorem scanMac_exact {text : List Char} (literal : MacText text) (hex : AllHex (macChars text)) :
    scanMac text = some (macValue text) := by
  obtain ⟨chars⟩ := literal
  have digits := macChars_literal chars
  simp only [digits,AllHex,List.forall_mem_cons] at hex
  obtain ⟨ha,ha',hb,hb',hc,hc',hd,hd',he,he',hf,hf',_⟩ := hex
  obtain ⟨va,pairA⟩ := Option.isSome_iff_exists.mp ((hexPair_isSome _ _).mpr ⟨ha,ha'⟩)
  obtain ⟨vb,pairB⟩ := Option.isSome_iff_exists.mp ((hexPair_isSome _ _).mpr ⟨hb,hb'⟩)
  obtain ⟨vc,pairC⟩ := Option.isSome_iff_exists.mp ((hexPair_isSome _ _).mpr ⟨hc,hc'⟩)
  obtain ⟨vd,pairD⟩ := Option.isSome_iff_exists.mp ((hexPair_isSome _ _).mpr ⟨hd,hd'⟩)
  obtain ⟨ve,pairE⟩ := Option.isSome_iff_exists.mp ((hexPair_isSome _ _).mpr ⟨he,he'⟩)
  obtain ⟨vf,pairF⟩ := Option.isSome_iff_exists.mp ((hexPair_isSome _ _).mpr ⟨hf,hf'⟩)
  rw [scanMac_literal chars,pairA,pairB,pairC,pairD,pairE,scanHex_pair pairF]
  simp only [Option.bind_some,Option.some.injEq]
  funext i
  rw [macValue,digits]
  fin_cases i
  · simp [pairA]
  · simp [pairB]
  · simp [pairC]
  · simp [pairD]
  · simp [pairE]
  · simp [pairF]

theorem isSome_bind_iff {x : Option α} {f : α → Option β} {rest : Prop} (each : ∀ v, (f v).isSome ↔ rest) :
    (x.bind f).isSome ↔ x.isSome ∧ rest := by
  cases x with
  | none => simp
  | some v => simp [each v]

/-- A literal is taken for its first eleven digits, except that no digit follows a last `0x`. -/
theorem scanMac_isSome {text : List Char} (literal : MacText text) :
    (scanMac text).isSome ↔ AllHex ((macChars text).take 11) ∧ (macChars text).drop 10 ≠ ['0','x'] := by
  obtain @⟨a,a₂,b,b₂,c,c₂,d,d₂,e,e₂,f,f₂,chars⟩ := literal
  have last : (scanHex [f,f₂]).isSome ↔ _ := scanHex_last (chars f₂ (by simp))
  have scans : (scanMac [a,a₂,':',b,b₂,':',c,c₂,':',d,d₂,':',e,e₂,':',f,f₂]).isSome ↔ (hexPair a a₂).isSome ∧
      (hexPair b b₂).isSome ∧ (hexPair c c₂).isSome ∧ (hexPair d d₂).isSome ∧ (hexPair e e₂).isSome ∧
      (scanHex [f,f₂]).isSome ∧ True := by
    rw [scanMac_literal chars]
    exact isSome_bind_iff fun _ => isSome_bind_iff fun _ => isSome_bind_iff fun _ => isSome_bind_iff fun _ =>
      isSome_bind_iff fun _ => isSome_bind_iff fun _ => by simp
  rw [scans,macChars_literal chars]
  simp only [hexPair_isSome,last,AllHex,List.take_succ_cons,List.take_zero,List.drop_succ_cons,List.drop_zero,
    List.forall_mem_cons,List.cons.injEq,and_true,ne_eq,List.not_mem_nil,false_implies,implies_true]
  tauto

/-! ## From the text to the parser -/

/-- The rules other than that of MAC addresses do not get past a colon, except for comments, the
rule for one character and that of another start condition. -/
theorem lexRules_colon {rule : LexRule} (member : rule ∈ lexRules.take 12 ++ lexRules.drop 13) :
    rule.pattern.avoids ':' = true ∨ rule.pattern = .seq (.literal ['#']) (.star (.set notNewline)) ∨
      rule.pattern = .set (fun _ => true) ∨ rule.condition = .includeCtx := by
  simp only [lexRules,word,scanned,List.take_succ_cons,List.take_zero,List.drop_succ_cons,List.drop_zero,
    List.cons_append,List.nil_append,List.mem_cons,List.not_mem_nil] at member
  repeat' rcases member with rfl | member
  all_goals first
    | exact .inl (by decide)
    | exact .inr (.inl rfl)
    | exact .inr (.inr (.inl rfl))
    | exact .inr (.inr (.inr rfl))

theorem MacText.shorter {text : List Char} (literal : MacText text) (rest : List Char) :
    Shorter .initial (text ++ rest) 17 (lexRules.take 12 ++ lexRules.drop 13) := by
  intro rule member applies n longest
  have found := Pattern.matches_of_longest _ _ _ longest
  obtain @⟨a,a₂,b,b₂,c,c₂,d,d₂,e,e₂,f,f₂,chars⟩ := literal
  have char := chars a (by simp)
  rcases lexRules_colon member with avoids | comment | one | condition
  · -- the third character is a colon
    have avoided := Pattern.not_mem_of_avoids ':' found avoids
    by_contra long
    obtain ⟨k,rfl⟩ : ∃ k, n = k+3 := ⟨n-3,by omega⟩
    simp at avoided
  · rw [comment,Pattern.matches_seq] at found
    obtain ⟨first,second,whole,hash,_⟩ := found
    rw [(Pattern.matches_literal _).mp hash] at whole
    cases n with
    | zero => cases whole
    | succ n => exact absurd (List.cons.inj whole).1 char.notHash
  · rw [one] at found
    obtain ⟨x,whole,_⟩ := Pattern.matches_set.mp found
    have length := congrArg List.length whole
    rw [List.length_take,List.length_append] at length
    simp only [List.length_cons,List.length_nil] at length
    omega
  · rw [condition] at applies
    rcases applies with other | other <;> cases other

/-- The scanner takes a literal as a whole, whatever follows it. -/
theorem scan_macText {text : List Char} (matched : macAddressPattern.Matches text)
    (files : List Char → Option (List Char)) (rest : List Char) (buffers : List (List Char)) :
    Scanner.scan files ⟨(text ++ rest) :: buffers,.initial⟩ =
      .token (((scanMac text).map .macAddress).getD .oops) ⟨rest :: buffers,.initial⟩ := by
  have literal := macAddressPattern_text matched
  have length {text : List Char} (literal : MacText text) : text.length = 17 := by
    cases literal
    rfl
  have longest : macAddressPattern.longest (text ++ rest) = some 17 := by
    obtain ⟨n,longest,long⟩ := Pattern.longest_of_matches matched rest
    have whole := length (macAddressPattern_text (Pattern.matches_of_longest _ _ _ longest))
    have inside := Pattern.longest_le _ _ _ longest
    rw [List.length_take,Nat.min_eq_left inside] at whole
    rw [longest,whole]
  have shorter := literal.shorter rest
  have rules : lexRules = lexRules.take 12 ++
      scanned macAddressPattern (fun text => (scanMac text).map .macAddress) :: lexRules.drop 13 := rfl
  have chosen : chooseRule .initial (text ++ rest) = some (17,.token fun text => ((scanMac text).map .macAddress).getD .oops) :=
    chooseRule_of_shorter rules (.inr rfl) longest
      (fun rule member => shorter rule (List.mem_append_left _ member))
      (fun rule member => shorter rule (List.mem_append_right _ member))
  have taken : (text ++ rest).take 17 = text := by rw [← length literal,List.take_left]
  have dropped : (text ++ rest).drop 17 = rest := by rw [← length literal,List.drop_left]
  cases literal
  simp only [Scanner.scan,List.cons_append] at chosen taken dropped ⊢
  rw [chosen]
  simp only [taken,dropped]

/-- No state of the parser goes on with `OOPS`. -/
theorem feed_oops (p : Parser) : Returns (feed p .oops) fun _ => False := by
  obtain ⟨config,mode⟩ := p
  cases mode with
  | rules opens content mode =>
    cases mode with
    -- an `if` without an `else` is reduced before the token is refused
    | afterIf what body => exact .after fun _ => .after fun _ => .fail
    | operand frames value => cases frames <;> exact .fail
    | _ => exact .fail
  | portIp port mtu ips vlan => cases ips <;> exact .fail
  | _ => exact .fail

theorem feedAll_oops (p : Parser) (before after : List Token) :
    Returns (feedAll p (before ++ .oops :: after)) fun _ => False := by
  induction before generalizing p with
  | nil => exact (feed_oops p).bind fun _ => False.elim
  | cons token before ih => exact .after ih

theorem yyparse_oops (config : AppConfig) (before after : List Token) (oracle : Nat → Bool) :
    ((yyparse config (before ++ .oops :: after)).run.run oracle).1 = none :=
  Returns.none ((feedAll_oops ⟨config,.file⟩ before after).bind fun _ => False.elim) oracle

/-- The scanner makes an address of the literals whose characters are hexadecimal digits, that
address, and rejects the configuration with the others. -/
structure MacExact (text : List Char) : Prop where
  value : AllHex (macChars text) → ∀ files rest buffers,
    Scanner.scan files ⟨(text ++ rest) :: buffers,.initial⟩ =
      .token (.macAddress (macValue text)) ⟨rest :: buffers,.initial⟩
  rejects : ¬AllHex (macChars text) →
    (∀ files rest buffers, Scanner.scan files ⟨(text ++ rest) :: buffers,.initial⟩ =
      .token .oops ⟨rest :: buffers,.initial⟩) ∧
    ∀ config before after oracle, ((yyparse config (before ++ .oops :: after)).run.run oracle).1 = none

/-- The last field of the format stops at a letter that is no digit, and nothing follows it that
could fail. -/
theorem macExact_iff (text : List Char) (matched : macAddressPattern.Matches text) :
    MacExact text ↔
      (AllHex ((macChars text).take 11) → AllHex (macChars text) ∨ (macChars text).drop 10 = ['0','x']) := by
  have literal := macAddressPattern_text matched
  have scans := scanMac_isSome literal
  constructor
  · intro exact eleven
    by_contra neither
    obtain ⟨other,zero⟩ := not_or.mp neither
    obtain ⟨mac,found⟩ := Option.isSome_iff_exists.mp (scans.mpr ⟨eleven,zero⟩)
    have refused := (exact.rejects other).1 (fun _ => none) [] []
    rw [scan_macText matched,found] at refused
    cases refused
  · intro condition
    constructor
    · intro hex files rest buffers
      rw [scan_macText matched,scanMac_exact literal hex]
      rfl
    · intro other
      refine ⟨fun files rest buffers => ?_,yyparse_oops⟩
      have refused : scanMac text = none := by
        rw [← Option.not_isSome_iff_eq_none,scans]
        rintro ⟨eleven,zero⟩
        exact (condition eleven).elim other zero
      rw [scan_macText matched,refused]
      rfl

/-- The literal `02:00:5e:10:00:fe`. -/
def hexLiteral : List Char := "02:00:5e:10:00:fe".toList

theorem macExact_iff_hexLiteral : MacExact hexLiteral :=
  (macExact_iff hexLiteral (Pattern.matches_of_longest _ hexLiteral 17 (by decide))).mpr fun _ => .inl (by decide)

/-- A typing error in the last digit. -/
def lastLetter : List Char := "00:00:00:00:00:0g".toList

/-- The literal is taken for `00:00:00:00:00:00`. -/
theorem macExact_lastLetter : ¬∀ text, macAddressPattern.Matches text → MacExact text := by
  intro claim
  have exact := claim lastLetter (Pattern.matches_of_longest _ lastLetter 17 (by decide))
  have refused := (exact.rejects (by decide)).1 (fun _ => none) [] []
  have taken : Scanner.scan (fun _ => none) ⟨[lastLetter ++ []],.initial⟩ =
      .token (.macAddress fun i => .ofNat 8 ([0,0,0,0,0,0].getD i.val 0)) ⟨[[]],.initial⟩ := rfl
  rw [taken] at refused
  cases refused

end Natasha
