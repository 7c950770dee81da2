import Mathlib.Logic.Function.Basic
import Natasha.Mbuf

/-! The NAT lookup table: three levels of lazily allocated rows indexed by bit
slices of a host-order address, holding network-order addresses with zero for
"absent". The abstract side is a last-writer-wins map on addresses. -/
namespace Natasha

/-- Rows of the three levels. A NULL pointer is `none`; `lkp_ts` entries are words. -/
abbrev ThirdRow := Nat → U32
abbrev SecondRow := Nat → Option ThirdRow
abbrev FirstRow := Nat → Option SecondRow
abbrev NatLookup := Option FirstRow

def lkpFs : Nat := 256
def lkpSs : Nat := 256
def lkpTs : Nat := 65536

/-- First byte, second byte and last two bytes of a host-order address. -/
def fstb (ip : U32) : Nat := ((ip >>> 24) &&& 0xff#32).toNat
def sndb (ip : U32) : Nat := ((ip >>> 16) &&& 0xff#32).toNat
def l2b (ip : U32) : Nat := ((ip &&& 0xff00#32) ||| (ip &&& 0xff#32)).toNat

theorem fstb_eq (ip : U32) : fstb ip = ip.toNat / 16777216 := by
  have bound := ip.isLt
  rw [fstb,BitVec.toNat_and,BitVec.toNat_ushiftRight,Nat.shiftRight_eq_div_pow]
  have mask : ip.toNat / 2^24 &&& (0xff#32).toNat = ip.toNat / 2^24 % 256 :=
    Nat.and_two_pow_sub_one_eq_mod (ip.toNat / 2^24) 8
  rw [mask]
  omega

theorem sndb_eq (ip : U32) : sndb ip = ip.toNat / 65536 % 256 := by
  rw [sndb,BitVec.toNat_and,BitVec.toNat_ushiftRight,Nat.shiftRight_eq_div_pow]
  exact Nat.and_two_pow_sub_one_eq_mod (ip.toNat / 2^16) 8

theorem l2b_eq (ip : U32) : l2b ip = ip.toNat % 65536 := by
  have merged : (ip &&& 0xff00#32) ||| (ip &&& 0xff#32) = ip &&& 0xffff#32 := by
    rw [← BitVec.and_or_distrib_left]
    rfl
  rw [l2b,merged,BitVec.toNat_and]
  exact Nat.and_two_pow_sub_one_eq_mod ip.toNat 16

theorem indices_in_rows (ip : U32) : fstb ip < lkpFs ∧ sndb ip < lkpSs ∧ l2b ip < lkpTs := by
  have bound := ip.isLt
  rw [fstb_eq,sndb_eq,l2b_eq,lkpFs,lkpSs,lkpTs]
  omega

theorem indices_injective (a b : U32) (first : fstb a = fstb b) (second : sndb a = sndb b)
    (last : l2b a = l2b b) : a = b := by
  rw [fstb_eq,fstb_eq] at first
  rw [sndb_eq,sndb_eq] at second
  rw [l2b_eq,l2b_eq] at last
  apply BitVec.eq_of_toNat_eq
  omega

/-- `nat_lookup_ip`: `none` is the return value -1, `some` the stored `*value`. -/
def natLookupIp (lookupTable : NatLookup) (ip : U32) : Option U32 :=
  match lookupTable with
  | none => none
  | some first =>
    match first (fstb ip) with
    | none => none
    | some second =>
      match second (sndb ip) with
      | none => none
      | some third => if third (l2b ip) = 0 then none else some (third (l2b ip))

/-- Success or failure of the `rte_zmalloc_socket` calls still to come. -/
abbrev Alloc := StateM (Nat → Bool)

def rteZmallocSocket (zeroed : α) : Alloc (Option α) :=
  fun oracle => (if oracle 0 then some zeroed else none, fun i => oracle (i+1))

/-- `add_rule_to_table`: `none` is the NULL returned after a failed allocation. A
row that is already there is kept. -/
def addRuleToTable (t : NatLookup) (key value : U32) : Alloc NatLookup := do
  let t ← match t with
    | some first => pure (some first)
    | none => rteZmallocSocket (fun _ => none)
  match t with
  | none => return none
  | some first =>
    let row ← match first (fstb key) with
      | some second => pure (some second)
      | none => rteZmallocSocket (fun _ => none)
    match row with
    | none => return none
    | some second =>
      let column ← match second (sndb key) with
        | some third => pure (some third)
        | none => rteZmallocSocket (fun _ => 0)
      match column with
      | none => return none
      | some third =>
        let third := Function.update third (l2b key) value
        let second := Function.update second (sndb key) (some third)
        return some (Function.update first (fstb key) (some second))

/-- `add_rules_to_table`. Both of its `nat_lookup == NULL` tests are about the address
of the caller's pointer, never about the table just stored there, so neither branch
is ever taken and a failed allocation is not seen. -/
def addRulesToTable (natLookup : NatLookup) (intIp extIp : U32) : Alloc (Int × NatLookup) := do
  let extIpFormated := rteBeToCpu32 extIp
  let intIpFormated := rteBeToCpu32 intIp
  let natLookup ← addRuleToTable natLookup intIp extIpFormated
  let natLookup ← addRuleToTable natLookup extIp intIpFormated
  return (0, natLookup)

/-- One `nat rule` line after the other, as `config_nat_rule` adds them. -/
def addNatRules (natLookup : NatLookup) : List (U32 × U32) → Alloc NatLookup
  | [] => return natLookup
  | (intIp, extIp) :: rules => do
    let (_, natLookup) ← addRulesToTable natLookup intIp extIp
    addNatRules natLookup rules

def allSucceed : Nat → Bool := fun _ => true

/-- The word an address selects, with zero for a missing row. -/
def slot (t : NatLookup) (ip : U32) : U32 :=
  match t with
  | none => 0
  | some first =>
    match first (fstb ip) with
    | none => 0
    | some second =>
      match second (sndb ip) with
      | none => 0
      | some third => third (l2b ip)

theorem natLookupIp_eq_slot (t : NatLookup) (ip : U32) :
    natLookupIp t ip = if slot t ip = 0 then none else some (slot t ip) := by
  unfold natLookupIp slot
  split
  · simp
  · split
    · simp
    · split <;> simp

/-- The row an insertion finds or allocates reads like the row that was there. -/
def rowOr (row : Option α) (zeroed : α) : α := row.getD zeroed

theorem Alloc.pure_apply (a : α) (oracle : Nat → Bool) : (pure a : Alloc α) oracle = (a,oracle) := rfl

theorem Alloc.bind_apply (x : Alloc α) (f : α → Alloc β) (oracle : Nat → Bool) :
    (x >>= f) oracle = f (x oracle).1 (x oracle).2 := rfl

theorem rteZmallocSocket_succeeds (zeroed : α) :
    rteZmallocSocket zeroed allSucceed = (some zeroed, allSucceed) := rfl

theorem addRuleToTable_succeeds (t : NatLookup) (key value : U32) :
    addRuleToTable t key value allSucceed = (some (
      let first := rowOr t (fun _ => none)
      let second := rowOr (first (fstb key)) (fun _ => none)
      let third := rowOr (second (sndb key)) (fun _ => 0)
      Function.update first (fstb key) (some (Function.update second (sndb key)
        (some (Function.update third (l2b key) value))))), allSucceed) := by
  cases t with
  | none => rfl
  | some first =>
    cases row : first (fstb key) with
    | none => simp [addRuleToTable,row,rowOr,rteZmallocSocket_succeeds,Alloc.bind_apply,Alloc.pure_apply]
    | some second =>
      cases column : second (sndb key) <;>
        simp [addRuleToTable,row,column,rowOr,rteZmallocSocket_succeeds,Alloc.bind_apply,Alloc.pure_apply]

/-- An insertion changes the word of its own key and of no other address. -/
theorem slot_addRuleToTable (t : NatLookup) (key value ip : U32) :
    slot (addRuleToTable t key value allSucceed).1 ip = if ip = key then value else slot t ip := by
  rw [addRuleToTable_succeeds]
  by_cases same : ip = key
  · subst ip
    simp [slot]
  · simp only [slot,same,if_false]
    by_cases first : fstb ip = fstb key
    · by_cases second : sndb ip = sndb key
      · have last : l2b ip ≠ l2b key := fun last => same (indices_injective ip key first second last)
        simp only [first,second,Function.update_self,Function.update_of_ne last]
        cases t with
        | none => simp [rowOr]
        | some rows =>
          cases row : rows (fstb key) with
          | none => simp [rowOr,row]
          | some columns => cases column : columns (sndb key) <;> simp [rowOr,row,column]
      · simp only [first,Function.update_self,Function.update_of_ne second]
        cases t with
        | none => simp [rowOr]
        | some rows => cases row : rows (fstb key) <;> simp [rowOr,row]
    · simp only [Function.update_of_ne first]
      cases t <;> simp [rowOr]

/-- The last-writer-wins map of a list of rules: each rule writes `int → ext`, then
`ext → int`. -/
def writeRule (m : U32 → Option U32) (rule : U32 × U32) : U32 → Option U32 :=
  Function.update (Function.update m rule.1 (some rule.2)) rule.2 (some rule.1)

def lastWriter (rules : List (U32 × U32)) : U32 → Option U32 :=
  rules.foldl writeRule fun _ => none

/-- A table refines a map when each word is the map's value in network order. -/
def Refines (t : NatLookup) (m : U32 → Option U32) : Prop :=
  ∀ ip, slot t ip = rteBeToCpu32 ((m ip).getD 0)

theorem refines_empty : Refines none fun _ => none := by
  intro ip
  simp [slot,rteBeToCpu32]

theorem addRuleToTable_refines (t : NatLookup) (m : U32 → Option U32) (key value : U32)
    (refines : Refines t m) :
    Refines (addRuleToTable t key (rteBeToCpu32 value) allSucceed).1
      (Function.update m key (some value)) := by
  intro ip
  rw [slot_addRuleToTable]
  by_cases same : ip = key
  · subst ip
    simp
  · rw [if_neg same,Function.update_of_ne same]
    exact refines ip

theorem addRulesToTable_refines (t : NatLookup) (m : U32 → Option U32) (intIp extIp : U32)
    (refines : Refines t m) :
    ∃ t', addRulesToTable t intIp extIp allSucceed = ((0, t'), allSucceed) ∧
      Refines t' (writeRule m (intIp, extIp)) := by
  have first := addRuleToTable_refines t m intIp extIp refines
  have second := addRuleToTable_refines _ _ extIp intIp first
  refine ⟨_,?_,second⟩
  simp only [addRulesToTable,Alloc.bind_apply,Alloc.pure_apply]
  rw [addRuleToTable_succeeds t intIp]
  simp only
  rw [addRuleToTable_succeeds _ extIp]

theorem addNatRules_refines (rules : List (U32 × U32)) (t : NatLookup) (m : U32 → Option U32)
    (refines : Refines t m) :
    Refines (addNatRules t rules allSucceed).1 (rules.foldl writeRule m) := by
  induction rules generalizing t m with
  | nil => exact refines
  | cons rule rules ih =>
    obtain ⟨t',added,next⟩ := addRulesToTable_refines t m rule.1 rule.2 refines
    have step : addNatRules t (rule :: rules) allSucceed = addNatRules t' rules allSucceed := by
      simp [addNatRules,Alloc.bind_apply,added]
    rw [step]
    exact ih t' _ next

def natTable (rules : List (U32 × U32)) : NatLookup := (addNatRules none rules allSucceed).1

/-- The value a map holds, other than 0.0.0.0, in the byte order the table returns it in. -/
def reported (value : Option U32) : Option U32 :=
  match value with
  | none => none
  | some v => if v = 0 then none else some (rteBeToCpu32 v)

theorem natLookupIp_refines (t : NatLookup) (m : U32 → Option U32) (refines : Refines t m) (ip : U32) :
    natLookupIp t ip = reported (m ip) := by
  rw [natLookupIp_eq_slot,refines ip]
  cases h : m ip with
  | none => rfl
  | some v =>
    by_cases zero : v = 0
    · subst v
      rfl
    · have nonzero : rteBeToCpu32 v ≠ 0 := mt (rteBeToCpu32_eq_zero_iff v).mp zero
      simp only [reported,Option.getD_some,if_neg zero,if_neg nonzero]

theorem foldl_writeRule_frame (rules : List (U32 × U32)) (m : U32 → Option U32) (ip : U32)
    (apart : ∀ rule ∈ rules, rule.1 ≠ ip ∧ rule.2 ≠ ip) : rules.foldl writeRule m ip = m ip := by
  induction rules generalizing m with
  | nil => rfl
  | cons rule rules ih =>
    obtain ⟨first,second⟩ := apart rule (by simp)
    rw [List.foldl_cons,ih _ fun r h => apart r (by simp [h])]
    rw [writeRule,Function.update_of_ne second.symm,Function.update_of_ne first.symm]

theorem lastWriter_pair (before after : List (U32 × U32)) (intIp extIp : U32)
    (fresh : ∀ rule ∈ after, (rule.1 ≠ intIp ∧ rule.2 ≠ intIp) ∧ (rule.1 ≠ extIp ∧ rule.2 ≠ extIp)) :
    lastWriter (before ++ (intIp, extIp) :: after) intIp = some extIp ∧
    lastWriter (before ++ (intIp, extIp) :: after) extIp = some intIp := by
  simp only [lastWriter,List.foldl_append,List.foldl_cons]
  constructor
  · rw [foldl_writeRule_frame after _ intIp fun rule h => (fresh rule h).1,writeRule]
    by_cases same : intIp = extIp
    · subst extIp
      simp
    · simp [Function.update_of_ne same]
  · rw [foldl_writeRule_frame after _ extIp fun rule h => (fresh rule h).2,writeRule]
    simp

/-- The three-level table is the last-writer-wins map: a lookup succeeds exactly on the
addresses with a nonzero value and returns it in network order; a rule that no later
rule overwrites is found in both directions. -/
theorem natTable_refines_lastWriter (rules : List (U32 × U32)) :
    (∀ ip, natLookupIp (natTable rules) ip = reported (lastWriter rules ip)) ∧
    (∀ before intIp extIp after, rules = before ++ (intIp, extIp) :: after →
      intIp ≠ 0 → extIp ≠ 0 →
      (∀ rule ∈ after, (rule.1 ≠ intIp ∧ rule.2 ≠ intIp) ∧ (rule.1 ≠ extIp ∧ rule.2 ≠ extIp)) →
      natLookupIp (natTable rules) intIp = some (rteBeToCpu32 extIp) ∧
      natLookupIp (natTable rules) extIp = some (rteBeToCpu32 intIp)) := by
  have lookup (ip : U32) : natLookupIp (natTable rules) ip = reported (lastWriter rules ip) :=
    natLookupIp_refines _ _ (addNatRules_refines rules none _ refines_empty) ip
  refine ⟨lookup,?_⟩
  intro before intIp extIp after split intNonzero extNonzero fresh
  rw [lookup,lookup]
  subst rules
  obtain ⟨forward,backward⟩ := lastWriter_pair before after intIp extIp fresh
  simp only [forward,backward,reported,if_neg intNonzero,if_neg extNonzero,and_self]

example : natLookupIp (natTable [(0x0a000102, 0xd4303132)]) 0xd4303132 = some 0x0201000a := by
  decide

end Natasha
