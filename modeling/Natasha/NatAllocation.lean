import Natasha.NatTable

/-! Adding a NAT rule while memory runs out. `add_rule_to_table` gives the table up for the first row
that it cannot allocate, and `add_rules_to_table` inserts the second direction into what is left. -/
namespace Natasha

/-! ## One insertion -/

/-- The rows that are not there yet on the way to the word of `key`. -/
def missing (t : NatLookup) (key : U32) : Nat :=
  match t with
  | none => 3
  | some first =>
    match first (fstb key) with
    | none => 2
    | some second =>
      match second (sndb key) with
      | none => 1
      | some _ => 0

/-- The rows below the root that the words of two keys do not share. -/
def apart (a b : U32) : Nat :=
  if fstb a ≠ fstb b then 2 else if sndb a ≠ sndb b then 1 else 0

section Insertion

variable {oracle : Nat → Bool} (t : NatLookup) (key value : U32)

/-- The ways there can be to the word of a key. -/
theorem missing_cases :
    t = none ∧ missing t key = 3 ∨
    (∃ first, t = some first ∧ first (fstb key) = none ∧ missing t key = 2) ∨
    (∃ first second, t = some first ∧ first (fstb key) = some second ∧ second (sndb key) = none ∧ missing t key = 1) ∨
    (∃ first second third, t = some first ∧ first (fstb key) = some second ∧ second (sndb key) = some third ∧
      missing t key = 0) := by
  cases t with
  | none => exact .inl ⟨rfl,rfl⟩
  | some first =>
    cases row : first (fstb key) with
    | none => exact .inr (.inl ⟨first,rfl,row,by simp [missing,row]⟩)
    | some second =>
      cases column : second (sndb key) with
      | none => exact .inr (.inr (.inl ⟨first,second,rfl,row,column,by simp [missing,row,column]⟩))
      | some third => exact .inr (.inr (.inr ⟨first,second,third,rfl,row,column,by simp [missing,row,column]⟩))

/-- With the missing rows there, an insertion is the one that never fails. -/
theorem addRuleToTable_allocated (there : ∀ i < missing t key, oracle i = true) :
    addRuleToTable t key value oracle =
      ((addRuleToTable t key value allSucceed).1,fun i => oracle (i + missing t key)) := by
  rw [addRuleToTable_succeeds]
  rcases missing_cases t key with ⟨rfl,rows⟩ | ⟨first,rfl,row,rows⟩ | ⟨first,second,rfl,row,column,rows⟩ |
    ⟨first,second,third,rfl,row,column,rows⟩
  all_goals rw [rows] at there ⊢
  · simp [addRuleToTable,rteZmallocSocket,Alloc.bind_apply,Alloc.pure_apply,rowOr,there 0 (by decide),
      there 1 (by decide),there 2 (by decide)]
  · simp [addRuleToTable,rteZmallocSocket,Alloc.bind_apply,Alloc.pure_apply,rowOr,row,there 0 (by decide),
      there 1 (by decide)]
  · simp [addRuleToTable,rteZmallocSocket,Alloc.bind_apply,Alloc.pure_apply,rowOr,row,column,there 0 (by decide)]
  · simp [addRuleToTable,Alloc.pure_apply,rowOr,row,column]

/-- The first row that cannot be allocated is the end of the table. -/
theorem addRuleToTable_fails {i : Nat} (lt : i < missing t key) (before : ∀ j < i, oracle j = true)
    (fails : oracle i = false) : addRuleToTable t key value oracle = (none,fun j => oracle (j + (i+1))) := by
  rcases missing_cases t key with ⟨rfl,rows⟩ | ⟨first,rfl,row,rows⟩ | ⟨first,second,rfl,row,column,rows⟩ |
    ⟨first,second,third,rfl,row,column,rows⟩
  all_goals rw [rows] at lt
  · obtain rfl | rfl | rfl : i = 0 ∨ i = 1 ∨ i = 2 := by omega
    · simp [addRuleToTable,rteZmallocSocket,Alloc.bind_apply,Alloc.pure_apply,fails]
    · simp [addRuleToTable,rteZmallocSocket,Alloc.bind_apply,Alloc.pure_apply,fails,before 0 (by decide)]
    · simp [addRuleToTable,rteZmallocSocket,Alloc.bind_apply,Alloc.pure_apply,fails,before 0 (by decide),
        before 1 (by decide)]
  · obtain rfl | rfl : i = 0 ∨ i = 1 := by omega
    · simp [addRuleToTable,rteZmallocSocket,Alloc.bind_apply,Alloc.pure_apply,row,fails]
    · simp [addRuleToTable,rteZmallocSocket,Alloc.bind_apply,Alloc.pure_apply,row,fails,before 0 (by decide)]
  · obtain rfl : i = 0 := by omega
    simp [addRuleToTable,rteZmallocSocket,Alloc.bind_apply,Alloc.pure_apply,row,column,fails]
  · cases lt

/-- Either all rows come, or there is a first one that does not. -/
theorem allocated_or_fails (oracle : Nat → Bool) (n : Nat) :
    (∀ i < n, oracle i = true) ∨ ∃ i < n, (∀ j < i, oracle j = true) ∧ oracle i = false := by
  induction n with
  | zero => exact .inl nofun
  | succ n ih =>
    rcases ih with all | ⟨i,lt,first⟩
    · cases last : oracle n with
      | false => exact .inr ⟨n,n.lt_succ_self,all,last⟩
      | true => exact .inl (Nat.forall_lt_succ_right.mpr ⟨all,last⟩)
    · exact .inr ⟨i,Nat.lt_succ_of_lt lt,first⟩

/-- The rows that an insertion leaves to be allocated for another key. -/
theorem missing_addRuleToTable (key' : U32) :
    missing (addRuleToTable t key value allSucceed).1 key' = min (missing t key') (apart key key') := by
  rw [addRuleToTable_succeeds]
  by_cases first : fstb key = fstb key'
  · by_cases second : sndb key = sndb key'
    · simp [missing,apart,first,second]
    · have other : sndb key' ≠ sndb key := Ne.symm second
      rcases missing_cases t key' with ⟨rfl,rows⟩ | ⟨rows,rfl,row,count⟩ | ⟨rows,columns,rfl,row,column,count⟩ |
        ⟨rows,columns,words,rfl,row,column,count⟩
      all_goals simp_all [missing,apart,rowOr]
  · have other : fstb key' ≠ fstb key := Ne.symm first
    rcases missing_cases t key' with ⟨rfl,rows⟩ | ⟨rows,rfl,row,count⟩ | ⟨rows,columns,rfl,row,column,count⟩ |
      ⟨rows,columns,words,rfl,row,column,count⟩
    all_goals simp_all [missing,apart,rowOr]

end Insertion

/-! ## Both directions -/

/-- Both directions of a rule are found in `t'`, and every other address as in `t`. -/
structure Added (intIp extIp : U32) (t t' : NatLookup) : Prop where
  there : natLookupIp t' intIp = some (rteBeToCpu32 extIp)
  back : natLookupIp t' extIp = some (rteBeToCpu32 intIp)
  others : ∀ ip, ip ≠ intIp → ip ≠ extIp → natLookupIp t' ip = natLookupIp t ip

/-- `add_rules_to_table` returns 0 only for a rule that is in the table, and -1 otherwise. -/
def Reports (t : NatLookup) (intIp extIp : U32) (oracle : Nat → Bool) : Prop :=
  let result := (addRulesToTable t intIp extIp oracle).1
  result.1 = 0 ∧ Added intIp extIp t result.2 ∨ result.1 = -1

/-- Every row that the two insertions need is allocated. -/
def Allocated (t : NatLookup) (intIp extIp : U32) (oracle : Nat → Bool) : Prop :=
  ∀ i < missing t intIp + min (missing t extIp) (apart intIp extIp), oracle i = true

/-- The first insertion gives up a table with no other address in it, and the second one, of the same
address once more, allocates all of it again. -/
structure MadeUp (t : NatLookup) (intIp extIp : U32) (oracle : Nat → Bool) : Prop where
  same : intIp = extIp
  alone : ∀ ip, ip ≠ intIp → natLookupIp t ip = none
  again : ∃ i < missing t intIp, (∀ j < i, oracle j = true) ∧ oracle i = false ∧ ∀ j < 3, oracle (i + 1 + j) = true

section Directions

variable (t : NatLookup) (intIp extIp : U32) (oracle : Nat → Bool)

theorem natLookupIp_add (key value ip : U32) (nonzero : value ≠ 0) :
    natLookupIp (addRuleToTable t key (rteBeToCpu32 value) allSucceed).1 ip =
      if ip = key then some (rteBeToCpu32 value) else natLookupIp t ip := by
  have word : rteBeToCpu32 value ≠ 0 := mt (rteBeToCpu32_eq_zero_iff value).mp nonzero
  rw [natLookupIp_eq_slot,slot_addRuleToTable]
  by_cases same : ip = key
  · simp only [same,if_true,word,if_false]
  · simp only [same,if_false,natLookupIp_eq_slot t]

theorem not_added_none : ¬Added intIp extIp t none := fun added => nomatch added.there

/-- The return value is 0 in any case, so that a report is right when the rule is there. -/
theorem reports_iff_added : Reports t intIp extIp oracle ↔ Added intIp extIp t (addRulesToTable t intIp extIp oracle).1.2 := by
  constructor
  · rintro (⟨-,added⟩ | failed)
    · exact added
    · cases failed
  · exact fun added => .inl ⟨rfl,added⟩

/-- The table from which the second direction starts, and the one where it ends. -/
theorem addRulesToTable_table {t₁ : NatLookup} {oracle₁ : Nat → Bool}
    (first : addRuleToTable t intIp (rteBeToCpu32 extIp) oracle = (t₁,oracle₁)) :
    (addRulesToTable t intIp extIp oracle).1.2 = (addRuleToTable t₁ extIp (rteBeToCpu32 intIp) oracle₁).1 := by
  simp only [addRulesToTable,Alloc.bind_apply,Alloc.pure_apply,first]

variable {t intIp extIp oracle}

theorem added_both (intNonzero : intIp ≠ 0) (extNonzero : extIp ≠ 0) :
    Added intIp extIp t (addRuleToTable (addRuleToTable t intIp (rteBeToCpu32 extIp) allSucceed).1 extIp
      (rteBeToCpu32 intIp) allSucceed).1 := by
  constructor
  · rw [natLookupIp_add _ _ _ _ intNonzero,natLookupIp_add _ _ _ _ extNonzero]
    by_cases same : intIp = extIp
    · simp [same]
    · simp [same]
  · rw [natLookupIp_add _ _ _ _ intNonzero,if_pos rfl]
  · intro ip notInt notExt
    rw [natLookupIp_add _ _ _ _ intNonzero,natLookupIp_add _ _ _ _ extNonzero,if_neg notExt,if_neg notInt]

/-- The second direction alone is the whole rule only when it is the first one too. -/
theorem added_second_iff (intNonzero : intIp ≠ 0) :
    Added intIp extIp t (addRuleToTable none extIp (rteBeToCpu32 intIp) allSucceed).1 ↔
      intIp = extIp ∧ ∀ ip, ip ≠ intIp → natLookupIp t ip = none := by
  have lookup (ip : U32) := natLookupIp_add none extIp intIp ip intNonzero
  constructor
  · intro added
    have same : intIp = extIp := by
      by_contra other
      have there := added.there
      rw [lookup,if_neg other] at there
      cases there
    refine ⟨same,fun ip notInt => ?_⟩
    have kept := added.others ip notInt (same ▸ notInt)
    rw [lookup,if_neg (same ▸ notInt)] at kept
    exact kept.symm
  · rintro ⟨rfl,alone⟩
    refine ⟨?_,?_,fun ip notInt _ => ?_⟩
    · rw [lookup,if_pos rfl]
    · rw [lookup,if_pos rfl]
    · rw [lookup,if_neg notInt,alone ip notInt]
      rfl

/-- A row of the first insertion that is not allocated leaves one way out. -/
theorem reports_iff_of_fails (intNonzero : intIp ≠ 0) {i : Nat} (lt : i < missing t intIp) (before : ∀ j < i, oracle j = true)
    (fails : oracle i = false) : Reports t intIp extIp oracle ↔ MadeUp t intIp extIp oracle := by
  have given : addRuleToTable t intIp (rteBeToCpu32 extIp) oracle = (none,fun j => oracle (j + (i+1))) :=
    addRuleToTable_fails t intIp _ lt before fails
  rw [reports_iff_added,addRulesToTable_table t intIp extIp oracle given]
  rcases allocated_or_fails (fun j => oracle (j + (i+1))) 3 with all | ⟨k,small,earlier,missed⟩
  · rw [addRuleToTable_allocated none extIp _ all,added_second_iff intNonzero]
    constructor
    · rintro ⟨same,alone⟩
      exact ⟨same,alone,i,lt,before,fails,fun j small => by simpa [Nat.add_comm] using all j small⟩
    · exact fun made => ⟨made.same,made.alone⟩
  · rw [addRuleToTable_fails none extIp _ small earlier missed]
    refine iff_of_false (not_added_none t intIp extIp) fun made => ?_
    -- the rows that the second insertion missed are the ones after the first failure
    obtain ⟨i',_,before',fails',again⟩ := made.again
    have first : i' = i := by
      rcases Nat.lt_trichotomy i' i with less | equal | more
      · simp [before i' less] at fails'
      · exact equal
      · simp [before' i more] at fails
    have there := again k small
    rw [first,Nat.add_comm] at there
    exact absurd (missed.symm.trans there) (by decide)

end Directions

theorem addRulesToTable_reports_iff (t : NatLookup) (intIp extIp : U32) (oracle : Nat → Bool) (intNonzero : intIp ≠ 0)
    (extNonzero : extIp ≠ 0) :
    Reports t intIp extIp oracle ↔ Allocated t intIp extIp oracle ∨ MadeUp t intIp extIp oracle := by
  rcases allocated_or_fails oracle (missing t intIp) with all | ⟨i,lt,before,fails⟩
  · have notMadeUp : ¬MadeUp t intIp extIp oracle := by
      intro made
      obtain ⟨i,lt,_,fails,_⟩ := made.again
      exact absurd (fails.symm.trans (all i lt)) (by decide)
    rw [reports_iff_added,addRulesToTable_table t intIp extIp oracle (addRuleToTable_allocated t intIp _ all)]
    have rows := missing_addRuleToTable t intIp (rteBeToCpu32 extIp) extIp
    rcases allocated_or_fails (fun i => oracle (i + missing t intIp)) (min (missing t extIp) (apart intIp extIp)) with
      more | ⟨i,lt,before,fails⟩
    · have allocated : Allocated t intIp extIp oracle := by
        intro i lt
        by_cases early : i < missing t intIp
        · exact all i early
        · have later := more (i - missing t intIp) (by omega)
          rwa [Nat.sub_add_cancel (by omega)] at later
      rw [addRuleToTable_allocated _ extIp _ (by rwa [rows])]
      exact iff_of_true (added_both intNonzero extNonzero) (.inl allocated)
    · rw [addRuleToTable_fails _ extIp _ (by rwa [rows]) before fails]
      refine iff_of_false (not_added_none t intIp extIp) ?_
      rintro (allocated | made)
      · exact absurd (fails.symm.trans (allocated (i + missing t intIp) (by omega))) (by decide)
      · exact notMadeUp made
  · have notAllocated : ¬Allocated t intIp extIp oracle := fun allocated =>
      absurd (fails.symm.trans (allocated i (by omega))) (by decide)
    rw [reports_iff_of_fails intNonzero lt before fails]
    simp [notAllocated]

/-- A table with one rule, and no memory for the first row of the next. -/
def exhausted : Nat → Bool := fun i => i ≠ 0

theorem addRulesToTable_reports_iff_exhausted :
    (0x0a010002 : U32) ≠ 0 ∧ (0xd4c00002 : U32) ≠ 0 ∧
      (Reports (natTable [(0x0a000001,0xd4c00001)]) 0x0a010002 0xd4c00002 exhausted ↔
        Allocated (natTable [(0x0a000001,0xd4c00001)]) 0x0a010002 0xd4c00002 exhausted ∨
          MadeUp (natTable [(0x0a000001,0xd4c00001)]) 0x0a010002 0xd4c00002 exhausted) :=
  ⟨by decide,by decide,addRulesToTable_reports_iff (natTable [(0x0a000001,0xd4c00001)]) 0x0a010002 0xd4c00002 exhausted
    (by decide) (by decide)⟩

/-- The rule that is there is lost with the one that is not added, and 0 is returned. -/
theorem exhausted_unreported :
    ¬∀ (rules : List (U32 × U32)) (intIp extIp : U32) (oracle : Nat → Bool), intIp ≠ 0 → extIp ≠ 0 →
      Reports (natTable rules) intIp extIp oracle := by
  intro claim
  have reports := claim [(0x0a000001,0xd4c00001)] 0x0a010002 0xd4c00002 exhausted (by decide) (by decide)
  rcases reports with ⟨-,added⟩ | failed
  · have lost := added.others 0x0a000001 (by decide) (by decide)
    exact absurd lost (by decide)
  · cases failed

end Natasha
