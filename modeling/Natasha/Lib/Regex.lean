import Mathlib.Logic.Basic

/-! Regular expressions over sets of characters, and the longest prefix that one matches,
computed with derivatives. -/
namespace Regex

inductive Pattern (α : Type) where
  | nothing
  | blank
  | set (accepts : α → Bool)
  | seq (first second : Pattern α)
  | alt (first second : Pattern α)
  | star (inner : Pattern α)

namespace Pattern

variable {α : Type}

def opt (p : Pattern α) : Pattern α := alt p blank

def plus (p : Pattern α) : Pattern α := seq p (star p)

def rep (p : Pattern α) : Nat → Pattern α
  | 0 => blank
  | n+1 => seq p (p.rep n)

def literal [DecidableEq α] : List α → Pattern α
  | [] => blank
  | c :: cs => seq (set (· = c)) (literal cs)

def nullable : Pattern α → Bool
  | nothing => false
  | blank => true
  | set _ => false
  | seq p q => p.nullable && q.nullable
  | alt p q => p.nullable || q.nullable
  | star _ => true

/-- `seq` and `alt` without the parts that match nothing. -/
def mkSeq : Pattern α → Pattern α → Pattern α
  | nothing, _ => nothing
  | blank, q => q
  | p, q => seq p q

def mkAlt : Pattern α → Pattern α → Pattern α
  | nothing, q => q
  | p, nothing => p
  | p, q => alt p q

/-- What has to follow `c`. -/
def derivative (c : α) : Pattern α → Pattern α
  | nothing => nothing
  | blank => nothing
  | set accepts => if accepts c then blank else nothing
  | seq p q =>
    if p.nullable then mkAlt (mkSeq (p.derivative c) q) (q.derivative c) else mkSeq (p.derivative c) q
  | alt p q => mkAlt (p.derivative c) (q.derivative c)
  | star p => mkSeq (p.derivative c) (star p)

def longest : Pattern α → List α → Option Nat
  | nothing, _ => none
  | p, [] => if p.nullable then some 0 else none
  | p, c :: cs =>
    match (p.derivative c).longest cs with
    | some n => some (n+1)
    | none => if p.nullable then some 0 else none

/-! ## The texts of a pattern -/

/-- The whole of a text is a match of the pattern. -/
inductive Matches : Pattern α → List α → Prop
  | blank : Matches blank []
  | set {accepts : α → Bool} {c : α} (accepted : accepts c = true) : Matches (set accepts) [c]
  | seq {p q : Pattern α} {first second : List α} (lhs : Matches p first) (rhs : Matches q second) :
      Matches (seq p q) (first ++ second)
  | left {p q : Pattern α} {text : List α} (lhs : Matches p text) : Matches (alt p q) text
  | right {p q : Pattern α} {text : List α} (rhs : Matches q text) : Matches (alt p q) text
  | starNil {p : Pattern α} : Matches (star p) []
  | starCons {p : Pattern α} {first rest : List α} (one : Matches p first) (more : Matches (star p) rest) :
      Matches (star p) (first ++ rest)

variable {p q : Pattern α} {text : List α}

@[simp] theorem matches_blank : (blank : Pattern α).Matches text ↔ text = [] := by
  constructor
  · rintro ⟨⟩
    rfl
  · rintro rfl
    exact .blank

@[simp] theorem matches_set {accepts : α → Bool} :
    (set accepts).Matches text ↔ ∃ c, text = [c] ∧ accepts c = true := by
  constructor
  · intro found
    cases found with
    | set accepted => exact ⟨_,rfl,accepted⟩
  · rintro ⟨c,rfl,accepted⟩
    exact .set accepted

@[simp] theorem matches_seq :
    (seq p q).Matches text ↔ ∃ first second, text = first ++ second ∧ p.Matches first ∧ q.Matches second := by
  constructor
  · intro found
    cases found with
    | seq lhs rhs => exact ⟨_,_,rfl,lhs,rhs⟩
  · rintro ⟨first,second,rfl,lhs,rhs⟩
    exact .seq lhs rhs

@[simp] theorem matches_alt : (alt p q).Matches text ↔ p.Matches text ∨ q.Matches text := by
  constructor
  · intro found
    cases found with
    | left lhs => exact .inl lhs
    | right rhs => exact .inr rhs
  · rintro (lhs | rhs)
    · exact .left lhs
    · exact .right rhs

@[simp] theorem matches_opt : p.opt.Matches text ↔ p.Matches text ∨ text = [] := by
  rw [opt,matches_alt,matches_blank]

@[simp] theorem matches_literal [DecidableEq α] (cs : List α) : (literal cs).Matches text ↔ text = cs := by
  induction cs generalizing text with
  | nil => exact matches_blank
  | cons c cs ih =>
    rw [literal,matches_seq]
    constructor
    · rintro ⟨first,second,rfl,lhs,rhs⟩
      obtain ⟨d,rfl,same⟩ := matches_set.mp lhs
      rw [ih.mp rhs,of_decide_eq_true same]
      rfl
    · rintro rfl
      exact ⟨[c],cs,rfl,.set (decide_eq_true rfl),ih.mpr rfl⟩

theorem matches_of_nullable (p : Pattern α) (empty : p.nullable = true) : p.Matches [] := by
  induction p with
  | nothing => cases empty
  | blank => exact .blank
  | set accepts => cases empty
  | seq p q lhs rhs =>
    obtain ⟨first,second⟩ := Bool.and_eq_true_iff.mp empty
    exact .seq (lhs first) (rhs second)
  | alt p q lhs rhs =>
    rcases Bool.or_eq_true_iff.mp empty with first | second
    · exact .left (lhs first)
    · exact .right (rhs second)
  | star p => exact .starNil

theorem matches_of_mkSeq (found : (mkSeq p q).Matches text) : (seq p q).Matches text := by
  unfold mkSeq at found
  split at found
  · cases found
  · exact .seq .blank found
  · exact found

theorem matches_of_mkAlt (found : (mkAlt p q).Matches text) : (alt p q).Matches text := by
  unfold mkAlt at found
  split at found
  · exact .right found
  · exact .left found
  · exact found

/-- What the derivative by `c` matches, the pattern matches after a `c`. -/
theorem matches_of_derivative (c : α) (p : Pattern α) (found : (p.derivative c).Matches text) :
    p.Matches (c :: text) := by
  induction p generalizing text with
  | nothing => cases found
  | blank => cases found
  | set accepts =>
    simp only [derivative] at found
    split at found
    · cases found
      exact .set ‹_›
    · cases found
  | seq p q lhs rhs =>
    have through (found : (mkSeq (p.derivative c) q).Matches text) : (seq p q).Matches (c :: text) := by
      obtain ⟨first,second,rfl,head,tail⟩ := matches_seq.mp (matches_of_mkSeq found)
      exact .seq (lhs head) tail
    simp only [derivative] at found
    split at found
    · rename_i empty
      rcases matches_alt.mp (matches_of_mkAlt found) with found | found
      · exact through found
      · exact .seq (matches_of_nullable p empty) (rhs found)
    · exact through found
  | alt p q lhs rhs =>
    rcases matches_alt.mp (matches_of_mkAlt found) with found | found
    · exact .left (lhs found)
    · exact .right (rhs found)
  | star p ih =>
    obtain ⟨first,second,rfl,head,tail⟩ := matches_seq.mp (matches_of_mkSeq found)
    exact .starCons (ih head) tail

/-- A longest match is a match. -/
theorem matches_of_longest (p : Pattern α) (text : List α) (n : Nat) (found : p.longest text = some n) :
    p.Matches (text.take n) := by
  fun_induction longest p text generalizing n with
  | case1 => cases found
  | case2 p _ empty =>
    cases found
    exact matches_of_nullable p empty
  | case3 => cases found
  | case4 p c cs _ m later ih =>
    cases found
    exact matches_of_derivative c p (ih m later)
  | case5 p c cs _ later empty ih =>
    cases found
    exact matches_of_nullable p empty
  | case6 => cases found

theorem longest_le (p : Pattern α) (text : List α) (n : Nat) (found : p.longest text = some n) : n ≤ text.length := by
  fun_induction longest p text generalizing n with
  | case1 => cases found
  | case2 => cases found; exact Nat.le_refl _
  | case3 => cases found
  | case4 p c cs _ m later ih =>
    cases found
    exact Nat.succ_le_succ (ih m later)
  | case5 => cases found; exact Nat.zero_le _
  | case6 => cases found

/-! ## Every match is found -/

theorem nullable_of_matches (found : p.Matches []) : p.nullable = true := by
  induction p with
  | nothing => cases found
  | blank => rfl
  | set accepts =>
    obtain ⟨c,same,_⟩ := matches_set.mp found
    cases same
  | seq p q lhs rhs =>
    obtain ⟨first,second,whole,head,tail⟩ := matches_seq.mp found
    obtain ⟨rfl,rfl⟩ := List.append_eq_nil_iff.mp whole.symm
    exact Bool.and_eq_true_iff.mpr ⟨lhs head,rhs tail⟩
  | alt p q lhs rhs =>
    rcases matches_alt.mp found with found | found
    · exact Bool.or_eq_true_iff.mpr (.inl (lhs found))
    · exact Bool.or_eq_true_iff.mpr (.inr (rhs found))
  | star p => rfl

theorem mkSeq_matches {first second : List α} (lhs : p.Matches first) (rhs : q.Matches second) :
    (mkSeq p q).Matches (first ++ second) := by
  unfold mkSeq
  split
  · cases lhs
  · cases lhs
    exact rhs
  · exact .seq lhs rhs

theorem mkAlt_matches (found : p.Matches text ∨ q.Matches text) : (mkAlt p q).Matches text := by
  unfold mkAlt
  split
  · rcases found with lhs | rhs
    · cases lhs
    · exact rhs
  · rcases found with lhs | rhs
    · exact lhs
    · cases rhs
  · exact matches_alt.mpr found

/-- A match that starts with `c` goes on with a match of the derivative. -/
theorem derivative_matches (c : α) (p : Pattern α) (found : p.Matches (c :: text)) :
    (p.derivative c).Matches text := by
  generalize whole : c :: text = read at found
  induction found generalizing text with
  | blank => cases whole
  | set accepted =>
    cases whole
    rw [derivative,if_pos accepted]
    exact .blank
  | @seq p q first second lhs rhs left right =>
    cases first with
    | nil =>
      rw [derivative,if_pos (nullable_of_matches lhs)]
      exact mkAlt_matches (.inr (right whole))
    | cons d first =>
      cases whole
      have through := mkSeq_matches (left rfl) rhs
      rw [derivative]
      split
      · exact mkAlt_matches (.inl through)
      · exact through
  | left _ ih => exact mkAlt_matches (.inl (ih whole))
  | right _ ih => exact mkAlt_matches (.inr (ih whole))
  | starNil => cases whole
  | @starCons p first rest one more head tail =>
    cases first with
    | nil => exact tail whole
    | cons d first =>
      cases whole
      exact mkSeq_matches (head rfl) more

/-- The longest match is at least as long as any other match of a prefix. -/
theorem longest_of_matches (found : p.Matches text) (rest : List α) :
    ∃ n, p.longest (text ++ rest) = some n ∧ text.length ≤ n := by
  induction text generalizing p with
  | nil =>
    have empty := nullable_of_matches found
    rw [List.nil_append]
    unfold longest
    split
    · cases empty
    · exact ⟨0,if_pos empty,Nat.le_refl _⟩
    · split
      · exact ⟨_,rfl,Nat.zero_le _⟩
      · exact ⟨0,if_pos empty,Nat.le_refl _⟩
  | cons c text ih =>
    obtain ⟨n,longest,bound⟩ := ih (derivative_matches c p found)
    cases p with
    | nothing => cases found
    | _ => exact ⟨n+1,by simp only [List.cons_append,Pattern.longest,longest],Nat.succ_le_succ bound⟩

/-- No set of the pattern has `c` in it. -/
def avoids (c : α) : Pattern α → Bool
  | nothing => true
  | blank => true
  | set accepts => !accepts c
  | seq p q => p.avoids c && q.avoids c
  | alt p q => p.avoids c && q.avoids c
  | star p => p.avoids c

theorem not_mem_of_avoids (c : α) (found : p.Matches text) (avoids : p.avoids c = true) : c ∉ text := by
  induction found with
  | blank => exact List.not_mem_nil
  | set accepted =>
    rintro member
    cases List.mem_singleton.mp member
    simp [Pattern.avoids,accepted] at avoids
  | seq lhs rhs left right =>
    obtain ⟨first,second⟩ := Bool.and_eq_true_iff.mp avoids
    simp [left first,right second]
  | left _ ih => exact ih (Bool.and_eq_true_iff.mp avoids).1
  | right _ ih => exact ih (Bool.and_eq_true_iff.mp avoids).2
  | starNil => exact List.not_mem_nil
  | starCons one more head tail => simp [head avoids,tail avoids]

theorem star_set_matches {accepts : α → Bool} (all : ∀ c ∈ text, accepts c = true) : (star (set accepts)).Matches text := by
  induction text with
  | nil => exact .starNil
  | cons c text ih =>
    obtain ⟨first,others⟩ := List.forall_mem_cons.mp all
    exact .starCons (.set first) (ih others)

/-! ## Where matches end -/

/-- Matches that do not get past a text are found in the text alone. -/
theorem longest_append (text rest : List α) (past : ∀ c more, c ∈ rest.head? → ¬p.Matches (text ++ c :: more)) :
    p.longest (text ++ rest) = p.longest text := by
  induction text generalizing p with
  | nil =>
    cases rest with
    | nil => rfl
    | cons c rest =>
      have none : (p.derivative c).longest rest = none := by
        cases found : (p.derivative c).longest rest with
        | none => rfl
        | some n =>
          exact absurd (matches_of_derivative c p (matches_of_longest _ _ n found)) (past c _ rfl)
      cases p <;> simp only [List.nil_append,longest,none]
  | cons d text ih =>
    have same := ih (p := p.derivative d) fun c more here found =>
      past c more here (matches_of_derivative d p found)
    cases p <;> simp only [List.cons_append,longest,same]

/-- Some text of the pattern may begin with `c`. -/
def begins (c : α) : Pattern α → Bool
  | nothing => false
  | blank => false
  | set accepts => accepts c
  | seq p q => p.begins c || p.nullable && q.begins c
  | alt p q => p.begins c || q.begins c
  | star p => p.begins c

theorem begins_of_matches {c : α} (found : p.Matches (c :: text)) : p.begins c = true := by
  generalize whole : c :: text = read at found
  induction found generalizing text with
  | blank => cases whole
  | set accepted =>
    cases whole
    exact accepted
  | @seq p q first second lhs rhs left right =>
    cases first with
    | nil => simp [begins,right whole,nullable_of_matches lhs]
    | cons d first =>
      cases whole
      simp [begins,left rfl]
  | left _ ih => simp [begins,ih whole]
  | right _ ih => simp [begins,ih whole]
  | starNil => cases whole
  | @starCons p first rest one more head tail =>
    cases first with
    | nil => exact tail whole
    | cons d first =>
      cases whole
      exact head rfl

end Pattern

end Regex
