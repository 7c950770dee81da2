import Mathlib.Tactic.Basic

/-! Infinite runs of a machine in which every turn is total: one that cannot be taken changes
nothing. A schedule is fair to a kind of turn that it takes again and again. -/
namespace Interaction

/-- A machine with a state `σ` and turns `τ`. -/
structure Machine (σ τ : Type) where
  start : σ
  turn : σ → τ → σ

namespace Machine

variable {σ τ : Type} (machine : Machine σ τ)

/-- The state after `n` turns of the schedule. -/
def after (schedule : Nat → τ) : Nat → σ
  | 0 => machine.start
  | n+1 => machine.turn (after schedule n) (schedule n)

def Reachable (s : σ) : Prop := ∃ turns : List τ, turns.foldl machine.turn machine.start = s

theorem after_reachable (schedule : Nat → τ) (n : Nat) : machine.Reachable (machine.after schedule n) := by
  induction n with
  | zero => exact ⟨[],rfl⟩
  | succ n ih =>
    obtain ⟨turns,reached⟩ := ih
    refine ⟨turns ++ [schedule n],?_⟩
    rw [List.foldl_append,reached]
    rfl

variable {machine} {schedule : Nat → τ} {holds p q r e : σ → Prop} {helpful : τ → Prop}

/-- What holds at the start and is kept by every turn holds wherever the machine gets. -/
theorem Reachable.invariant (start : holds machine.start) (keeps : ∀ s t, holds s → holds (machine.turn s t))
    (reachable : machine.Reachable s) : holds s := by
  obtain ⟨turns,rfl⟩ := reachable
  generalize machine.start = s at start ⊢
  induction turns generalizing s with
  | nil => exact start
  | cons t turns ih => exact ih (machine.turn s t) (keeps s t start)

/-- The schedule takes a helpful turn after every time. -/
def Recurs (schedule : Nat → τ) (helpful : τ → Prop) : Prop := ∀ n, ∃ m ≥ n, helpful (schedule m)

/-- Whenever `p` holds, `q` holds then or later. -/
def LeadsTo (machine : Machine σ τ) (schedule : Nat → τ) (p q : σ → Prop) : Prop :=
  ∀ n, p (machine.after schedule n) → ∃ m ≥ n, q (machine.after schedule m)

namespace LeadsTo

theorem of_imp (imp : ∀ s, machine.Reachable s → p s → q s) : machine.LeadsTo schedule p q :=
  fun n holds => ⟨n,Nat.le_refl n,imp _ (machine.after_reachable schedule n) holds⟩

theorem trans (first : machine.LeadsTo schedule p q) (second : machine.LeadsTo schedule q r) :
    machine.LeadsTo schedule p r := by
  intro n holds
  obtain ⟨m,later,middle⟩ := first n holds
  obtain ⟨k,still,last⟩ := second m middle
  exact ⟨k,Nat.le_trans later still,last⟩

/-- What leads on, unless `e` happens. -/
theorem chain (first : machine.LeadsTo schedule p fun s => q s ∨ e s) (second : machine.LeadsTo schedule q fun s => r s ∨ e s) :
    machine.LeadsTo schedule p fun s => r s ∨ e s := by
  intro n holds
  obtain ⟨m,later,middle | escaped⟩ := first n holds
  · obtain ⟨k,still,last⟩ := second m middle
    exact ⟨k,Nat.le_trans later still,last⟩
  · exact ⟨m,later,.inr escaped⟩

theorem or_self (other : machine.LeadsTo schedule p q) : machine.LeadsTo schedule (fun s => p s ∨ q s) q :=
  fun n holds => holds.elim (other n) fun here => ⟨n,Nat.le_refl n,here⟩

/-- A fair schedule takes a helpful turn, and until then `p` holds or `q` does. -/
theorem of_turn (fair : Recurs schedule helpful)
    (keeps : ∀ s t, machine.Reachable s → p s → ¬helpful t → p (machine.turn s t) ∨ q (machine.turn s t))
    (helps : ∀ s t, machine.Reachable s → p s → helpful t → q (machine.turn s t)) : machine.LeadsTo schedule p q := by
  intro n holds
  obtain ⟨m,later,help⟩ := fair n
  obtain ⟨d,rfl⟩ := Nat.exists_eq_add_of_le later
  clear later
  -- induction on the number of turns before the helpful one
  induction d generalizing n with
  | zero => exact ⟨n+1,Nat.le_succ n,helps _ _ (machine.after_reachable schedule n) holds help⟩
  | succ d ih =>
    by_cases now : helpful (schedule n)
    · exact ⟨n+1,Nat.le_succ n,helps _ _ (machine.after_reachable schedule n) holds now⟩
    · rcases keeps _ _ (machine.after_reachable schedule n) holds now with still | reached
      · have same : n + 1 + d = n + (d+1) := by omega
        obtain ⟨m,later,reached⟩ := ih (n+1) still (same ▸ help)
        exact ⟨m,by omega,reached⟩
      · exact ⟨n+1,Nat.le_succ n,reached⟩

end LeadsTo

end Machine

end Interaction
