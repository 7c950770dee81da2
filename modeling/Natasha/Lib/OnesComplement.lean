import Mathlib.Data.Nat.ModEq
import Mathlib.Algebra.BigOperators.Group.List.Basic
import Mathlib.Tactic.Ring

/-! One's complement arithmetic on machine words of any width. `add` returns the
carry out of the top bit to the bottom bit; every law is stated modulo
`2^w - 1`, where the all-zeros and the all-ones word are the same residue, and
positivity decides which of the two an operation returns. -/
namespace OnesComplement

/-- Addition with end-around carry, as a machine computes it: the wrapped sum is
below an operand exactly when it wrapped. -/
def add (x y : BitVec w) : BitVec w :=
  let sum := x + y
  sum + (if sum < y then 1 else 0)

theorem add_toNat (x y : BitVec w) :
    (add x y).toNat = if x.toNat + y.toNat < 2^w then x.toNat + y.toNat
      else x.toNat + y.toNat - (2^w - 1) := by
  have hx := x.isLt
  have hy := y.isLt
  by_cases wide : x.toNat + y.toNat < 2^w
  · have plain : (x + y).toNat = x.toNat + y.toNat := by
      rw [BitVec.toNat_add,Nat.mod_eq_of_lt wide]
    have keep : ¬ x + y < y := by rw [BitVec.lt_def,plain]; omega
    simp [add,keep,plain,wide]
  · have wrapped : (x + y).toNat = x.toNat + y.toNat - 2^w := by
      rw [BitVec.toNat_add,Nat.mod_eq_sub_mod (by omega),Nat.mod_eq_of_lt (by omega)]
    have carry : x + y < y := by rw [BitVec.lt_def,wrapped]; omega
    have width : 1 < 2^w := by omega
    have one : (1 : BitVec w).toNat = 1 := by
      simp only [BitVec.ofNat_eq_ofNat,BitVec.toNat_ofNat]
      exact Nat.mod_eq_of_lt width
    simp only [add,carry,if_true,wide,if_false]
    rw [BitVec.toNat_add,wrapped,one,Nat.mod_eq_of_lt (by omega)]
    omega

theorem add_modEq (x y : BitVec w) :
    (add x y).toNat ≡ x.toNat + y.toNat [MOD 2^w - 1] := by
  rw [add_toNat]
  split
  · rfl
  · rename_i wide
    have reach : 2^w - 1 ≤ x.toNat + y.toNat := by omega
    exact ((Nat.modEq_iff_dvd' (Nat.sub_le _ _)).mpr (by
      rw [Nat.sub_sub_self reach]))

theorem add_pos (x y : BitVec w) (positive : 0 < x.toNat + y.toNat) : 0 < (add x y).toNat := by
  have hx := x.isLt
  have hy := y.isLt
  rw [add_toNat]
  split <;> omega

/-- One end-around reduction of a natural number to `w` bits. -/
def fold (w n : Nat) : Nat := n % 2^w + n / 2^w

theorem fold_modEq (w n : Nat) : fold w n ≡ n [MOD 2^w - 1] := by
  have split := Nat.mod_add_div n (2^w)
  have unit : 2^w ≡ 1 [MOD 2^w - 1] :=
    ((Nat.modEq_iff_dvd' Nat.one_le_two_pow).mpr (dvd_refl _)).symm
  calc fold w n = n % 2^w + 1 * (n / 2^w) := by rw [fold,Nat.one_mul]
    _ ≡ n % 2^w + 2^w * (n / 2^w) [MOD 2^w - 1] := Nat.ModEq.rfl.add (unit.symm.mul_right _)
    _ = n := split

theorem fold_pos (positive : 0 < n) : 0 < fold w n := by
  have split := Nat.mod_add_div n (2^w)
  rcases Nat.eq_zero_or_pos (n / 2^w) with high | high
  · rw [high,Nat.mul_zero,Nat.add_zero] at split
    rw [fold,split]
    exact Nat.lt_add_right _ positive
  · exact Nat.lt_of_lt_of_le high (Nat.le_add_left _ _)

def sum (words : List (BitVec w)) : BitVec w := words.foldl add 0

/-- The plain sum of the same words; `sum` is this number reduced to one word. -/
def total (words : List (BitVec w)) : Nat := (words.map BitVec.toNat).sum

@[simp] theorem total_nil : total ([] : List (BitVec w)) = 0 := rfl

@[simp] theorem total_cons (x : BitVec w) (words : List (BitVec w)) :
    total (x :: words) = x.toNat + total words := by simp [total]

@[simp] theorem total_append (xs ys : List (BitVec w)) :
    total (xs ++ ys) = total xs + total ys := by simp [total]

theorem total_pos_of_mem {words : List (BitVec w)} {x : BitVec w} (member : x ∈ words)
    (positive : 0 < x.toNat) : 0 < total words := by
  obtain ⟨before,after,rfl⟩ := List.append_of_mem member
  rw [total_append,total_cons]
  omega

/-- Exchanging one word of a list exchanges one summand. -/
theorem total_exchange (f g : Nat → BitVec w) (n k : Nat) (inside : k < n)
    (other : ∀ i, i ≠ k → g i = f i) :
    total ((List.range n).map g) + (f k).toNat = total ((List.range n).map f) + (g k).toNat := by
  induction n with
  | zero => omega
  | succ n ih =>
    simp only [List.range_succ,List.map_append,List.map_cons,List.map_nil,total_append,total_cons,total_nil]
    by_cases last : k = n
    · subst k
      have before : (List.range n).map g = (List.range n).map f :=
        List.map_congr_left fun i member => other i (by have := List.mem_range.mp member; omega)
      rw [before]
      omega
    · have tail := ih (by omega)
      rw [other n (by omega)]
      omega

theorem foldl_add_modEq (words : List (BitVec w)) (start : BitVec w) :
    (words.foldl add start).toNat ≡ start.toNat + total words [MOD 2^w - 1] := by
  induction words generalizing start with
  | nil => rfl
  | cons x words ih =>
    calc ((x :: words).foldl add start).toNat
        ≡ (add start x).toNat + total words [MOD 2^w - 1] := ih (add start x)
      _ ≡ start.toNat + x.toNat + total words [MOD 2^w - 1] := (add_modEq start x).add_right _
      _ = start.toNat + total (x :: words) := by rw [total_cons]; ring

theorem foldl_add_pos (words : List (BitVec w)) (start : BitVec w)
    (positive : 0 < start.toNat + total words) : 0 < (words.foldl add start).toNat := by
  induction words generalizing start with
  | nil => simpa using positive
  | cons x words ih =>
    rw [total_cons] at positive
    apply ih
    by_cases head : 0 < start.toNat + x.toNat
    · have := add_pos start x head
      omega
    · omega

theorem foldl_add_le (words : List (BitVec w)) (start : BitVec w) :
    (words.foldl add start).toNat ≤ start.toNat + total words := by
  induction words generalizing start with
  | nil => exact Nat.le_refl _
  | cons x words ih =>
    have tail := ih (add start x)
    have head : (add start x).toNat ≤ start.toNat + x.toNat := by
      rw [add_toNat]
      split <;> omega
    rw [total_cons]
    exact Nat.le_trans tail (by omega)

theorem sum_le_total (words : List (BitVec w)) : (sum words).toNat ≤ total words := by
  simpa [sum] using foldl_add_le words 0

theorem sum_modEq (words : List (BitVec w)) : (sum words).toNat ≡ total words [MOD 2^w - 1] := by
  simpa [sum] using foldl_add_modEq words 0

theorem sum_pos (words : List (BitVec w)) (positive : 0 < total words) : 0 < (sum words).toNat :=
  foldl_add_pos words 0 (by simpa using positive)

theorem eq_of_modEq_of_pos (x y : BitVec w) (hx : 0 < x.toNat) (hy : 0 < y.toNat)
    (same : x.toNat ≡ y.toNat [MOD 2^w - 1]) : x = y := by
  have bx := x.isLt
  have wy := y.isLt
  apply BitVec.eq_of_toNat_eq
  have shifted : x.toNat - 1 ≡ y.toNat - 1 [MOD 2^w - 1] := by
    apply Nat.ModEq.add_right_cancel' 1
    rwa [Nat.sub_add_cancel hx,Nat.sub_add_cancel hy]
  have := shifted.eq_of_lt_of_lt (by omega) (by omega)
  omega

theorem allOnes_modEq (w : Nat) : (BitVec.allOnes w).toNat ≡ 0 [MOD 2^w - 1] := by
  rw [BitVec.toNat_allOnes]
  exact Nat.modEq_zero_iff_dvd.mpr (dvd_refl _)

theorem total_modEq_zero {words : List (BitVec w)} (all : sum words = BitVec.allOnes w) :
    total words ≡ 0 [MOD 2^w - 1] :=
  (sum_modEq words).symm.trans (all ▸ allOnes_modEq w)

/-- A list of words verifies when its one's complement sum is the all-ones word. -/
theorem sum_eq_allOnes_iff (words : List (BitVec w)) (positive : 0 < total words) :
    sum words = BitVec.allOnes w ↔ total words ≡ 0 [MOD 2^w - 1] := by
  have ones : (BitVec.allOnes w).toNat = 2^w - 1 := BitVec.toNat_allOnes
  constructor
  · exact total_modEq_zero
  · intro zero
    have nonzero := sum_pos words positive
    have bound := (sum words).isLt
    apply eq_of_modEq_of_pos _ _ nonzero (by omega)
    exact (sum_modEq words).trans (zero.trans (allOnes_modEq w).symm)

end OnesComplement
