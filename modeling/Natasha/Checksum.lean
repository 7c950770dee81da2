import Natasha.Lib.OnesComplement
import Natasha.Mbuf
import Mathlib.Data.Int.ModEq

/-! The incremental checksum update. The code complements a 16-bit checksum as a
32-bit word, adds 32-bit operands with end-around carry and folds twice; all of it
is one congruence modulo `0xffff` together with the fact that the result is never
`0xffff`. Everything later is derived from these two. -/
namespace Natasha

/-- `cksum_update(csum, from, to)`. -/
def cksumUpdate (csum : U16) (before after : U32) : U16 :=
  let csumC : U32 := ~~~(csum.setWidth 32)
  let beforeC : U32 := ~~~before
  let res := csumC + beforeC
  let ret := res + (if res < beforeC then 1 else 0)
  let res2 := ret + after
  let ret2 := res2 + (if res2 < after then 1 else 0)
  let sum := (ret2 &&& 0xffff#32) + (ret2 >>> 16)
  let sum := (sum &&& 0xffff#32) + (sum >>> 16)
  (~~~sum).setWidth 16

/-- One of the two folds of the 32-bit accumulator. -/
def foldStep (x : U32) : U32 := (x &&& 0xffff#32) + (x >>> 16)

theorem cksumUpdate_eq (csum : U16) (before after : U32) :
    cksumUpdate csum before after = (~~~(foldStep (foldStep
      (OnesComplement.add (OnesComplement.add (~~~(csum.setWidth 32)) (~~~before)) after)))).setWidth 16 :=
  rfl

theorem foldStep_toNat (x : U32) : (foldStep x).toNat = OnesComplement.fold 16 x.toNat := by
  have bound := x.isLt
  have mask : (x &&& 0xffff#32).toNat = x.toNat % 65536 := by
    rw [BitVec.toNat_and]
    exact Nat.and_two_pow_sub_one_eq_mod x.toNat 16
  have shift : (x >>> 16).toNat = x.toNat / 65536 := by
    rw [BitVec.toNat_ushiftRight,Nat.shiftRight_eq_div_pow]
  rw [foldStep,BitVec.toNat_add,mask,shift,OnesComplement.fold]
  omega

theorem foldStep_twice_lt (x : U32) : (foldStep (foldStep x)).toNat < 65536 := by
  have bound := x.isLt
  rw [foldStep_toNat,foldStep_toNat,OnesComplement.fold,OnesComplement.fold]
  omega

/-- `0xffffffff` is a multiple of `0xffff`, so end-around addition at 32 bits also
respects the 16-bit residue. -/
theorem add32_modEq (x y : U32) :
    (OnesComplement.add x y).toNat ≡ x.toNat + y.toNat [MOD 65535] :=
  (OnesComplement.add_modEq x y).of_dvd (by decide)

theorem complement32_modEq (x : U32) : (~~~x).toNat + x.toNat ≡ 0 [MOD 65535] := by
  have bound := x.isLt
  have whole : (~~~x).toNat + x.toNat = 65535 * 65537 := by
    rw [BitVec.toNat_not]
    omega
  rw [whole]
  exact Nat.modEq_zero_iff_dvd.mpr (Dvd.intro _ rfl)

theorem cksumUpdate_toNat (csum : U16) (before after : U32) :
    (cksumUpdate csum before after).toNat = 65535 - (foldStep (foldStep (OnesComplement.add
      (OnesComplement.add (~~~(csum.setWidth 32)) (~~~before)) after))).toNat := by
  have bound := foldStep_twice_lt (OnesComplement.add
    (OnesComplement.add (~~~(csum.setWidth 32)) (~~~before)) after)
  rw [cksumUpdate_eq,BitVec.toNat_setWidth,BitVec.toNat_not]
  omega

/-- The update never stores `0xffff`: the complemented checksum has its upper half
set, so the accumulator is positive and no fold makes a positive number zero. -/
theorem cksumUpdate_lt (csum : U16) (before after : U32) :
    (cksumUpdate csum before after).toNat < 65535 := by
  have low := csum.isLt
  have positive : 0 < (~~~(csum.setWidth 32) : U32).toNat := by
    rw [BitVec.toNat_not,BitVec.toNat_setWidth]
    omega
  have first := OnesComplement.add_pos (~~~(csum.setWidth 32)) (~~~before) (by omega)
  have second := OnesComplement.add_pos _ after (Nat.lt_of_lt_of_le first (Nat.le_add_right _ _))
  have folded := OnesComplement.fold_pos (w := 16) (OnesComplement.fold_pos (w := 16) second)
  rw [← foldStep_toNat,← foldStep_toNat] at folded
  rw [cksumUpdate_toNat]
  omega

/-- What the update computes: the old checksum with the old word taken out and the
new one put in, modulo `0xffff`. -/
theorem cksumUpdate_modEq (csum : U16) (before after : U32) :
    (cksumUpdate csum before after).toNat + after.toNat ≡ csum.toNat + before.toNat [MOD 65535] := by
  have width : (csum.setWidth 32).toNat = csum.toNat := by
    rw [BitVec.toNat_setWidth]
    have := csum.isLt
    omega
  generalize hacc : OnesComplement.add
    (OnesComplement.add (~~~(csum.setWidth 32)) (~~~before)) after = acc
  have bound := foldStep_twice_lt acc
  have complement : (cksumUpdate csum before after).toNat + (foldStep (foldStep acc)).toNat ≡ 0
      [MOD 65535] := by
    rw [cksumUpdate_toNat,hacc,Nat.sub_add_cancel (by omega)]
    exact Nat.modEq_zero_iff_dvd.mpr (dvd_refl _)
  have folded : (foldStep (foldStep acc)).toNat ≡ acc.toNat [MOD 65535] := by
    rw [foldStep_toNat,foldStep_toNat]
    exact (OnesComplement.fold_modEq 16 _).trans (OnesComplement.fold_modEq 16 _)
  have summed : acc.toNat ≡ (~~~(csum.setWidth 32) : U32).toNat + (~~~before).toNat + after.toNat
      [MOD 65535] := by
    rw [← hacc]
    exact (add32_modEq _ _).trans ((add32_modEq _ _).add_right _)
  have old := complement32_modEq (csum.setWidth 32)
  have removed := complement32_modEq before
  rw [width] at old
  -- add the three complements: every complemented operand cancels
  have balance : (cksumUpdate csum before after).toNat + after.toNat +
      ((~~~(csum.setWidth 32) : U32).toNat + (~~~before).toNat) ≡
      csum.toNat + before.toNat + ((~~~(csum.setWidth 32) : U32).toNat + (~~~before).toNat)
      [MOD 65535] := by
    calc _ = (cksumUpdate csum before after).toNat +
          ((~~~(csum.setWidth 32) : U32).toNat + (~~~before).toNat + after.toNat) := by ring
      _ ≡ (cksumUpdate csum before after).toNat + (foldStep (foldStep acc)).toNat [MOD 65535] :=
        (folded.trans summed).symm.add_left _
      _ ≡ 0 + 0 [MOD 65535] := complement
      _ ≡ ((~~~(csum.setWidth 32) : U32).toNat + csum.toNat) + ((~~~before).toNat + before.toNat)
          [MOD 65535] := (old.add removed).symm
      _ = _ := by ring
  exact balance.add_right_cancel'

/-- Residue and range determine the stored value, so a checksum below `0xffff` that
satisfies the congruence is the one the update stores. -/
theorem cksumUpdate_unique (csum c : U16) (before after : U32) (range : c.toNat < 65535)
    (congruent : c.toNat + after.toNat ≡ csum.toNat + before.toNat [MOD 65535]) :
    cksumUpdate csum before after = c := by
  apply BitVec.eq_of_toNat_eq
  have same := (cksumUpdate_modEq csum before after).trans congruent.symm
  exact same.add_right_cancel'.eq_of_lt_of_lt (cksumUpdate_lt csum before after) range

theorem cksumUpdate_trans (csum : U16) (a b d : U32) :
    cksumUpdate (cksumUpdate csum a b) b d = cksumUpdate csum a d := by
  apply cksumUpdate_unique _ _ _ _ (cksumUpdate_lt csum a d)
  exact (cksumUpdate_modEq csum a d).trans (cksumUpdate_modEq csum a b).symm

/-- The order of two updates does not matter, not even for which of the two zeros is stored. -/
theorem cksumUpdate_comm (csum : U16) (a a' b b' : U32) :
    cksumUpdate (cksumUpdate csum a a') b b' = cksumUpdate (cksumUpdate csum b b') a a' := by
  generalize once : cksumUpdate csum a a' = left
  generalize other : cksumUpdate csum b b' = right
  have first : left.toNat + a'.toNat ≡ csum.toNat + a.toNat [MOD 65535] := once ▸ cksumUpdate_modEq csum a a'
  have second : right.toNat + b'.toNat ≡ csum.toNat + b.toNat [MOD 65535] := other ▸ cksumUpdate_modEq csum b b'
  apply cksumUpdate_unique _ _ _ _ (cksumUpdate_lt _ a a')
  apply Nat.ModEq.add_right_cancel' a'.toNat
  calc (cksumUpdate right a a').toNat + b'.toNat + a'.toNat
      = (cksumUpdate right a a').toNat + a'.toNat + b'.toNat := by ring
    _ ≡ right.toNat + a.toNat + b'.toNat [MOD 65535] := (cksumUpdate_modEq right a a').add_right _
    _ = right.toNat + b'.toNat + a.toNat := by ring
    _ ≡ csum.toNat + b.toNat + a.toNat [MOD 65535] := second.add_right _
    _ = csum.toNat + a.toNat + b.toNat := by ring
    _ ≡ left.toNat + a'.toNat + b.toNat [MOD 65535] := first.symm.add_right _
    _ = left.toNat + b.toNat + a'.toNat := by ring

/-- Loading checksum and words in the other byte order multiplies every residue by 256. -/
theorem cksumUpdate_swapped (csum : U16) (before after : U32) :
    cksumUpdate (rteBeToCpu16 csum) (rteBeToCpu32 before) (rteBeToCpu32 after) =
      rteBeToCpu16 (cksumUpdate csum before after) := by
  generalize updated : cksumUpdate csum before after = c
  have range : c.toNat < 65535 := updated ▸ cksumUpdate_lt csum before after
  have congruent : c.toNat + after.toNat ≡ csum.toNat + before.toNat [MOD 65535] :=
    updated ▸ cksumUpdate_modEq csum before after
  apply cksumUpdate_unique
  · have value : (rteBeToCpu16 c).toNat = c.toNat / 256 + 256 * (c.toNat % 256) := by
      rw [rteBeToCpu16,BitVec.toNat_ofNat,Nat.mod_eq_of_lt (by omega)]
    omega
  · calc (rteBeToCpu16 c).toNat + (rteBeToCpu32 after).toNat
        ≡ 256 * c.toNat + 256 * after.toNat [MOD 65535] :=
          (rteBeToCpu16_modEq c).add (rteBeToCpu32_modEq after)
      _ = 256 * (c.toNat + after.toNat) := (Nat.mul_add ..).symm
      _ ≡ 256 * (csum.toNat + before.toNat) [MOD 65535] := congruent.mul_left 256
      _ = 256 * csum.toNat + 256 * before.toNat := Nat.mul_add ..
      _ ≡ (rteBeToCpu16 csum).toNat + (rteBeToCpu32 before).toNat [MOD 65535] :=
          ((rteBeToCpu16_modEq csum).add (rteBeToCpu32_modEq before)).symm

/-- The sum of the two 16-bit halves of a word. -/
def halves (x : U32) : Nat := (x.extractLsb' 16 16).toNat + (x.extractLsb' 0 16).toNat

theorem halves_modEq (x : U32) : halves x ≡ x.toNat [MOD 65535] := by
  have bound := x.isLt
  have high : (x.extractLsb' 16 16).toNat = x.toNat / 2^16 := by
    rw [BitVec.extractLsb'_toNat,Nat.shiftRight_eq_div_pow]
    omega
  have low : (x.extractLsb' 0 16).toNat = x.toNat % 2^16 := by
    rw [BitVec.extractLsb'_toNat,Nat.shiftRight_zero]
  rw [halves,high,low,Nat.add_comm]
  exact OnesComplement.fold_modEq 16 x.toNat

theorem cksumUpdate_halves (csum : U16) (before after : U32) :
    ((cksumUpdate csum before after).toNat : ℤ) ≡
      csum.toNat + halves before - halves after [ZMOD 65535] := by
  have summed : (cksumUpdate csum before after).toNat + halves after ≡
      csum.toNat + halves before [MOD 65535] :=
    calc (cksumUpdate csum before after).toNat + halves after
        ≡ (cksumUpdate csum before after).toNat + after.toNat [MOD 65535] := (halves_modEq after).add_left _
      _ ≡ csum.toNat + before.toNat [MOD 65535] := cksumUpdate_modEq csum before after
      _ ≡ csum.toNat + halves before [MOD 65535] := (halves_modEq before).symm.add_left _
  have integer := (Int.natCast_modEq_iff.mpr summed).sub_right (halves after : ℤ)
  simpa using integer

theorem cksumUpdate_back (csum : U16) (a b : U32) :
    cksumUpdate (cksumUpdate csum a b) b a = if csum = 0xffff then 0 else csum := by
  rw [cksumUpdate_trans]
  have bound := csum.isLt
  apply cksumUpdate_unique
  · split
    · decide
    · rename_i other
      have : csum.toNat ≠ 65535 := fun same => other (BitVec.eq_of_toNat_eq same)
      omega
  · split
    · rename_i ones
      rw [ones]
      exact (show (0#16).toNat ≡ (0xffff#16).toNat [MOD 65535] from rfl).add_right _
    · rfl

theorem cksumUpdate_algebra (c : U16) (a b d : U32) :
    cksumUpdate c a b ≠ 0xffff ∧
    ((cksumUpdate c a b).toNat : ℤ) ≡ c.toNat + halves a - halves b [ZMOD 65535] ∧
    cksumUpdate (rteBeToCpu16 c) (rteBeToCpu32 a) (rteBeToCpu32 b) = rteBeToCpu16 (cksumUpdate c a b) ∧
    cksumUpdate (cksumUpdate c a b) b d = cksumUpdate c a d ∧
    cksumUpdate (cksumUpdate c a b) b a = if c = 0xffff then 0 else c := by
  refine ⟨?_,cksumUpdate_halves c a b,cksumUpdate_swapped c a b,cksumUpdate_trans c a b d,
    cksumUpdate_back c a b⟩
  intro ones
  have bound := cksumUpdate_lt c a b
  rw [ones] at bound
  exact absurd bound (by decide)

example : cksumUpdate 0xb1e6 0x0a000102 0x0a000102 = 0xb1e6 := by decide

end Natasha
