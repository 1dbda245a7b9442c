import Mathlib

/-! Masks of words: a number of ones, then zeros. Under a mask the low bits of a
word are gone, so what is left is a multiple of a power of two, and two words are
the same under a mask exactly when their top bits are. -/

namespace Cloyster.Lib.PrefixMask

variable {w : ℕ}

/-- `p` ones, then zeros. -/
def mask (w p : ℕ) : BitVec w := BitVec.allOnes w <<< (w - p)

/-- The bits of the word, from the top, are `p` ones and then zeros. -/
def OnesThenZeros (bits : BitVec w) (p : ℕ) : Prop :=
  p ≤ w ∧ ∀ i < w, bits.getMsbD i = decide (i < p)

theorem getMsbD_mask (w p i : ℕ) :
    (mask w p).getMsbD i = (decide (i < w) && decide (i < p)) := by
  rw [mask, BitVec.getMsbD_shiftLeft, Bool.eq_iff_iff]
  simp
  omega

theorem onesThenZeros_iff {bits : BitVec w} {p : ℕ} :
    OnesThenZeros bits p ↔ p ≤ w ∧ bits = mask w p := by
  apply and_congr_right
  intro _
  constructor
  · intro h
    apply BitVec.eq_of_getMsbD_eq
    intro i hi
    rw [h i hi, getMsbD_mask]
    simp [hi]
  · rintro rfl i hi
    rw [getMsbD_mask]
    simp [hi]

/-- No two masks of a width are the same. -/
theorem mask_inj {p q : ℕ} (hp : p ≤ w) (hq : q ≤ w) : mask w p = mask w q ↔ p = q := by
  refine ⟨fun h => ?_, congrArg (mask w)⟩
  by_contra hne
  have hbit := congrArg (·.getMsbD (min p q)) h
  simp only [getMsbD_mask] at hbit
  rcases Nat.lt_or_gt_of_ne hne with hlt | hlt
  · simp [show p < w by omega, hlt, hlt.le] at hbit
  · simp [show q < w by omega, hlt, hlt.le] at hbit

theorem and_mask (a : BitVec w) (p : ℕ) : a &&& mask w p = (a >>> (w - p)) <<< (w - p) := by
  apply BitVec.eq_of_getMsbD_eq
  intro i hi
  rw [BitVec.getMsbD_and, getMsbD_mask, BitVec.getMsbD_shiftLeft, BitVec.getMsbD_ushiftRight]
  by_cases hlt : i < p
  · have hback : i + (w - p) - (w - p) = i := by omega
    have hin : i + (w - p) < w := by omega
    simp [hi, hlt, hback, hin]
  · have hout : ¬ i + (w - p) < w := by omega
    simp [hlt, hout]

/-- The value under a mask: the largest multiple of a power of two below the word. -/
theorem toNat_and_mask (a : BitVec w) (p : ℕ) :
    (a &&& mask w p).toNat = a.toNat / 2 ^ (w - p) * 2 ^ (w - p) := by
  rw [and_mask, BitVec.toNat_shiftLeft, BitVec.toNat_ushiftRight, Nat.shiftRight_eq_div_pow,
    Nat.shiftLeft_eq]
  apply Nat.mod_eq_of_lt
  exact lt_of_le_of_lt (Nat.div_mul_le_self _ _) a.isLt

theorem and_mask_idem (a m : BitVec w) : a &&& m &&& m = a &&& m := by
  rw [BitVec.and_assoc, BitVec.and_self]

/-- Two words agree under a mask exactly when their top bits agree. -/
theorem and_mask_inj {a b : BitVec w} {p : ℕ} (hp : p ≤ w) :
    a &&& mask w p = b &&& mask w p ↔ ∀ i < p, a.getMsbD i = b.getMsbD i := by
  constructor
  · intro h i hi
    have hbit := congrArg (·.getMsbD i) h
    have hin : i < w := by omega
    simpa only [BitVec.getMsbD_and, getMsbD_mask, hi, hin, decide_true, Bool.and_true] using hbit
  · intro h
    apply BitVec.eq_of_getMsbD_eq
    intro i _
    rw [BitVec.getMsbD_and, BitVec.getMsbD_and, getMsbD_mask]
    by_cases hlt : i < p
    · rw [h i hlt]
    · simp [hlt]

end Cloyster.Lib.PrefixMask
