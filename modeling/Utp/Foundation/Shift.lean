import Utp.Foundation.Checked

/-!
# Shifted words

Adding a constant to sixteen-bit words is a one-to-one renaming.  On a range of
words that wraps around as a whole, or not at all, it keeps the order and
commutes with checked addition.
-/

namespace Utp
namespace Foundation

def shift (d : UInt16) : UInt16 ≃ UInt16 where
  toFun n := n + d
  invFun n := n - d
  left_inv n := UInt16.add_sub_cancel n d
  right_inv n := UInt16.sub_add_cancel n d

@[simp] theorem shift_apply (d n : UInt16) : shift d n = n + d := rfl

theorem shift_sub_shift (d a b : UInt16) : shift d a - shift d b = a - b := by
  simp only [shift_apply]
  grind

/-- A word of the range that is not its end. -/
def Inside (lo hi : Nat) (n : UInt16) : Prop :=
  lo <= n.toNat ∧ n.toNat < hi

instance (lo hi : Nat) (n : UInt16) : Decidable (Inside lo hi n) :=
  inferInstanceAs (Decidable (_ ∧ _))

/-- Adding `d` wraps the words from `lo` to `hi` around all together or not at
all. -/
structure Unsplit (d : UInt16) (lo hi : Nat) : Prop where
  top : hi < 65536
  together : hi + d.toNat < 65536 ∨ 65536 <= lo + d.toNat

section Unsplit

variable {d : UInt16} {lo hi : Nat} (h : Unsplit d lo hi)

theorem Unsplit.toNat_shift (h : Unsplit d lo hi) :
    exists lap, forall a : UInt16, lo <= a.toNat -> a.toNat <= hi ->
      (shift d a).toNat + lap = a.toNat + d.toNat := by
  have htop := h.top
  have hd := d.toNat_lt
  rcases h.together with hfit | hwrap
  · refine ⟨0, fun a hlow hhigh => ?_⟩
    rw [shift_apply, UInt16.toNat_add]
    omega
  · refine ⟨65536, fun a hlow hhigh => ?_⟩
    rw [shift_apply, UInt16.toNat_add]
    omega

include h in
theorem Unsplit.lt_iff {a b : UInt16} (ha : Inside lo hi a) (hb : Inside lo hi b) :
    shift d a < shift d b <-> a < b := by
  rcases h.toNat_shift with ⟨lap, hlap⟩
  have hshifta := hlap a ha.1 (Nat.le_of_lt ha.2)
  have hshiftb := hlap b hb.1 (Nat.le_of_lt hb.2)
  rw [UInt16.lt_iff_toNat_lt, UInt16.lt_iff_toNat_lt]
  omega

include h in
theorem Unsplit.compare_eq {a b : UInt16} (ha : Inside lo hi a) (hb : Inside lo hi b) :
    compare (shift d a) (shift d b) = compare a b := by
  show compareOfLessAndEq _ _ = compareOfLessAndEq _ _
  simp only [compareOfLessAndEq, h.lt_iff ha hb, (shift d).injective.eq_iff]

include h in
theorem Unsplit.addU16_eq {a b : UInt16} (hlow : lo <= a.toNat)
    (hsum : a.toNat + b.toNat <= hi) :
    addU16 (shift d a) b = (addU16 a b).map (shift d) := by
  have htop := h.top
  rcases h.toNat_shift with ⟨lap, hlap⟩
  have hshift := hlap a hlow (by omega)
  have hadd : (a + b).toNat = a.toNat + b.toNat := by
    rw [UInt16.toNat_add]
    omega
  have hshifted := hlap (a + b) (by omega) (by omega)
  rw [addU16_eq_ok.mpr hadd]
  exact addU16_eq_ok.mpr (by omega)

end Unsplit

end Foundation
end Utp
