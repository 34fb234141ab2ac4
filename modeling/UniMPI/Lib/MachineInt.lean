import Mathlib.Data.Nat.Notation
import Mathlib.Tactic.Linarith

/-!
# Signed products

`mulChecked` is the product of two signed machine integers, which has no value when
it overflows. It has a value exactly if the product of the integers is in range
(`isSome_mulChecked_iff`), and that value is the product (`toInt_of_mulChecked`).
-/

namespace MachineInt

variable {w : ℕ} {a b c : BitVec w}

/-- The signed product, `none` when it overflows. -/
def mulChecked (a b : BitVec w) : Option (BitVec w) :=
  if a.smulOverflow b then none else some (a * b)

theorem not_smulOverflow_iff : ¬a.smulOverflow b = true ↔
    -2 ^ (w - 1) ≤ a.toInt * b.toInt ∧ a.toInt * b.toInt < 2 ^ (w - 1) := by
  simp only [BitVec.smulOverflow, Bool.or_eq_true, decide_eq_true_eq, not_or]
  omega

theorem isSome_mulChecked_iff : (mulChecked a b).isSome ↔
    -2 ^ (w - 1) ≤ a.toInt * b.toInt ∧ a.toInt * b.toInt < 2 ^ (w - 1) := by
  rw [← not_smulOverflow_iff]
  unfold mulChecked
  split_ifs with h <;> simp [h]

/-- The value is the exact product. -/
theorem toInt_of_mulChecked (h : mulChecked a b = some c) : c.toInt = a.toInt * b.toInt := by
  unfold mulChecked at h
  split_ifs at h with ho
  obtain rfl := Option.some.inj h
  exact BitVec.toInt_mul_of_not_smulOverflow ho

/-- A number below half the modulus is its own signed value. -/
theorem toInt_ofNat_of_lt {k : ℕ} (hk : k < 2 ^ (w - 1)) : (BitVec.ofNat w k).toInt = k := by
  cases w with
  | zero =>
    obtain rfl : k = 0 := by omega
    rfl
  | succ w =>
    have hpow : 2 ^ (w + 1) = 2 * 2 ^ w := Nat.pow_succ'
    rw [Nat.add_sub_cancel] at hk
    have htoNat : (BitVec.ofNat (w + 1) k).toNat = k := by
      rw [BitVec.toNat_ofNat, Nat.mod_eq_of_lt (by omega)]
    rw [BitVec.toInt_eq_toNat_of_lt (by omega), htoNat]

end MachineInt
