import Mathlib.Algebra.Order.Ring.Int
import Mathlib.Data.BitVec
import StatsX.Lib.Tally

/-!
# Words that do not wrap

A word of width `w` stands for a signed integer. Additions of words are additions of integers as
long as no sum leaves the range, and so is a tally of amounts that are not negative as long as it
stays below the upper bound.

## Main results

* `toInt_add_of_natAbs_lt`: the sum of two words that stays in range
* `toInt_tally`: the tally of amounts that are not negative
* `toInt_ofNat_of_lt`: the word of a small number
-/

namespace StatsX

variable {w : ℕ}

/-- **A sum of words that stays in range** is the sum of the integers. -/
theorem toInt_add_of_natAbs_lt {x y : BitVec w} (h : (x.toInt + y.toInt).natAbs < 2 ^ (w - 1)) :
    (x + y).toInt = x.toInt + y.toInt := by
  apply BitVec.toInt_add_of_not_saddOverflow
  intro hover
  have hpow : ((2 ^ (w - 1) : ℕ) : ℤ) = 2 ^ (w - 1) := by simp
  simp only [BitVec.saddOverflow, Bool.or_eq_true, decide_eq_true_eq] at hover
  omega

/-- The same for words that are not negative. -/
theorem toInt_add_of_lt {x y : BitVec w} (hx : 0 ≤ x.toInt) (hy : 0 ≤ y.toInt)
    (h : x.toInt + y.toInt < 2 ^ (w - 1)) : (x + y).toInt = x.toInt + y.toInt := by
  apply toInt_add_of_natAbs_lt
  have hpow : ((2 ^ (w - 1) : ℕ) : ℤ) = 2 ^ (w - 1) := by simp
  omega

theorem toInt_ofNat_of_lt {n : ℕ} (h : n < 2 ^ (w - 1)) : (BitVec.ofNat w n).toInt = n := by
  cases w with
  | zero => simp_all
  | succ w =>
    rw [Nat.add_sub_cancel] at h
    have htwo : 2 ^ (w + 1) = 2 * 2 ^ w := by rw [pow_succ, mul_comm]
    have hlt : n < 2 ^ (w + 1) := by omega
    rw [BitVec.toInt_eq_toNat_of_lt, BitVec.toNat_ofNat, Nat.mod_eq_of_lt hlt]
    rw [BitVec.toNat_ofNat, Nat.mod_eq_of_lt hlt]
    omega

variable {E K : Type*} [DecidableEq K] (key : E → K) {amount : E → BitVec w}

/-- **A tally of words that are not negative**, below the upper bound, is the tally of the
integers. -/
theorem toInt_tally {log : List E} (hpos : ∀ e ∈ log, 0 ≤ (amount e).toInt) {x : K}
    (h : tally key (fun e => (amount e).toInt) log x < 2 ^ (w - 1)) :
    (tally key amount log x).toInt = tally key (fun e => (amount e).toInt) log x := by
  induction log using List.reverseRecOn with
  | nil => simp
  | append_singleton log e ih =>
    have hlog : ∀ e ∈ log, 0 ≤ (amount e).toInt := fun e he => hpos e (by simp [he])
    have he : 0 ≤ (amount e).toInt := hpos e (by simp)
    have hsum := tally_nonneg key hlog x
    rw [tally_concat] at h ⊢
    rw [tally_concat]
    by_cases hx : key e = x
    · -- the tally before the entry is smaller still, so neither it nor the sum wraps
      rw [if_pos hx] at h ⊢
      rw [if_pos hx]
      have hih := ih hlog (by omega)
      rw [toInt_add_of_lt (by omega) he (by omega), hih]
    · rw [if_neg hx, add_zero] at h ⊢
      rw [if_neg hx, add_zero]
      exact ih hlog h

end StatsX
