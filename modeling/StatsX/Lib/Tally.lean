import Mathlib.Algebra.BigOperators.Group.Finset.Basic
import Mathlib.Data.Nat.Cast.Basic
import Mathlib.Algebra.Order.BigOperators.Group.List
import Mathlib.Data.Fintype.BigOperators

/-!
# Tallies of a log

A log is a list of entries; each entry has a key and an amount. The tally of a key is the total
amount of the entries under it. Tallies of one log under two keys are related as far as the keys
are: a table kept by a pair of keys sums to the table kept by one of them, and every table sums
to the total of the log.

## Main definitions

* `tally key amount log x`: the total amount of the entries of `log` under the key `x`

## Main results

* `tally_concat`: one more entry changes the tally of its key
* `sum_tally`, `sum_tally_pair`: a table sums to the total, and a table of pairs to the table of
  their first components
* `sum_tally_eq_of_iff`, `sum_tally_le_of_imp`: the tallies of a set of keys against the tally of
  another key
-/

namespace StatsX

variable {E K L M : Type*} [DecidableEq K] [DecidableEq L]

section AddCommMonoid

variable [AddCommMonoid M]

/-- The total amount of the entries of `log` under the key `x`. -/
def tally (key : E → K) (amount : E → M) (log : List E) (x : K) : M :=
  ((log.filter fun e => key e = x).map amount).sum

variable (key : E → K) (amount : E → M)

@[simp] theorem tally_nil (x : K) : tally key amount [] x = 0 := rfl

theorem tally_append (log log' : List E) (x : K) :
    tally key amount (log ++ log') x = tally key amount log x + tally key amount log' x := by
  simp [tally]

theorem tally_singleton (e : E) (x : K) :
    tally key amount [e] x = if key e = x then amount e else 0 := by
  by_cases h : key e = x <;> simp [tally, h]

/-- **One more entry** changes the tally of its key. -/
theorem tally_concat (log : List E) (e : E) (x : K) :
    tally key amount (log ++ [e]) x =
      tally key amount log x + if key e = x then amount e else 0 := by
  rw [tally_append, tally_singleton]

/-- No entry is under the key. -/
theorem tally_eq_zero {log : List E} {x : K} (h : ∀ e ∈ log, key e ≠ x) :
    tally key amount log x = 0 := by
  have hnone : (log.filter fun e => key e = x) = [] :=
    List.filter_eq_nil_iff.mpr fun e he => by simpa using h e he
  rw [tally, hnone]
  rfl

/-- The tally of ones is a count. -/
theorem tally_one {M : Type*} [AddCommMonoidWithOne M] (log : List E) (x : K) :
    tally key (fun _ => (1 : M)) log x = (log.countP fun e => key e = x : ℕ) := by
  simp [tally, List.countP_eq_length_filter]

/-- The tallies of a set of keys sum to the total of the entries under them. -/
theorem sum_tally_mem (s : Finset K) (log : List E) :
    ∑ x ∈ s, tally key amount log x = ((log.filter fun e => key e ∈ s).map amount).sum := by
  induction log using List.reverseRecOn with
  | nil => simp
  | append_singleton log e ih =>
    simp only [tally_concat, Finset.sum_add_distrib, ih, List.filter_append, List.map_append,
      List.sum_append, Finset.sum_ite_eq]
    -- the entry falls under one key of the set or under none
    by_cases h : key e ∈ s <;> simp [h]

/-- **Every table sums to the total of the log.** -/
theorem sum_tally [Fintype K] (log : List E) :
    ∑ x, tally key amount log x = (log.map amount).sum := by
  simp [sum_tally_mem]

/-- **A table of pairs sums, over its second components, to the table of the first.** -/
theorem sum_tally_pair [Fintype L] (sub : E → L) (log : List E) (x : K) :
    ∑ y, tally (fun e => (key e, sub e)) amount log (x, y) = tally key amount log x := by
  induction log using List.reverseRecOn with
  | nil => simp
  | append_singleton log e ih =>
    simp only [tally_concat, Finset.sum_add_distrib, ih, Prod.mk.injEq, ite_and]
    by_cases h : key e = x <;> simp [h]

/-- The tallies of a set of keys sum to the tally of another key under which the same entries
fall. -/
theorem sum_tally_eq_of_iff {key' : E → L} {log : List E} {s : Finset K} {y : L}
    (h : ∀ e ∈ log, key e ∈ s ↔ key' e = y) :
    ∑ x ∈ s, tally key amount log x = tally key' amount log y := by
  rw [sum_tally_mem, tally]
  congr 2
  exact List.filter_congr fun e he => decide_eq_decide.mpr (h e he)

end AddCommMonoid

section Ordered

variable [AddCommMonoid M] [PartialOrder M] [IsOrderedAddMonoid M] (key : E → K) {amount : E → M}

theorem tally_nonneg {log : List E} (h : ∀ e ∈ log, 0 ≤ amount e) (x : K) :
    0 ≤ tally key amount log x := by
  apply List.sum_nonneg
  intro m hm
  obtain ⟨e, he, rfl⟩ := List.mem_map.mp hm
  exact h e (List.mem_filter.mp he).1

/-- The tallies of a set of keys are together at most the tally of a key under which every
entry falls that counts for one of them. -/
theorem sum_tally_le_of_imp {key' : E → L} {log : List E} {s : Finset K} {y : L}
    (hpos : ∀ e ∈ log, 0 ≤ amount e)
    (h : ∀ e ∈ log, key e ∈ s → amount e ≠ 0 → key' e = y) :
    ∑ x ∈ s, tally key amount log x ≤ tally key' amount log y := by
  rw [sum_tally_mem]
  induction log with
  | nil => simp
  | cons e log ih =>
    have hrest := ih (fun e he => hpos e (List.mem_cons_of_mem _ he))
      (fun e he => h e (List.mem_cons_of_mem _ he))
    have he := hpos e List.mem_cons_self
    have hkey := h e List.mem_cons_self
    unfold tally at hrest ⊢
    by_cases hs : key e ∈ s
    · -- the entry counts on the left: on the right as well, unless its amount is zero
      by_cases h₀ : amount e = 0
      · by_cases hy : key' e = y <;> simp [hs, h₀, hy] <;> simpa using hrest
      · simp only [hs, decide_true, List.filter_cons_of_pos, List.map_cons, List.sum_cons,
          hkey hs h₀]
        exact add_le_add_right hrest _
    · -- it does not count on the left, and on the right it is no less than zero
      by_cases hy : key' e = y
      · simp only [hs, hy, decide_false, decide_true, List.filter_cons_of_pos, List.map_cons,
          List.sum_cons, Bool.false_eq_true, not_false_eq_true, List.filter_cons_of_neg]
        exact le_add_of_nonneg_of_le he hrest
      · simpa [hs, hy] using hrest

end Ordered

end StatsX
