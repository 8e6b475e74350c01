import Mathlib.Algebra.BigOperators.Group.List.Basic
import Mathlib.Data.List.DropRight
import StatsX.Lib.Run

/-!
# What happened since

A counter that some inputs reset is a sum over the inputs after the last of them. `since p l`
are these inputs, and a quantity with the matching step equation is the sum over them.

## Main definitions

* `since p l`: the inputs of `l` after the last one that satisfies `p`

## Main results

* `since_concat`: one more input empties the list or joins it
* `run_eq_sum_since`: a counter of a machine is the sum of its gains since its last reset
-/

namespace StatsX

variable {σ α ε M : Type*}

/-- The inputs of `l` after the last one that satisfies `p`. -/
def since (p : α → Bool) (l : List α) : List α := l.rtakeWhile fun a => !p a

variable {p q : α → Bool} {l : List α} {a : α}

@[simp] theorem since_nil : since p [] = [] := rfl

theorem since_concat : since p (l ++ [a]) = if p a then [] else since p l ++ [a] := by
  rw [since, List.rtakeWhile_concat]
  cases p a <;> rfl

theorem since_eq_self (h : ∀ a ∈ l, p a = false) : since p l = l :=
  List.rtakeWhile_eq_self_iff.mpr fun a ha => by rw [h a ha]; rfl

theorem since_suffix : since p l <:+ l := List.rtakeWhile_suffix _ l

/-- After more inputs, what happened since is among these or had happened since before. -/
theorem mem_since_append {l' : List α} (h : a ∈ since p (l ++ l')) : a ∈ since p l ∨ a ∈ l' := by
  induction l' using List.reverseRecOn with
  | nil => exact .inl (by simpa using h)
  | append_singleton l' b ih =>
    rw [← List.append_assoc, since_concat] at h
    split_ifs at h
    · simp at h
    · rcases List.mem_append.mp h with h | h
      · exact (ih h).imp_right (List.mem_append_left _)
      · exact .inr (List.mem_append_right _ h)

theorem since_map {β : Type*} (f : α → β) (p : β → Bool) (l : List α) :
    since p (l.map f) = (since (fun a => p (f a)) l).map f := by
  induction l using List.reverseRecOn with
  | nil => rfl
  | append_singleton l a ih =>
    rw [List.map_append, List.map_singleton, since_concat, since_concat, ih]
    cases p (f a) <;> simp

/-- **A counter of a machine is the sum of its gains since its last reset.** -/
theorem run_eq_sum_since [AddCommMonoid M] {step : α → σ → Except ε σ} {v : σ → M} {gain : α → M}
    {s s' : σ} (start : v s = 0) (hgain : ∀ a, p a = true → gain a = 0)
    (next : ∀ a t t', step a t = .ok t' → v t' = (if p a then 0 else v t) + gain a)
    (h : run step l s = .ok s') : v s' = ((since p l).map gain).sum := by
  refine run_induction (P := fun l t => v t = ((since p l).map gain).sum) start ?_ h
  intro l a t t' _ _ ih ha
  rw [next a t t' ha, ih, since_concat]
  -- a reset gains nothing itself, so the sum starts again from nothing
  cases hp : p a with
  | true => simp [hgain a hp]
  | false => simp

end StatsX
