import StatsX.Lib.Run

/-!
# Inputs that an observer does not see

An observer of a machine sees some of the inputs and some of the state. When a hidden input changes
nothing that the observer sees, and a seen input does the same to states that look the same, then
the observer cannot tell a run from the run without the hidden inputs.

## Main definitions

* `purge hidden l`: the inputs of `l` that are not hidden
* `Unwinds step hidden R`: the conditions on single inputs, for states that look the same by `R`

## Main results

* `Unwinds.run_purge`: the run without the hidden inputs succeeds as well and looks the same
* `run_purge_eq`: inputs that leave every state alone may be left out
-/

namespace StatsX

universe u v w

variable {σ : Type u} {α : Type v} {ε : Type w} {step : α → σ → Except ε σ} {hidden : α → Bool}

/-- The inputs of `l` that are not hidden. -/
def purge (hidden : α → Bool) (l : List α) : List α := l.filter fun a => !hidden a

theorem purge_cons (a : α) (l : List α) :
    purge hidden (a :: l) = if hidden a then purge hidden l else a :: purge hidden l := by
  rw [purge, List.filter_cons]
  cases hidden a <;> rfl

/-- **The unwinding conditions.** A hidden input leaves a state that looks the same, and an input
that is seen takes states that look the same to states that look the same. -/
structure Unwinds (step : α → σ → Except ε σ) (hidden : α → Bool) (R : σ → σ → Prop) : Prop where
  hides : ∀ a s s' t, hidden a = true → R s t → step a s = .ok s' → R s' t
  shows : ∀ a s s' t, hidden a = false → R s t → step a s = .ok s' →
    ∃ t', step a t = .ok t' ∧ R s' t'

namespace Unwinds

variable {R : σ → σ → Prop}

/-- **The run without the hidden inputs** succeeds when the run does, and looks the same. -/
theorem run_purge (h : Unwinds step hidden R) {l : List α} {s s' t : σ} (hst : R s t)
    (hrun : run step l s = .ok s') : ∃ t', run step (purge hidden l) t = .ok t' ∧ R s' t' := by
  induction l generalizing s t with
  | nil =>
    obtain rfl := Except.ok.inj hrun
    exact ⟨t, rfl, hst⟩
  | cons a l ih =>
    rw [run_cons, bind_ok_iff] at hrun
    obtain ⟨s₁, hs₁, hrun⟩ := hrun
    rw [purge_cons]
    cases ha : hidden a with
    | true => exact ih (h.hides a s s₁ t ha hst hs₁) hrun
    | false =>
      obtain ⟨t₁, ht₁, hst₁⟩ := h.shows a s s₁ t ha hst hs₁
      obtain ⟨t', ht', hst'⟩ := ih hst₁ hrun
      refine ⟨t', ?_, hst'⟩
      rw [if_neg Bool.false_ne_true, run_cons, ht₁]
      exact ht'

end Unwinds

/-- **Inputs that leave every state alone** may be left out of a run. -/
theorem run_purge_eq (h : ∀ a, hidden a = true → ∀ s, step a s = .ok s) (l : List α) (s : σ) :
    run step (purge hidden l) s = run step l s := by
  induction l generalizing s with
  | nil => rfl
  | cons a l ih =>
    rw [purge_cons, run_cons]
    cases ha : hidden a with
    | true => rw [if_pos rfl, h a ha s, ok_bind, ih]
    | false =>
      rw [if_neg Bool.false_ne_true, run_cons]
      cases step a s with
      | error e => rfl
      | ok s₁ => exact ih s₁

end StatsX
