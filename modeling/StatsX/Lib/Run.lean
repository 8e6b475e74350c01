import Mathlib.Data.List.Infix
import Mathlib.Data.List.Induction
import StatsX.Lib.Bounded

/-!
# Runs of a machine that may fail

A machine steps from a state to a state, or fails; a run is a list of inputs. The rules here are
inductions from the end of a run: a property of the inputs so far and the state they lead to is
shown of the empty run and carried over one more input.

## Main definitions

* `run step l s`: the state after the inputs `l`, from the state `s`

## Main results

* `run_append`, `run_concat_ok_iff`: runs one after the other
* `run_induction`: the invariant rule, on the inputs so far and the state
* `run_simulation`: the simulation rule, on two runs of the same inputs
* `run_progress`: a run whose every step succeeds succeeds
* `toOption_run_map`: renaming the inputs and the states
-/

namespace StatsX

universe u v w

variable {σ : Type u} {α : Type v} {ε : Type w} (step : α → σ → Except ε σ)

/-- The state after the inputs `l`, from the state `s`. -/
def run : List α → σ → Except ε σ
  | [], s => .ok s
  | a :: l, s => step a s >>= run l

@[simp] theorem run_nil (s : σ) : run step [] s = .ok s := rfl

@[simp] theorem run_cons (a : α) (l : List α) (s : σ) :
    run step (a :: l) s = step a s >>= run step l := rfl

theorem run_append (l l' : List α) (s : σ) :
    run step (l ++ l') s = run step l s >>= run step l' := by
  induction l generalizing s with
  | nil => rfl
  | cons a l ih =>
    rw [List.cons_append, run_cons, run_cons]
    cases step a s with
    | error e => rfl
    | ok t => exact ih t

theorem run_concat (l : List α) (a : α) (s : σ) :
    run step (l ++ [a]) s = run step l s >>= step a := by
  rw [run_append]
  cases run step l s with
  | error e => rfl
  | ok t =>
    rw [ok_bind, ok_bind, run_cons]
    cases step a t <;> rfl

variable {step}

theorem run_append_ok_iff {l l' : List α} {s s' : σ} :
    run step (l ++ l') s = .ok s' ↔ ∃ t, run step l s = .ok t ∧ run step l' t = .ok s' := by
  rw [run_append, bind_ok_iff]

theorem run_concat_ok_iff {l : List α} {a : α} {s s' : σ} :
    run step (l ++ [a]) s = .ok s' ↔ ∃ t, run step l s = .ok t ∧ step a t = .ok s' := by
  rw [run_concat, bind_ok_iff]

/-- **The invariant rule.** A property of the inputs so far and the state holds at the end of a
run when it holds at its start and every step of the run carries it over. -/
theorem run_induction {P : List α → σ → Prop} {l : List α} {s s' : σ} (start : P [] s)
    (next : ∀ p a t t', p ++ [a] <+: l → run step p s = .ok t → P p t → step a t = .ok t' →
      P (p ++ [a]) t')
    (h : run step l s = .ok s') : P l s' := by
  -- from the end of the run, as the property is carried over its last input
  induction l using List.reverseRecOn generalizing s' with
  | nil =>
    obtain rfl := Except.ok.inj h
    exact start
  | append_singleton l a ih =>
    obtain ⟨t, ht, ha⟩ := run_concat_ok_iff.mp h
    refine next l a t s' (List.prefix_refl _) ht (ih ?_ ht) ha
    intro p b t₁ t₂ hp
    exact next p b t₁ t₂ (hp.trans (List.prefix_append l [a]))

/-- **The simulation rule.** Two runs of the same inputs lead to related states when the states they
start from are related and every input carries the relation over. -/
theorem run_simulation {R : List α → σ → σ → Prop} {l : List α} {s₁ s₂ s₁' s₂' : σ}
    (start : R [] s₁ s₂)
    (next : ∀ p a t₁ t₂ t₁' t₂', p ++ [a] <+: l → run step p s₁ = .ok t₁ → R p t₁ t₂ →
      step a t₁ = .ok t₁' → step a t₂ = .ok t₂' → R (p ++ [a]) t₁' t₂')
    (h₁ : run step l s₁ = .ok s₁') (h₂ : run step l s₂ = .ok s₂') : R l s₁' s₂' := by
  induction l using List.reverseRecOn generalizing s₁' s₂' with
  | nil =>
    obtain rfl := Except.ok.inj h₁
    obtain rfl := Except.ok.inj h₂
    exact start
  | append_singleton l a ih =>
    obtain ⟨t₁, ht₁, ha₁⟩ := run_concat_ok_iff.mp h₁
    obtain ⟨t₂, ht₂, ha₂⟩ := run_concat_ok_iff.mp h₂
    refine next l a t₁ t₂ s₁' s₂' (List.prefix_refl _) ht₁ (ih ?_ ht₁ ht₂) ha₁ ha₂
    intro p b u₁ u₂ u₁' u₂' hp
    exact next p b u₁ u₂ u₁' u₂' (hp.trans (List.prefix_append l [a]))

/-- **The progress rule.** A run succeeds when every step of it, from the state the run has
reached, does. -/
theorem run_progress {l : List α} {s : σ}
    (next : ∀ p a t, p ++ [a] <+: l → run step p s = .ok t → ∃ t', step a t = .ok t') :
    ∃ s', run step l s = .ok s' := by
  -- the inputs before the last lead to a state, from which the last one succeeds
  induction l using List.reverseRecOn with
  | nil => exact ⟨s, rfl⟩
  | append_singleton l a ih =>
    obtain ⟨t, ht⟩ := ih fun p b t hp => next p b t (hp.trans (List.prefix_append l [a]))
    obtain ⟨t', ha⟩ := next l a t (List.prefix_refl _) ht
    exact ⟨t', run_concat_ok_iff.mpr ⟨t, ht, ha⟩⟩

/-- A successful run has succeeded at each of its prefixes. -/
theorem run_ok_of_prefix {p l : List α} {s s' : σ} (hp : p <+: l) (h : run step l s = .ok s') :
    ∃ t, run step p s = .ok t := by
  obtain ⟨q, rfl⟩ := hp
  obtain ⟨t, ht, -⟩ := run_append_ok_iff.mp h
  exact ⟨t, ht⟩

/-- **Renaming the inputs and the states of a machine** renames its runs, when it renames each of
its steps. -/
theorem toOption_run_map {β τ : Type*} {step' : β → τ → Except ε τ} {f : α → β} {φ : σ → τ}
    {l : List α}
    (h : ∀ a ∈ l, ∀ s, (step' (f a) (φ s)).toOption = (step a s).toOption.map φ) (s : σ) :
    (run step' (l.map f) (φ s)).toOption = (run step l s).toOption.map φ := by
  induction l generalizing s with
  | nil => rfl
  | cons a l ih =>
    have hstep := h a List.mem_cons_self s
    rw [List.map_cons, run_cons, run_cons]
    cases hs : step a s with
    | error e =>
      rw [hs] at hstep
      cases hs' : step' (f a) (φ s) with
      | error e' => rfl
      | ok t' => simp [hs', Except.toOption] at hstep
    | ok t =>
      rw [hs] at hstep
      cases hs' : step' (f a) (φ s) with
      | error e' => simp [hs', Except.toOption] at hstep
      | ok t' =>
        obtain rfl : t' = φ t := by simpa [hs', Except.toOption] using hstep
        exact ih (fun b hb => h b (List.mem_cons_of_mem a hb)) t

/-- The prefixes of a list that end in an element. -/
theorem concat_prefix_iff {p l : List α} {a : α} :
    p ++ [a] <+: l ↔ ∃ i, ∃ h : i < l.length, p = l.take i ∧ a = l[i] := by
  constructor
  · rintro ⟨q, rfl⟩
    exact ⟨p.length, by simp, by simp, by simp⟩
  · rintro ⟨i, h, rfl, rfl⟩
    rw [List.take_append_getElem h]
    exact List.take_prefix _ _

theorem concat_prefix_singleton_iff {p : List α} {a b : α} : p ++ [a] <+: [b] ↔ p = [] ∧ a = b := by
  constructor
  · intro h
    obtain ⟨i, hi, rfl, rfl⟩ := concat_prefix_iff.mp h
    obtain rfl : i = 0 := Nat.lt_one_iff.mp hi
    exact ⟨rfl, rfl⟩
  · rintro ⟨rfl, rfl⟩
    exact List.prefix_refl _

end StatsX
