import StatsX.Lib.Run

/-!
# Inputs that commute

Two inputs of a machine commute when the one after the other leads to the same states in either
order. A run of inputs that commute with each other leads to the same state in every order.

## Main definitions

* `Commutes step a b`: the inputs `a` and `b` commute

## Main results

* `run_perm`: a run of inputs that commute, in another order
-/

namespace StatsX

universe u v w

variable {σ : Type u} {α : Type v} {ε : Type w} {step : α → σ → Except ε σ}

variable (step) in
/-- The inputs `a` and `b` commute: from every state, they lead to the same state in either order,
or fail in both. -/
def Commutes (a b : α) : Prop :=
  ∀ s s', run step [a, b] s = .ok s' ↔ run step [b, a] s = .ok s'

theorem run_pair_ok_iff {a b : α} {s s' : σ} :
    run step [a, b] s = .ok s' ↔ ∃ t, step a s = .ok t ∧ step b t = .ok s' := by
  rw [show [a, b] = [a] ++ [b] from rfl, run_concat_ok_iff]
  refine exists_congr fun t => and_congr_left fun _ => ?_
  cases hs : step a s <;> simp [hs]

/-- **A run of inputs that commute** leads to the same state in every order. -/
theorem run_perm {l l' : List α} (hperm : l.Perm l')
    (h : ∀ a ∈ l, ∀ b ∈ l, Commutes step a b) (s s' : σ) :
    run step l s = .ok s' ↔ run step l' s = .ok s' := by
  induction hperm generalizing s with
  | nil => exact Iff.rfl
  | cons a _ ih =>
    rw [run_cons, run_cons, bind_ok_iff, bind_ok_iff]
    refine exists_congr fun t => and_congr_right fun _ => ih ?_ t
    intro b hb c hc
    exact h b (List.mem_cons_of_mem a hb) c (List.mem_cons_of_mem a hc)
  | swap a b l =>
    -- the first two inputs change places, the others start from where these two lead
    show run step ([b, a] ++ l) s = .ok s' ↔ run step ([a, b] ++ l) s = .ok s'
    rw [run_append_ok_iff, run_append_ok_iff]
    exact exists_congr fun t => and_congr_left fun _ => h b (by simp) a (by simp) s t
  | trans hperm _ ih₁ ih₂ =>
    refine (ih₁ h s).trans (ih₂ ?_ s)
    intro a ha b hb
    exact h a (hperm.mem_iff.mpr ha) b (hperm.mem_iff.mpr hb)

end StatsX
