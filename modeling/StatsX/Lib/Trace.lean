import StatsX.Lib.Commute

/-!
# Runs up to the order of independent inputs

Two runs are the same trace when one becomes the other by exchanging neighbouring inputs that are
independent. When independent inputs commute, a trace leads to one state, in whatever order its
inputs come.

## Main definitions

* `TraceEq indep l l'`: the runs `l` and `l'` are the same trace

## Main results

* `TraceEq.append`, `TraceEq.of_perm`: traces one after the other, and inputs in any order
* `run_traceEq`: the state after a trace
-/

namespace StatsX

universe u v w

variable {σ : Type u} {α : Type v} {ε : Type w} {step : α → σ → Except ε σ}
  {indep : α → α → Prop}

/-- **The runs are the same trace**: one becomes the other by exchanging neighbouring inputs that
are independent. -/
inductive TraceEq (indep : α → α → Prop) : List α → List α → Prop
  | refl (l : List α) : TraceEq indep l l
  | swap (p q : List α) {a b : α} (h : indep a b) :
    TraceEq indep (p ++ a :: b :: q) (p ++ b :: a :: q)
  | symm {l l' : List α} (h : TraceEq indep l l') : TraceEq indep l' l
  | trans {l l' l'' : List α} (h : TraceEq indep l l') (h' : TraceEq indep l' l'') :
    TraceEq indep l l''

namespace TraceEq

variable {l l' m m' : List α}

/-- A trace within a longer run. -/
theorem within (h : TraceEq indep l l') (p q : List α) :
    TraceEq indep (p ++ l ++ q) (p ++ l' ++ q) := by
  induction h with
  | refl l => exact .refl _
  | swap p' q' h => simpa using TraceEq.swap (p ++ p') (q' ++ q) h
  | symm _ ih => exact ih.symm
  | trans _ _ ih₁ ih₂ => exact ih₁.trans ih₂

/-- **Traces one after the other.** -/
theorem append (h : TraceEq indep l l') (h' : TraceEq indep m m') :
    TraceEq indep (l ++ m) (l' ++ m') := by
  have h₁ : TraceEq indep (l ++ m) (l' ++ m) := by simpa using h.within [] m
  have h₂ : TraceEq indep (l' ++ m) (l' ++ m') := by simpa using h'.within l' []
  exact h₁.trans h₂

/-- **Inputs that are independent of each other**, in any order. -/
theorem of_perm (hperm : l.Perm l') (h : ∀ a ∈ l, ∀ b ∈ l, indep a b) : TraceEq indep l l' := by
  induction hperm with
  | nil => exact .refl []
  | cons a _ ih =>
    refine (TraceEq.refl [a]).append (ih ?_)
    intro b hb c hc
    exact h b (List.mem_cons_of_mem a hb) c (List.mem_cons_of_mem a hc)
  | swap a b l => exact .swap [] l (h b (by simp) a (by simp))
  | trans hperm _ ih₁ ih₂ =>
    refine (ih₁ h).trans (ih₂ ?_)
    intro a ha b hb
    exact h a (hperm.mem_iff.mpr ha) b (hperm.mem_iff.mpr hb)

end TraceEq

/-- **The state after a trace** does not depend on the order of its inputs. -/
theorem run_traceEq (hindep : ∀ a b, indep a b → Commutes step a b) {l l' : List α}
    (h : TraceEq indep l l') (s s' : σ) : run step l s = .ok s' ↔ run step l' s = .ok s' := by
  induction h generalizing s s' with
  | refl l => exact Iff.rfl
  | @swap p q a b hab =>
    -- the two inputs change places between the inputs before them and the inputs after them
    have hsplit : ∀ c d : α, p ++ c :: d :: q = p ++ ([c, d] ++ q) := fun _ _ => rfl
    rw [hsplit, hsplit, run_append_ok_iff, run_append_ok_iff]
    refine exists_congr fun t => and_congr_right fun _ => ?_
    rw [run_append_ok_iff, run_append_ok_iff]
    exact exists_congr fun t' => and_congr_left fun _ => hindep a b hab t t'
  | symm _ ih => exact (ih s s').symm
  | trans _ _ ih₁ ih₂ => exact (ih₁ s s').trans (ih₂ s s')

end StatsX
