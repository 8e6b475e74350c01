import StatsX.Lib.Since

/-!
# States that are functions of the history

A machine refines a log when its state after any run is what a function makes of the inputs so
far. A counter that some inputs reset, and to which an input adds what depends on the inputs before
it, is a sum over the moments of the run since the last reset; a register holds what it has been set
to last.

## Main definitions

* `moments l`: the moments of a run
* `gained p gain l`: the gains at the moments since the last input that satisfies `p`
* `latest f l`: what the last input that sets a value has set it to

## Main results

* `run_refines`: a machine whose steps follow a function of the history runs like it, and fails
  where it does
* `gained_concat`, `latest_concat`: what one more input does
-/

namespace StatsX

universe u v w

variable {σ : Type u} {α : Type v} {ε : Type w} {M V : Type*} {step : α → σ → Except ε σ}

/-! ## Refinement -/

/-- **A machine that follows a function of the history** runs like it: the run succeeds when every
next input is admissible after the ones before, and then the state is the function of the run. -/
theorem run_refines (spec : List α → σ) (admits : List α → α → Prop)
    (defined : ∀ p a, (∃ t, step a (spec p) = .ok t) ↔ admits p a)
    (next : ∀ p a t, step a (spec p) = .ok t → t = spec (p ++ [a])) {l : List α} {s : σ} :
    run step l (spec []) = .ok s ↔ (∀ p a, p ++ [a] <+: l → admits p a) ∧ s = spec l := by
  -- the state of every successful run is the function of its inputs
  have hspec : ∀ {l s}, run step l (spec []) = .ok s → s = spec l := by
    intro l s h
    refine run_induction (P := fun l s => s = spec l) rfl ?_ h
    rintro p a t t' - - rfl ha
    exact next p a t' ha
  constructor
  · intro h
    refine ⟨fun p a hp => ?_, hspec h⟩
    obtain ⟨t', ht'⟩ := run_ok_of_prefix hp h
    obtain ⟨t, ht, ha⟩ := run_concat_ok_iff.mp ht'
    obtain rfl := hspec ht
    exact (defined p a).mp ⟨t', ha⟩
  · rintro ⟨hadmits, rfl⟩
    have hprogress : ∃ s', run step l (spec []) = .ok s' := by
      apply run_progress
      intro p a t hp ht
      obtain rfl := hspec ht
      exact (defined p a).mpr (hadmits p a hp)
    obtain ⟨s', hs'⟩ := hprogress
    rw [hs', hspec hs']

/-! ## Moments -/

/-- The moments of a run of `l` after the inputs `p`. -/
def momentsFrom (p : List α) : List α → List (List α × α)
  | [] => []
  | a :: l => (p, a) :: momentsFrom (p ++ [a]) l

/-- **The moments of a run**: each input, with the inputs before it. -/
def moments (l : List α) : List (List α × α) := momentsFrom [] l

@[simp] theorem moments_nil : moments ([] : List α) = [] := rfl

theorem momentsFrom_concat (p l : List α) (a : α) :
    momentsFrom p (l ++ [a]) = momentsFrom p l ++ [(p ++ l, a)] := by
  induction l generalizing p with
  | nil => simp [momentsFrom]
  | cons b l ih => simp [momentsFrom, ih]

theorem moments_concat (l : List α) (a : α) : moments (l ++ [a]) = moments l ++ [(l, a)] :=
  momentsFrom_concat [] l a

/-- The inputs at the moments of a run are the inputs of the run. -/
theorem map_snd_moments (l : List α) : (moments l).map Prod.snd = l := by
  induction l using List.reverseRecOn with
  | nil => rfl
  | append_singleton l a ih => rw [moments_concat, List.map_append, ih, List.map_singleton]

/-- The moments since the last input that satisfies `p`. -/
def momentsSince (p : α → Bool) (l : List α) : List (List α × α) :=
  since (fun m => p m.2) (moments l)

theorem momentsSince_concat (p : α → Bool) (l : List α) (a : α) :
    momentsSince p (l ++ [a]) = if p a then [] else momentsSince p l ++ [(l, a)] := by
  rw [momentsSince, moments_concat, since_concat]
  rfl

/-- The inputs at the moments since an input are the inputs since it. -/
theorem map_snd_momentsSince (p : α → Bool) (l : List α) :
    (momentsSince p l).map Prod.snd = since p l := by
  rw [momentsSince, ← since_map Prod.snd p, map_snd_moments]

/-- The gains at the moments since the last input that satisfies `p`, which depend on the inputs
before. -/
def gained [AddCommMonoid M] (p : α → Bool) (gain : List α → α → M) (l : List α) : M :=
  ((momentsSince p l).map fun m => gain m.1 m.2).sum

section Gained

variable [AddCommMonoid M] {p : α → Bool} {gain : List α → α → M} {l : List α} {a : α}

/-- **One more input** is a reset or adds its gain. -/
theorem gained_concat (hgain : p a = true → gain l a = 0) :
    gained p gain (l ++ [a]) = (if p a then 0 else gained p gain l) + gain l a := by
  rw [gained, momentsSince_concat]
  -- a reset gains nothing itself, so the sum starts again from nothing
  cases hp : p a with
  | true => simp [hgain hp]
  | false => simp [gained]

end Gained

/-! ## Registers -/

/-- What the last input that sets a value has set it to. -/
def latest (f : α → Option V) (l : List α) : Option V := (l.filterMap f).getLast?

theorem latest_concat (f : α → Option V) (l : List α) (a : α) :
    latest f (l ++ [a]) = (f a).or (latest f l) := by
  rw [latest, List.filterMap_append, latest]
  cases h : f a <;> simp [h]

end StatsX
