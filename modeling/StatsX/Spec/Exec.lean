import StatsX.Spec.Handlers

/-!
# The outcome of a call

The effects of the handlers put together: whatever a call does to the members is read off the
event it records and the records it resets.

## Main definitions

* `Call.turns`, `Call.posts`, `Call.pays`: what the event of a call changes, nothing without one
* `Call.Outcome`: the members after a call

## Main results

* `Call.exec_ok`: a call that succeeds has its outcome
* `Call.exec_event`: the outcome of a call that records an event
* `Call.exec_eq_self`: a call that records nothing and resets nothing leaves the members alone
-/

namespace StatsX

open CStats

/-- The handlers that reset records. -/
def Handler.isReset : Handler → Bool
  | .serverActivate => true
  | .serverDeactivate => true
  | .getIntoGame _ => true
  | .disconnected _ => true
  | _ => false

/-- The members of the round and the records are all the members. -/
theorem CStats.ext_round {s s' : CStats} (hround : s.toRoundState = s'.toRoundState)
    (hdata : s.data = s'.data) : s = s' := by
  cases s
  cases s'
  simp_all

namespace Call

variable (c : Call)

/-- The round members after the call. -/
def turns (ρ : RoundState) : RoundState := c.event?.elim ρ (Event.turns ρ)

/-- What the call adds to the integer `x` of the record `j`. -/
def posts (ρ : RoundState) (j : Slot) (x : Counter) : CInt :=
  c.event?.elim 0 (Event.posts c.server ρ j · x)

/-- What the call adds to the `RoundWinShare` of the record `j`. -/
def pays (ρ : RoundState) (j : Slot) : WithTop ℚ :=
  c.event?.elim 0 (Event.pays c.server ρ j)

/-- The call takes the members from `s` to `s'`. -/
structure Outcome (s s' : CStats) : Prop where
  round : s'.toRoundState = c.turns s.toRoundState
  cell : ∀ j x, (s'.data j).cell x =
    (if c.zeroes j x then 0 else (s.data j).cell x) + c.posts s.toRoundState j x
  share : ∀ j, (s'.data j).roundWinShare =
    (if c.resets j then 0 else (s.data j).roundWinShare) + c.pays s.toRoundState j
  stamp : (∀ j, c.resets j = false) → ∀ j, (s'.data j).stamp = (s.data j).stamp

variable {c} {s s' : CStats}

/-- A call succeeds when its handler does. -/
theorem exec_ok_iff : c.exec s = .ok s' ↔ (c.handler.body c.server).run s = .ok ((), s') := by
  rw [exec, bind_ok_iff]
  constructor
  · rintro ⟨⟨⟨⟩, t⟩, ht, h⟩
    obtain rfl := Except.ok.inj h
    exact ht
  · intro h
    exact ⟨_, h, rfl⟩

/-- The outcome of a handler that resets nothing. -/
theorem Outcome.of_records (hrec : Records c.server (c.handler.body c.server) c.event?)
    (hresets : ∀ j, c.resets j = false) (hzeroes : ∀ j x, c.zeroes j x = false)
    (h : c.exec s = .ok s') : c.Outcome s s' := by
  obtain ⟨hround, hbooked⟩ := hrec s.toRoundState s s' rfl (exec_ok_iff.mp h)
  refine ⟨hround, fun j x => ?_, fun j => ?_, fun _ => hbooked.stamp⟩
  · rw [hzeroes, if_neg Bool.false_ne_true]
    exact hbooked.cell j x
  · rw [hresets, if_neg Bool.false_ne_true]
    exact hbooked.share j

/-- The outcome of a reset of all the records. -/
theorem Outcome.of_memset (hevent : c.event? = none) (hzeroes : ∀ j x, c.zeroes j x = true)
    (hresets : ∀ j, c.resets j = true)
    (hs' : s' = { s with data := fun _ => CPlayer.zeroed }) : c.Outcome s s' := by
  subst hs'
  refine ⟨?_, fun j x => ?_, fun j => ?_, fun h => ?_⟩
  · simp [turns, hevent]
  · simp [posts, hevent, hzeroes]
  · simp [pays, hevent, hresets]
  · exact absurd (h 0) (by simp [hresets])

/-- The outcome of a reset of the record `k`, by `Clear` or `Init`. -/
theorem Outcome.of_clear {k : Slot} {f : CPlayer → CPlayer} (hevent : c.event? = none)
    (hresets : ∀ j, c.resets j = decide (j = k))
    (hzeroes : ∀ j x, c.zeroes j x = (c.resets j && !x.survives))
    (hcell : ∀ r x, (f r).cell x = if x.survives then r.cell x else 0)
    (hshare : ∀ r, (f r).roundWinShare = 0)
    (hs' : s' = { s with data := Function.update s.data k (f (s.data k)) }) : c.Outcome s s' := by
  subst hs'
  refine ⟨?_, fun j x => ?_, fun j => ?_, fun h => ?_⟩
  · simp [turns, hevent]
  · by_cases hj : j = k
    · subst hj
      cases hx : x.survives <;> simp [posts, hevent, hzeroes, hresets, hcell, hx]
    · simp [posts, hevent, hzeroes, hresets, hj]
  · by_cases hj : j = k
    · subst hj
      simp [pays, hevent, hresets, hshare]
    · simp [pays, hevent, hresets, hj]
  · exact absurd (h k) (by simp [hresets])

/-- **A call that succeeds has its outcome.** -/
theorem exec_ok (h : c.exec s = .ok s') : c.Outcome s s' := by
  -- the four handlers that reset records first, then those that record an event
  obtain ⟨g, handler⟩ := c
  cases handler with
  | serverActivate =>
    refine Outcome.of_memset ?_ (fun _ _ => rfl) (fun _ => rfl) (Except.ok.inj h).symm
    simp [event?]
  | serverDeactivate =>
    refine Outcome.of_memset ?_ (fun _ _ => rfl) (fun _ => rfl) (Except.ok.inj h).symm
    simp [event?]
  | getIntoGame player =>
    rcases hedict : player.edict with _ | edict
    · -- a player without an edict changes nothing
      refine Outcome.of_records (c := ⟨g, .getIntoGame player⟩) ?_ (fun j => ?_) (fun j x => ?_) h
      · have : event? ⟨g, .getIntoGame player⟩ = none := by simp [event?]
        simp only [Handler.body, getIntoGame, hedict]
        exact Records.nothing this
      · simp [resets, hedict]
      · simp [zeroes, resets, hedict]
    · refine Outcome.of_clear (k := player.slot) (f := (·.init g.time edict.netname)) ?_
        (fun j => ?_) (fun j x => rfl) (fun r x => r.cell_init g.time edict.netname x)
        (fun r => ?_) ?_
      · simp [event?]
      · simp [resets, hedict]
      · simp
      · simp only [exec, Handler.body, getIntoGame, hedict, CBasePlayer.index_entindex] at h
        exact (Except.ok.inj h).symm
  | disconnected player =>
    refine Outcome.of_clear (f := (·.clear g.time)) ?_ (fun j => rfl)
      (fun j x => rfl) (fun r x => r.cell_clear g.time x) (fun r => ?_) ?_
    · simp [event?]
    · simp
    · simp only [exec, Handler.body, disconnected, CBasePlayer.index_entindex] at h
      exact (Except.ok.inj h).symm
  | addAccount player amount type =>
    exact Outcome.of_records (records_addAccount player amount type) (fun _ => rfl)
      (fun _ _ => rfl) h
  | takeDamage player pevInflictor pevAttacker =>
    exact Outcome.of_records (records_takeDamage player pevInflictor pevAttacker) (fun _ => rfl)
      (fun _ _ => rfl) h
  | killed player pevAttacker =>
    exact Outcome.of_records (records_killed player pevAttacker) (fun _ => rfl)
      (fun _ _ => rfl) h
  | setAnimation player playerAnim =>
    exact Outcome.of_records (records_setAnimation player playerAnim) (fun _ => rfl)
      (fun _ _ => rfl) h
  | plantBomb pevOwner planted =>
    exact Outcome.of_records (records_plantBomb pevOwner planted) (fun _ => rfl)
      (fun _ _ => rfl) h
  | defuseBombStart player =>
    exact Outcome.of_records (records_defuseBombStart player) (fun _ => rfl)
      (fun _ _ => rfl) h
  | defuseBombEnd player defused =>
    exact Outcome.of_records (records_defuseBombEnd player defused) (fun _ => rfl)
      (fun _ _ => rfl) h
  | explodeBomb =>
    exact Outcome.of_records records_explodeBomb (fun _ => rfl)
      (fun _ _ => rfl) h
  | roundFreezeEnd =>
    exact Outcome.of_records records_roundFreezeEnd (fun _ => rfl)
      (fun _ _ => rfl) h
  | roundEnd winStatus event =>
    exact Outcome.of_records (records_roundEnd winStatus event) (fun _ => rfl)
      (fun _ _ => rfl) h

theorem resets_eq_false (h : c.handler.isReset = false) (j : Slot) :
    c.resets j = false := by
  obtain ⟨g, handler⟩ := c
  cases handler <;> simp_all [Handler.isReset, resets]

/-- A call that resets a record records no event. -/
theorem event?_eq_none_of_resets {j : Slot} (h : c.resets j = true) : c.event? = none := by
  obtain ⟨g, handler⟩ := c
  cases handler <;> simp_all [resets, event?]

theorem resets_of_zeroes {j : Slot} {x : Counter} (h : c.zeroes j x = true) :
    c.resets j = true := by
  obtain ⟨g, handler⟩ := c
  cases handler <;> simp_all [resets, zeroes]

theorem resets_of_event? {e : Event} (he : c.event? = some e) (j : Slot) : c.resets j = false :=
  Bool.eq_false_of_not_eq_true fun hj => by simp [event?_eq_none_of_resets hj] at he

/-- **What a call that records an event does.** -/
theorem exec_event {e : Event} (he : c.event? = some e) (h : c.exec s = .ok s') :
    s'.toRoundState = e.turns s.toRoundState ∧
      (∀ j x, (s'.data j).cell x = (s.data j).cell x + e.posts c.server s.toRoundState j x) ∧
      ∀ j, (s'.data j).roundWinShare =
        (s.data j).roundWinShare + e.pays c.server s.toRoundState j := by
  have hresets := resets_of_event? he
  have hzeroes : ∀ j x, c.zeroes j x = false := fun j x =>
    Bool.eq_false_of_not_eq_true fun hx => by simpa [hresets j] using resets_of_zeroes hx
  have hout := exec_ok h
  refine ⟨?_, fun j x => ?_, fun j => ?_⟩
  · rw [hout.round, turns, he, Option.elim_some]
  · rw [hout.cell, posts, he, hzeroes, if_neg Bool.false_ne_true, Option.elim_some]
  · rw [hout.share, pays, he, hresets, if_neg Bool.false_ne_true, Option.elim_some]

/-- **A call that records nothing and resets nothing leaves the members alone.** -/
theorem exec_eq_self (h : c.exec s = .ok s') (hevent : c.event? = none)
    (hzeroes : ∀ j x, c.zeroes j x = false) (hresets : ∀ j, c.resets j = false) : s' = s := by
  have hout := exec_ok h
  have hround : s'.toRoundState = s.toRoundState := by
    rw [hout.round, turns, hevent, Option.elim_none]
  have hdata : s'.data = s.data := by
    funext j
    refine CPlayer.ext_cell (fun x => ?_) ?_ (hout.stamp hresets j)
    · rw [hout.cell, posts, hevent, hzeroes, if_neg Bool.false_ne_true, Option.elim_none, add_zero]
    · rw [hout.share, pays, hevent, hresets, if_neg Bool.false_ne_true, Option.elim_none, add_zero]
  exact CStats.ext_round hround hdata

end Call

end StatsX
