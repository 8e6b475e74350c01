import StatsX.Lib.Purge
import StatsX.Spec.Reads

/-!
# What a record depends on

The players of a server share one set of round members, and every handler may write them. A record
still depends on few of the calls: its integers on those that its own player has a part in, besides
the kills, the bomb and the ends of the rounds; its share of the rounds on hits, kills, the bomb and
the ends of the rounds. The other calls can be deleted from a run, at any places in it.

## Main definitions

* `Call.concerns c j`: the call may have a part in an integer of the record `j`
* `Call.bearsOnShare c j`: the call may have a part in the share of the record `j`
* `Call.acts`: the call records an event or resets a record

## Main results

* `cells_of_purge`: the integers of a record without the calls that do not concern it
* `share_of_purge`: the share of a record without the calls that do not bear on it
* `run_purge_idle`: runs without the calls that do not act, as with the switch off
-/

namespace StatsX

/-! ## The integers of a record -/

/-- The event may have a part in an integer of the record `j`, now or through the round members. -/
def Event.concerns (j : Slot) : Event → Bool
  | .hit h => j = h.attacker.slot ∨ j = h.victim.slot
  | .shot player => j = player.slot
  | .payment player _ _ => j = player.slot
  | .defusing player => j = player.slot
  | .defused player => j = player.slot
  | _ => true

/-- The call may have a part in an integer of the record `j`, or resets it. -/
def Call.concerns (c : Call) (j : Slot) : Bool :=
  c.event?.elim (c.resets j) (Event.concerns j)

/-- The round members that are read for the integers of the record `j`, or decide whether an index
is in bounds. -/
structure RoundState.AgreeFor (j : Slot) (ρ ρ' : RoundState) : Prop where
  roundDamage : ρ.roundDamage j = ρ'.roundDamage j
  roundFrags : ρ.roundFrags = ρ'.roundFrags
  roundVersus : ρ.roundVersus = ρ'.roundVersus
  roundBombPlanter : ρ.roundBombPlanter = ρ'.roundBombPlanter

namespace Event

variable {event : Event} {g : Server} {j : Slot} {ρ ρ' : RoundState}

/-- An event that does not concern a record does not touch it. -/
theorem touches_of_not_concerns (h : event.concerns j = false) : event.touches j = false := by
  cases event with
  | hit _ | shot _ | payment _ _ _ | defusing _ | defused _ => exact h
  | _ => exact Bool.noConfusion h

theorem agreeFor_turns_of_not_concerns (h : event.concerns j = false) (ρ : RoundState) :
    (event.turns ρ).AgreeFor j ρ := by
  cases event with
  | hit hit =>
    have hj : j ≠ hit.attacker.slot ∧ j ≠ hit.victim.slot := by simpa [concerns] using h
    refine ⟨funext fun v => ?_, rfl, rfl, rfl⟩
    simp [turns, hj]
  | shot _ | payment _ _ _ | defusing _ | defused _ => exact ⟨rfl, rfl, rfl, rfl⟩
  | _ => exact Bool.noConfusion h

theorem agreeFor_turns (h : ρ.AgreeFor j ρ') : (event.turns ρ).AgreeFor j (event.turns ρ') := by
  obtain ⟨hdamage, hfrags, hversus, hplanter⟩ := h
  cases event with
  | hit hit =>
    refine ⟨funext fun v => ?_, hfrags, hversus, hplanter⟩
    simp only [turns, hdamage]
  | kill e =>
    refine ⟨hdamage, funext fun k => ?_, hversus, hplanter⟩
    simp only [turns, hfrags]
  | planting _ | planted _ => exact ⟨hdamage, hfrags, hversus, rfl⟩
  | start => exact ⟨rfl, rfl, rfl, rfl⟩
  | _ => exact ⟨hdamage, hfrags, hversus, hplanter⟩

end Event

/-- Two states agree on the integers and the stamp of the record `j`, and on the round members that
are read for them. -/
structure CStats.AgreeFor (j : Slot) (s t : CStats) : Prop where
  round : s.toRoundState.AgreeFor j t.toRoundState
  cell : ∀ x, (s.data j).cell x = (t.data j).cell x
  stamp : (s.data j).stamp = (t.data j).stamp

theorem RoundState.AgreeFor.posts_eq {j : Slot} {ρ ρ' : RoundState} (h : ρ.AgreeFor j ρ')
    {g : Server} (event : Event) (x : Counter) : event.posts g ρ j x = event.posts g ρ' j x :=
  Event.posts_congr (fun _ _ => by rw [h.roundDamage]) (fun _ => h.roundBombPlanter)
    (fun _ _ => ⟨by rw [h.roundFrags], by rw [h.roundVersus]⟩) x

theorem RoundState.AgreeFor.trans {j : Slot} {ρ ρ' ρ'' : RoundState} (h : ρ.AgreeFor j ρ')
    (h' : ρ'.AgreeFor j ρ'') : ρ.AgreeFor j ρ'' where
  roundDamage := h.roundDamage.trans h'.roundDamage
  roundFrags := h.roundFrags.trans h'.roundFrags
  roundVersus := h.roundVersus.trans h'.roundVersus
  roundBombPlanter := h.roundBombPlanter.trans h'.roundBombPlanter

theorem CStats.AgreeFor.refl (j : Slot) (s : CStats) : s.AgreeFor j s :=
  ⟨⟨rfl, rfl, rfl, rfl⟩, fun _ => rfl, rfl⟩

namespace Call

variable {c : Call} {j : Slot} {s s' t t' : CStats}

/-- The call changes nothing that is read for the record `j`. -/
theorem agreeFor_of_not_concerns (hc : c.concerns j = false) (hst : s.AgreeFor j t)
    (h : c.exec s = .ok s') : s'.AgreeFor j t := by
  have hout := exec_ok h
  -- such a call does not reset the record, and what it records posts nothing to it
  have hboth : c.resets j = false ∧ (∀ x, c.posts s.toRoundState j x = 0) ∧
      (c.turns s.toRoundState).AgreeFor j s.toRoundState := by
    unfold concerns at hc
    unfold posts turns
    cases he : c.event? with
    | none =>
      simp only [he, Option.elim_none] at hc ⊢
      exact ⟨hc, fun _ => trivial, (CStats.AgreeFor.refl j s).round⟩
    | some event =>
      simp only [he, Option.elim_some] at hc ⊢
      exact ⟨resets_of_event? he j, Event.posts_eq_zero (Event.touches_of_not_concerns hc),
        Event.agreeFor_turns_of_not_concerns hc _⟩
  obtain ⟨hresets, hposts, hturns⟩ := hboth
  refine ⟨?_, fun x => ?_, ?_⟩
  · rw [hout.round]
    exact hturns.trans hst.round
  · rw [hout.cell, zeroes_eq_false hresets, if_neg Bool.false_ne_true, hposts, add_zero]
    exact hst.cell x
  · rw [exec_stamp h, stamped_eq_none_iff.mpr hresets, Option.getD_none]
    exact hst.stamp

/-- A call does the same for the record `j` in states that agree for it. -/
theorem exec_agreeFor (hst : s.AgreeFor j t) (h : c.exec s = .ok s') :
    ∃ t', c.exec t = .ok t' ∧ s'.AgreeFor j t' := by
  obtain ⟨t', ht'⟩ : ∃ t', c.exec t = .ok t' := by
    rw [exec_defined]
    intro event he
    have hs := (exec_defined c s).mp ⟨s', h⟩ event he
    exact (Event.inBounds_congr fun _ _ => ⟨hst.round.roundFrags, hst.round.roundVersus⟩).mp hs
  refine ⟨t', ht', ?_, fun x => ?_, ?_⟩
  · rw [(exec_ok h).round, (exec_ok ht').round, turns, turns]
    cases c.event? with
    | none => exact hst.round
    | some event => exact Event.agreeFor_turns hst.round
  · have hposts : c.posts s.toRoundState j x = c.posts t.toRoundState j x := by
      unfold posts
      cases c.event? with
      | none => simp only [Option.elim_none]
      | some event => exact hst.round.posts_eq event x
    rw [(exec_ok h).cell, (exec_ok ht').cell, hst.cell, hposts]
  · rw [exec_stamp h, exec_stamp ht', hst.stamp]

end Call

theorem unwinds_agreeFor (j : Slot) :
    Unwinds Call.exec (fun c => !c.concerns j) (CStats.AgreeFor j) where
  hides c s s' t hc hst h := Call.agreeFor_of_not_concerns (by simpa using hc) hst h
  shows c s s' t _ hst h := Call.exec_agreeFor hst h

/-- **The integers of a record** depend on the calls that concern it: the run without the others
succeeds as well, and leaves the same integers in the record, and the same stamp. -/
theorem cells_of_purge (j : Slot) {calls : List Call} {s s' : CStats}
    (h : run Call.exec calls s = .ok s') :
    ∃ t', run Call.exec (calls.filter (·.concerns j)) s = .ok t' ∧
      (∀ x, (s'.data j).cell x = (t'.data j).cell x) ∧ (s'.data j).stamp = (t'.data j).stamp := by
  obtain ⟨t', ht', hst'⟩ := (unwinds_agreeFor j).run_purge (CStats.AgreeFor.refl j s) h
  refine ⟨t', ?_, hst'.cell, hst'.stamp⟩
  simpa [purge] using ht'

/-- A duel in which the counter-terrorist is paid between the hit and the kill. -/
def duelPaid : List Call :=
  [duelHit, .duel (.addAccount (some duelCt) 300 rtNone), duelKill, duelEnd]

/-- The payment does not concern the terrorist. -/
theorem cells_of_purge_duel : ∃ s' t', Reaches duelPaid s' ∧
    Reaches [duelHit, duelKill, duelEnd] t' ∧ ∀ x, (s'.data 1).cell x = (t'.data 1).cell x := by
  obtain ⟨s', hs'⟩ : ∃ s', Reaches duelPaid s' := ⟨_, rfl⟩
  obtain ⟨t', ht', hcell, -⟩ := cells_of_purge 1 hs'
  exact ⟨s', t', hs', ht', hcell⟩

/-! ## The share of a record -/

/-- The event may have a part in a share, now or through the round members. -/
def Event.bearsOnShare : Event → Bool
  | .shot _ => false
  | .payment _ _ _ => false
  | .defusing _ => false
  | .explosion => false
  | _ => true

/-- The call may have a part in the share of the record `j`, or resets it. -/
def Call.bearsOnShare (c : Call) (j : Slot) : Bool :=
  c.event?.elim (c.resets j) Event.bearsOnShare

/-- Two states agree on the round members and on the share of the record `j`. -/
structure CStats.AgreeOnShare (j : Slot) (s t : CStats) : Prop where
  round : s.toRoundState = t.toRoundState
  share : (s.data j).roundWinShare = (t.data j).roundWinShare

namespace Call

variable {c : Call} {j : Slot} {s s' t t' : CStats}

/-- What does not bear on the share pays nothing and leaves the round members alone. -/
theorem agreeOnShare_of_not_bears (hc : c.bearsOnShare j = false) (hst : s.AgreeOnShare j t)
    (h : c.exec s = .ok s') : s'.AgreeOnShare j t := by
  have hout := exec_ok h
  have hboth : c.resets j = false ∧ c.pays s.toRoundState j = 0 ∧
      c.turns s.toRoundState = s.toRoundState := by
    unfold bearsOnShare at hc
    unfold pays turns
    cases he : c.event? with
    | none =>
      simp only [he, Option.elim_none] at hc ⊢
      exact ⟨hc, trivial, trivial⟩
    | some event =>
      simp only [he, Option.elim_some] at hc ⊢
      refine ⟨resets_of_event? he j, ?_⟩
      cases event with
      | shot _ | payment _ _ _ | defusing _ | explosion => exact ⟨rfl, rfl⟩
      | _ => exact Bool.noConfusion hc
  obtain ⟨hresets, hpays, hturns⟩ := hboth
  refine ⟨?_, ?_⟩
  · rw [hout.round, hturns, hst.round]
  · rw [hout.share, hresets, if_neg Bool.false_ne_true, hpays, add_zero, hst.share]

/-- A call does the same for the share in states that agree on it. -/
theorem exec_agreeOnShare (hst : s.AgreeOnShare j t) (h : c.exec s = .ok s') :
    ∃ t', c.exec t = .ok t' ∧ s'.AgreeOnShare j t' := by
  obtain ⟨t', ht'⟩ : ∃ t', c.exec t = .ok t' := by
    rw [exec_defined, ← hst.round]
    exact (exec_defined c s).mp ⟨s', h⟩
  refine ⟨t', ht', ?_, ?_⟩
  · rw [(exec_ok h).round, (exec_ok ht').round, hst.round]
  · rw [(exec_ok h).share, (exec_ok ht').share, hst.round, hst.share]

end Call

theorem unwinds_agreeOnShare (j : Slot) :
    Unwinds Call.exec (fun c => !c.bearsOnShare j) (CStats.AgreeOnShare j) where
  hides c s s' t hc hst h := Call.agreeOnShare_of_not_bears (by simpa using hc) hst h
  shows c s s' t _ hst h := Call.exec_agreeOnShare hst h

/-- **The share of a record** depends on the calls that bear on it: the run without the others
succeeds as well, and leaves the same share and the same round members. -/
theorem share_of_purge (j : Slot) {calls : List Call} {s s' : CStats}
    (h : run Call.exec calls s = .ok s') :
    ∃ t', run Call.exec (calls.filter (·.bearsOnShare j)) s = .ok t' ∧
      (s'.data j).roundWinShare = (t'.data j).roundWinShare ∧
      s'.toRoundState = t'.toRoundState := by
  obtain ⟨t', ht', hst'⟩ := (unwinds_agreeOnShare j).run_purge (t := s) ⟨rfl, rfl⟩ h
  refine ⟨t', ?_, hst'.share, hst'.round⟩
  simpa [purge] using ht'

/-- Neither does it bear on the share of the terrorist. -/
theorem share_of_purge_duel : ∃ s' t', Reaches duelPaid s' ∧
    Reaches [duelHit, duelKill, duelEnd] t' ∧
      (s'.data 1).roundWinShare = (t'.data 1).roundWinShare := by
  obtain ⟨s', hs'⟩ : ∃ s', Reaches duelPaid s' := ⟨_, rfl⟩
  obtain ⟨t', ht', hshare, -⟩ := share_of_purge 1 hs'
  exact ⟨s', t', hs', ht', hshare⟩

/-! ## Calls that do not act -/

/-- The call records an event, or resets a record. -/
def Call.acts (c : Call) : Bool := c.event?.isSome || decide (∃ j, c.resets j = true)

/-- With the switch off, only the handlers that reset records act. -/
theorem Call.acts_of_not_isEnabled {c : Call} (h : c.isEnabled = false) :
    c.acts = decide (∃ j, c.resets j = true) := by
  have hevent : c.event? = none := by
    rw [event?, h, if_neg Bool.false_ne_true]
  rw [acts, hevent, Option.isSome_none, Bool.false_or]

/-- A call that does not act succeeds at any state and leaves it alone. -/
theorem Call.exec_of_not_acts {c : Call} (hc : c.acts = false) (s : CStats) :
    c.exec s = .ok s := by
  have hboth : c.event? = none ∧ ∀ j, c.resets j = false := by simpa [acts] using hc
  obtain ⟨hevent, hresets⟩ := hboth
  obtain ⟨s', hs'⟩ : ∃ s', c.exec s = .ok s' := by
    rw [exec_defined, hevent]
    intro event he
    exact nomatch he
  rw [hs', exec_eq_self hs' hevent (fun j => zeroes_eq_false (hresets j)) hresets]

/-- **Calls that do not act** can be left out of a run, which then leads to the same members, or
fails in the same way. -/
theorem run_purge_idle (calls : List Call) (s : CStats) :
    run Call.exec (calls.filter Call.acts) s = run Call.exec calls s := by
  have h : run Call.exec (purge (fun c => !c.acts) calls) s = run Call.exec calls s :=
    run_purge_eq (fun c hc s => Call.exec_of_not_acts (by simpa using hc) s) calls s
  simpa [purge] using h

end StatsX
