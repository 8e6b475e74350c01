import StatsX.Lib.Commute
import StatsX.Spec.Exec
import StatsX.Spec.Safety

/-!
# Calls in another order

Hits, shots, payments and started defusings only add to what they find: none of them reads what
another one writes. The order in which they reach the plugin makes no difference to the members.

## Main definitions

* `Handler.onlyAdds`: the handlers of these events

## Main results

* `Call.commutes`: two calls of these handlers commute
* `exec_perm_onlyAdds`: calls of these handlers in another order, alone or within a run
-/

namespace StatsX

/-- The handlers that only add to what they find. -/
def Handler.onlyAdds : Handler → Bool
  | .takeDamage _ _ _ => true
  | .setAnimation _ _ => true
  | .addAccount _ _ _ => true
  | .defuseBombStart _ => true
  | _ => false

/-- The events of these handlers. -/
def Event.onlyAdds : Event → Bool
  | .hit _ => true
  | .shot _ => true
  | .payment _ _ _ => true
  | .defusing _ => true
  | _ => false

/-! ## What the events read -/

namespace Event

variable {event : Event} {g : Server}

theorem posts_of_onlyAdds (h : event.onlyAdds = true) (ρ ρ' : RoundState) (j : Slot)
    (x : Counter) : event.posts g ρ j x = event.posts g ρ' j x := by
  cases event with
  | hit _ => rfl
  | shot _ | payment _ _ _ | defusing _ =>
    cases x with
    | weaponStats _ s => cases s <;> rfl
    | bombStats s => cases s <;> rfl
    | _ => rfl
  | _ => exact Bool.noConfusion h

theorem pays_of_onlyAdds (h : event.onlyAdds = true) (ρ : RoundState) (j : Slot) :
    event.pays g ρ j = 0 := by
  cases event with
  | hit _ | shot _ | payment _ _ _ | defusing _ => rfl
  | _ => exact Bool.noConfusion h

theorem inBounds_of_onlyAdds (h : event.onlyAdds = true) (ρ ρ' : RoundState) :
    event.InBounds g ρ ↔ event.InBounds g ρ' := by
  cases event with
  | hit _ | shot _ | payment _ _ _ | defusing _ => exact Iff.rfl
  | _ => exact Bool.noConfusion h

theorem turns_comm_of_onlyAdds {event' : Event} (h : event.onlyAdds = true)
    (h' : event'.onlyAdds = true) (ρ : RoundState) : turns (turns ρ event) event' =
      turns (turns ρ event') event := by
  have hne : event' ≠ .start := by
    rintro rfl
    exact Bool.noConfusion h'
  -- only a hit writes the members of the round
  cases event with
  | hit hit => exact turns_hit_comm hit hne ρ
  | shot _ | payment _ _ _ | defusing _ => rfl
  | _ => exact Bool.noConfusion h

end Event

/-! ## Two calls -/

namespace Call

variable {c a b : Call} {s s' : CStats}

theorem onlyAdds_of_comesFrom {event : Event} (h : c.ComesFrom event) :
    event.onlyAdds = c.handler.onlyAdds := by
  cases event with
  | hit _ =>
    obtain ⟨_, _, h, -⟩ := h
    rw [h]
    rfl
  | kill _ | planting _ | planted _ =>
    obtain ⟨_, h, -⟩ := h
    rw [h]
    rfl
  | shot _ | settle _ =>
    obtain ⟨_, h⟩ := h
    rw [h]
    rfl
  | _ =>
    change c.handler = _ at h
    rw [h]
    rfl

theorem onlyAdds_of_event? (hc : c.handler.onlyAdds = true) {event : Event}
    (he : c.event? = some event) : event.onlyAdds = true :=
  (onlyAdds_of_comesFrom (comesFrom_of_event? he)).trans hc

theorem posts_of_onlyAdds (hc : c.handler.onlyAdds = true) (ρ ρ' : RoundState) (j : Slot)
    (x : Counter) : c.posts ρ j x = c.posts ρ' j x := by
  unfold posts
  rcases he : c.event? with _ | event
  · rw [Option.elim_none, Option.elim_none]
  · exact Event.posts_of_onlyAdds (onlyAdds_of_event? hc he) ρ ρ' j x

theorem turns_comm_of_onlyAdds (ha : a.handler.onlyAdds = true) (hb : b.handler.onlyAdds = true)
    (ρ : RoundState) : b.turns (a.turns ρ) = a.turns (b.turns ρ) := by
  unfold turns
  rcases hea : a.event? with _ | event
  · rfl
  rcases heb : b.event? with _ | event'
  · rfl
  exact Event.turns_comm_of_onlyAdds (onlyAdds_of_event? ha hea) (onlyAdds_of_event? hb heb) ρ

/-- Whether a call that only adds succeeds does not depend on the members. -/
theorem exec_defined_of_onlyAdds (hc : c.handler.onlyAdds = true) (s t : CStats) :
    (∃ s', c.exec s = .ok s') ↔ ∃ t', c.exec t = .ok t' := by
  rw [exec_defined, exec_defined]
  refine forall₂_congr fun event he => ?_
  exact Event.inBounds_of_onlyAdds (onlyAdds_of_event? hc he) _ _

theorem isReset_of_onlyAdds (hc : c.handler.onlyAdds = true) : c.handler.isReset = false := by
  cases hh : c.handler with
  | takeDamage _ _ _ | setAnimation _ _ | addAccount _ _ _ | defuseBombStart _ => rfl
  | _ => simp_all [Handler.onlyAdds]

/-- What a call that only adds does. -/
structure Adds (c : Call) (s s' : CStats) : Prop where
  round : s'.toRoundState = c.turns s.toRoundState
  cell : ∀ j x, (s'.data j).cell x = (s.data j).cell x + c.posts s.toRoundState j x
  share : ∀ j, (s'.data j).roundWinShare = (s.data j).roundWinShare
  stamp : ∀ j, (s'.data j).stamp = (s.data j).stamp

theorem adds_of_exec (hc : c.handler.onlyAdds = true) (h : c.exec s = .ok s') : c.Adds s s' := by
  have hresets := resets_eq_false (isReset_of_onlyAdds hc)
  have hout := exec_ok h
  refine ⟨hout.round, fun j x => ?_, fun j => ?_, hout.stamp hresets⟩
  · rw [hout.cell, if_neg]
    exact fun hz => Bool.noConfusion ((hresets j).symm.trans (resets_of_zeroes hz))
  · have hpays : c.pays s.toRoundState j = 0 := by
      unfold pays
      rcases he : c.event? with _ | event
      · rfl
      · exact Event.pays_of_onlyAdds (onlyAdds_of_event? hc he) _ j
    rw [hout.share, hresets, if_neg Bool.false_ne_true, hpays, add_zero]

/-- Two calls that only add lead to one state in either order. -/
theorem eq_of_adds {t t' u u' : CStats} (ha : a.handler.onlyAdds = true)
    (hb : b.handler.onlyAdds = true) (hst : a.Adds s t) (htu : b.Adds t u) (hst' : b.Adds s t')
    (htu' : a.Adds t' u') : u = u' := by
  refine CStats.ext_round ?_ (funext fun j => CPlayer.ext_cell (fun x => ?_) ?_ ?_)
  · rw [htu.round, hst.round, htu'.round, hst'.round, turns_comm_of_onlyAdds ha hb]
  · calc (u.data j).cell x
        = (s.data j).cell x + a.posts s.toRoundState j x + b.posts t.toRoundState j x := by
          rw [htu.cell, hst.cell]
      _ = (s.data j).cell x + b.posts s.toRoundState j x + a.posts t'.toRoundState j x := by
          rw [add_right_comm, posts_of_onlyAdds hb t.toRoundState s.toRoundState,
            posts_of_onlyAdds ha t'.toRoundState s.toRoundState]
      _ = (u'.data j).cell x := by rw [htu'.cell, hst'.cell]
  · rw [htu.share, hst.share, htu'.share, hst'.share]
  · rw [htu.stamp, hst.stamp, htu'.stamp, hst'.stamp]

/-- **Two calls that only add commute.** -/
theorem commutes (ha : a.handler.onlyAdds = true) (hb : b.handler.onlyAdds = true) :
    Commutes exec a b := by
  -- by symmetry, a run of the two in the first order gives one in the second
  have hswap : ∀ {a b : Call}, a.handler.onlyAdds = true → b.handler.onlyAdds = true →
      ∀ s u, run exec [a, b] s = .ok u → run exec [b, a] s = .ok u := by
    intro a b ha hb s u h
    obtain ⟨t, hat, hbu⟩ := run_pair_ok_iff.mp h
    obtain ⟨t', hbt'⟩ := (exec_defined_of_onlyAdds hb t s).mp ⟨u, hbu⟩
    obtain ⟨u', hau'⟩ := (exec_defined_of_onlyAdds ha s t').mp ⟨t, hat⟩
    obtain rfl := eq_of_adds ha hb (adds_of_exec ha hat) (adds_of_exec hb hbu)
      (adds_of_exec hb hbt') (adds_of_exec ha hau')
    exact run_pair_ok_iff.mpr ⟨t', hbt', hau'⟩
  exact fun s u => ⟨hswap ha hb s u, hswap hb ha s u⟩

end Call

/-! ## Any number of calls -/

/-- **Calls that only add, in another order**, lead from every state to the same state, and so does
every run that they are a part of. -/
theorem exec_perm_onlyAdds {l l' : List Call} (hl : ∀ c ∈ l, c.handler.onlyAdds = true)
    (hperm : l.Perm l') (s s' : CStats) :
    (run Call.exec l s = .ok s' ↔ run Call.exec l' s = .ok s') ∧
      ∀ p q, run Call.exec (p ++ l ++ q) s = .ok s' ↔ run Call.exec (p ++ l' ++ q) s = .ok s' := by
  have hrun : ∀ t t', run Call.exec l t = .ok t' ↔ run Call.exec l' t = .ok t' :=
    run_perm hperm fun a ha b hb => Call.commutes (hl a ha) (hl b hb)
  refine ⟨hrun s s', fun p q => ?_⟩
  simp only [run_append_ok_iff, hrun]

/-- The counter-terrorist hits itself and shoots, between a hit by the terrorist and a payment. -/
def duelVolley : List Call :=
  [duelHit, .duel (.takeDamage (some duelCt) none (some 2)),
    .duel (.setAnimation (some duelCt) .attack1), .duel (.addAccount (some duelT) 300 rtNone)]

theorem exec_perm_onlyAdds_duel :
    run Call.exec duelVolley.reverse CStats.initial = run Call.exec duelVolley CStats.initial := by
  obtain ⟨s, hs⟩ : ∃ s, run Call.exec duelVolley CStats.initial = .ok s := ⟨_, rfl⟩
  have hperm : duelVolley.Perm duelVolley.reverse := (List.reverse_perm _).symm
  rw [hs]
  exact (exec_perm_onlyAdds (by decide) hperm CStats.initial s).1.mp hs

end StatsX
