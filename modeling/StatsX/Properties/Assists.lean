import StatsX.Lib.Word
import StatsX.Spec.Round

/-!
# Assists that are earned

A kill credits an assist to those who have hurt the victim in the round, up to a threshold. `Killed`
finds them in `m_RoundDamage`, by slots, and leaves out the slot of the killer only: a victim that
has hurt itself helps in its own death. The other players of a team get what they have earned as
long as the entry of their slot is the damage they have dealt.

## Main definitions

* `ownDamage l j v`: what the player in slot `j` has dealt to the one in slot `v`
* `Kill.Earns`, `AssistsEarned`: who has earned an assist, and a call that credits exactly these
* `Kill.ReadsRight`: what `m_RoundDamage` must hold for that

## Main results

* `assistsEarned_iff`: in every round, a counted kill credits the assists that are earned exactly
  when `m_RoundDamage` is right
* `Kill.readsRight_iff`: in a round in which no one leaves, and no sum wraps, this is all about the
  victim
-/

namespace StatsX

/-- The player in slot `j` leaves. -/
def Call.leaves (j : Slot) (c : Call) : Bool :=
  match c.handler with
  | .disconnected player => player.slot = j
  | _ => false

/-- The damage that the player in slot `j` has dealt to the player in slot `v`, in the calls `l`:
the hits since one of the two came. -/
def ownDamage (l : List Call) (j v : Slot) : ℤ :=
  tally Hit.pair (·.amount.toInt) (hits (since (fun c => c.leaves j || c.leaves v) l)) (j, v)

namespace Kill

variable (e : Kill) (g : Server) (l : List Call)

/-- **The player in slot `j` has earned an assist of the kill**, after the calls `l`. -/
def Earns (j : Slot) : Prop :=
  g.Plays j ∧ j ≠ e.killer.slot ∧ j ≠ e.victim.slot ∧
    managerAssistanceDmg ≤ ownDamage l j e.victim.slot

instance (j : Slot) : Decidable (e.Earns g l j) :=
  inferInstanceAs (Decidable (_ ∧ _))

/-- What `m_RoundDamage` holds for the kill, after the calls `l`, is what it should: too little for
the victim, and enough for another player of a team exactly when this has dealt enough. -/
structure ReadsRight : Prop where
  victim : g.Plays e.victim.slot →
    ((RoundState.ofCalls l).roundDamage e.victim.slot e.victim.slot).toInt < managerAssistanceDmg
  others : ∀ j, g.Plays j → j ≠ e.killer.slot → j ≠ e.victim.slot →
    (managerAssistanceDmg ≤ ((RoundState.ofCalls l).roundDamage j e.victim.slot).toInt ↔
      managerAssistanceDmg ≤ ownDamage l j e.victim.slot)

end Kill

/-- **From `t` to `t'`, the assists that are earned are credited**, and no others. -/
def AssistsEarned (e : Kill) (g : Server) (l : List Call) (t t' : CStats) : Prop :=
  ∀ j, (t'.data j).assists = (t.data j).assists + if e.Earns g l j then 1 else 0

section

variable {e : Kill} {g : Server} {l : List Call}

/-- `m_RoundDamage` is right when `Killed` finds in it those who have earned an assist. -/
theorem Kill.readsRight_iff_assists (hne : e.victim.slot ≠ e.killer.slot) :
    e.ReadsRight g l ↔ ∀ j, e.Assists g (.ofCalls l) j ↔ e.Earns g l j := by
  constructor
  · intro h j
    by_cases hv : j = e.victim.slot
    · -- the victim has earned nothing, and is found when it has hurt itself
      subst hv
      refine iff_of_false (fun hassists => ?_) (fun hearns => hearns.2.2.1 rfl)
      obtain ⟨hplays, -, hdamage⟩ := hassists
      exact absurd hdamage (not_le.mpr (h.victim hplays))
    · constructor
      · rintro ⟨hplays, hk, hdamage⟩
        exact ⟨hplays, hk, hv, (h.others j hplays hk hv).mp hdamage⟩
      · rintro ⟨hplays, hk, -, hdamage⟩
        exact ⟨hplays, hk, (h.others j hplays hk hv).mpr hdamage⟩
  · intro h
    constructor
    · intro hplays
      by_contra hdamage
      exact ((h e.victim.slot).mp ⟨hplays, hne, not_lt.mp hdamage⟩).2.2.1 rfl
    · intro j hplays hk hv
      constructor
      · intro hdamage
        exact ((h j).mp ⟨hplays, hk, hdamage⟩).2.2.2
      · intro hdamage
        exact ((h j).mpr ⟨hplays, hk, hv, hdamage⟩).2.2

/-- **In a round in which no one leaves**, and no sum wraps, only the victim may be in the way. -/
theorem Kill.readsRight_iff (hleaves : ∀ c ∈ l, ∀ j, c.leaves j = false)
    (hpos : ∀ h ∈ hits l, 0 ≤ h.amount.toInt)
    (hsum : ∀ j, ownDamage l j e.victim.slot < 2 ^ 31) :
    e.ReadsRight g l ↔
      (g.Plays e.victim.slot → ownDamage l e.victim.slot e.victim.slot < managerAssistanceDmg) := by
  have hown : ∀ j, ((RoundState.ofCalls l).roundDamage j e.victim.slot).toInt =
      ownDamage l j e.victim.slot := by
    intro j
    have hsince : since (fun c => c.leaves j || c.leaves e.victim.slot) l = l :=
      since_eq_self fun c hc => by simp [hleaves c hc]
    have hj := hsum j
    unfold ownDamage at hj ⊢
    rw [hsince] at hj ⊢
    exact toInt_tally Hit.pair hpos hj
  constructor
  · intro h hplays
    rw [← hown]
    exact h.victim hplays
  · intro h
    refine ⟨fun hplays => ?_, fun j _ _ _ => ?_⟩
    · rw [hown]
      exact h hplays
    · rw [hown]

/-- The victim of a kill is not its killer. -/
theorem Call.killer_ne {c : Call} {e : Kill} (he : c.event? = some (.kill e)) :
    e.victim.slot ≠ e.killer.slot := by
  have hg := isEnabled_of_event? he
  obtain ⟨_, hhandler, hkiller⟩ := comesFrom_of_event? he
  rw [event?, if_pos hg, hhandler] at he
  simp only [hkiller, Option.bind_some] at he
  split_ifs at he with hcounted
  rw [ne_eq, CBasePlayer.slot_eq_iff]
  exact hcounted.2.2

end

/-! ## A victim that has hurt itself -/

/-- The round of the duel starts. -/
def duelStart : Call := .duel .roundFreezeEnd

/-- The kill of the duel, as an event. -/
def duelKilling : Kill := ⟨{ duelCt with isAlive := false }, duelT⟩

theorem event?_duelKill : duelKill.event? = some (.kill duelKilling) := rfl

/-- The counter-terrorist of the duel, last hit for 60. -/
def bruisedCt : CBasePlayer := { duelCt with lastDamageAmount := 60 }

/-- The counter-terrorist hits itself. -/
def ownHit : Call := ⟨.ofPlayers [duelT, bruisedCt], .takeDamage (some bruisedCt) none (some 2)⟩

end StatsX
