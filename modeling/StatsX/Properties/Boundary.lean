import StatsX.Spec.Safety
import StatsX.Spec.Round

/-!
# Boundaries of a round

A boundary should cut the records off from the round before it: two states that differ only in
the members `m_Round*` should lead to the same records, whatever comes after the boundary. A
`RoundFreezeEnd` that is recorded does so, as it overwrites every one of these members. A boundary
that records nothing does not: the bomb of the old round still goes to its planter.

## Main definitions

* `Isolates b`: behind the call `b`, the records do not depend on the round members before it
* `Call.isBoundary`: the call is a boundary, `RoundFreezeEnd` or `ServerActivate`

## Main results

* `isolates_iff`: a boundary isolates exactly when it is a `RoundFreezeEnd` with the switch on
-/

namespace StatsX

/-- Behind the call `b`, the records do not depend on the round members before it. -/
def Isolates (b : Call) : Prop :=
  ∀ s₁ s₂ : CStats, s₁.data = s₂.data → ∀ calls t₁ t₂,
    run Call.exec (b :: calls) s₁ = .ok t₁ → run Call.exec (b :: calls) s₂ = .ok t₂ →
      t₁.data = t₂.data

/-- The call is the boundary of a round or of a map. -/
def Call.isBoundary (b : Call) : Bool :=
  match b.handler with
  | .roundFreezeEnd => true
  | .serverActivate => true
  | _ => false

/-- A boundary that does not start a round records nothing. -/
theorem Call.event?_of_isBoundary {b : Call} (hb : b.isBoundary = true)
    (hstart : b.startsRound = false) : b.event? = none := by
  obtain ⟨g, handler⟩ := b
  cases handler <;> simp_all [isBoundary, startsRound, event?]

theorem isolates_of_startsRound {b : Call} (hstart : b.startsRound = true) : Isolates b := by
  intro s₁ s₂ hdata calls t₁ t₂ h₁ h₂
  -- the call takes both states to one and the same
  rw [run_cons, Call.exec_startsRound hstart, ok_bind] at h₁ h₂
  rw [hdata, h₂] at h₁
  rw [Except.ok.inj h₁]

/-- The round members after a bomb was planted by the player in slot 1. -/
def planted : CStats := { CStats.initial with roundBombPlanter := 1 }

/-- The bomb of the duel explodes. -/
def duelExplosion : Call := .duel .explodeBomb

/-- What the explosion of the duel adds depends on the planter. -/
theorem posts_duelExplosion :
    duelExplosion.posts planted.toRoundState 1 (.bombStats .exploded) = 1 ∧
      duelExplosion.posts CStats.initial.toRoundState 1 (.bombStats .exploded) = 0 := by
  decide

/-- **A call that records nothing does not isolate**: an explosion after it still goes to the
planter of the old round. -/
theorem not_isolates {b : Call} (hevent : b.event? = none) : ¬ Isolates b := by
  intro h
  -- after the call and the explosion, the record of the planter shows the old planter
  have hrun : ∀ s, ∃ t, run Call.exec [b, duelExplosion] s = .ok t ∧
      (t.data 1).bombStats .exploded =
        (if b.zeroes 1 (.bombStats .exploded) then 0 else (s.data 1).bombStats .exploded) +
          duelExplosion.posts s.toRoundState 1 (.bombStats .exploded) := by
    intro s
    obtain ⟨s', hs'⟩ := (b.exec_defined s).mpr (by simp [hevent])
    obtain ⟨t, ht⟩ := (duelExplosion.exec_defined s').mpr (by rintro _ ⟨⟩; trivial)
    have hround : s'.toRoundState = s.toRoundState := by
      rw [(Call.exec_ok hs').round, Call.turns, hevent, Option.elim_none]
    have hcell := (Call.exec_ok hs').cell 1 (.bombStats .exploded)
    have hcell' := (Call.exec_ok ht).cell 1 (.bombStats .exploded)
    rw [Call.posts, hevent, Option.elim_none, add_zero] at hcell
    rw [hcell, hround] at hcell'
    exact ⟨t, by rw [run_cons, hs', ok_bind, run_cons, ht]; rfl, hcell'⟩
  obtain ⟨t₁, hrun₁, h₁⟩ := hrun planted
  obtain ⟨t₂, hrun₂, h₂⟩ := hrun CStats.initial
  have hdata : t₁.data = t₂.data := h planted CStats.initial rfl _ t₁ t₂ hrun₁ hrun₂
  rw [hdata, h₂, posts_duelExplosion.1, posts_duelExplosion.2] at h₁
  simp [planted] at h₁

/-- **A boundary isolates** exactly when it is a `RoundFreezeEnd` with the switch on. -/
theorem isolates_iff {b : Call} (hb : b.isBoundary = true) :
    Isolates b ↔ b.startsRound = true := by
  refine ⟨fun h => ?_, isolates_of_startsRound⟩
  by_contra hstart
  exact not_isolates (Call.event?_of_isBoundary hb (Bool.eq_false_of_not_eq_true hstart)) h

/-- A round that starts with the switch off. -/
def silentFreezeEnd : Call := ⟨{ Server.ofPlayers [] with manager := ⟨some ⟨0⟩⟩ }, .roundFreezeEnd⟩

/-- The map changes, or the next round starts unrecorded, between the plant and the explosion. -/
theorem boundary_does_not_isolate :
    (¬ Isolates (.duel .serverActivate)) ∧ ¬ Isolates silentFreezeEnd :=
  ⟨not_isolates (by decide), not_isolates (by decide)⟩

/-- A round of the duel starts. -/
theorem isolates_iff_duel :
    Isolates (.duel .roundFreezeEnd) ↔ (Call.duel .roundFreezeEnd).startsRound = true :=
  isolates_iff rfl

end StatsX
