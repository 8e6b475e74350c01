import StatsX.Spec.Round

/-!
# The round-damage ledgers

`TakeDamage` writes one amount into three tables: by attacker and victim, by attacker, and by
the attacker's team at the time. They are tallies of one log, and agree wherever their keys do,
whatever the players do to their teams and slots in between.

## Main results

* `ledgers_agree`: rows of `roundDamage` sum to `roundDamageSelf`, the tables by attacker and by
  team sum to the same total, and `roundDamage` holds the damage of the round
-/

namespace StatsX

namespace RoundState

variable (l : List Call)

theorem roundDamage_ofCalls (a v : Slot) :
    (ofCalls l).roundDamage a v =
      (((hits l).filter fun h => h.attacker.slot = a ∧ h.victim.slot = v).map Hit.amount).sum := by
  simp [ofCalls, tally, Hit.pair]

/-- A row of the table of pairs sums to the damage of the attacker. -/
theorem sum_roundDamage (a : Slot) :
    ∑ v, (ofCalls l).roundDamage a v = (ofCalls l).roundDamageSelf a :=
  sum_tally_pair Hit.dealer Hit.amount (fun h => h.victim.slot) (hits l) a

/-- The damage by attacker and the damage by team are the damage of the round. -/
theorem sum_roundDamageTeam :
    ∑ t, (ofCalls l).roundDamageTeam t = ∑ a, (ofCalls l).roundDamageSelf a :=
  (sum_tally Hit.side Hit.amount (hits l)).trans (sum_tally Hit.dealer Hit.amount (hits l)).symm

end RoundState

/-- **The ledgers agree** in every state of every run, and `roundDamage` holds the amounts of the
hits recorded since the last start of a round. -/
theorem ledgers_agree {calls : List Call} {s : CStats} (h : Reaches calls s) :
    (∀ a, s.roundDamageSelf a = ∑ v, s.roundDamage a v) ∧
      ∑ t, s.roundDamageTeam t = ∑ a, s.roundDamageSelf a ∧
      ∀ a v, s.roundDamage a v = (((hits (thisRound calls)).filter fun h =>
        h.attacker.slot = a ∧ h.victim.slot = v).map Hit.amount).sum := by
  -- the members are tallies of the hits of the round, by three keys
  rw [round_of_reaches h]
  refine ⟨fun a => ?_, ?_, fun a v => ?_⟩
  · exact (RoundState.sum_roundDamage _ a).symm
  · exact RoundState.sum_roundDamageTeam _
  · exact RoundState.roundDamage_ofCalls _ a v

/-- The players of the duel hit each other in a second round. -/
def duelExchange : List Call :=
  [duelHit, .duel .roundFreezeEnd, duelHit,
    .duel (.takeDamage (some { duelT with lastDamageAmount := 45 }) none (some 2)), duelHit]

/-- The ledgers hold the hits of the second round. -/
theorem ledgers_agree_duel : ∃ s, Reaches duelExchange s ∧
    (s.roundDamage 1 2 = 60 ∧ s.roundDamage 2 1 = 45) ∧
    ((∀ a, s.roundDamageSelf a = ∑ v, s.roundDamage a v) ∧
      ∑ t, s.roundDamageTeam t = ∑ a, s.roundDamageSelf a ∧
      ∀ a v, s.roundDamage a v = (((hits (thisRound duelExchange)).filter fun h =>
        h.attacker.slot = a ∧ h.victim.slot = v).map Hit.amount).sum) := by
  obtain ⟨s, hs, hdamage⟩ : ∃ s, Reaches duelExchange s ∧
      (s.roundDamage 1 2 = 60 ∧ s.roundDamage 2 1 = 45) := exists_reaches_and (by decide +kernel)
  exact ⟨s, hs, hdamage, ledgers_agree hs⟩

end StatsX
