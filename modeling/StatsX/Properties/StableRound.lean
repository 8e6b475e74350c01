import Mathlib.Algebra.Order.BigOperators.Group.Finset
import StatsX.Spec.Share

/-!
# Round Win Share under a stable roster

From the start of a round to its settlement, with no player joining, leaving or changing team, the
damage kept by slot and the damage kept by team have the same owners. The winners then share out
one whole, or the objective's part of it, by the damage they dealt.

## Main definitions

* `StableRound c calls`: in the calls of a round that `c` settles, the roster stays as it is
* `Settlement.dealt`: the damage that the winners dealt

## Main results

* `stable_round_pays`: what a settlement pays at the end of a stable round
-/

namespace StatsX

/-- The handler records an event within a round. -/
def Handler.isRoundEvent : Handler → Bool
  | .addAccount _ _ _ => true
  | .takeDamage _ _ _ => true
  | .killed _ _ => true
  | .setAnimation _ _ => true
  | .plantBomb _ _ => true
  | .defuseBombStart _ => true
  | .defuseBombEnd _ _ => true
  | .explodeBomb => true
  | _ => false

/-- In the calls of a round, every slot has a player of the same team as at the call `c`, or no
player as there, and handlers are called for players in the slots. The switch may be off at some of
them, which then record nothing. -/
structure StableRound (c : Call) (calls : List Call) : Prop where
  isRoundEvent : ∀ x ∈ calls, x.handler.isRoundEvent = true
  team : ∀ x ∈ calls, ∀ j,
    (x.server.playerAt j).map (·.team) = (c.server.playerAt j).map (·.team)
  player : ∀ x ∈ calls, ∀ p ∈ x.handler.player?, (x.server.playerAt p.slot).isSome

/-- The damage that the winners dealt in the calls of the round. -/
def Settlement.dealt (e : Settlement) (g : Server) (calls : List Call) : ℤ :=
  ∑ j ∈ e.winners g, damageBy calls j

namespace StableRound

variable {c : Call} {calls : List Call} {e : Settlement} (h : StableRound c calls)

include h

/-- Nothing in the round starts another. -/
theorem thisRound_eq : thisRound calls = calls := by
  apply since_eq_self
  intro x hx
  have hevent := h.isRoundEvent x hx
  unfold Call.startsRound
  split
  · simp_all [Handler.isRoundEvent]
  · rfl

/-- A slot has a player at the settlement when it had one in the round. -/
theorem isSome_playerAt {x : Call} (hx : x ∈ calls) {j : Slot}
    (hj : (x.server.playerAt j).isSome) : (c.server.playerAt j).isSome := by
  have := congrArg Option.isSome (h.team x hx j)
  simpa [hj] using this.symm

/-- **A hit is a winner's exactly when it was dealt for the winning team.** -/
theorem wins_iff {hit : Hit} (hhit : hit ∈ hits calls) :
    e.Wins c.server hit.attacker.slot ↔ hit.attacker.team = e.winner := by
  obtain ⟨x, hx, hevent⟩ := mem_hits hhit
  obtain ⟨_, _, -, hattacker⟩ := Call.comesFrom_of_event? hevent
  have hteam := h.team x hx hit.attacker.slot
  rw [Server.playerAt_slot hattacker, Option.map_some] at hteam
  obtain ⟨temp, htemp, hsame⟩ := Option.map_eq_some_iff.mp hteam.symm
  simp [Settlement.Wins, htemp, hsame]

/-- The damage of the winners is the damage of their team. -/
theorem dealt_eq : e.dealt c.server calls = damageFor calls e.winner := by
  apply sum_tally_eq_of_iff Hit.dealer Hit.points
  intro hit hhit
  rw [Settlement.mem_winners, Hit.side, TeamName.toIndex_inj]
  exact h.wins_iff hhit

/-- The player who completed the objective is still there. -/
theorem isSome_hero {p : CBasePlayer} (hp : e.hero calls = some p) :
    (c.server.playerAt p.slot).isSome := by
  unfold Settlement.hero at hp
  split_ifs at hp
  · obtain ⟨x, hx, hevent⟩ := defuser_mem hp
    refine h.isSome_playerAt hx (h.player x hx p ?_)
    rw [show x.handler = .defuseBombEnd (some p) true from Call.comesFrom_of_event? hevent]
    rfl
  · obtain ⟨x, hx, hevent⟩ := planter_mem hp
    obtain ⟨_, -, howner⟩ := Call.comesFrom_of_event? hevent
    exact h.isSome_playerAt hx (by simp [Server.playerAt_slot howner])

/-- The extra share goes to the player behind the index. -/
theorem bonus_eq (j : Slot) : e.bonus c.server (.ofCalls calls) j =
    if (j.val : ℤ) = e.bomber (.ofCalls calls) then 3 / 10 else 0 := by
  unfold Settlement.bonus
  refine if_congr (and_iff_left_of_imp fun hj => ?_) rfl rfl
  rw [bomber_ofCalls] at hj
  rcases hhero : e.hero calls with _ | p
  · rw [hhero, Option.elim_none] at hj
    omega
  · rw [hhero, Option.elim_some, ← p.slot_val, Int.natCast_inj, Fin.val_inj] at hj
    subst hj
    exact h.isSome_hero hhero

/-- The extra share is paid exactly when the index is set. -/
theorem sum_bonus : ∑ j, e.bonus c.server (.ofCalls calls) j =
    if e.bomber (.ofCalls calls) ≠ -1 then 3 / 10 else 0 := by
  rw [Settlement.sum_bonus]
  refine if_congr ⟨fun hsome hunset => ?_, fun hset => ?_⟩ rfl rfl
  · rw [hunset, c.server.playerByIndexSafe_neg_one] at hsome
    simp at hsome
  · rw [bomber_ofCalls] at hset ⊢
    rcases hhero : e.hero calls with _ | p
    · exact absurd (by rw [hhero]; rfl) hset
    · rw [Option.elim_some, ← p.slot_val]
      exact h.isSome_hero hhero

/-- A winner who dealt damage finds it in the damage of its team. -/
theorem damageFor_pos (hfits : Fits calls) {j : Slot} (hwins : e.Wins c.server j)
    (hdealt : 0 < damageBy calls j) : 0 < damageFor calls e.winner := by
  rw [← h.dealt_eq]
  exact hdealt.trans_le (Finset.single_le_sum (fun k _ => hfits.damageBy_nonneg k)
    ((Settlement.mem_winners _ _).mpr hwins))

end StableRound

/-- **What a settlement pays at the end of a stable round** without negative amounts and wraps:
every record gains what is paid to it; if the winners dealt damage, the payments make one whole, or
seven tenths and the extra share after an objective, and go by damage; if not, only the extra share
is paid. -/
theorem stable_round_pays {b c : Call} (hb : b.startsRound = true) {calls : List Call}
    (hstable : StableRound c calls) (hfits : Fits calls) {s₀ s s' : CStats}
    (hrun : run Call.exec (b :: calls) s₀ = .ok s) {e : Settlement}
    (he : c.event? = some (.settle e)) (hc : c.exec s = .ok s') :
    ∃ pays : Slot → ℚ,
      (∀ j, (s'.data j).roundWinShare = (s.data j).roundWinShare + pays j) ∧
      (0 < e.dealt c.server calls → ∑ j, pays j =
        if e.isObjective then 7 / 10 + if e.bomber s.toRoundState ≠ -1 then 3 / 10 else 0 else 1) ∧
      (0 < e.dealt c.server calls → ∀ j, pays j =
        (if (j.val : ℤ) = e.bomber s.toRoundState then 3 / 10 else 0 : ℚ) +
          (if e.Wins c.server j then
            e.scale * ((damageBy calls j : ℚ) / (e.dealt c.server calls : ℚ)) else 0 : ℚ)) ∧
      (e.dealt c.server calls = 0 → ∀ j, pays j =
        if (j.val : ℤ) = e.bomber s.toRoundState then 3 / 10 else 0) := by
  obtain ⟨s₁, start, -, hrun₁⟩ := run_of_startsRound hb hrun
  have hround : s.toRoundState = .ofCalls calls := by
    rw [round_of_run start hrun₁, hstable.thisRound_eq]
  have hdealt : e.dealt c.server calls = damageFor calls e.winner := hstable.dealt_eq
  refine ⟨e.payment c.server calls, fun j => ?_, fun hpos => ?_, fun _ j => ?_, fun hzero j => ?_⟩
  -- no division is by zero, as a winner's damage is in the damage of its team
  · rw [(Call.exec_event he hc).2.2, hround]
    exact congrArg _ (pays_eq hfits (fun k => hstable.damageFor_pos hfits) j)
  -- the winners' part of the damage of the team is all of it
  · have hne : (e.dealt c.server calls : ℚ) ≠ 0 := by exact_mod_cast hpos.ne'
    rw [sum_payment, hstable.sum_bonus, ← hdealt, ← Settlement.dealt, div_self hne, mul_one,
      Settlement.scale, hround]
    by_cases hobjective : e.isObjective
    · rw [if_pos hobjective, if_pos hobjective, add_comm]
    · rw [if_neg hobjective, if_neg hobjective, Settlement.bomber_eq_neg_one hobjective]
      simp
  · rw [Settlement.payment, hstable.bonus_eq, ← hdealt, hround]
  · rw [Settlement.payment, hstable.bonus_eq, ← hdealt, hzero, hround]
    simp

theorem stableRound_duel : StableRound duelEnd [duelHit] :=
  ⟨by decide, by decide, by decide⟩

/-- The one player who dealt damage takes the whole. -/
theorem stable_round_pays_duel : ∃ s s' : CStats, ∃ pays : Slot → ℚ,
    run Call.exec [.duel .roundFreezeEnd, duelHit] CStats.initial = .ok s ∧
      duelEnd.exec s = .ok s' ∧
      (∀ j, (s'.data j).roundWinShare = (s.data j).roundWinShare + pays j) ∧ ∑ j, pays j = 1 := by
  obtain ⟨s, s', hs, hend⟩ : ∃ s s', Reaches [.duel .roundFreezeEnd, duelHit] s ∧
      duelEnd.exec s = .ok s' := exists_reaches_concat rfl
  obtain ⟨pays, hgain, hsum, -, -⟩ :=
    stable_round_pays rfl stableRound_duel (by decide) hs event?_duelEnd hend
  exact ⟨s, s', pays, hs, hend, hgain, hsum (by decide)⟩

end StatsX
