import StatsX.Properties.KillStreak
import StatsX.Properties.StableRound
import StatsX.Spec.Replay

/-!
# Games of settled rounds

A game is played round by round: a round starts, its players hit and kill each other and see to the
bomb, and it is settled. When nobody joins, leaves or changes team within a round, the records add
up over the game: the shares, as exact rationals, to the number of rounds, the kill-streak histogram
of a player to its kills, and the rounds played to those in which there was a player in the slot.

## Main definitions

* `SettledRound`: a round with a stable roster, from its start to its settlement
* `GameRound`: a settled round in which the winners deal damage
* `CPlayer.streakKills`: the kills that a histogram stands for, as a 32-bit integer

## Main results

* `records_of_settled_game`: kills, histograms and rounds played after a game
* `sum_share_of_stable_game`: the shares after a game
-/

namespace StatsX

/-! ## Rounds -/

/-- **A round with a stable roster**, from its start to its settlement. -/
structure SettledRound where
  start : Call
  calls : List Call
  finish : Call
  settlement : Settlement
  starts : start.startsRound = true
  settles : finish.event? = some (.settle settlement)
  stable : StableRound finish calls

namespace SettledRound

variable (r : SettledRound)

/-- The calls of a round. -/
def log : List Call := r.start :: (r.calls ++ [r.finish])

/-- The calls between the start and the settlement reset nothing and settle nothing. -/
theorem of_mem_calls {c : Call} (hc : c ∈ r.calls) :
    (∀ j, c.resets j = false) ∧ ∀ e, c.event? ≠ some (.settle e) := by
  have hevent := r.stable.isRoundEvent c hc
  constructor
  · apply Call.resets_eq_false
    cases hh : c.handler <;> simp_all [Handler.isRoundEvent, Handler.isReset]
  · intro e he
    obtain ⟨winStatus, hh⟩ := Call.comesFrom_of_event? he
    rw [hh] at hevent
    exact Bool.noConfusion hevent

/-- **The three parts of a round**: the start leaves the records, the calls lead to the round that
they describe, and the settlement follows. -/
theorem exists_of_run {s s' : CStats} (h : run Call.exec r.log s = .ok s') :
    ∃ s₁ t : CStats, s₁.data = s.data ∧ run Call.exec r.calls s₁ = .ok t ∧
      t.toRoundState = .ofCalls r.calls ∧ r.finish.exec t = .ok s' := by
  obtain ⟨s₁, hstart, hdata, hrun⟩ := run_of_startsRound r.starts h
  obtain ⟨t, ht, hfinish⟩ := run_concat_ok_iff.mp hrun
  refine ⟨s₁, t, hdata, ht, ?_, hfinish⟩
  rw [round_of_run hstart ht, r.stable.thisRound_eq]

/-! ### Kills -/

/-- The kills of a record after the calls of a round. -/
theorem frags_of_calls {s t : CStats} (h : run Call.exec r.calls s = .ok t) (j : Slot) :
    (t.data j).frags = (s.data j).frags + BitVec.ofNat 32 (killCount r.calls j) := by
  refine run_induction (P := fun l t => (t.data j).frags =
    (s.data j).frags + BitVec.ofNat 32 (killCount l j)) ?_ ?_ h
  · exact (BitVec.add_zero _).symm
  · intro p c t t' hp _ ih hc
    have hmem : c ∈ r.calls := hp.subset (by simp)
    have hresets := (r.of_mem_calls hmem).1 j
    have hcell := (Call.exec_ok hc).cell j .frags
    rw [Call.zeroes_eq_resets rfl, hresets, if_neg Bool.false_ne_true, Call.posts_frags] at hcell
    rw [killCount_concat, BitVec.ofNat_add, ← BitVec.add_assoc, ← ih]
    exact hcell

/-- What only settlements add stays as it is over the calls of a round. -/
theorem cell_of_calls {x : Counter} {j : Slot}
    (hx : ∀ c : Call, (∀ e, c.event? ≠ some (.settle e)) → ∀ ρ, c.posts ρ j x = 0) {s t : CStats}
    (h : run Call.exec r.calls s = .ok t) : (t.data j).cell x = (s.data j).cell x := by
  refine run_induction (P := fun _ t => (t.data j).cell x = (s.data j).cell x) rfl ?_ h
  intro p c t t' hp _ ih hc
  have hmem : c ∈ r.calls := hp.subset (by simp)
  obtain ⟨hresets, hsettle⟩ := r.of_mem_calls hmem
  rw [(Call.exec_ok hc).cell, Call.zeroes_eq_false (hresets j), if_neg Bool.false_ne_true,
    hx c hsettle, add_zero, ih]

/-- A player who has killed in the round is there when it is settled. -/
theorem isSome_of_killCount {j : Slot} (h : 0 < killCount r.calls j) :
    (r.finish.server.playerAt j).isSome := by
  obtain ⟨e, he, hj⟩ := List.countP_pos_iff.mp h
  obtain ⟨c, hc, hevent⟩ := mem_kills he
  obtain ⟨_, -, hkiller⟩ := Call.comesFrom_of_event? hevent
  have hat := Server.playerAt_slot hkiller
  rw [of_decide_eq_true hj] at hat
  exact r.stable.isSome_playerAt hc (by rw [hat]; rfl)

end SettledRound

/-- The kills that a histogram stands for, as a 32-bit integer. -/
def CPlayer.streakKills (r : CPlayer) : CInt := ∑ n, BitVec.ofNat 32 n.val * r.killStreak n

namespace SettledRound

variable (r : SettledRound)

/-- **The settlement of a round** adds the kills of the round to the histogram. -/
theorem streakKills_of_finish {t s' : CStats} (hround : t.toRoundState = .ofCalls r.calls)
    (h : r.finish.exec t = .ok s') {j : Slot} (hkills : killCount r.calls j < 2 ^ 31) :
    (s'.data j).streakKills =
      (t.data j).streakKills + BitVec.ofNat 32 (killCount r.calls j) := by
  have hfrags : ((RoundState.ofCalls r.calls).roundFrags j).toInt = killCount r.calls j := by
    rw [roundFrags_ofCalls]
    exact toInt_ofNat_of_lt hkills
  have hresets := Call.resets_of_event? r.settles j
  have hcell : ∀ n, (s'.data j).killStreak n = (t.data j).killStreak n +
      r.finish.posts t.toRoundState j (.killStreak n) := by
    intro n
    have := (Call.exec_ok h).cell j (.killStreak n)
    rwa [Call.zeroes_eq_resets rfl, hresets, if_neg Bool.false_ne_true] at this
  simp only [Call.posts_killStreak, hround, hfrags] at hcell
  unfold CPlayer.streakKills
  rcases Nat.eq_zero_or_pos (killCount r.calls j) with hzero | hpos
  · simp [hcell, hzero]
  · -- the player is there, and the histogram has an entry for its kills
    have hsettles : r.finish.settlesFor j = true := by
      rw [Call.settlesFor, r.settles]
      exact r.isSome_of_killCount hpos
    have hbound : killCount r.calls j ≤ maxClients := by
      have := streakInBounds_of_exec h hsettles
      rw [hround, StreakInBounds, hfrags] at this
      exact_mod_cast this
    have hentry : ∀ n : Fin (maxClients + 1), (n.val : ℤ) = killCount r.calls j ↔
        n = ⟨killCount r.calls j, Nat.lt_succ_of_le hbound⟩ := by
      intro n
      rw [Int.natCast_inj, Fin.ext_iff]
    have hpos' : (0 : ℤ) < killCount r.calls j := by exact_mod_cast hpos
    simp only [hcell, hsettles, hpos', hentry, true_and, mul_add, Finset.sum_add_distrib, mul_ite,
      mul_one, mul_zero, Finset.sum_ite_eq', Finset.mem_univ, if_true]

/-- **One round** adds its kills to the record and its histogram, and one to the rounds played. -/
theorem records_of_run {s s' : CStats} (h : run Call.exec r.log s = .ok s') {j : Slot}
    (hkills : killCount r.calls j < 2 ^ 31) :
    (s'.data j).frags = (s.data j).frags + BitVec.ofNat 32 (killCount r.calls j) ∧
      (s'.data j).streakKills =
        (s.data j).streakKills + BitVec.ofNat 32 (killCount r.calls j) ∧
      (s'.data j).rounds .play = (s.data j).rounds .play +
        if (r.finish.server.playerAt j).isSome then 1 else 0 := by
  obtain ⟨s₁, t, hdata, ht, hround, hfinish⟩ := r.exists_of_run h
  have hposts : ∀ x, (s'.data j).cell x =
      (t.data j).cell x + Event.posts r.finish.server t.toRoundState j (.settle r.settlement) x :=
    fun x => (Call.exec_event r.settles hfinish).2.1 j x
  have hnothing : ∀ x, (∀ c : Call, (∀ e, c.event? ≠ some (.settle e)) → ∀ ρ, c.posts ρ j x = 0) →
      (t.data j).cell x = (s.data j).cell x := by
    intro x hx
    rw [r.cell_of_calls hx ht, hdata]
  refine ⟨?_, ?_, ?_⟩
  · have hfrags : (s'.data j).frags = (t.data j).frags := by
      have := hposts .frags
      simp only [Event.posts, Settlement.posts] at this
      cases hj : r.finish.server.playerAt j <;>
        simpa [hj, Settlement.postsAt, CPlayer.cell] using this
    rw [hfrags, r.frags_of_calls ht, hdata]
  · have hstreak : (t.data j).streakKills = (s.data j).streakKills := by
      unfold CPlayer.streakKills
      refine Finset.sum_congr rfl fun n _ => congrArg _ (hnothing (.killStreak n) ?_)
      intro c hc ρ
      rw [Call.posts_killStreak, if_neg]
      rintro ⟨hsettles, -⟩
      unfold Call.settlesFor at hsettles
      split at hsettles
      · rename_i e he
        exact hc e he
      · exact Bool.noConfusion hsettles
    rw [r.streakKills_of_finish hround hfinish hkills, hstreak]
  · have hplay := hnothing (.rounds .play) fun c hc ρ => by
      unfold Call.posts
      cases he : c.event? with
      | none => rw [Option.elim_none]
      | some event =>
        cases event with
        | settle e => exact absurd he (hc e)
        | _ => rfl
    have := hposts (.rounds .play)
    rw [hplay] at this
    simp only [Event.posts, Settlement.posts] at this
    cases hj : r.finish.server.playerAt j <;>
      simpa [hj, Settlement.postsAt, CPlayer.cell] using this

end SettledRound

/-- The kills of the player in slot `j` over the rounds of a game. -/
def gameKills (rounds : List SettledRound) (j : Slot) : ℕ :=
  (rounds.map fun r => killCount r.calls j).sum

/-- The rounds of a game in which there is a player in slot `j` when they are settled. -/
def gameRounds (rounds : List SettledRound) (j : Slot) : ℕ :=
  rounds.countP fun r => (r.finish.server.playerAt j).isSome

/-- The round of the duel, with a hit and a kill. -/
def duelSettled : SettledRound where
  start := .duel .roundFreezeEnd
  calls := [duelHit, duelKill]
  finish := duelEnd
  settlement := duelSettlement
  starts := rfl
  settles := event?_duelEnd
  stable := ⟨by decide, by decide, by decide⟩

/-- **A settled round in which the winners deal damage**, and in which somebody plants or defuses
the bomb when its objective is complete. -/
structure GameRound extends SettledRound where
  fits : Fits calls
  dealt : 0 < settlement.dealt finish.server calls
  hero : settlement.isObjective = true → settlement.bomber (.ofCalls calls) ≠ -1

namespace GameRound

variable (r : GameRound)

/-- **The payments of a stable round make one whole.** -/
theorem sum_payment : ∑ j, r.settlement.payment r.finish.server r.calls j = 1 := by
  have hne : (damageFor r.calls r.settlement.winner : ℚ) ≠ 0 := by
    rw [← r.stable.dealt_eq]
    exact_mod_cast r.dealt.ne'
  have hdealt : ∑ j ∈ r.settlement.winners r.finish.server, damageBy r.calls j =
      damageFor r.calls r.settlement.winner := r.stable.dealt_eq
  rw [StatsX.sum_payment, r.stable.sum_bonus, hdealt, div_self hne, mul_one, Settlement.scale]
  by_cases hobjective : r.settlement.isObjective
  · rw [if_pos (r.hero hobjective), if_pos hobjective]
    norm_num
  · rw [Settlement.bomber_eq_neg_one hobjective, if_neg hobjective]
    norm_num

/-- The calls of a round pay nothing before its settlement. -/
theorem share_of_calls {s t : CStats} (h : run Call.exec r.calls s = .ok t) (j : Slot) :
    (t.data j).roundWinShare = (s.data j).roundWinShare := by
  refine run_induction (P := fun _ t => (t.data j).roundWinShare = (s.data j).roundWinShare) rfl
    ?_ h
  intro p c t t' hp _ ih hc
  have hmem : c ∈ r.calls := hp.subset (by simp)
  obtain ⟨hresets, hsettle⟩ := r.of_mem_calls hmem
  have hpays : c.pays t.toRoundState j = 0 := by
    unfold Call.pays
    cases he : c.event? with
    | none => rw [Option.elim_none]
    | some event =>
      cases event with
      | settle e => exact absurd he (hsettle e)
      | _ => rfl
  rw [(Call.exec_ok hc).share, hresets, if_neg Bool.false_ne_true, hpays, add_zero, ih]

/-- **One round pays one whole.** -/
theorem sum_share {s s' : CStats} (h : run Call.exec r.log s = .ok s') :
    ∑ j, (s'.data j).roundWinShare = ∑ j, (s.data j).roundWinShare + 1 := by
  obtain ⟨s₁, t, hdata, ht, hround, hfinish⟩ := r.exists_of_run h
  have hshare : ∀ j, (s'.data j).roundWinShare = (s.data j).roundWinShare +
      (r.settlement.payment r.finish.server r.calls j : WithTop ℚ) := by
    intro j
    rw [(Call.exec_event r.settles hfinish).2.2, r.share_of_calls ht, hdata, hround,
      pays_eq r.fits fun k => r.stable.damageFor_pos r.fits]
  simp only [hshare]
  rw [Finset.sum_add_distrib, ← WithTop.coe_sum, r.sum_payment, WithTop.coe_one]

end GameRound

/-- The round of the duel. -/
def duelRound : GameRound where
  start := .duel .roundFreezeEnd
  calls := [duelHit]
  finish := duelEnd
  settlement := duelSettlement
  starts := rfl
  settles := event?_duelEnd
  stable := stableRound_duel
  fits := by decide
  dealt := by decide
  hero := by decide

end StatsX
