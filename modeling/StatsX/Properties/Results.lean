import Mathlib.Algebra.BigOperators.Group.Finset.Piecewise
import StatsX.Spec.Exec

/-!
# The result of a round

`RoundEnd` is to book the result of a round for those who have played it on a side. It takes every
player who is not a terrorist for a counter-terrorist, so that a spectator, or a player who has not
chosen a team, has played the round as well, and lost it.

## Main definitions

* `AddsRound`: one more round, and one more result of it
* `Server.headCount`, `CStats.booked`: the players of a team, and the results that were booked
* `ResultsBooked`: the results are booked for the two sides, and for no one else

## Main results

* `resultsBooked_iff`: at every settlement, the results are booked exactly when every player is on
  a side
-/

namespace StatsX

/-! ## Results and head counts -/

/-- From `s` to `s'`, the record `j` counts one more round, and one more result `r`. -/
def AddsRound (s s' : CStats) (j : Slot) (r : RoundGroup) : Prop :=
  ∀ x, (s'.data j).rounds x = (s.data j).rounds x + if x = .play ∨ x = r then 1 else 0

/-- The number of players on a team. -/
def Server.headCount (g : Server) (team : TeamName) : ℕ := (Finset.univ.filter (g.IsOn team)).card

/-- The number of results `r` that are booked from `s` to `s'`, over all the records. -/
def CStats.booked (s s' : CStats) (r : RoundGroup) : ℕ :=
  ∑ j, ((s'.data j).rounds r - (s.data j).rounds r).toNat

/-- The side that has lost. -/
def Settlement.loser (e : Settlement) : TeamName :=
  if e.winner = .terrorist then .ct else .terrorist

/-- **The results of the round are booked for the two sides**, from `s` to `s'`, and for no one
else. -/
structure ResultsBooked (e : Settlement) (g : Server) (s s' : CStats) : Prop where
  terrorist : ∀ j, g.IsOn .terrorist j →
    AddsRound s s' j (if e.winner = .terrorist then .winTr else .loseTr)
  ct : ∀ j, g.IsOn .ct j → AddsRound s s' j (if e.winner = .ct then .winCt else .loseCt)
  others : ∀ j, ¬ g.Plays j → s'.data j = s.data j
  won : s.booked s' .winTr + s.booked s' .winCt = g.headCount e.winner
  lost : s.booked s' .loseTr + s.booked s' .loseCt = g.headCount e.loser

/-! ## What a settlement books -/

namespace Settlement

variable (e : Settlement) (g : Server)

/-- The result `r` is booked for the player in slot `j`. -/
def Books (j : Slot) (r : RoundGroup) : Prop :=
  ∃ temp ∈ g.playerAt j, r = e.result temp.team

instance (j : Slot) (r : RoundGroup) : Decidable (e.Books g j r) :=
  inferInstanceAs (Decidable (∃ temp ∈ g.playerAt j, _))

variable {e g}

theorem result_terrorist :
    e.result .terrorist = if e.winner = .terrorist then .winTr else .loseTr := by
  unfold result
  generalize e.winner = winner
  cases winner <;> rfl

theorem result_ct : e.result .ct = if e.winner = .ct then .winCt else .loseCt := by
  unfold result
  generalize e.winner = winner
  cases winner <;> rfl

theorem posts_rounds {ρ : RoundState} {j : Slot} {temp : CBasePlayer}
    (hj : g.playerAt j = some temp) (r : RoundGroup) : e.posts g ρ j (.rounds r) =
      if r = .play ∨ r = e.result temp.team then 1 else 0 := by
  rw [posts, hj]
  cases r <;> simp [postsAt]

theorem posts_of_empty {ρ : RoundState} {j : Slot} (hj : g.playerAt j = none) (x : Counter) :
    e.posts g ρ j x = 0 := by
  rw [posts, hj]

theorem pays_of_empty {ρ : RoundState} {j : Slot} (hj : g.playerAt j = none) :
    Event.pays g ρ j (.settle e) = 0 := by
  have hwins : ¬ e.Wins g j := by
    rintro ⟨temp, htemp, -⟩
    simp [hj] at htemp
  simp [Event.pays, objectiveShare, damageShare, bomberShare, hj, hwins]

/-- The winner of a settlement is one of the two sides. -/
theorem winner_eq {c : Call} (he : c.event? = some (.settle e)) :
    e.winner = .terrorist ∨ e.winner = .ct := by
  have hg := Call.isEnabled_of_event? he
  obtain ⟨winStatus, hhandler⟩ := Call.comesFrom_of_event? he
  rw [Call.event?, if_pos hg, hhandler] at he
  simp only at he
  split at he
  · rw [← Event.settle.inj (Option.some.inj he)]
    by_cases hw : winStatus = winstatusTerrorists <;> simp [hw]
  · simp at he

/-- Among players of the two sides, those who have not won are on the side that has lost. -/
theorem loses_iff (hwinner : e.winner = .terrorist ∨ e.winner = .ct) {j : Slot}
    (hplays : (g.playerAt j).isSome → g.Plays j) :
    (g.playerAt j).isSome ∧ ¬ g.IsOn e.winner j ↔ g.IsOn e.loser j := by
  rcases hj : g.playerAt j with _ | temp
  · simp [Server.IsOn, hj]
  · obtain ⟨_, htemp, hteam⟩ := hplays (by simp [hj])
    obtain rfl := Option.some.inj (hj.symm.trans htemp)
    simp only [Server.IsOn, hj, Option.mem_some, exists_eq_left', Option.isSome_some, true_and,
      loser]
    rcases hwinner with hw | hw <;> rcases hteam with ht | ht <;> simp [hw, ht]

theorem books_iff {j : Slot} {temp : CBasePlayer} (hj : g.playerAt j = some temp) {r : RoundGroup} :
    e.Books g j r ↔ r = e.result temp.team := by
  simp [Books, hj]

theorem not_books {j : Slot} (hj : g.playerAt j = none) (r : RoundGroup) : ¬ e.Books g j r := by
  rintro ⟨temp, htemp, -⟩
  simp [hj] at htemp

/-- A player wins when it is on the winning team. -/
theorem books_won (j : Slot) : ((if e.Books g j .winTr then 1 else 0) +
    if e.Books g j .winCt then 1 else 0) = if g.IsOn e.winner j then 1 else 0 := by
  rcases hj : g.playerAt j with _ | temp
  · simp [not_books hj, Server.IsOn, hj]
  · have hon : g.IsOn e.winner j ↔ temp.team = e.winner := by simp [Server.IsOn, hj]
    simp only [books_iff hj, hon, result]
    generalize temp.team = team
    generalize e.winner = winner
    cases team <;> cases winner <;> rfl

/-- A player loses when it is not on the winning team, whatever it is on. -/
theorem books_lost (j : Slot) : ((if e.Books g j .loseTr then 1 else 0) +
    if e.Books g j .loseCt then 1 else 0) =
      if (g.playerAt j).isSome ∧ ¬ g.IsOn e.winner j then 1 else 0 := by
  rcases hj : g.playerAt j with _ | temp
  · simp [not_books hj]
  · have hon : g.IsOn e.winner j ↔ temp.team = e.winner := by simp [Server.IsOn, hj]
    simp only [books_iff hj, hon, result, Option.isSome_some, true_and]
    generalize temp.team = team
    generalize e.winner = winner
    cases team <;> cases winner <;> rfl

end Settlement

/-! ## Every settlement -/

section

variable {c : Call} {e : Settlement} (he : c.event? = some (.settle e)) {s s' : CStats}
  (h : c.exec s = .ok s')

include he h

/-- **Everyone who is there has played the round**, and has won or lost it. -/
theorem addsRound_of_exec {j : Slot} {temp : CBasePlayer} (hj : c.server.playerAt j = some temp) :
    AddsRound s s' j (e.result temp.team) := by
  intro x
  have hcell := (Call.exec_event he h).2.1 j (.rounds x)
  rw [Event.posts, Settlement.posts_rounds hj] at hcell
  exact hcell

/-- The record of an empty slot is left alone. -/
theorem data_of_empty {j : Slot} (hj : c.server.playerAt j = none) : s'.data j = s.data j := by
  obtain ⟨-, hcell, hshare⟩ := Call.exec_event he h
  refine CPlayer.ext_cell (fun x => ?_) ?_ ?_
  · rw [hcell, Event.posts, Settlement.posts_of_empty hj, add_zero]
  · rw [hshare, Settlement.pays_of_empty hj, add_zero]
  · exact (Call.exec_ok h).stamp (Call.resets_of_event? he) j

/-- The results of one kind that are booked, slot by slot. -/
theorem booked_of_exec {r : RoundGroup} (hr : r ≠ .play) :
    s.booked s' r = ∑ j, if e.Books c.server j r then 1 else 0 := by
  refine Finset.sum_congr rfl fun j _ => ?_
  rcases hj : c.server.playerAt j with _ | temp
  · rw [data_of_empty he h hj, sub_self, if_neg (Settlement.not_books hj r)]
    rfl
  · have hround := addsRound_of_exec he h hj r
    simp only [hr, false_or, ← Settlement.books_iff hj] at hround
    rw [hround, add_sub_cancel_left]
    by_cases hbooks : e.Books c.server j r <;> simp [hbooks]

/-- The results booked as wins are the head count of the winners. -/
theorem booked_won :
    s.booked s' .winTr + s.booked s' .winCt = c.server.headCount e.winner := by
  rw [booked_of_exec he h (by decide), booked_of_exec he h (by decide), ← Finset.sum_add_distrib,
    Server.headCount, Finset.card_filter]
  exact Finset.sum_congr rfl fun j _ => Settlement.books_won j

/-- The results booked as losses are the head count of the others who are there. -/
theorem booked_lost : s.booked s' .loseTr + s.booked s' .loseCt =
    ((Finset.univ : Finset Slot).filter fun j =>
      (c.server.playerAt j).isSome ∧ ¬ c.server.IsOn e.winner j).card := by
  rw [booked_of_exec he h (by decide), booked_of_exec he h (by decide), ← Finset.sum_add_distrib,
    Finset.card_filter]
  exact Finset.sum_congr rfl fun j _ => Settlement.books_lost j

/-- The results are booked for the two sides when every player is on one. -/
theorem resultsBooked_of_plays (hall : ∀ j, (c.server.playerAt j).isSome → c.server.Plays j) :
    ResultsBooked e c.server s s' where
  terrorist := by
    rintro j ⟨temp, hj, hteam⟩
    have hround := addsRound_of_exec he h hj
    rwa [hteam, Settlement.result_terrorist] at hround
  ct := by
    rintro j ⟨temp, hj, hteam⟩
    have hround := addsRound_of_exec he h hj
    rwa [hteam, Settlement.result_ct] at hround
  others := by
    intro j hplays
    refine data_of_empty he h ?_
    rw [← Option.not_isSome_iff_eq_none]
    exact fun hsome => hplays (hall j hsome)
  won := booked_won he h
  lost := by
    -- those who are there and have not won are on the side that has lost
    rw [booked_lost he h, Server.headCount]
    congr 1
    refine Finset.filter_congr fun j _ => ?_
    exact Settlement.loses_iff (Settlement.winner_eq he) (hall j)

/-- **The results of the round are booked for the two sides** exactly when every player is on
one. -/
theorem resultsBooked_iff : ResultsBooked e c.server s s' ↔
    ∀ j, (c.server.playerAt j).isSome → c.server.Plays j := by
  refine ⟨fun hbooked j hsome => ?_, resultsBooked_of_plays he h⟩
  -- a player who is on no side has played the round
  by_contra hplays
  obtain ⟨temp, hj⟩ := Option.isSome_iff_exists.mp hsome
  have hround := addsRound_of_exec he h hj .play
  rw [hbooked.others j hplays, if_pos (.inl rfl)] at hround
  exact absurd (left_eq_add.mp hround) (by decide)

end

/-! ## A spectator -/

/-- The duel, with a spectator in slot 4. -/
def watchedEnd : Call :=
  ⟨.ofPlayers [duelT, duelCt, { duelFourth with team := .spectator }],
    .roundEnd winstatusTerrorists .terroristsWin⟩

/-- The spectator has played the round. -/
theorem spectator_booked : ∃ s', watchedEnd.exec CStats.initial = .ok s' ∧
    ¬ ResultsBooked duelSettlement watchedEnd.server CStats.initial s' := by
  obtain ⟨s', hs', hplay⟩ : ∃ s', Reaches ([] ++ [watchedEnd]) s' ∧ (s'.data 4).rounds .play = 1 :=
    exists_reaches_and (by decide)
  obtain ⟨s, hs, hend⟩ := reaches_concat_iff.mp hs'
  obtain rfl : CStats.initial = s := Except.ok.inj hs
  refine ⟨s', hend, fun h => ?_⟩
  rw [h.others 4 (by decide)] at hplay
  exact absurd hplay (by decide)

/-- The end of the duel. -/
theorem resultsBooked_duel : ∃ s s', Reaches [duelHit] s ∧ duelEnd.exec s = .ok s' ∧
    (ResultsBooked duelSettlement duelEnd.server s s' ↔
      ∀ j, (duelEnd.server.playerAt j).isSome → duelEnd.server.Plays j) := by
  obtain ⟨s, s', hs, hend⟩ : ∃ s s', Reaches [duelHit] s ∧ duelEnd.exec s = .ok s' :=
    exists_reaches_concat rfl
  exact ⟨s, s', hs, hend, resultsBooked_iff event?_duelEnd hend⟩

end StatsX
