import StatsX.Spec.Round

/-!
# Clutches

A player is in a clutch at a kill when it is the last one alive of its team, against one or more
opponents. `RoundEnd` is to count the first clutch of each winner in `Versus`, by the number of
opponents. `Killed` takes the numbers of players alive from an array that `CountAlive` leaves as
it was, all zero, so that it never sees a clutch and `RoundEnd` never counts one.

## Main definitions

* `Server.aliveCount`: the number of players alive of a team
* `firstClutch l j`: the opponents in the first clutch of the player in slot `j` in the round `l`
* `ClutchesRecorded`: the settlement counts the first clutch of each winner and nothing else

## Main results

* `versus_of_exec`: no settlement changes a `Versus` table
* `clutchesRecorded_iff`: the clutches are recorded exactly when no winner was in one
-/

namespace StatsX

/-! ## Clutches of a round -/

/-- The opponents of a team. -/
def TeamName.other : TeamName → TeamName
  | .terrorist => .ct
  | _ => .terrorist

/-- The players in the slots of the server. -/
def Server.players (g : Server) : List CBasePlayer := g.clients.filterMap g.playerByIndexSafe

/-- The number of players alive of a team. -/
def Server.aliveCount (g : Server) (team : TeamName) : ℕ :=
  g.players.countP fun p => p.isPlayer ∧ p.isAlive ∧ p.team = team

/-- The number of opponents against whom the player in slot `j` is the last one alive of its
team. -/
def Server.clutch? (g : Server) (j : Slot) : Option ℕ :=
  match g.playerAt j with
  | none => none
  | some p =>
    if (p.isPlayer ∧ p.isAlive) ∧ (p.team = .terrorist ∨ p.team = .ct) ∧
        g.aliveCount p.team = 1 ∧ 1 ≤ g.aliveCount p.team.other then
      some (g.aliveCount p.team.other)
    else none

/-- The opponents in the first clutch of the player in slot `j`, at the kills of the round `l`. -/
def firstClutch (l : List Call) (j : Slot) : Option ℕ :=
  l.findSome? fun c => if c.kill?.isSome then c.server.clutch? j else none

theorem aliveCount_le (g : Server) (team : TeamName) : g.aliveCount team ≤ maxClients :=
  calc g.aliveCount team ≤ g.players.length := List.countP_le_length
    _ ≤ g.clients.length := List.length_filterMap_le _ _
    _ = g.maxClients := by simp [Server.clients]
    _ ≤ maxClients := g.maxClients_le

/-- The opponents of a clutch are an index of `Versus`. -/
theorem clutch?_le {g : Server} {j : Slot} {n : ℕ} (h : g.clutch? j = some n) : n ≤ maxClients := by
  unfold Server.clutch? at h
  split at h
  · simp at h
  · split_ifs at h
    obtain rfl := Option.some.inj h
    exact aliveCount_le _ _

theorem firstClutch_le {l : List Call} {j : Slot} {n : ℕ} (h : firstClutch l j = some n) :
    n ≤ maxClients := by
  obtain ⟨c, -, hc⟩ := List.exists_of_findSome?_eq_some h
  split_ifs at hc
  exact clutch?_le hc

/-! ## What is recorded -/

/-- The settlement `e` of the round `l` takes the records from `s` to `s'` by counting the first
clutch of each winner, and no other player's. It goes by slot, as the records do: a player is who is
in its slot, at a kill and at the settlement. -/
def ClutchesRecorded (e : Settlement) (g : Server) (l : List Call) (s s' : CStats) : Prop :=
  ∀ j n, (s'.data j).versus n = (s.data j).versus n +
    if e.Wins g j ∧ firstClutch l j = some n.val then 1 else 0

/-- **No settlement changes a `Versus` table** in a run that starts with a round. -/
theorem versus_of_exec {calls : List Call} {s₀ s s' : CStats} (start : s₀.toRoundState = .initial)
    (hrun : run Call.exec calls s₀ = .ok s) {c : Call} {e : Settlement}
    (he : c.event? = some (.settle e)) (h : c.exec s = .ok s') (j : Slot)
    (n : Fin (maxClients + 1)) : (s'.data j).versus n = (s.data j).versus n := by
  have hcell : (s'.data j).versus n = _ := (Call.exec_event he h).2.1 j (.versus n)
  rw [hcell, round_of_run start hrun]
  simp only [Event.posts, Settlement.posts]
  cases c.server.playerAt j with
  | none => exact add_zero _
  | some temp => simp [Settlement.postsAt, RoundState.ofCalls, CPlayer.cell]

/-- **The clutches of a round are recorded** exactly when no winner was in one. -/
theorem clutchesRecorded_iff {b : Call} (hb : b.startsRound = true) {calls : List Call}
    {s₀ s s' : CStats} (hrun : run Call.exec (b :: calls) s₀ = .ok s) {c : Call} {e : Settlement}
    (he : c.event? = some (.settle e)) (h : c.exec s = .ok s') :
    ClutchesRecorded e c.server (thisRound calls) s s' ↔
      ∀ j, e.Wins c.server j → firstClutch (thisRound calls) j = none := by
  obtain ⟨s₁, start, -, hrun₁⟩ := run_of_startsRound hb hrun
  have hversus := versus_of_exec start hrun₁ he h
  -- no table changes, so that nothing may have been there to count
  constructor
  · intro hrec j hwins
    rcases hn : firstClutch (thisRound calls) j with _ | n
    · rfl
    have := hrec j ⟨n, Nat.lt_succ_of_le (firstClutch_le hn)⟩
    rw [hversus, if_pos ⟨hwins, hn⟩] at this
    simp at this
  · intro hnone j n
    rw [hversus, if_neg, add_zero]
    rintro ⟨hwins, hn⟩
    simp [hnone j hwins] at hn

/-! ## A clutch that is lost -/

/-- The terrorist of the duel kills a second counter-terrorist. -/
def clutchKill : Call :=
  let victim := { duelThird with team := .ct, isAlive := false }
  ⟨.ofPlayers [duelT, duelCt, victim], .killed (some victim) 1⟩

/-- The terrorist wins, last of its team against one opponent, and `Versus[1]` stays zero. -/
theorem clutch_not_recorded : ∃ s s',
    run Call.exec [.duel .roundFreezeEnd, clutchKill] CStats.initial = .ok s ∧
      duelEnd.exec s = .ok s' ∧
      ¬ ClutchesRecorded duelSettlement duelEnd.server (thisRound [clutchKill]) s s' := by
  obtain ⟨s, s', hs, hend⟩ : ∃ s s', Reaches [.duel .roundFreezeEnd, clutchKill] s ∧
      duelEnd.exec s = .ok s' := exists_reaches_concat rfl
  obtain ⟨s₁, start, -, hrun₁⟩ := run_of_startsRound rfl hs
  refine ⟨s, s', hs, hend, fun h => ?_⟩
  have := h 1 1
  rw [versus_of_exec start hrun₁ rfl hend, if_pos (by decide)] at this
  simp at this

/-- One of two terrorists kills one of two counter-terrorists. -/
def openKill : Call :=
  let victim := { duelFourth with isAlive := false }
  ⟨.ofPlayers [duelT, duelCt, duelThird, victim], .killed (some victim) 1⟩

/-- The kill puts the other counter-terrorist in a clutch, and no winner. -/
theorem clutchesRecorded_iff_duel : openKill.server.clutch? 2 = some 2 ∧ ∃ s s',
    run Call.exec [.duel .roundFreezeEnd, duelHit, openKill] CStats.initial = .ok s ∧
      duelEnd.exec s = .ok s' ∧
      (ClutchesRecorded duelSettlement duelEnd.server (thisRound [duelHit, openKill]) s s' ↔
        ∀ j, duelSettlement.Wins duelEnd.server j →
          firstClutch (thisRound [duelHit, openKill]) j = none) := by
  refine ⟨by decide +kernel, ?_⟩
  obtain ⟨s, s', hs, hend⟩ : ∃ s s', Reaches [.duel .roundFreezeEnd, duelHit, openKill] s ∧
      duelEnd.exec s = .ok s' := exists_reaches_concat (by decide +kernel)
  exact ⟨s, s', hs, hend, clutchesRecorded_iff rfl hs rfl hend⟩

end StatsX
