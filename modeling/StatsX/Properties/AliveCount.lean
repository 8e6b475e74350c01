import StatsX.Properties.Clutch

/-!
# Who is alive

`CountAlive` is to fill the caller's array with the numbers of players alive of the two sides. It
counts into an array of its own: the sum that it returns is right, and the caller's array is as it
was.

## Main definitions

* `Server.aliveAmong`: the number of players alive of a team in some of the slots
* `playerCount`: the array `PlayerCount` of `Killed`
* `ReportsAlive`: what a call of `CountAlive` is to report

## Main results

* `count_foldl`: the counts of the loop, after any of its turns
* `countAlive_snd`: the returned value is the number of players alive
* `killed_playerCount`: a kill looks for clutches in the caller's array
* `reportsAlive_iff`: the numbers are reported exactly when they are zero
-/

namespace StatsX

open CStats

/-! ## The loop -/

/-- The number of players alive of a team in the slots `l`. -/
def Server.aliveAmong (g : Server) (team : TeamName) (l : List ℤ) : ℕ :=
  (l.filterMap g.playerByIndexSafe).countP fun p => p.isPlayer ∧ p.isAlive ∧ p.team = team

theorem aliveAmong_clients (g : Server) (team : TeamName) :
    g.aliveAmong team g.clients = g.aliveCount team := rfl

theorem aliveAmong_append (g : Server) (team : TeamName) (l l' : List ℤ) :
    g.aliveAmong team (l ++ l') = g.aliveAmong team l + g.aliveAmong team l' := by
  unfold Server.aliveAmong
  rw [List.filterMap_append, List.countP_append]

section Loop

variable {g : Server} {team : TeamName}

/-- **One turn of the loop** counts the player in the slot for its team, if that is a side. -/
theorem countAliveAt_toIndex (hteam : team = .terrorist ∨ team = .ct) (count : CArray CInt 4)
    (i : ℤ) : countAliveAt g count i team.toIndex =
      count team.toIndex + BitVec.ofNat 32 (g.aliveAmong team [i]) := by
  unfold countAliveAt Server.aliveAmong
  rcases hi : g.playerByIndexSafe i with _ | p
  · simp [hi]
  rw [List.filterMap_cons_some hi, List.filterMap_nil, List.countP_singleton]
  by_cases hcount : p.isPlayer ∧ p.isAlive ∧ p.team = team
  · obtain ⟨hplayer, halive, rfl⟩ := hcount
    simp [hplayer, halive, hteam]
  · rw [if_neg (mt of_decide_eq_true hcount)]
    change _ = count team.toIndex + 0
    rw [add_zero]
    dsimp only
    split_ifs with h
    · -- the place of another team is written
      refine Function.update_of_ne (fun hplace => hcount ⟨h.1, h.2.1, ?_⟩) _ _
      exact (TeamName.toIndex_injective hplace).symm
    · rfl

/-- **The loop's counts** after the slots `l`: the players alive among them. -/
theorem count_foldl (hteam : team = .terrorist ∨ team = .ct) (l : List ℤ) :
    l.foldl (countAliveAt g) (fun _ => 0) team.toIndex =
      BitVec.ofNat 32 (g.aliveAmong team l) := by
  induction l using List.reverseRecOn with
  | nil => rfl
  | append_singleton l i ih =>
    rw [List.foldl_concat, countAliveAt_toIndex hteam, ih, aliveAmong_append, BitVec.ofNat_add]

end Loop

/-- **The returned value** is the number of players alive on the two sides. -/
theorem countAlive_snd (g : Server) (alive : CArray CInt 4) : (countAlive g alive).2 =
    BitVec.ofNat 32 (g.aliveCount .terrorist) + BitVec.ofNat 32 (g.aliveCount .ct) := by
  show g.clients.foldl (countAliveAt g) (fun _ => 0) TeamName.terrorist.toIndex +
    g.clients.foldl (countAliveAt g) (fun _ => 0) TeamName.ct.toIndex = _
  rw [count_foldl (.inl rfl), count_foldl (.inr rfl), aliveAmong_clients, aliveAmong_clients]

/-! ## The caller's array -/

/-- The caller's array after the call is the one before it. -/
theorem countAlive_fst (g : Server) (alive : CArray CInt 4) : (countAlive g alive).1 = alive := rfl

/-- The array `PlayerCount` of `CStats::Killed`, once `CountAlive` has got it. -/
def playerCount (g : Server) : CArray CInt 4 := (countAlive g fun _ => 0).1

/-- **A kill** ends in the loop over the players, with this array. -/
theorem killed_playerCount {g : Server} {player killer : CBasePlayer} {pevAttacker : ℤ}
    (henabled : g.manager.isEnabled = true) (hbomb : player.killedByBomb = false)
    (hkiller : g.playerByIndexSafe pevAttacker = some killer)
    (hplayer : killer.isPlayer ∧ player.entindex ≠ killer.entindex) :
    killed g (some player) pevAttacker = (do
      bump player.slot .deaths 1
      bump killer.slot .frags 1
      addRoundFrags killer.slot
      bumpIf player.headshotKilled killer.slot .headshot
      killedWith player killer player.slot killer.slot (isWeapon killer true)
      g.clients.forM (killedTurn g killer player.slot (playerCount g))) := by
  simp only [killed, henabled, hbomb, hkiller, if_pos hplayer, CBasePlayer.index_entindex]
  rfl

/-- **The call reports who is alive**: the numbers of the two sides in their places of the caller's
array, nothing in the others, and the sum as the returned value. The array of `Killed` holds the
numbers too. -/
structure ReportsAlive (g : Server) (alive : CArray CInt 4) : Prop where
  sides : ∀ team : TeamName, team = .terrorist ∨ team = .ct →
    (countAlive g alive).1 team.toIndex = BitVec.ofNat 32 (g.aliveCount team)
  others : ∀ team : TeamName, ¬ (team = .terrorist ∨ team = .ct) →
    (countAlive g alive).1 team.toIndex = 0
  returned : (countAlive g alive).2 = (countAlive g alive).1 TeamName.terrorist.toIndex +
    (countAlive g alive).1 TeamName.ct.toIndex
  killed : ∀ team : TeamName, team = .terrorist ∨ team = .ct →
    playerCount g team.toIndex = BitVec.ofNat 32 (g.aliveCount team)

theorem ofNat_aliveCount_eq_zero_iff {g : Server} {team : TeamName} :
    BitVec.ofNat 32 (g.aliveCount team) = 0 ↔
      ∀ p ∈ g.players, p.isPlayer → p.isAlive → p.team ≠ team := by
  have hle := aliveCount_le g team
  have hzero : BitVec.ofNat 32 (g.aliveCount team) = 0 ↔ g.aliveCount team = 0 := by
    rw [← BitVec.toNat_inj, BitVec.toNat_ofNat, Nat.mod_eq_of_lt]
    · rfl
    · exact lt_of_le_of_lt hle (by decide)
  rw [hzero, Server.aliveCount, List.countP_eq_zero]
  simp

/-- **The numbers are reported** exactly when no one is alive on either side. -/
theorem reportsAlive_iff (g : Server) {alive : CArray CInt 4} (hzero : ∀ t, alive t = 0) :
    ReportsAlive g alive ↔ ∀ p ∈ g.players, p.isPlayer → p.isAlive →
      p.team ≠ .terrorist ∧ p.team ≠ .ct := by
  constructor
  · rintro ⟨hsides, -, -, -⟩ p hp hplayer halive
    -- the place of a side is zero, so that no one is alive on it
    have hside : ∀ team : TeamName, team = .terrorist ∨ team = .ct → p.team ≠ team := by
      intro team hteam
      have hnone := hsides team hteam
      rw [countAlive_fst, hzero, eq_comm, ofNat_aliveCount_eq_zero_iff] at hnone
      exact hnone p hp hplayer halive
    exact ⟨hside _ (.inl rfl), hside _ (.inr rfl)⟩
  · intro hnone
    have hside : ∀ team : TeamName, team = .terrorist ∨ team = .ct →
        BitVec.ofNat 32 (g.aliveCount team) = 0 := by
      rintro team hteam
      refine ofNat_aliveCount_eq_zero_iff.mpr fun p hp hplayer halive => ?_
      rcases hteam with rfl | rfl
      · exact (hnone p hp hplayer halive).1
      · exact (hnone p hp hplayer halive).2
    constructor
    · intro team hteam
      rw [countAlive_fst, hzero, hside team hteam]
    · exact fun team _ => hzero team.toIndex
    · rw [countAlive_snd, hside _ (.inl rfl), hside _ (.inr rfl), countAlive_fst, hzero, hzero]
    · intro team hteam
      rw [hside team hteam]
      rfl

/-- At the kill of the duel a terrorist is alive, and `Killed` gets zero. -/
theorem duelKill_not_reported :
    ¬ ReportsAlive duelKill.server (fun _ => 0) ∧
      duelKill.server.aliveCount .terrorist = 1 ∧
        playerCount duelKill.server TeamName.terrorist.toIndex = 0 := by
  have hone : duelKill.server.aliveCount .terrorist = 1 := by decide +kernel
  refine ⟨fun h => ?_, hone, rfl⟩
  have hsides := h.sides .terrorist (.inl rfl)
  rw [hone] at hsides
  exact absurd hsides (by decide)

/-- Both players of the duel are dead, and a spectator looks on. -/
def deadDuel : Server :=
  .ofPlayers [{ duelT with isAlive := false }, { duelCt with isAlive := false },
    { duelThird with team := .spectator }]

/-- Nothing is missed when the dead of both sides are all the players that they have. -/
theorem reportsAlive_dead : deadDuel.players.length = 3 ∧ ReportsAlive deadDuel fun _ => 0 :=
  ⟨by decide +kernel, (reportsAlive_iff _ fun _ => rfl).mpr (by decide +kernel)⟩

end StatsX
