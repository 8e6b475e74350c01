import Mathlib.Data.BitVec
import Mathlib.Data.Rat.Defs
import StatsX.Lib.Bounded

/-!
# The game as the plugin sees it

The handlers of `CStats` read the game through pointers: the slots of the server, the fields of
the players in them, the `stats_enabled` variable. A `Server` is what these pointers show at one
call; between two calls the game may change all of it.

## Main definitions

* `CBasePlayer`: the fields of a player that the plugin reads
* `Server`: the plugin's view of the game at one call
* `Server.playerByIndexSafe`: the player in a slot
* `CManager.isEnabled`: the switch
-/

namespace StatsX

/-- A 32-bit `int` of the plugin's counters. -/
abbrev CInt := BitVec 32

/-- `MAX_CLIENTS` (const.h). -/
abbrev maxClients : ℕ := 32

/-- `MAX_WEAPONS` (weapons.h). -/
abbrev maxWeapons : ℕ := 32

/-- An index of the per-slot arrays `[MAX_CLIENTS + 1]`; players occupy slots `1` and up. -/
abbrev Slot := Fin (maxClients + 1)

/-! ## Enumerations of the game -/

/-- `TeamName` (player.h). -/
inductive TeamName
  | unassigned
  | terrorist
  | ct
  | spectator
  deriving DecidableEq, Repr

/-- The value of the enumerator, as it indexes an array. -/
def TeamName.toInt : TeamName → ℤ
  | .unassigned => 0
  | .terrorist => 1
  | .ct => 2
  | .spectator => 3

/-- An index of the arrays `[SPECTATOR + 1]`. -/
abbrev TeamIndex := Fin 4

/-- The team as an index. -/
def TeamName.toIndex : TeamName → TeamIndex
  | .unassigned => 0
  | .terrorist => 1
  | .ct => 2
  | .spectator => 3

theorem TeamName.toIndex_injective : Function.Injective TeamName.toIndex := by
  intro t u h
  cases t <;> cases u <;> first | rfl | exact absurd h (by decide)

@[simp] theorem TeamName.toIndex_inj {t u : TeamName} : t.toIndex = u.toIndex ↔ t = u :=
  TeamName.toIndex_injective.eq_iff

@[simp] theorem TeamName.index_toInt (t : TeamName) : index 4 t.toInt = .ok t.toIndex := by
  cases t <;> rfl

/-- `PLAYER_ANIM` (player.h). -/
inductive PlayerAnim
  | idle
  | walk
  | jump
  | superjump
  | die
  | attack1
  | attack2
  | flinch
  | largeFlinch
  | reload
  | holdbomb
  deriving DecidableEq, Repr

/-- `ScenarioEventEndRound` (gamerules.h). -/
inductive ScenarioEventEndRound
  | none
  | targetBomb
  | vipEscaped
  | vipAssassinated
  | terroristsEscaped
  | ctsPreventEscape
  | escapingTerroristsNeutralized
  | bombDefused
  | ctsWin
  | terroristsWin
  | endDraw
  | allHostagesRescued
  | targetSaved
  | hostageNotRescued
  | terroristsNotEscaped
  | vipNotEscaped
  | gameCommence
  | gameRestart
  | gameOver
  deriving DecidableEq, Repr

/-- `WINSTATUS_CTS` (gamerules.h). -/
abbrev winstatusCts : ℤ := 1

/-- `WINSTATUS_TERRORISTS` (gamerules.h). -/
abbrev winstatusTerrorists : ℤ := 2

/-- `RT_NONE`, the first of `RewardType` (player.h). -/
abbrev rtNone : ℤ := 0

/-- `RT_VIP_RESCUED_MYSELF`, the last of `RewardType` (player.h). -/
abbrev rtVipRescuedMyself : ℤ := 14

/-- `DEFAULT_FOV` (cdll_dll.h). -/
abbrev defaultFov : ℤ := 90

/-! ### The weapon ids and inventory slots the plugin compares with (weapontype.h) -/

abbrev weaponNone : ℤ := 0
abbrev weaponScout : ℤ := 3
abbrev weaponHegrenade : ℤ := 4
abbrev weaponSmokegrenade : ℤ := 9
abbrev weaponSg550 : ℤ := 13
abbrev weaponAwp : ℤ := 18
abbrev weaponG3sg1 : ℤ := 24
abbrev weaponFlashbang : ℤ := 25
abbrev weaponKnife : ℤ := 29

abbrev primaryWeaponSlot : ℤ := 1
abbrev pistolSlot : ℤ := 2
abbrev knifeSlot : ℤ := 3
abbrev grenadeSlot : ℤ := 4

/-! ## Players -/

/-- The fields of `CBasePlayerItem` that `CStats::IsWeapon` reads. -/
structure CBasePlayerItem where
  isWeapon : Bool
  itemSlot : ℤ
  id : ℤ
  deriving DecidableEq, Repr

/-- What `CStats::GetIntoGame` reads of an `edict_t`: the bytes of `STRING(v.netname)`. -/
structure Edict where
  netname : List UInt8
  deriving DecidableEq, Repr

/-- The fields of `CBasePlayer` that the plugin reads. The game keeps players in the slots
`1` to `MAX_CLIENTS`. -/
structure CBasePlayer where
  entindex : ℤ
  team : TeamName
  edict : Option Edict := some ⟨[]⟩
  isPlayer : Bool := true
  isAlive : Bool := true
  lastDamageAmount : CInt := 0
  lastHitGroup : ℤ := 0
  killedByBomb : Bool := false
  headshotKilled : Bool := false
  lastClientHealth : ℤ := 0
  clientFOV : ℤ := defaultFov
  /-- `m_izSBarState[SBAR_ID_TARGETTYPE]` -/
  sBarTargetType : ℤ := 0
  /-- `IsObserver()` -/
  iuser1 : ℤ := 0
  activeItem : Option CBasePlayerItem := none
  entindex_pos : 1 ≤ entindex := by decide
  entindex_le : entindex ≤ maxClients := by decide

namespace CBasePlayer

variable (p : CBasePlayer)

/-- The slot of a player, as an index of the per-slot arrays. -/
def slot : Slot :=
  ⟨p.entindex.toNat, by have h₁ := p.entindex_pos; have h₂ := p.entindex_le; omega⟩

theorem slot_val : (p.slot.val : ℤ) = p.entindex :=
  Int.toNat_of_nonneg (by have := p.entindex_pos; omega)

@[simp] theorem index_entindex : index (maxClients + 1) p.entindex = .ok p.slot :=
  index_ok_iff.mpr p.slot_val

theorem slot_eq_iff {p q : CBasePlayer} : p.slot = q.slot ↔ p.entindex = q.entindex := by
  rw [← slot_val p, ← slot_val q, Fin.ext_iff, Int.natCast_inj]

end CBasePlayer

/-! ## The switch -/

/-- What `CManager::IsEnabled` reads of the engine's `cvar_t`. -/
structure Cvar where
  value : ℚ
  deriving DecidableEq, Repr

/-- `CManager`: the pointer to the variable `stats_enabled`, null before it is registered. -/
structure CManager where
  enabled : Option Cvar
  deriving DecidableEq, Repr

/-- `CManager::IsEnabled`. -/
def CManager.isEnabled (m : CManager) : Bool :=
  match m.enabled with
  | some cvar => cvar.value ≠ 0
  | none => false

/-! ## The server -/

/-- The plugin's view of the game at one call. An entity's private data is the player in that
slot, and a player knows its own entity index. -/
structure Server where
  manager : CManager
  maxClients : ℕ
  time : ℚ := 0
  privateData : ℤ → Option CBasePlayer
  maxClients_le : maxClients ≤ StatsX.maxClients := by decide
  entindex_eq : ∀ i p, privateData i = some p → p.entindex = i

namespace Server

variable (g : Server)

/-- `UTIL_PlayerByIndexSafe` (player.h). -/
def playerByIndexSafe (playerIndex : ℤ) : Option CBasePlayer :=
  if 0 < playerIndex ∧ playerIndex ≤ g.maxClients then g.privateData playerIndex else none

/-- The entity indices `1` to `maxClients`, as the loops over players visit them. -/
def clients : List ℤ := (List.range g.maxClients).map fun i : ℕ => (i : ℤ) + 1

variable {g}

theorem entindex_of_playerByIndexSafe {i : ℤ} {p : CBasePlayer}
    (h : g.playerByIndexSafe i = some p) : p.entindex = i := by
  unfold playerByIndexSafe at h
  split_ifs at h
  exact g.entindex_eq i p h

theorem mem_clients {i : ℤ} : i ∈ g.clients ↔ 0 < i ∧ i ≤ g.maxClients := by
  simp only [clients, List.mem_map, List.mem_range]
  constructor
  · rintro ⟨k, hk, rfl⟩
    omega
  · rintro ⟨h₀, h⟩
    exact ⟨(i - 1).toNat, by omega, by omega⟩

theorem nodup_clients : g.clients.Nodup :=
  List.nodup_range.map fun i j h => by simpa using h

theorem mem_clients_of_playerByIndexSafe {i : ℤ} {p : CBasePlayer}
    (h : g.playerByIndexSafe i = some p) : i ∈ g.clients := by
  unfold playerByIndexSafe at h
  split_ifs at h with hi
  exact mem_clients.mpr hi

/-- The player in a slot of the per-slot arrays. -/
def playerAt (g : Server) (j : Slot) : Option CBasePlayer :=
  g.playerByIndexSafe (j.val : ℤ)

theorem playerAt_eq_none (g : Server) {j : Slot} (h : (j.val : ℤ) ∉ g.clients) :
    g.playerAt j = none :=
  Option.eq_none_iff_forall_ne_some.mpr fun _ hp => h (mem_clients_of_playerByIndexSafe hp)

/-- No player has the index `-1`. -/
theorem playerByIndexSafe_neg_one (g : Server) : g.playerByIndexSafe (-1) = none := by
  simp [playerByIndexSafe]

theorem slot_of_playerByIndexSafe {i : ℤ} {p : CBasePlayer}
    (h : g.playerByIndexSafe i = some p) : (p.slot.val : ℤ) = i := by
  rw [p.slot_val, entindex_of_playerByIndexSafe h]

theorem playerAt_slot {i : ℤ} {p : CBasePlayer} (h : g.playerByIndexSafe i = some p) :
    g.playerAt p.slot = some p := by
  rw [playerAt, slot_of_playerByIndexSafe h, h]

theorem val_eq_iff {i : ℤ} {p : CBasePlayer} (h : g.playerByIndexSafe i = some p) {j : Slot} :
    (j.val : ℤ) = i ↔ j = p.slot := by
  rw [← slot_of_playerByIndexSafe h, Int.natCast_inj, Fin.val_inj]

/-- The one slot whose player is behind the index of a player. -/
theorem val_eq_and_isSome_iff {i : ℤ} {p : CBasePlayer} (h : g.playerByIndexSafe i = some p)
    {j : Slot} : (j.val : ℤ) = i ∧ (g.playerAt j).isSome ↔ j = p.slot := by
  rw [val_eq_iff h]
  apply and_iff_left_of_imp
  rintro rfl
  rw [playerAt_slot h]
  rfl

/-- No slot's player is behind an index without a player. -/
theorem not_val_eq_and_isSome {i : ℤ} (h : g.playerByIndexSafe i = none) (j : Slot) :
    ¬ ((j.val : ℤ) = i ∧ (g.playerAt j).isSome) := by
  rintro ⟨rfl, hsome⟩
  rw [playerAt, h] at hsome
  exact Bool.noConfusion hsome

theorem slot_of_playerAt {j : Slot} {p : CBasePlayer} (h : g.playerAt j = some p) :
    p.slot = j := by
  have := slot_of_playerByIndexSafe h
  exact Fin.ext (by simpa using this)

/-- A server with the switch on and the given players. -/
def ofPlayers (players : List CBasePlayer) : Server where
  manager := ⟨some ⟨1⟩⟩
  maxClients := StatsX.maxClients
  privateData := fun i => players.find? (·.entindex = i)
  entindex_eq := fun _ _ h => by simpa using List.find?_some h

theorem mem_of_privateData {players : List CBasePlayer} {i : ℤ} {p : CBasePlayer}
    (h : (ofPlayers players).privateData i = some p) : p ∈ players :=
  List.mem_of_find?_eq_some h

end Server

end StatsX
