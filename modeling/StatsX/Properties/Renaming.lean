import Mathlib.Logic.Equiv.Basic
import StatsX.Spec.Safety

/-!
# Renaming the slots

The handlers treat all slots alike: when the players change places, so do their records and what
the round holds for them, and nothing else changes. A renaming permutes the slots `1` to
`maxClients`; it acts on entity indices, on players, servers and calls, and on the members.

## Main definitions

* `Renaming n`: a permutation of the slots `1` to `n`
* `Renaming.player`, `Renaming.server`, `Renaming.call`, `Renaming.stats`: the players, the server,
  the call and the members, renamed

## Main results

* `Renaming.event?_call`: a renamed call records the renamed event
* `Renaming.turns_event`, `Renaming.posts_event`, `Renaming.pays_event`: what the event changes is
  renamed
* `Renaming.run_calls`: a renamed run ends in the renamed state
-/

namespace StatsX

open CStats

/-- A permutation of the slots `1` to `n`. -/
structure Renaming (n : ℕ) where
  perm : Equiv.Perm Slot
  zero : perm 0 = 0
  above : ∀ j : Slot, n < j.val → perm j = j

namespace Renaming

variable {n : ℕ}

instance : CoeFun (Renaming n) fun _ => Slot → Slot := ⟨fun π => π.perm⟩

/-- The renaming back. -/
def symm (π : Renaming n) : Renaming n where
  perm := π.perm.symm
  zero := by rw [Equiv.symm_apply_eq, π.zero]
  above := fun j hj => by rw [Equiv.symm_apply_eq, π.above j hj]

variable (π : Renaming n)

@[simp] theorem symm_apply (j : Slot) : π.symm (π j) = j := π.perm.symm_apply_apply j

@[simp] theorem apply_symm (j : Slot) : π (π.symm j) = j := π.perm.apply_symm_apply j

@[simp] theorem apply_inj {j k : Slot} : π j = π k ↔ j = k := π.perm.injective.eq_iff

theorem symm_eq_iff {j k : Slot} : π.symm j = k ↔ j = π k := π.perm.symm_apply_eq

theorem val_eq_zero_iff (j : Slot) : (π j).val = 0 ↔ j.val = 0 := by
  rw [Fin.val_eq_zero_iff, Fin.val_eq_zero_iff]
  conv_lhs => rw [← π.zero]
  exact π.apply_inj

/-- The slots of players are permuted. -/
theorem mem_range_iff (j : Slot) : 0 < (π j).val ∧ (π j).val ≤ n ↔ 0 < j.val ∧ j.val ≤ n := by
  have hzero := π.val_eq_zero_iff j
  have habove : n < (π j).val ↔ n < j.val := by
    constructor
    · intro h
      rwa [π.apply_inj.mp (π.above _ h)] at h
    · intro h
      rwa [π.above j h]
  omega

/-! ## Entity indices -/

/-- The entity index of a renamed player. Other indices stay as they are. -/
def index (i : ℤ) : ℤ :=
  if h : 0 ≤ i ∧ i.toNat < maxClients + 1 then (π ⟨i.toNat, h.2⟩).val else i

@[simp] theorem index_val (j : Slot) : π.index (j.val : ℤ) = (π j).val := by
  have hj : (j.val : ℤ).toNat < maxClients + 1 := by
    rw [Int.toNat_natCast]
    exact j.isLt
  rw [index, dif_pos ⟨Int.natCast_nonneg _, hj⟩]
  rfl

theorem index_of_not {i : ℤ} (h : ¬ ∃ j : Slot, (j.val : ℤ) = i) : π.index i = i := by
  rw [index, dif_neg]
  rintro ⟨h₀, hi⟩
  exact h ⟨⟨i.toNat, hi⟩, Int.toNat_of_nonneg h₀⟩

@[simp] theorem symm_index (i : ℤ) : π.symm.index (π.index i) = i := by
  by_cases h : ∃ j : Slot, (j.val : ℤ) = i
  · obtain ⟨j, rfl⟩ := h
    simp
  · rw [π.index_of_not h, π.symm.index_of_not h]

@[simp] theorem index_symm (i : ℤ) : π.index (π.symm.index i) = i := π.symm.symm_index i

@[simp] theorem index_inj {i k : ℤ} : π.index i = π.index k ↔ i = k :=
  ⟨fun h => by rw [← π.symm_index i, h, π.symm_index], congrArg π.index⟩

@[simp] theorem index_neg_one : π.index (-1) = -1 :=
  π.index_of_not (by rintro ⟨j, hj⟩; omega)

theorem val_eq_index_iff {j : Slot} {i : ℤ} : ((π j).val : ℤ) = π.index i ↔ (j.val : ℤ) = i := by
  rw [← π.index_val, π.index_inj]

/-- The indices that `playerByIndexSafe` accepts are permuted. -/
theorem index_mem_range_iff {i : ℤ} : 0 < π.index i ∧ π.index i ≤ n ↔ 0 < i ∧ i ≤ n := by
  by_cases h : ∃ j : Slot, (j.val : ℤ) = i
  · obtain ⟨j, rfl⟩ := h
    rw [π.index_val]
    exact_mod_cast π.mem_range_iff j
  · rw [π.index_of_not h]

theorem index_bounds {i : ℤ} (h₁ : 1 ≤ i) (h : i ≤ maxClients) :
    1 ≤ π.index i ∧ π.index i ≤ maxClients := by
  obtain ⟨j, rfl⟩ : ∃ j : Slot, (j.val : ℤ) = i :=
    ⟨⟨i.toNat, by omega⟩, Int.toNat_of_nonneg (by omega)⟩
  have hzero := π.val_eq_zero_iff j
  have hlt := (π j).isLt
  rw [π.index_val]
  omega

/-! ## Players, servers and calls -/

/-- The player, with its new slot. -/
def player (p : CBasePlayer) : CBasePlayer :=
  { p with
    entindex := π.index p.entindex
    entindex_pos := (π.index_bounds p.entindex_pos p.entindex_le).1
    entindex_le := (π.index_bounds p.entindex_pos p.entindex_le).2 }

@[simp] theorem slot_player (p : CBasePlayer) : (π.player p).slot = π p.slot := by
  have h : ((π.player p).slot.val : ℤ) = (π p.slot).val := by
    rw [(π.player p).slot_val, ← π.index_val, p.slot_val]
    rfl
  exact Fin.ext (by exact_mod_cast h)

@[simp] theorem team_player (p : CBasePlayer) : (π.player p).team = p.team := rfl

/-- The server, with its players in their new slots. -/
def server (g : Server) : Server :=
  { g with
    privateData := fun i => (g.privateData (π.symm.index i)).map π.player
    entindex_eq := by
      intro i p h
      obtain ⟨q, hq, rfl⟩ := Option.map_eq_some_iff.mp h
      change π.index q.entindex = i
      rw [g.entindex_eq _ q hq, π.index_symm] }

/-- The handler, called for the renamed players. -/
def handler : Handler → Handler
  | .serverActivate => .serverActivate
  | .serverDeactivate => .serverDeactivate
  | .getIntoGame player => .getIntoGame (π.player player)
  | .disconnected player => .disconnected (π.player player)
  | .addAccount player amount type => .addAccount (player.map π.player) amount type
  | .takeDamage player pevInflictor pevAttacker =>
    .takeDamage (player.map π.player) (pevInflictor.map π.index) (pevAttacker.map π.index)
  | .killed player pevAttacker => .killed (player.map π.player) (π.index pevAttacker)
  | .setAnimation player playerAnim => .setAnimation (player.map π.player) playerAnim
  | .plantBomb pevOwner planted => .plantBomb (π.index pevOwner) planted
  | .defuseBombStart player => .defuseBombStart (player.map π.player)
  | .defuseBombEnd player defused => .defuseBombEnd (player.map π.player) defused
  | .explodeBomb => .explodeBomb
  | .roundFreezeEnd => .roundFreezeEnd
  | .roundEnd winStatus event => .roundEnd winStatus event

theorem isReset_handler (h : Handler) : (π.handler h).isReset = h.isReset := by
  cases h <;> rfl

/-- The call, renamed. -/
def call (c : Call) : Call := ⟨π.server c.server, π.handler c.handler⟩

/-- The round members, renamed. -/
def round (ρ : RoundState) : RoundState where
  roundDamage := fun a v => ρ.roundDamage (π.symm a) (π.symm v)
  roundDamageSelf := fun a => ρ.roundDamageSelf (π.symm a)
  roundDamageTeam := ρ.roundDamageTeam
  roundFrags := fun k => ρ.roundFrags (π.symm k)
  roundVersus := fun k => ρ.roundVersus (π.symm k)
  roundBombPlanter := π.index ρ.roundBombPlanter
  roundBombDefuser := π.index ρ.roundBombDefuser

/-- **The members, renamed**: the records and what the round holds for the slots. -/
def stats (s : CStats) : CStats :=
  { π.round s.toRoundState with data := fun j => s.data (π.symm j) }

theorem toRoundState_stats (s : CStats) : (π.stats s).toRoundState = π.round s.toRoundState := rfl

theorem data_stats (s : CStats) (j : Slot) : (π.stats s).data (π j) = s.data j :=
  congrArg s.data (π.symm_apply j)

/-- The event, renamed. -/
def event : Event → Event
  | .hit h => .hit ⟨π.player h.victim, π.player h.attacker⟩
  | .kill e => .kill ⟨π.player e.victim, π.player e.killer⟩
  | .shot player => .shot (π.player player)
  | .payment player type amount => .payment (π.player player) type amount
  | .planting player => .planting (π.player player)
  | .planted player => .planted (π.player player)
  | .defusing player => .defusing (π.player player)
  | .defused player => .defused (π.player player)
  | .explosion => .explosion
  | .start => .start
  | .settle e => .settle e

section

variable {g : Server} (hg : g.maxClients = n)
include hg

theorem playerByIndexSafe_server (i : ℤ) :
    (π.server g).playerByIndexSafe (π.index i) = (g.playerByIndexSafe i).map π.player := by
  subst hg
  have hmax : (π.server g).maxClients = g.maxClients := rfl
  unfold Server.playerByIndexSafe
  rw [hmax]
  by_cases h : 0 < i ∧ i ≤ g.maxClients
  · rw [if_pos h, if_pos (π.index_mem_range_iff.mpr h)]
    change (g.privateData (π.symm.index (π.index i))).map π.player = _
    rw [π.symm_index]
  · rw [if_neg h, if_neg fun h' => h (π.index_mem_range_iff.mp h')]
    rfl

theorem playerAt_server (j : Slot) :
    (π.server g).playerAt (π j) = (g.playerAt j).map π.player := by
  rw [Server.playerAt, ← π.index_val, π.playerByIndexSafe_server hg]
  rfl

end

/-! ## What a renamed call does -/

@[simp] theorem isWeapon_player (p : CBasePlayer) (allowKnife : Bool) :
    isWeapon (π.player p) allowKnife = isWeapon p allowKnife := rfl

/-- **A renamed call records the renamed event.** -/
theorem event?_call {c : Call} (hc : c.server.maxClients = n) :
    (π.call c).event? = c.event?.map π.event := by
  obtain ⟨g, h⟩ := c
  have hfind := π.playerByIndexSafe_server hc
  cases hg : g.manager.isEnabled with
  | false =>
    have hswitch : (π.server g).manager.isEnabled = false := hg
    simp [Call.event?, call, hg, hswitch]
  | true =>
    have hswitch : (π.server g).manager.isEnabled = true := hg
    simp only [Call.event?, Call.isEnabled, call, hg, hswitch, if_true]
    -- behind the switch, one handler after the other
    cases h with
    | addAccount player amount type =>
      rcases player with _ | player
      · rfl
      · simp only [handler, Option.map_some]
        split_ifs <;> rfl
    | takeDamage player pevInflictor pevAttacker =>
      rcases player with _ | player
      · rfl
      rcases pevAttacker with _ | pevAttacker
      · rfl
      simp only [handler, Option.map_some, hfind, Option.map_map]
      rfl
    | killed player pevAttacker =>
      rcases player with _ | player
      · rfl
      simp only [handler, Option.map_some, hfind]
      rcases g.playerByIndexSafe pevAttacker with _ | killer
      · rfl
      · have hne : (π.player player).entindex ≠ (π.player killer).entindex ↔
            player.entindex ≠ killer.entindex := not_congr π.index_inj
        simp only [Option.map_some, Option.bind_some]
        by_cases h : (!player.killedByBomb) = true ∧ killer.isPlayer = true ∧
            player.entindex ≠ killer.entindex
        · have h' : (!(π.player player).killedByBomb) = true ∧ (π.player killer).isPlayer = true ∧
              (π.player player).entindex ≠ (π.player killer).entindex := ⟨h.1, h.2.1, hne.mpr h.2.2⟩
          rw [if_pos h, if_pos h']
          rfl
        · rw [if_neg h, if_neg fun h' => h ⟨h'.1, h'.2.1, hne.mp h'.2.2⟩]
          rfl
    | setAnimation player playerAnim =>
      rcases player with _ | player
      · rfl
      · simp only [handler, Option.map_some, isWeapon_player]
        rw [apply_ite (Option.map π.event)]
        rfl
    | plantBomb pevOwner planted =>
      simp only [handler, hfind, Option.map_map]
      cases planted <;> rfl
    | defuseBombStart player => cases player <;> rfl
    | defuseBombEnd player defused => cases player <;> cases defused <;> rfl
    | roundEnd winStatus event =>
      simp only [handler]
      split_ifs <;> rfl
    | _ => rfl

/-! ### The round members -/

section

variable (ρ : RoundState) (j k : Slot)

@[simp] theorem roundDamage_round : (π.round ρ).roundDamage (π j) (π k) = ρ.roundDamage j k := by
  simp [round]

@[simp] theorem roundDamageSelf_round :
    (π.round ρ).roundDamageSelf (π j) = ρ.roundDamageSelf j := by
  simp [round]

@[simp] theorem roundDamageTeam_round : (π.round ρ).roundDamageTeam = ρ.roundDamageTeam := rfl

@[simp] theorem roundFrags_round : (π.round ρ).roundFrags (π j) = ρ.roundFrags j := by
  simp [round]

@[simp] theorem roundVersus_round : (π.round ρ).roundVersus (π j) = ρ.roundVersus j := by
  simp [round]

@[simp] theorem roundBombPlanter_round :
    (π.round ρ).roundBombPlanter = π.index ρ.roundBombPlanter := rfl

@[simp] theorem roundBombDefuser_round :
    (π.round ρ).roundBombDefuser = π.index ρ.roundBombDefuser := rfl

@[simp] theorem round_initial : π.round .initial = .initial := by
  simp [round, RoundState.initial]

end

/-- **What an event does to the round members is renamed.** -/
theorem turns_event (ρ : RoundState) (e : Event) :
    (π.event e).turns (π.round ρ) = π.round (e.turns ρ) := by
  cases e with
  | hit h =>
    refine RoundState.ext ?_ ?_ rfl rfl rfl rfl rfl
    · funext a v
      simp only [event, Event.turns, round, slot_player, symm_eq_iff]
      rfl
    · funext a
      simp only [event, Event.turns, round, slot_player, symm_eq_iff]
      rfl
  | kill e =>
    refine RoundState.ext rfl rfl rfl ?_ rfl rfl rfl
    funext k
    simp only [event, Event.turns, round, slot_player, symm_eq_iff]
  | planting player => exact RoundState.ext rfl rfl rfl rfl rfl (π.index_neg_one).symm rfl
  | start => exact (π.round_initial).symm
  | _ => rfl

/-! ### The records -/

theorem posts_hit (h : Hit) (j : Slot) (x : Counter) :
    Hit.posts ⟨π.player h.victim, π.player h.attacker⟩ (π j) x = h.posts j x := by
  unfold Hit.posts
  split <;> simp only [slot_player, apply_inj, isWeapon_player] <;> rfl

section

variable {g : Server} (hg : g.maxClients = n) (ρ : RoundState) (j : Slot)
include hg

theorem isSome_playerAt_server :
    ((π.server g).playerAt (π j)).isSome = (g.playerAt j).isSome := by
  rw [π.playerAt_server hg, Option.isSome_map]

theorem assists_iff (e : Kill) :
    Kill.Assists ⟨π.player e.victim, π.player e.killer⟩ (π.server g) (π.round ρ) (π j) ↔
      e.Assists g ρ j := by
  unfold Kill.Assists
  rw [π.playerAt_server hg]
  simp only [slot_player, apply_inj, ne_eq, roundDamage_round, Option.mem_map,
    exists_exists_and_eq_and]
  rfl

theorem posts_kill (e : Kill) (x : Counter) :
    Kill.posts ⟨π.player e.victim, π.player e.killer⟩ (π.server g) (π.round ρ) (π j) x =
      e.posts g ρ j x := by
  have hassists := π.assists_iff hg ρ j e
  unfold Kill.posts
  split <;> simp only [slot_player, apply_inj, hassists] <;> rfl

theorem posts_settle (e : Settlement) (x : Counter) :
    e.posts (π.server g) (π.round ρ) (π j) x = e.posts g ρ j x := by
  unfold Settlement.posts
  rw [π.playerAt_server hg]
  rcases g.playerAt j with _ | temp
  · rfl
  · simp only [Option.map_some]
    unfold Settlement.postsAt
    split <;> first | rfl | simp only [team_player, roundFrags_round, roundVersus_round]

/-- **What an event adds to the integers of a record is renamed.** -/
theorem posts_event (e : Event) (x : Counter) :
    (π.event e).posts (π.server g) (π.round ρ) (π j) x = e.posts g ρ j x := by
  cases e with
  | hit h => exact π.posts_hit h j x
  | kill e => exact π.posts_kill hg ρ j e x
  | settle e => exact π.posts_settle hg ρ j e x
  | explosion =>
    cases x with
    | bombStats k =>
      cases k with
      | exploded =>
        simp only [event, Event.posts, roundBombPlanter_round, val_eq_index_iff,
          π.isSome_playerAt_server hg]
      | _ => rfl
    | _ => rfl
  | start => rfl
  | shot player =>
    cases x with
    | weaponStats w k => cases k <;> simp [event, Event.posts]
    | _ => simp [event, Event.posts]
  | payment player type amount => cases x <;> simp [event, Event.posts]
  | planting player | planted player | defusing player | defused player =>
    cases x with
    | bombStats k => cases k <;> simp [event, Event.posts]
    | _ => simp [event, Event.posts]

theorem bomberShare_server (bomber : ℤ) (q : ℚ) :
    bomberShare (π.server g) (π.index bomber) q (π j) = bomberShare g bomber q j := by
  simp only [bomberShare, val_eq_index_iff, π.isSome_playerAt_server hg]

theorem wins_iff (e : Settlement) : e.Wins (π.server g) (π j) ↔ e.Wins g j := by
  unfold Settlement.Wins
  rw [π.playerAt_server hg]
  simp only [Option.mem_map, exists_exists_and_eq_and]
  rfl

/-- **What an event adds to a share is renamed.** -/
theorem pays_event (e : Event) :
    (π.event e).pays (π.server g) (π.round ρ) (π j) = e.pays g ρ j := by
  cases e with
  | settle e =>
    have hobjective : e.objectiveShare (π.server g) (π.round ρ) (π j) = e.objectiveShare g ρ j := by
      simp only [Settlement.objectiveShare, roundBombDefuser_round, roundBombPlanter_round,
        π.bomberShare_server hg]
    have hdamage : e.damageShare (π.server g) (π.round ρ) (π j) = e.damageShare g ρ j := by
      simp only [Settlement.damageShare, Settlement.quotient, π.wins_iff hg, roundDamageSelf_round,
        roundDamageTeam_round]
    exact congrArg₂ (· + ·) hobjective hdamage
  | _ => rfl

/-- **A renamed event is in bounds** when the event is. -/
theorem inBounds_event (e : Event) :
    (π.event e).InBounds (π.server g) (π.round ρ) ↔ e.InBounds g ρ := by
  cases e with
  | settle e =>
    change (∀ j, ∀ temp ∈ (π.server g).playerAt j, _) ↔ ∀ j, ∀ temp ∈ g.playerAt j, _
    rw [← π.perm.forall_congr_right]
    simp only [π.playerAt_server hg, Option.mem_map, forall_exists_index, and_imp,
      forall_apply_eq_imp_iff₂, roundFrags_round, roundVersus_round]
    rfl
  | _ => exact Iff.rfl

end

/-! ## Resets -/

/-- The members with the record of a slot replaced. -/
theorem stats_update (s : CStats) (k : Slot) (r : CPlayer) :
    π.stats { s with data := Function.update s.data k r } =
      { π.stats s with data := Function.update (π.stats s).data (π k) r } := by
  refine CStats.ext_round rfl (funext fun j' => ?_)
  obtain ⟨j, rfl⟩ := π.perm.surjective j'
  rw [data_stats]
  change Function.update s.data k r j = Function.update (π.stats s).data (π k) r (π j)
  by_cases hj : j = k
  · subst hj
    rw [Function.update_self, Function.update_self]
  · have hne : π j ≠ π k := fun h => hj (π.apply_inj.mp h)
    rw [Function.update_of_ne hj, Function.update_of_ne hne, data_stats]

theorem exec_disconnected (g : Server) (player : CBasePlayer) (s : CStats) :
    Call.exec ⟨g, .disconnected player⟩ s = .ok { s with
      data := Function.update s.data player.slot ((s.data player.slot).clear g.time) } := by
  simp only [Call.exec, Handler.body, disconnected, CBasePlayer.index_entindex]
  rfl

theorem exec_getIntoGame (g : Server) (player : CBasePlayer) (s : CStats) :
    Call.exec ⟨g, .getIntoGame player⟩ s = .ok (match player.edict with
      | some edict =>
        let r := (s.data player.slot).init g.time edict.netname
        { s with data := Function.update s.data player.slot r }
      | none => s) := by
  rcases hedict : player.edict with _ | edict <;>
    simp only [Call.exec, Handler.body, getIntoGame, hedict, CBasePlayer.index_entindex] <;> rfl

/-- **A renamed reset resets the renamed record.** -/
theorem exec_call_reset {c : Call} (hreset : c.handler.isReset = true) (s : CStats) :
    ∃ s', c.exec s = .ok s' ∧ (π.call c).exec (π.stats s) = .ok (π.stats s') := by
  obtain ⟨g, handler⟩ := c
  cases handler with
  | serverActivate | serverDeactivate =>
    exact ⟨{ s with data := fun _ => CPlayer.zeroed }, rfl, rfl⟩
  | getIntoGame player =>
    refine ⟨_, exec_getIntoGame g player s, ?_⟩
    change Call.exec ⟨π.server g, .getIntoGame (π.player player)⟩ (π.stats s) = _
    have hedict : (π.player player).edict = player.edict := rfl
    have htime : (π.server g).time = g.time := rfl
    rw [exec_getIntoGame, hedict, slot_player, data_stats, htime]
    cases player.edict with
    | none => rfl
    | some edict => rw [stats_update]
  | disconnected player =>
    refine ⟨_, exec_disconnected g player s, ?_⟩
    change Call.exec ⟨π.server g, .disconnected (π.player player)⟩ (π.stats s) = _
    have htime : (π.server g).time = g.time := rfl
    rw [exec_disconnected, slot_player, data_stats, stats_update, htime]
  | _ => cases hreset

/-! ## Runs -/

section

variable {c : Call} (hc : c.server.maxClients = n) (ρ : RoundState)
include hc

theorem turns_call : (π.call c).turns (π.round ρ) = π.round (c.turns ρ) := by
  rw [Call.turns, Call.turns, π.event?_call hc]
  cases c.event? with
  | none => rfl
  | some e => exact π.turns_event ρ e

theorem posts_call (j : Slot) (x : Counter) :
    (π.call c).posts (π.round ρ) (π j) x = c.posts ρ j x := by
  rw [Call.posts, Call.posts, π.event?_call hc]
  cases c.event? with
  | none => rfl
  | some e => exact π.posts_event hc ρ j e x

theorem pays_call (j : Slot) : (π.call c).pays (π.round ρ) (π j) = c.pays ρ j := by
  rw [Call.pays, Call.pays, π.event?_call hc]
  cases c.event? with
  | none => rw [Option.map_none, Option.elim_none, Option.elim_none]
  | some e => exact π.pays_event hc ρ j e

/-- A renamed call succeeds when the call does. -/
theorem exec_call_defined (s : CStats) :
    (∃ t, (π.call c).exec (π.stats s) = .ok t) ↔ ∃ s', c.exec s = .ok s' := by
  rw [(π.call c).exec_defined, c.exec_defined, π.event?_call hc]
  cases c.event? with
  | none => simp
  | some e =>
    simp only [Option.map_some, Option.mem_some_iff, forall_eq']
    exact π.inBounds_event hc s.toRoundState e

/-- **A renamed call that resets no record leaves the renamed members.** -/
theorem exec_call_ok {s s' t : CStats} (hreset : c.handler.isReset = false) (h : c.exec s = .ok s')
    (ht : (π.call c).exec (π.stats s) = .ok t) : t = π.stats s' := by
  have hresets := Call.resets_eq_false hreset
  have hresets' : ∀ j, (π.call c).resets j = false :=
    Call.resets_eq_false ((π.isReset_handler c.handler).trans hreset)
  have hzeroes : ∀ j x, c.zeroes j x = false := fun j x =>
    Bool.eq_false_of_not_eq_true fun hx => by simpa [hresets j] using Call.resets_of_zeroes hx
  have hzeroes' : ∀ j x, (π.call c).zeroes j x = false := fun j x =>
    Bool.eq_false_of_not_eq_true fun hx => by simpa [hresets' j] using Call.resets_of_zeroes hx
  have hout := Call.exec_ok h
  have hout' := Call.exec_ok ht
  refine CStats.ext_round ?_ (funext fun k => ?_)
  · rw [hout'.round, toRoundState_stats, toRoundState_stats, π.turns_call hc, hout.round]
  · -- the record of a renamed slot, integer by integer
    obtain ⟨j, rfl⟩ := π.perm.surjective k
    rw [data_stats]
    refine CPlayer.ext_cell (fun x => ?_) ?_ ?_
    · rw [hout'.cell, hout.cell, hzeroes, hzeroes', data_stats, toRoundState_stats,
        π.posts_call hc]
    · rw [hout'.share, hout.share, hresets, hresets', data_stats, toRoundState_stats,
        π.pays_call hc]
    · rw [hout'.stamp hresets', hout.stamp hresets, data_stats]

/-- **A renamed call does what the call does**, to the renamed members. -/
theorem exec_call (s : CStats) :
    ((π.call c).exec (π.stats s)).toOption = (c.exec s).toOption.map π.stats := by
  cases hreset : c.handler.isReset with
  | false =>
    have hdefined := π.exec_call_defined hc s
    cases h : c.exec s with
    | ok s' =>
      obtain ⟨t, ht⟩ := hdefined.mpr ⟨s', h⟩
      rw [ht, π.exec_call_ok hc hreset h ht]
      rfl
    | error e =>
      cases ht : (π.call c).exec (π.stats s) with
      | ok t =>
        obtain ⟨s', h'⟩ := hdefined.mp ⟨t, ht⟩
        rw [h] at h'
        cases h'
      | error e' => rfl
  | true =>
    obtain ⟨s', h, h'⟩ := π.exec_call_reset hreset s
    rw [h, h']
    rfl

end

/-- **A renamed run ends in the renamed state**, whatever the permutation of the slots of players,
the members at the start, the servers and the calls; and it fails when the run fails. -/
theorem run_calls {calls : List Call} (hcalls : ∀ c ∈ calls, c.server.maxClients = n)
    (s : CStats) : (run Call.exec (calls.map π.call) (π.stats s)).toOption =
      (run Call.exec calls s).toOption.map π.stats :=
  toOption_run_map (fun c hc s => π.exec_call (hcalls c hc) s) s

/-- The slots `1` and `2` swapped. -/
def swap : Renaming 32 where
  perm := Equiv.swap 1 2
  zero := by decide
  above := fun j hj => absurd (Nat.le_of_lt_succ j.isLt) (by change ¬ j.val ≤ 32; omega)

/-- The duel with the two players in each other's slots. -/
theorem run_calls_duel : (run Call.exec ([duelHit, duelKill, duelEnd].map swap.call)
      (swap.stats CStats.initial)).toOption =
    (run Call.exec [duelHit, duelKill, duelEnd] CStats.initial).toOption.map swap.stats :=
  swap.run_calls (by simp [duelHit, duelKill, duelEnd, Call.duel, Server.ofPlayers])
    CStats.initial

end Renaming

end StatsX
