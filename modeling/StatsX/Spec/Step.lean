import StatsX.Spec.Effect

/-!
# What a call does

A call records at most one event: a hit, a kill, a shot, a payment, a step of the bomb's life,
the start or the settlement of a round. What the event changes is read off here, for the round
members and for each integer and each share of the records.

## Main definitions

* `Event`, `Call.event?`: the event a call records
* `Call.ComesFrom`: the handler behind an event, and whom it finds
* `Event.turns`: the round members after an event
* `Server.IsOn`, `Server.Plays`: the team of the player in a slot, and whether it is a side
* `Event.posts`, `Event.pays`: what an event adds to each integer and each `RoundWinShare`
* `Call.resets`, `Call.zeroes`: the records a call resets, and the integers it sets to zero

## Main results

* `Call.comesFrom_of_event?`: every event comes from its handler
-/

namespace StatsX

open CStats

/-! ## Events -/

/-- A hit: the player of the call and the attacker. -/
structure Hit where
  victim : CBasePlayer
  attacker : CBasePlayer

/-- The damage of a hit. -/
abbrev Hit.amount (h : Hit) : CInt := h.victim.lastDamageAmount

/-- A kill: the player of the call and the killer. -/
structure Kill where
  victim : CBasePlayer
  killer : CBasePlayer

/-- The weapon of a kill. -/
abbrev Kill.item (e : Kill) : ℤ := isWeapon e.killer true

/-- The settlement of a round with a winner. -/
structure Settlement where
  winner : TeamName
  event : ScenarioEventEndRound

/-- The round ended with the map objective complete. -/
def Settlement.isObjective (e : Settlement) : Bool :=
  e.event = .bombDefused || e.event = .targetBomb

/-- The counter of `Rounds` for the result of the round, for a player of a team. -/
def Settlement.result (e : Settlement) (team : TeamName) : RoundGroup :=
  if team = e.winner then if team = .terrorist then .winTr else .winCt
  else if team = .terrorist then .loseTr else .loseCt

@[simp] theorem Settlement.play_ne_result (e : Settlement) (team : TeamName) :
    RoundGroup.play ≠ e.result team := by
  unfold Settlement.result
  split_ifs <;> decide

/-- What a call records. -/
inductive Event
  | hit (h : Hit)
  | kill (e : Kill)
  | shot (player : CBasePlayer)
  | payment (player : CBasePlayer) (type : ℤ) (amount : CInt)
  | planting (player : CBasePlayer)
  | planted (player : CBasePlayer)
  | defusing (player : CBasePlayer)
  | defused (player : CBasePlayer)
  | explosion
  | start
  | settle (e : Settlement)

namespace Call

variable (c : Call)

/-- **The event that the call records.** -/
def event? : Option Event :=
  if c.isEnabled then
    match c.handler with
    | .addAccount (some player) amount type =>
      if rtNone ≤ type ∧ type ≤ rtVipRescuedMyself then some (.payment player type amount)
      else none
    | .takeDamage (some player) _ (some pevAttacker) =>
      (c.server.playerByIndexSafe pevAttacker).map fun attacker => .hit ⟨player, attacker⟩
    | .killed (some player) pevAttacker =>
      (c.server.playerByIndexSafe pevAttacker).bind fun killer =>
        if !player.killedByBomb ∧ killer.isPlayer ∧ player.entindex ≠ killer.entindex then
          some (.kill ⟨player, killer⟩)
        else none
    | .setAnimation (some player) playerAnim =>
      if (playerAnim = .attack1 ∨ playerAnim = .attack2) ∧ isWeapon player false ≠ 0 then
        some (.shot player)
      else none
    | .plantBomb pevOwner planted => (c.server.playerByIndexSafe pevOwner).map fun player =>
      if planted then .planted player else .planting player
    | .defuseBombStart (some player) => some (.defusing player)
    | .defuseBombEnd (some player) true => some (.defused player)
    | .explodeBomb => some .explosion
    | .roundFreezeEnd => some .start
    | .roundEnd winStatus event =>
      if winStatus = winstatusTerrorists ∨ winStatus = winstatusCts then
        some (.settle ⟨if winStatus = winstatusTerrorists then .terrorist else .ct, event⟩)
      else none
    | _ => none
  else none

/-- The call resets the record `j`. -/
def resets (j : Slot) : Bool :=
  match c.handler with
  | .serverActivate => true
  | .serverDeactivate => true
  | .getIntoGame player => player.edict.isSome && j = player.slot
  | .disconnected player => j = player.slot
  | _ => false

/-- The call sets the integer `x` of the record `j` to zero. -/
def zeroes (j : Slot) (x : Counter) : Bool :=
  match c.handler with
  | .serverActivate => true
  | .serverDeactivate => true
  | _ => c.resets j && !x.survives

variable {c}

/-- Where an event of the call comes from: the handler that records it, and whom it finds. -/
def ComesFrom (c : Call) : Event → Prop
  | .hit h => ∃ pevInflictor pevAttacker,
      c.handler = .takeDamage (some h.victim) pevInflictor (some pevAttacker) ∧
        c.server.playerByIndexSafe pevAttacker = some h.attacker
  | .kill e => ∃ pevAttacker, c.handler = .killed (some e.victim) pevAttacker ∧
      c.server.playerByIndexSafe pevAttacker = some e.killer
  | .shot player => ∃ playerAnim, c.handler = .setAnimation (some player) playerAnim
  | .payment player type amount => c.handler = .addAccount (some player) amount type
  | .planting player => ∃ pevOwner, c.handler = .plantBomb pevOwner false ∧
      c.server.playerByIndexSafe pevOwner = some player
  | .planted player => ∃ pevOwner, c.handler = .plantBomb pevOwner true ∧
      c.server.playerByIndexSafe pevOwner = some player
  | .defusing player => c.handler = .defuseBombStart (some player)
  | .defused player => c.handler = .defuseBombEnd (some player) true
  | .explosion => c.handler = .explodeBomb
  | .start => c.handler = .roundFreezeEnd
  | .settle e => ∃ winStatus, c.handler = .roundEnd winStatus e.event

theorem isEnabled_of_event? {e : Event} (he : c.event? = some e) : c.isEnabled = true := by
  unfold event? at he
  split_ifs at he with hg
  exact hg

/-- **Every event comes from its handler.** -/
theorem comesFrom_of_event? {e : Event} (he : c.event? = some e) : c.ComesFrom e := by
  have hg := isEnabled_of_event? he
  rw [event?, if_pos hg] at he
  -- one case for each handler that may record, and one for all the others
  split at he
  case h_1 player amount type hc =>
    split_ifs at he
    obtain rfl := Option.some.inj he
    exact hc
  case h_2 player pevInflictor pevAttacker hc =>
    obtain ⟨attacker, ha, rfl⟩ := Option.map_eq_some_iff.mp he
    exact ⟨pevInflictor, pevAttacker, hc, ha⟩
  case h_3 player pevAttacker hc =>
    obtain ⟨killer, hk, he⟩ := Option.bind_eq_some_iff.mp he
    split_ifs at he
    obtain rfl := Option.some.inj he
    exact ⟨pevAttacker, hc, hk⟩
  case h_4 player playerAnim hc =>
    split_ifs at he
    obtain rfl := Option.some.inj he
    exact ⟨playerAnim, hc⟩
  case h_5 pevOwner planted hc =>
    obtain ⟨player, hp, rfl⟩ := Option.map_eq_some_iff.mp he
    cases planted with
    | true => exact ⟨pevOwner, hc, hp⟩
    | false => exact ⟨pevOwner, hc, hp⟩
  case h_6 player hc | h_7 player hc =>
    obtain rfl := Option.some.inj he
    exact hc
  case h_8 hc | h_9 hc =>
    obtain rfl := Option.some.inj he
    exact hc
  case h_10 winStatus event hc =>
    -- one test is on the winner, the other only says who it is
    split at he
    · obtain rfl := Option.some.inj he
      exact ⟨winStatus, hc⟩
    · simp at he
  case h_11 => simp at he

/-- A `TakeDamage` call records a hit or nothing. -/
theorem event?_takeDamage {c : Call} {victim : Option CBasePlayer}
    {inflictor attacker : Option ℤ} (hc : c.handler = .takeDamage victim inflictor attacker)
    {e : Event} (he : c.event? = some e) : ∃ h, e = .hit h := by
  have hfrom := comesFrom_of_event? he
  cases e <;> simp_all [ComesFrom]

/-- A `Killed` call records a kill or nothing. -/
theorem event?_killed {c : Call} {victim : Option CBasePlayer} {killer : ℤ}
    (hc : c.handler = .killed victim killer) {e : Event} (he : c.event? = some e) :
    ∃ k, e = .kill k := by
  have hfrom := comesFrom_of_event? he
  cases e <;> simp_all [ComesFrom]

/-- A `RoundEnd` call records a settlement or nothing. -/
theorem event?_roundEnd {c : Call} {winStatus : ℤ} {event : ScenarioEventEndRound}
    (hc : c.handler = .roundEnd winStatus event) {e : Event} (he : c.event? = some e) :
    ∃ e', e = .settle e' := by
  have hfrom := comesFrom_of_event? he
  cases e <;> simp_all [ComesFrom]

end Call

/-- The settlement of the duel. -/
def duelSettlement : Settlement := ⟨.terrorist, .terroristsWin⟩

theorem event?_duelEnd : duelEnd.event? = some (.settle duelSettlement) := rfl

/-! ## The round members -/

/-- The round members after an event. -/
def Event.turns (ρ : RoundState) : Event → RoundState
  | .hit h =>
    { ρ with
      roundDamage := fun a v => ρ.roundDamage a v +
        if a = h.attacker.slot ∧ v = h.victim.slot then h.amount else 0
      roundDamageSelf := fun a => ρ.roundDamageSelf a + if a = h.attacker.slot then h.amount else 0
      roundDamageTeam := fun t => ρ.roundDamageTeam t +
        if t = h.attacker.team.toIndex then h.amount else 0 }
  | .kill e =>
    { ρ with roundFrags := fun k => ρ.roundFrags k + if k = e.killer.slot then 1 else 0 }
  | .planting _ => { ρ with roundBombPlanter := -1 }
  | .planted player => { ρ with roundBombPlanter := player.entindex }
  | .defused player => { ρ with roundBombDefuser := player.entindex }
  | .start => .initial
  | _ => ρ

/-- A hit and another event that is no start of a round may change places. -/
theorem turns_hit_comm (h : Hit) {event : Event} (hne : event ≠ .start) (ρ : RoundState) :
    Event.turns (Event.turns ρ (.hit h)) event = Event.turns (Event.turns ρ event) (.hit h) := by
  cases event with
  | hit h' => simp [Event.turns, add_right_comm]
  | start => exact absurd rfl hne
  | _ => rfl

/-! ## The integers of the records -/

/-- The item `w` is the weapon `itemIndex` that `isWeapon` reports. -/
def IsItem (w : Fin (maxWeapons + 1)) (itemIndex : ℤ) : Prop :=
  itemIndex ≠ 0 ∧ (w.val : ℤ) = itemIndex

instance (w : Fin (maxWeapons + 1)) (itemIndex : ℤ) : Decidable (IsItem w itemIndex) :=
  inferInstanceAs (Decidable (_ ∧ _))

/-- What a hit adds to the integers of the record `j`. -/
def Hit.posts (h : Hit) (j : Slot) : Counter → CInt
  | .hits => if j = h.attacker.slot then 1 else 0
  | .damage => if j = h.attacker.slot then h.amount else 0
  | .damageReceive => if j = h.victim.slot then h.amount else 0
  | .hitBox i => if j = h.attacker.slot ∧ (i.val : ℤ) = h.victim.lastHitGroup then 1 else 0
  | .hitBoxDamage i =>
    if j = h.attacker.slot ∧ (i.val : ℤ) = h.victim.lastHitGroup then h.amount else 0
  | .weaponStats w .hit =>
    if j = h.attacker.slot ∧ IsItem w (isWeapon h.attacker true) then 1 else 0
  | .weaponStats w .damage =>
    if j = h.attacker.slot ∧ IsItem w (isWeapon h.attacker true) then h.amount else 0
  | _ => 0

/-- The player in slot `j` is on the team. -/
def Server.IsOn (g : Server) (team : TeamName) (j : Slot) : Prop :=
  ∃ temp ∈ g.playerAt j, temp.team = team

instance (g : Server) (team : TeamName) (j : Slot) : Decidable (g.IsOn team j) :=
  inferInstanceAs (Decidable (∃ temp ∈ g.playerAt j, _))

/-- The player in slot `j` is on one of the two sides. -/
def Server.Plays (g : Server) (j : Slot) : Prop :=
  ∃ temp ∈ g.playerAt j, temp.team = .terrorist ∨ temp.team = .ct

instance (g : Server) (j : Slot) : Decidable (g.Plays j) :=
  inferInstanceAs (Decidable (∃ temp ∈ g.playerAt j, _))

/-- The player in slot `j` earns an assist of the kill. -/
def Kill.Assists (e : Kill) (g : Server) (ρ : RoundState) (j : Slot) : Prop :=
  (∃ temp ∈ g.playerAt j, temp.team = .terrorist ∨ temp.team = .ct) ∧
    j ≠ e.killer.slot ∧ managerAssistanceDmg ≤ (ρ.roundDamage j e.victim.slot).toInt

instance (e : Kill) (g : Server) (ρ : RoundState) (j : Slot) : Decidable (e.Assists g ρ j) :=
  inferInstanceAs (Decidable (_ ∧ _))

/-- What a kill adds to the integers of the record `j`. -/
def Kill.posts (e : Kill) (g : Server) (ρ : RoundState) (j : Slot) : Counter → CInt
  | .frags => if j = e.killer.slot then 1 else 0
  | .assists => if e.Assists g ρ j then 1 else 0
  | .deaths => if j = e.victim.slot then 1 else 0
  | .headshot => if j = e.killer.slot ∧ e.victim.headshotKilled then 1 else 0
  | .weaponStats w .kill => if j = e.killer.slot ∧ IsItem w e.item then 1 else 0
  | .weaponStats w .death => if j = e.victim.slot ∧ IsItem w e.item then 1 else 0
  | .weaponStats w .headshot =>
    if j = e.killer.slot ∧ IsItem w e.item ∧ e.victim.headshotKilled then 1 else 0
  | .hackStats .onehit =>
    if j = e.killer.slot ∧ e.item ≠ 0 ∧ e.item ≠ weaponAwp ∧ 100 ≤ e.victim.lastClientHealth ∧
      100 ≤ e.victim.lastDamageAmount.toInt then 1 else 0
  | .hackStats .noscop =>
    if j = e.killer.slot ∧ e.item ≠ 0 ∧ (e.item = weaponAwp ∨ e.item = weaponScout ∨
      e.item = weaponG3sg1 ∨ e.item = weaponSg550) ∧ e.killer.clientFOV = defaultFov then 1 else 0
  | .hackStats .vision =>
    if j = e.killer.slot ∧ e.item ≠ 0 ∧ e.item ≠ weaponHegrenade ∧
      e.killer.sBarTargetType = 0 ∧ e.killer.iuser1 = 0 then 1 else 0
  | _ => 0

/-- What a settlement adds to the integers of the record of `temp`, in slot `j`. -/
def Settlement.postsAt (e : Settlement) (ρ : RoundState) (j : Slot) (temp : CBasePlayer) :
    Counter → CInt
  | .rounds .play => 1
  | .rounds r => if r = e.result temp.team then 1 else 0
  | .killStreak n =>
    if 0 < (ρ.roundFrags j).toInt ∧ (n.val : ℤ) = (ρ.roundFrags j).toInt then 1 else 0
  | .versus n =>
    if temp.team = e.winner ∧ 0 < (ρ.roundVersus j).toInt ∧
      (n.val : ℤ) = (ρ.roundVersus j).toInt then 1 else 0
  | _ => 0

/-- What a settlement adds to the integers of the record `j`. -/
def Settlement.posts (e : Settlement) (g : Server) (ρ : RoundState) (j : Slot) (x : Counter) :
    CInt :=
  match g.playerAt j with
  | some temp => e.postsAt ρ j temp x
  | none => 0

/-- **What an event adds to the integers of the record `j`.** -/
def Event.posts (g : Server) (ρ : RoundState) (j : Slot) : Event → Counter → CInt
  | .hit h, x => h.posts j x
  | .kill e, x => e.posts g ρ j x
  | .shot player, .shots => if j = player.slot then 1 else 0
  | .shot player, .weaponStats w .shot =>
    if j = player.slot ∧ IsItem w (isWeapon player false) then 1 else 0
  | .payment player type amount, .money t =>
    if j = player.slot ∧ (t.val : ℤ) = type then amount else 0
  | .planting player, .bombStats .planting => if j = player.slot then 1 else 0
  | .planted player, .bombStats .planted => if j = player.slot then 1 else 0
  | .defusing player, .bombStats .defusing => if j = player.slot then 1 else 0
  | .defused player, .bombStats .defused => if j = player.slot then 1 else 0
  | .explosion, .bombStats .exploded =>
    if (j.val : ℤ) = ρ.roundBombPlanter ∧ (g.playerAt j).isSome then 1 else 0
  | .settle e, x => e.posts g ρ j x
  | _, _ => 0

/-! ## The shares -/

/-- The extra share `q` for the player behind the index `bomber`. -/
def bomberShare (g : Server) (bomber : ℤ) (q : ℚ) (j : Slot) : WithTop ℚ :=
  if (j.val : ℤ) = bomber ∧ (g.playerAt j).isSome then (q : WithTop ℚ) else 0

/-- The extra share for the map objective. -/
def Settlement.objectiveShare (e : Settlement) (g : Server) (ρ : RoundState) (j : Slot) :
    WithTop ℚ :=
  if e.event = .bombDefused then bomberShare g ρ.roundBombDefuser managerRwsC4Defused j
  else if e.event = .targetBomb then bomberShare g ρ.roundBombPlanter managerRwsC4Explode j
  else 0

/-- The player in slot `j` is on the winning team. -/
def Settlement.Wins (e : Settlement) (g : Server) (j : Slot) : Prop :=
  ∃ temp ∈ g.playerAt j, temp.team = e.winner

instance (e : Settlement) (g : Server) (j : Slot) : Decidable (e.Wins g j) :=
  inferInstanceAs (Decidable (∃ temp ∈ g.playerAt j, _))

/-- The quotient that `RoundEnd` computes for the winner in slot `j`. -/
def Settlement.quotient (e : Settlement) (ρ : RoundState) (j : Slot) : WithTop ℚ :=
  floatDiv (ρ.roundDamageSelf j) (ρ.roundDamageTeam e.winner.toIndex)

/-- The share of a winner in the damage of its team. -/
def Settlement.damageShare (e : Settlement) (g : Server) (ρ : RoundState) (j : Slot) :
    WithTop ℚ :=
  if e.Wins g j ∧ 0 < (ρ.roundDamageSelf j).toInt then
    if e.isObjective then (e.quotient ρ j).map (managerRwsMapTarget * ·) else e.quotient ρ j
  else 0

/-- **What an event adds to the `RoundWinShare` of the record `j`.** -/
def Event.pays (g : Server) (ρ : RoundState) (j : Slot) : Event → WithTop ℚ
  | .settle e => e.objectiveShare g ρ j + e.damageShare g ρ j
  | _ => 0

end StatsX
