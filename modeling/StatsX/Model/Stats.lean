import StatsX.Model.Player

/-!
# The statistics handlers

`CStats` (Stats.h) and its handlers (Stats.cpp), as computations on its members. A handler reads
the game through the `Server` of the call; an entity variable pointer is the entity index that
`ENTINDEX` returns for it. An array access outside the array ends the call in an `OutOfBounds`.

Tests nested in the source without an `else` are conjunctions here where they guard one
statement, and blocks of a long handler are computations of their own.

## Main definitions

* `RoundState`, `CStats`: the members
* `isWeapon`, `countAlive`: the helpers
* `takeDamage`, `killed`, `roundEnd`, ...: the handlers
-/

namespace StatsX

/-- `MANAGER_ASSISTANCE_DMG` (Stats.h). -/
abbrev managerAssistanceDmg : ℤ := 50

/-- `MANAGER_RWS_MAP_TARGET` (Stats.h). -/
abbrev managerRwsMapTarget : ℚ := 7 / 10

/-- `MANAGER_RWS_C4_EXPLODE` (Stats.h). -/
abbrev managerRwsC4Explode : ℚ := 3 / 10

/-- `MANAGER_RWS_C4_DEFUSED` (Stats.h). -/
abbrev managerRwsC4Defused : ℚ := 3 / 10

/-- The members `m_Round*` of `CStats` (Stats.h). -/
@[ext]
structure RoundState where
  roundDamage : CArray (CArray CInt (maxClients + 1)) (maxClients + 1)
  roundDamageSelf : CArray CInt (maxClients + 1)
  roundDamageTeam : CArray CInt 4
  roundFrags : CArray CInt (maxClients + 1)
  roundVersus : CArray CInt (maxClients + 1)
  roundBombPlanter : ℤ
  roundBombDefuser : ℤ

/-- The members `m_Round*` as `RoundFreezeEnd` leaves them, and as they are declared. -/
def RoundState.initial : RoundState where
  roundDamage := fun _ _ => 0
  roundDamageSelf := fun _ => 0
  roundDamageTeam := fun _ => 0
  roundFrags := fun _ => 0
  roundVersus := fun _ => 0
  roundBombPlanter := -1
  roundBombDefuser := -1

/-- `CStats` (Stats.h). -/
@[ext]
structure CStats extends RoundState where
  data : CArray CPlayer (maxClients + 1)

/-- `gStats` as the plugin is loaded. -/
def CStats.initial : CStats :=
  { RoundState.initial with data := fun _ => CPlayer.zeroed }

/-- Computations on the members of `CStats`. -/
abbrev StatsM := StateT CStats (Except OutOfBounds)

namespace CStats

/-! ## Statements -/

/-- Change the record `m_Data[k]`. -/
def updateData (k : Slot) (f : CPlayer → CPlayer) : StatsM Unit :=
  modify fun s => { s with data := Function.update s.data k (f (s.data k)) }

/-- `m_Data[k].x += d`, for the integer `x` of the record. -/
def bump (k : Slot) (x : Counter) (d : CInt) : StatsM Unit :=
  updateData k (·.add d x)

/-- `if (c) m_Data[k].x++`. -/
def bumpIf (c : Prop) [Decidable c] (k : Slot) (x : Counter) : StatsM Unit :=
  if c then bump k x 1 else pure ()

/-- `m_Data[k].RoundWinShare += x`. -/
def payShare (k : Slot) (x : WithTop ℚ) : StatsM Unit :=
  updateData k (·.addShare x)

/-- `m_RoundDamage[a][v] += d`. -/
def addRoundDamage (a v : Slot) (d : CInt) : StatsM Unit :=
  modify fun s =>
    let row := Function.update (s.roundDamage a) v (s.roundDamage a v + d)
    { s with roundDamage := Function.update s.roundDamage a row }

/-- `m_RoundDamageSelf[a] += d`. -/
def addRoundDamageSelf (a : Slot) (d : CInt) : StatsM Unit :=
  modify fun s =>
    { s with roundDamageSelf := Function.update s.roundDamageSelf a (s.roundDamageSelf a + d) }

/-- `m_RoundDamageTeam[t] += d`. -/
def addRoundDamageTeam (t : TeamIndex) (d : CInt) : StatsM Unit :=
  modify fun s =>
    { s with roundDamageTeam := Function.update s.roundDamageTeam t (s.roundDamageTeam t + d) }

/-- `m_RoundFrags[k]++`. -/
def addRoundFrags (k : Slot) : StatsM Unit :=
  modify fun s => { s with roundFrags := Function.update s.roundFrags k (s.roundFrags k + 1) }

/-- `m_RoundVersus[k] = n`. -/
def setRoundVersus (k : Slot) (n : CInt) : StatsM Unit :=
  modify fun s => { s with roundVersus := Function.update s.roundVersus k n }

/-- The division of two `int`s converted to `float`, the dividend positive: a zero divisor gives
an infinite quotient. Quotients are exact, and so are the sums of shares: the rounding of `float`
is left out. -/
def floatDiv (x y : CInt) : WithTop ℚ :=
  if y = 0 then ⊤ else ((x.toInt / y.toInt : ℚ) : WithTop ℚ)

/-! ## Helpers -/

/-- `CStats::IsWeapon`. -/
def isWeapon (player : CBasePlayer) (allowKnife : Bool) : ℤ :=
  match player.activeItem with
  | none => weaponNone
  | some item =>
    if item.isWeapon then
      if item.itemSlot = primaryWeaponSlot ∨ item.itemSlot = pistolSlot ∨
          item.itemSlot = knifeSlot ∨ item.itemSlot = grenadeSlot then
        if item.id ≠ weaponSmokegrenade ∧ item.id ≠ weaponFlashbang then
          if !allowKnife ∧ item.id = weaponKnife then weaponNone else item.id
        else weaponNone
      else weaponNone
    else weaponNone

/-- One turn of the loop of `CStats::CountAlive`, on its array `Count`. -/
def countAliveAt (g : Server) (count : CArray CInt 4) (i : ℤ) : CArray CInt 4 :=
  match g.playerByIndexSafe i with
  | none => count
  | some player =>
    if player.isPlayer ∧ player.isAlive ∧ (player.team = .terrorist ∨ player.team = .ct) then
      Function.update count player.team.toIndex (count player.team.toIndex + 1)
    else count

/-- `CStats::CountAlive`: the caller's array after the call, and the returned value. The counts
go to an array of the function's own. -/
def countAlive (g : Server) (alive : CArray CInt 4) : CArray CInt 4 × CInt :=
  let count := g.clients.foldl (countAliveAt g) fun _ => 0
  (alive, count TeamName.terrorist.toIndex + count TeamName.ct.toIndex)

/-! ## Map and roster -/

/-- `CStats::ServerActivate`. -/
def serverActivate : StatsM Unit :=
  -- `memset` of `m_Data` alone: the members of the round stay
  modify fun s => { s with data := fun _ => CPlayer.zeroed }

/-- `CStats::ServerDeactivate`. -/
def serverDeactivate : StatsM Unit :=
  modify fun s => { s with data := fun _ => CPlayer.zeroed }

/-- `CStats::GetIntoGame`. -/
def getIntoGame (g : Server) (player : CBasePlayer) : StatsM Unit := do
  if let some edict := player.edict then
    -- the record only: what the members of the round hold for the slot stays, as in `Disconnected`
    let k ← index (maxClients + 1) player.entindex
    updateData k (·.init g.time edict.netname)

/-- `CStats::Disconnected`. -/
def disconnected (g : Server) (player : CBasePlayer) : StatsM Unit := do
  let k ← index (maxClients + 1) player.entindex
  updateData k (·.clear g.time)

/-! ## Events of a round -/

/-- `CStats::AddAccount`. -/
def addAccount (g : Server) (player : Option CBasePlayer) (amount : CInt) (type : ℤ) :
    StatsM Unit := do
  if g.manager.isEnabled then
    if let some player := player then
      if rtNone ≤ type ∧ type ≤ rtVipRescuedMyself then
        let k ← index (maxClients + 1) player.entindex
        let t ← index rewardTypes type
        bump k (.money t) amount

/-- The statements of `CStats::TakeDamage` on the weapon that `IsWeapon` reports. -/
def takeDamageWith (attackerIndex : Slot) (itemIndex : ℤ) (amount : CInt) : StatsM Unit := do
  if itemIndex ≠ 0 then
    let item ← index (maxWeapons + 1) itemIndex
    bump attackerIndex (.weaponStats item .hit) 1
    bump attackerIndex (.weaponStats item .damage) amount

/-- `CStats::TakeDamage`. -/
def takeDamage (g : Server) (player : Option CBasePlayer) (_pevInflictor pevAttacker : Option ℤ) :
    StatsM Unit := do
  if g.manager.isEnabled then
    if let some player := player then
      if let some pevAttacker := pevAttacker then
        if let some attacker := g.playerByIndexSafe pevAttacker then
          let attackerIndex ← index (maxClients + 1) attacker.entindex
          bump attackerIndex .hits 1
          bump attackerIndex .damage player.lastDamageAmount
          let victimIndex ← index (maxClients + 1) player.entindex
          bump victimIndex .damageReceive player.lastDamageAmount
          let hitGroup ← index hitGroups player.lastHitGroup
          bump attackerIndex (.hitBox hitGroup) 1
          bump attackerIndex (.hitBoxDamage hitGroup) player.lastDamageAmount
          addRoundDamage attackerIndex victimIndex player.lastDamageAmount
          addRoundDamageSelf attackerIndex player.lastDamageAmount
          -- the team that the attacker has now, which need not be the one it has at the round's end
          let team ← index 4 attacker.team.toInt
          addRoundDamageTeam team player.lastDamageAmount
          takeDamageWith attackerIndex (isWeapon attacker true) player.lastDamageAmount

/-- The statements of `CStats::Killed` on the weapon that `IsWeapon` reports. -/
def killedWith (player killer : CBasePlayer) (victimIndex killerIndex : Slot) (itemIndex : ℤ) :
    StatsM Unit := do
  if itemIndex ≠ 0 then
    let item ← index (maxWeapons + 1) itemIndex
    bump killerIndex (.weaponStats item .kill) 1
    bump victimIndex (.weaponStats item .death) 1
    bumpIf player.headshotKilled killerIndex (.weaponStats item .headshot)
    bumpIf (itemIndex ≠ weaponAwp ∧ 100 ≤ player.lastClientHealth ∧
      100 ≤ player.lastDamageAmount.toInt) killerIndex (.hackStats .onehit)
    bumpIf ((itemIndex = weaponAwp ∨ itemIndex = weaponScout ∨ itemIndex = weaponG3sg1 ∨
      itemIndex = weaponSg550) ∧ killer.clientFOV = defaultFov) killerIndex (.hackStats .noscop)
    bumpIf (itemIndex ≠ weaponHegrenade ∧ killer.sBarTargetType = 0 ∧ killer.iuser1 = 0)
      killerIndex (.hackStats .vision)

/-- One turn of the loop of `CStats::Killed` over the players. -/
def killedTurn (g : Server) (killer : CBasePlayer) (victimIndex : Slot)
    (playerCount : CArray CInt 4) (i : ℤ) : StatsM Unit := do
  if let some temp := g.playerByIndexSafe i then
    if temp.team = .terrorist ∨ temp.team = .ct then
      let tempIndex ← index (maxClients + 1) temp.entindex
      let s ← get
      bumpIf (temp.entindex ≠ killer.entindex ∧
        managerAssistanceDmg ≤ (s.roundDamage tempIndex victimIndex).toInt) tempIndex .assists
      if s.roundVersus tempIndex = 0 ∧ playerCount temp.team.toIndex = 1 then
        let other := if temp.team = .terrorist then TeamName.ct else .terrorist
        setRoundVersus tempIndex (playerCount other.toIndex)

/-- `CStats::Killed`. -/
def killed (g : Server) (player : Option CBasePlayer) (pevAttacker : ℤ) : StatsM Unit := do
  if g.manager.isEnabled then
    if let some player := player then
      if !player.killedByBomb then
        if let some killer := g.playerByIndexSafe pevAttacker then
          if killer.isPlayer ∧ player.entindex ≠ killer.entindex then
            let victimIndex ← index (maxClients + 1) player.entindex
            let killerIndex ← index (maxClients + 1) killer.entindex
            bump victimIndex .deaths 1
            bump killerIndex .frags 1
            addRoundFrags killerIndex
            bumpIf player.headshotKilled killerIndex .headshot
            killedWith player killer victimIndex killerIndex (isWeapon killer true)
            -- the returned sum is dropped, and the array is still all zero
            let playerCount := (countAlive g fun _ => 0).1
            g.clients.forM (killedTurn g killer victimIndex playerCount)

/-- `CStats::SetAnimation`. -/
def setAnimation (g : Server) (player : Option CBasePlayer) (playerAnim : PlayerAnim) :
    StatsM Unit := do
  if g.manager.isEnabled then
    if let some player := player then
      if playerAnim = .attack1 ∨ playerAnim = .attack2 then
        let itemIndex := isWeapon player false
        if itemIndex ≠ 0 then
          let entIndex ← index (maxClients + 1) player.entindex
          bump entIndex .shots 1
          let item ← index (maxWeapons + 1) itemIndex
          bump entIndex (.weaponStats item .shot) 1

/-! ## The bomb -/

/-- `CStats::PlantBomb`. -/
def plantBomb (g : Server) (pevOwner : ℤ) (planted : Bool) : StatsM Unit := do
  if g.manager.isEnabled then
    if let some player := g.playerByIndexSafe pevOwner then
      let entIndex ← index (maxClients + 1) player.entindex
      if planted then
        modify fun s => { s with roundBombPlanter := player.entindex }
        bump entIndex (.bombStats .planted) 1
      else
        -- whoever begins to plant takes the bomb from the last planter
        modify fun s => { s with roundBombPlanter := -1 }
        bump entIndex (.bombStats .planting) 1

/-- `CStats::DefuseBombStart`. -/
def defuseBombStart (g : Server) (player : Option CBasePlayer) : StatsM Unit := do
  if g.manager.isEnabled then
    if let some player := player then
      let entIndex ← index (maxClients + 1) player.entindex
      bump entIndex (.bombStats .defusing) 1

/-- `CStats::DefuseBombEnd`. -/
def defuseBombEnd (g : Server) (player : Option CBasePlayer) (defused : Bool) : StatsM Unit := do
  if g.manager.isEnabled then
    if let some player := player then
      if defused then
        let entIndex ← index (maxClients + 1) player.entindex
        bump entIndex (.bombStats .defused) 1
        modify fun s => { s with roundBombDefuser := player.entindex }

/-- `CStats::ExplodeBomb`. -/
def explodeBomb (g : Server) : StatsM Unit := do
  if g.manager.isEnabled then
    let s ← get
    if s.roundBombPlanter ≠ -1 then
      if let some player := g.playerByIndexSafe s.roundBombPlanter then
        let entIndex ← index (maxClients + 1) player.entindex
        bump entIndex (.bombStats .exploded) 1

/-! ## The ends of a round -/

/-- `CStats::RoundFreezeEnd`. -/
def roundFreezeEnd (g : Server) : StatsM Unit := do
  if g.manager.isEnabled then
    modify fun s => { s with
      roundDamage := fun _ _ => 0
      roundDamageSelf := fun _ => 0
      roundDamageTeam := fun _ => 0
      roundFrags := fun _ => 0
      roundVersus := fun _ => 0
      roundBombPlanter := -1
      roundBombDefuser := -1 }

/-- The extra share of `CStats::RoundEnd` for the player behind the index `bomber`. -/
def payBomber (g : Server) (bomber : ℤ) (x : ℚ) : StatsM Unit := do
  if bomber ≠ -1 then
    if let some player := g.playerByIndexSafe bomber then
      let k ← index (maxClients + 1) player.entindex
      payShare k x

/-- The extra share of `CStats::RoundEnd` for the map objective. -/
def payObjective (g : Server) (event : ScenarioEventEndRound) : StatsM Unit := do
  let s ← get
  if event = .bombDefused then
    payBomber g s.roundBombDefuser managerRwsC4Defused
  else if event = .targetBomb then
    payBomber g s.roundBombPlanter managerRwsC4Explode

/-- The statements of `CStats::RoundEnd` on `KillStreak`. -/
def payKillStreak (tempIndex : Slot) : StatsM Unit := do
  let s ← get
  if 0 < (s.roundFrags tempIndex).toInt then
    let n ← index (maxClients + 1) (s.roundFrags tempIndex).toInt
    bump tempIndex (.killStreak n) 1

/-- The statements of `CStats::RoundEnd` on `Versus`. -/
def payVersus (tempIndex : Slot) : StatsM Unit := do
  let s ← get
  if 0 < (s.roundVersus tempIndex).toInt then
    let n ← index (maxClients + 1) (s.roundVersus tempIndex).toInt
    bump tempIndex (.versus n) 1

/-- The statements of `CStats::RoundEnd` on the damage share of a winner. -/
def payWinShare (tempIndex : Slot) (winner : TeamName) (event : ScenarioEventEndRound) :
    StatsM Unit := do
  let s ← get
  if 0 < (s.roundDamageSelf tempIndex).toInt then
    let share := floatDiv (s.roundDamageSelf tempIndex) (s.roundDamageTeam winner.toIndex)
    if event = .bombDefused ∨ event = .targetBomb then
      payShare tempIndex (share.map (managerRwsMapTarget * ·))
    else
      payShare tempIndex share

/-- One turn of the loop of `CStats::RoundEnd` over the players. -/
def roundEndTurn (g : Server) (winner : TeamName) (event : ScenarioEventEndRound) (i : ℤ) :
    StatsM Unit := do
  if let some temp := g.playerByIndexSafe i then
    let tempIndex ← index (maxClients + 1) temp.entindex
    bump tempIndex (.rounds .play) 1
    payKillStreak tempIndex
    if temp.team = winner then
      bump tempIndex (.rounds (if temp.team = .terrorist then .winTr else .winCt)) 1
      payVersus tempIndex
      payWinShare tempIndex winner event
    else
      bump tempIndex (.rounds (if temp.team = .terrorist then .loseTr else .loseCt)) 1

/-- `CStats::RoundEnd`. -/
def roundEnd (g : Server) (winStatus : ℤ) (event : ScenarioEventEndRound) : StatsM Unit := do
  if g.manager.isEnabled then
    if winStatus = winstatusTerrorists ∨ winStatus = winstatusCts then
      -- without a look at the team of the planter or the defuser
      payObjective g event
      let winner := if winStatus = winstatusTerrorists then TeamName.terrorist else .ct
      g.clients.forM (roundEndTurn g winner event)

end CStats

end StatsX
