import Mathlib.Algebra.Order.Monoid.WithTop
import Mathlib.Algebra.Ring.Rat
import StatsX.Model.Game

/-!
# The statistics record of a slot

`CPlayer` (Player.h) and its two resets (Player.cpp). The handlers change a record by adding to
one of its integers at a time; a `Counter` names such an integer, and `CPlayer.cell` reads it.

## Main definitions

* `CPlayer`: the record; `CPlayer.zeroed` is the record of all-zero bytes
* `CPlayer.clear`, `CPlayer.init`: the resets
* `Counter`: an integer of the record
* `CPlayer.cell`, `CPlayer.add`: reading an integer of the record, and adding to it

## Main results

* `CPlayer.cell_add`: an addition changes one integer of the record
* `CPlayer.cell_clear`, `CPlayer.cell_init`: a reset leaves no integer of the record behind
-/

namespace StatsX

/-- `BombGroup` (Player.h). -/
inductive BombGroup
  | planting
  | planted
  | exploded
  | defusing
  | defused
  deriving DecidableEq, Repr

/-- `RoundGroup` (Player.h). -/
inductive RoundGroup
  | play
  | winTr
  | loseTr
  | winCt
  | loseCt
  deriving DecidableEq, Repr

/-- `WeaponStatsGroup` (Player.h). -/
inductive WeaponStatsGroup
  | kill
  | death
  | headshot
  | shot
  | hit
  | damage
  deriving DecidableEq, Repr

/-- `HackStatsGroup` (Player.h). -/
inductive HackStatsGroup
  | vision
  | onehit
  | noscop
  deriving DecidableEq, Repr

/-- The size of the arrays `[HITGROUP_SHIELD + 1]` (Player.h). -/
abbrev hitGroups : ℕ := 9

/-- The size of the arrays `[RT_VIP_RESCUED_MYSELF + 1]` (Player.h). -/
abbrev rewardTypes : ℕ := 15

/-- `CPlayer` (Player.h). Arrays indexed by the enumerators of a group are functions of the
group; `roundWinShare` is an exact rational, or `⊤` once a division by zero has made it
infinite. -/
@[ext]
structure CPlayer where
  index : CArray UInt8 35
  frags : CInt
  assists : CInt
  deaths : CInt
  headshot : CInt
  shots : CInt
  hits : CInt
  damage : CInt
  damageReceive : CInt
  joinTime : ℚ
  gameTime : ℚ
  rounds : RoundGroup → CInt
  roundWinShare : WithTop ℚ
  bombStats : BombGroup → CInt
  hitBox : CArray CInt hitGroups
  hitBoxDamage : CArray CInt hitGroups
  weaponStats : CArray (WeaponStatsGroup → CInt) (maxWeapons + 1)
  killStreak : CArray CInt (maxClients + 1)
  versus : CArray CInt (maxClients + 1)
  money : CArray CInt rewardTypes
  hackStats : HackStatsGroup → CInt

/-- An integer of a record. -/
inductive Counter
  | frags
  | assists
  | deaths
  | headshot
  | shots
  | hits
  | damage
  | damageReceive
  | rounds (g : RoundGroup)
  | bombStats (g : BombGroup)
  | hitBox (i : Fin hitGroups)
  | hitBoxDamage (i : Fin hitGroups)
  | weaponStats (w : Fin (maxWeapons + 1)) (g : WeaponStatsGroup)
  | killStreak (n : Fin (maxClients + 1))
  | versus (n : Fin (maxClients + 1))
  | money (t : Fin rewardTypes)
  | hackStats (g : HackStatsGroup)
  deriving DecidableEq, Repr

/-- The integer is not among those that `CPlayer::Clear` resets. -/
def Counter.survives : Counter → Bool
  | .hitBoxDamage _ => true
  | _ => false

namespace CPlayer

/-- The record of all-zero bytes, as `memset` leaves it. -/
def zeroed : CPlayer where
  index := fun _ => 0
  frags := 0
  assists := 0
  deaths := 0
  headshot := 0
  shots := 0
  hits := 0
  damage := 0
  damageReceive := 0
  joinTime := 0
  gameTime := 0
  rounds := fun _ => 0
  roundWinShare := 0
  bombStats := fun _ => 0
  hitBox := fun _ => 0
  hitBoxDamage := fun _ => 0
  weaponStats := fun _ _ => 0
  killStreak := fun _ => 0
  versus := fun _ => 0
  money := fun _ => 0
  hackStats := fun _ => 0

/-- `CPlayer::Clear`, at the server time `time`. The table `hitBoxDamage` is not among the
members it resets. -/
def clear (r : CPlayer) (time : ℚ) : CPlayer :=
  { r with
    index := fun _ => 0
    frags := 0
    assists := 0
    deaths := 0
    headshot := 0
    shots := 0
    hits := 0
    damage := 0
    damageReceive := 0
    joinTime := time
    gameTime := 0
    rounds := fun _ => 0
    roundWinShare := 0
    bombStats := fun _ => 0
    hitBox := fun _ => 0
    -- no statement for `HitBoxDamage`
    weaponStats := fun _ _ => 0
    killStreak := fun _ => 0
    versus := fun _ => 0
    money := fun _ => 0
    hackStats := fun _ => 0 }

/-- `strncpy` into an array of `n` bytes: the bytes of the string, cut off or padded with zero
bytes. -/
def strncpy (n : ℕ) (src : List UInt8) : CArray UInt8 n :=
  fun i => src.getD i 0

/-- `CPlayer::Init`. -/
def init (r : CPlayer) (time : ℚ) (indexKey : List UInt8) : CPlayer :=
  { r.clear time with index := strncpy 35 indexKey }

/-! ## The integers of a record -/

/-- The value of an integer of the record. -/
def cell (r : CPlayer) : Counter → CInt
  | .frags => r.frags
  | .assists => r.assists
  | .deaths => r.deaths
  | .headshot => r.headshot
  | .shots => r.shots
  | .hits => r.hits
  | .damage => r.damage
  | .damageReceive => r.damageReceive
  | .rounds g => r.rounds g
  | .bombStats g => r.bombStats g
  | .hitBox i => r.hitBox i
  | .hitBoxDamage i => r.hitBoxDamage i
  | .weaponStats w g => r.weaponStats w g
  | .killStreak n => r.killStreak n
  | .versus n => r.versus n
  | .money t => r.money t
  | .hackStats g => r.hackStats g

/-- `x += d` for an integer `x` of the record. -/
def add (r : CPlayer) (d : CInt) : Counter → CPlayer
  | .frags => { r with frags := r.frags + d }
  | .assists => { r with assists := r.assists + d }
  | .deaths => { r with deaths := r.deaths + d }
  | .headshot => { r with headshot := r.headshot + d }
  | .shots => { r with shots := r.shots + d }
  | .hits => { r with hits := r.hits + d }
  | .damage => { r with damage := r.damage + d }
  | .damageReceive => { r with damageReceive := r.damageReceive + d }
  | .rounds g => { r with rounds := Function.update r.rounds g (r.rounds g + d) }
  | .bombStats g => { r with bombStats := Function.update r.bombStats g (r.bombStats g + d) }
  | .hitBox i => { r with hitBox := Function.update r.hitBox i (r.hitBox i + d) }
  | .hitBoxDamage i =>
    { r with hitBoxDamage := Function.update r.hitBoxDamage i (r.hitBoxDamage i + d) }
  | .weaponStats w g =>
    let row := Function.update (r.weaponStats w) g (r.weaponStats w g + d)
    { r with weaponStats := Function.update r.weaponStats w row }
  | .killStreak n => { r with killStreak := Function.update r.killStreak n (r.killStreak n + d) }
  | .versus n => { r with versus := Function.update r.versus n (r.versus n + d) }
  | .money t => { r with money := Function.update r.money t (r.money t + d) }
  | .hackStats g => { r with hackStats := Function.update r.hackStats g (r.hackStats g + d) }

/-- `RoundWinShare += x`. -/
def addShare (r : CPlayer) (x : WithTop ℚ) : CPlayer :=
  { r with roundWinShare := r.roundWinShare + x }

/-- **An addition changes one integer of the record.** -/
@[simp] theorem cell_add (r : CPlayer) (d : CInt) (c c' : Counter) :
    (r.add d c).cell c' = r.cell c' + if c' = c then d else 0 := by
  by_cases h : c' = c
  · subst h
    cases c' <;> simp [add, cell]
  · rw [if_neg h, add_zero]
    -- another integer is another member, or another entry of the same table
    cases c <;> cases c' <;> first | rfl | exact absurd rfl h | skip
    all_goals
      simp only [add, cell, Function.update_apply]
      split_ifs <;> simp_all

@[simp] theorem roundWinShare_add (r : CPlayer) (d : CInt) (c : Counter) :
    (r.add d c).roundWinShare = r.roundWinShare := by
  cases c <;> simp [add]

@[simp] theorem cell_addShare (r : CPlayer) (x : WithTop ℚ) (c : Counter) :
    (r.addShare x).cell c = r.cell c := by
  cases c <;> rfl

@[simp] theorem roundWinShare_addShare (r : CPlayer) (x : WithTop ℚ) :
    (r.addShare x).roundWinShare = r.roundWinShare + x := rfl

@[simp] theorem cell_zeroed (c : Counter) : zeroed.cell c = 0 := by
  cases c <;> rfl

@[simp] theorem roundWinShare_zeroed : zeroed.roundWinShare = 0 := rfl

/-- **A reset leaves the table `hitBoxDamage` behind**, and no other integer of the record. -/
theorem cell_clear (r : CPlayer) (time : ℚ) (c : Counter) :
    (r.clear time).cell c = if c.survives then r.cell c else 0 := by
  cases c <;> rfl

theorem cell_init (r : CPlayer) (time : ℚ) (indexKey : List UInt8) (c : Counter) :
    (r.init time indexKey).cell c = if c.survives then r.cell c else 0 := by
  cases c <;> rfl

@[simp] theorem roundWinShare_clear (r : CPlayer) (time : ℚ) :
    (r.clear time).roundWinShare = 0 := rfl

@[simp] theorem roundWinShare_init (r : CPlayer) (time : ℚ) (indexKey : List UInt8) :
    (r.init time indexKey).roundWinShare = 0 := rfl

end CPlayer

end StatsX
