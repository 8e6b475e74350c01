import StatsX.Lib.Run
import StatsX.Model.Stats

/-!
# Calls of the handlers

The game calls the handlers one after the other, in any order. A `Call` is a handler with its
arguments and the server it sees; a run of calls starts from the members as the plugin loads
them.

## Main definitions

* `Handler`, `Call`: the handlers with their arguments, and at a server
* `Call.exec`: the members after a call
* `Reaches calls s`: the run of `calls` ends in the state `s`
* `Call.duel`: calls in a small game, for concrete runs
-/

namespace StatsX

/-- A handler of `CStats` and its arguments. -/
inductive Handler
  | serverActivate
  | serverDeactivate
  | getIntoGame (player : CBasePlayer)
  | disconnected (player : CBasePlayer)
  | addAccount (player : Option CBasePlayer) (amount : CInt) (type : ℤ)
  | takeDamage (player : Option CBasePlayer) (pevInflictor pevAttacker : Option ℤ)
  | killed (player : Option CBasePlayer) (pevAttacker : ℤ)
  | setAnimation (player : Option CBasePlayer) (playerAnim : PlayerAnim)
  | plantBomb (pevOwner : ℤ) (planted : Bool)
  | defuseBombStart (player : Option CBasePlayer)
  | defuseBombEnd (player : Option CBasePlayer) (defused : Bool)
  | explodeBomb
  | roundFreezeEnd
  | roundEnd (winStatus : ℤ) (event : ScenarioEventEndRound)

/-- The computation of a handler. -/
def Handler.body (g : Server) : Handler → StatsM Unit
  | .serverActivate => CStats.serverActivate
  | .serverDeactivate => CStats.serverDeactivate
  | .getIntoGame player => CStats.getIntoGame g player
  | .disconnected player => CStats.disconnected g player
  | .addAccount player amount type => CStats.addAccount g player amount type
  | .takeDamage player pevInflictor pevAttacker =>
    CStats.takeDamage g player pevInflictor pevAttacker
  | .killed player pevAttacker => CStats.killed g player pevAttacker
  | .setAnimation player playerAnim => CStats.setAnimation g player playerAnim
  | .plantBomb pevOwner planted => CStats.plantBomb g pevOwner planted
  | .defuseBombStart player => CStats.defuseBombStart g player
  | .defuseBombEnd player defused => CStats.defuseBombEnd g player defused
  | .explodeBomb => CStats.explodeBomb g
  | .roundFreezeEnd => CStats.roundFreezeEnd g
  | .roundEnd winStatus event => CStats.roundEnd g winStatus event

/-- The player that a handler is called for. -/
def Handler.player? : Handler → Option CBasePlayer
  | .getIntoGame player => some player
  | .disconnected player => some player
  | .addAccount player _ _ => player
  | .takeDamage player _ _ => player
  | .killed player _ => player
  | .setAnimation player _ => player
  | .defuseBombStart player => player
  | .defuseBombEnd player _ => player
  | _ => none

/-- A handler called at a server. -/
structure Call where
  server : Server
  handler : Handler

namespace Call

/-- The switch at the call. -/
abbrev isEnabled (c : Call) : Bool := c.server.manager.isEnabled

/-- The members after a call. -/
def exec (c : Call) (s : CStats) : Except OutOfBounds CStats :=
  (c.handler.body c.server).run s >>= fun r => .ok r.2

end Call

/-- A terrorist in slot 1. -/
def duelT : CBasePlayer := { entindex := 1, team := .terrorist }

/-- A counter-terrorist in slot 2, last hit for 30. -/
def duelCt : CBasePlayer := { entindex := 2, team := .ct, lastDamageAmount := 30 }

/-- A second terrorist, in slot 3, for larger games. -/
def duelThird : CBasePlayer := { entindex := 3, team := .terrorist }

/-- A second counter-terrorist, in slot 4. -/
def duelFourth : CBasePlayer := { entindex := 4, team := .ct }

/-- The handler called in a game of the first two, with the switch on. -/
def Call.duel (handler : Handler) : Call := ⟨.ofPlayers [duelT, duelCt], handler⟩

/-- The terrorist hits the counter-terrorist. -/
def duelHit : Call := .duel (.takeDamage (some duelCt) none (some 1))

/-- The terrorist kills the counter-terrorist. -/
def duelKill : Call :=
  let victim := { duelCt with isAlive := false }
  ⟨.ofPlayers [duelT, victim], .killed (some victim) 1⟩

/-- The terrorists win the duel. -/
def duelEnd : Call := .duel (.roundEnd winstatusTerrorists .terroristsWin)

/-- The run of `calls`, from the members as the plugin loads them, ends in the state `s`. -/
def Reaches (calls : List Call) (s : CStats) : Prop :=
  run Call.exec calls CStats.initial = .ok s

theorem reaches_concat_iff {calls : List Call} {c : Call} {s' : CStats} :
    Reaches (calls ++ [c]) s' ↔ ∃ s, Reaches calls s ∧ c.exec s = .ok s' :=
  run_concat_ok_iff

/-- A run that can be computed reaches a state. -/
theorem exists_reaches {calls : List Call}
    (h : (run Call.exec calls CStats.initial).isOk = true) : ∃ s, Reaches calls s := by
  unfold Reaches
  cases hrun : run Call.exec calls CStats.initial with
  | error e => simp [hrun, Except.isOk, Except.toBool] at h
  | ok s => exact ⟨s, rfl⟩

/-- A run that can be computed reaches a state before its last call. -/
theorem exists_reaches_concat {calls : List Call} {c : Call}
    (h : (run Call.exec (calls ++ [c]) CStats.initial).isOk = true) :
    ∃ s s', Reaches calls s ∧ c.exec s = .ok s' := by
  obtain ⟨s', hs'⟩ := exists_reaches h
  obtain ⟨s, hs, hc⟩ := reaches_concat_iff.mp hs'
  exact ⟨s, s', hs, hc⟩

/-- A run that can be computed reaches a state with the properties that can be computed of it. -/
theorem exists_reaches_and {calls : List Call} {Q : CStats → Prop} [DecidablePred Q]
    (h : (run Call.exec calls CStats.initial).toOption.any (decide <| Q ·) = true) :
    ∃ s, Reaches calls s ∧ Q s := by
  unfold Reaches
  cases hrun : run Call.exec calls CStats.initial with
  | error e => simp [hrun, Except.toOption] at h
  | ok s => exact ⟨s, rfl, by simpa [hrun, Except.toOption] using h⟩

end StatsX
