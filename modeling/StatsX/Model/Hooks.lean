import StatsX.Model.Call

/-!
# Hooks

The plugin hooks functions of the engine and of the game (ReAPI.cpp, ReGameDLL.cpp, MetaDLL.cpp).
A hook calls the next function of its chain, which runs the game, and records into `gStats` before
or after that. The game calls hooked functions while it runs, so that hook calls nest; what they
record is in the order of the recordings, not in the order in which the hooks are entered.

A hook carries the server as it is when the hook records.

## Main definitions

* `Hook`: the hooks with their arguments; `Hook.before`, `Hook.after` are the calls they record
* `HookRun`: a run of hook calls, properly nested
* `HookRun.calls`: the calls recorded in a run
* `HookRun.Occurs`: where a hook is called in a run

## Main results

* `HookRun.calls_of_occurs`: what a hook records comes after what is recorded inside it
-/

namespace StatsX

/-- The hooks that record, with the arguments that they pass on. -/
inductive Hook
  /-- `DLL_POST_ServerActivate` -/
  | serverActivate (g : Server)
  /-- `DLL_POST_ServerDeactivate` -/
  | serverDeactivate (g : Server)
  /-- `ReAPI_SV_DropClient`, with the index of the client's entity, if it has one -/
  | dropClient (g : Server) (edict : Option ℤ)
  /-- `ReGameDLL_CBasePlayer_GetIntoGame` -/
  | getIntoGame (g : Server) (player : CBasePlayer)
  /-- `ReGameDLL_CBasePlayer_AddAccount` -/
  | addAccount (g : Server) (pthis : Option CBasePlayer) (amount : CInt) (type : ℤ)
  /-- `ReGameDLL_PlantBomb`, which records before and after -/
  | plantBomb (g g' : Server) (pevOwner : ℤ)
  /-- `ReGameDLL_CGrenade_DefuseBombStart` -/
  | defuseBombStart (g : Server) (pPlayer : Option CBasePlayer)
  /-- `ReGameDLL_CGrenade_DefuseBombEnd` -/
  | defuseBombEnd (g : Server) (pPlayer : Option CBasePlayer) (defused : Bool)
  /-- `ReGameDLL_CGrenade_ExplodeBomb` -/
  | explodeBomb (g : Server)
  /-- `ReGameDLL_CSGameRules_OnRoundFreezeEnd` -/
  | onRoundFreezeEnd (g : Server)
  /-- `ReGameDLL_RoundEnd` -/
  | roundEnd (g : Server) (winStatus : ℤ) (event : ScenarioEventEndRound)
  /-- `ReGameDLL_CBasePlayer_TakeDamage` -/
  | takeDamage (g : Server) (pthis : Option CBasePlayer) (pevInflictor pevAttacker : Option ℤ)
  /-- `ReGameDLL_CBasePlayer_Killed` -/
  | killed (g : Server) (pthis : Option CBasePlayer) (pevAttacker : ℤ)
  /-- `ReGameDLL_CBasePlayer_SetAnimation` -/
  | setAnimation (g : Server) (pthis : Option CBasePlayer) (playerAnim : PlayerAnim)

namespace Hook

/-- The calls recorded before `callNext`. -/
def before : Hook → List Call
  | .dropClient g (some entIndex) =>
    -- the player is still in its slot, as the client is dropped by `callNext`
    if entIndex ≠ 0 then
      match g.playerByIndexSafe entIndex with
      | some player => [⟨g, .disconnected player⟩]
      | none => []
    else []
  | .plantBomb g _ pevOwner => [⟨g, .plantBomb pevOwner false⟩]
  | _ => []

/-- The calls recorded after `callNext`. -/
def after : Hook → List Call
  | .serverActivate g => [⟨g, .serverActivate⟩]
  | .serverDeactivate g => [⟨g, .serverDeactivate⟩]
  | .dropClient _ _ => []
  | .getIntoGame g player => [⟨g, .getIntoGame player⟩]
  | .addAccount g pthis amount type => [⟨g, .addAccount pthis amount type⟩]
  | .plantBomb _ g' pevOwner => [⟨g', .plantBomb pevOwner true⟩]
  | .defuseBombStart g pPlayer => [⟨g, .defuseBombStart pPlayer⟩]
  | .defuseBombEnd g pPlayer defused => [⟨g, .defuseBombEnd pPlayer defused⟩]
  | .explodeBomb g => [⟨g, .explodeBomb⟩]
  | .onRoundFreezeEnd g => [⟨g, .roundFreezeEnd⟩]
  | .roundEnd g winStatus event => [⟨g, .roundEnd winStatus event⟩]
  | .takeDamage g pthis pevInflictor pevAttacker =>
    [⟨g, .takeDamage pthis pevInflictor pevAttacker⟩]
  | .killed g pthis pevAttacker => [⟨g, .killed pthis pevAttacker⟩]
  | .setAnimation g pthis playerAnim => [⟨g, .setAnimation pthis playerAnim⟩]

end Hook

/-! ## Nested runs -/

/-- A run of hook calls: each runs the inner hooks inside its `callNext`, and the next ones follow
when it has returned. -/
inductive HookRun
  | done
  | call (hook : Hook) (inner next : HookRun)

namespace HookRun

/-- The calls recorded in a run. -/
def calls : HookRun → List Call
  | .done => []
  | .call hook inner next => hook.before ++ inner.calls ++ hook.after ++ next.calls

/-- In the run, after the calls `p` have been recorded, the hook enters `callNext` and runs the
hooks `inner` inside it. -/
inductive Occurs : HookRun → List Call → Hook → HookRun → Prop
  | here (hook : Hook) (inner next : HookRun) :
    Occurs (.call hook inner next) hook.before hook inner
  | inner {hook hook' : Hook} {inner inner' next : HookRun} {p : List Call}
    (h : Occurs inner p hook' inner') :
    Occurs (.call hook inner next) (hook.before ++ p) hook' inner'
  | next {hook hook' : Hook} {inner inner' next : HookRun} {p : List Call}
    (h : Occurs next p hook' inner') :
    Occurs (.call hook inner next) (hook.before ++ inner.calls ++ hook.after ++ p) hook' inner'

/-- **What a hook records comes after what is recorded inside it.** -/
theorem calls_of_occurs {run inner : HookRun} {p : List Call} {hook : Hook}
    (h : Occurs run p hook inner) : ∃ q, run.calls = p ++ inner.calls ++ hook.after ++ q := by
  -- along the way to the hook: each hook around it records after it, or before it
  induction h with
  | here hook inner next => exact ⟨next.calls, rfl⟩
  | @inner hook hook' inner inner' next p h ih =>
    obtain ⟨q, hq⟩ := ih
    exact ⟨q ++ hook.after ++ next.calls, by simp [calls, hq]⟩
  | next h ih =>
    obtain ⟨q, hq⟩ := ih
    exact ⟨q, by simp [calls, hq]⟩

end HookRun

end StatsX
