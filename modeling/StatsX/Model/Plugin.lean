import Mathlib.Data.List.Basic
import StatsX.Lib.Bounded

/-!
# Loading and unloading the plugin

Metamod attaches the plugin and detaches it (MetaMod.cpp). On the way in, the plugin looks for the
interfaces of the engine (ReAPI.cpp) and of the game (ReGameDLL.cpp) and registers its hooks; on
the way out it removes them. What it finds is up to the server: the `Probes` of one attach.

A registry of the engine or the game is a list of callbacks, which other plugins use as well. The
pointers to the registries are variables of the plugin, null as it is loaded; a call through a null
pointer ends in a `NullPointer`.

## Main definitions

* `HookChain`, `Callback`: the registries and what is registered in them
* `Plugin`: the variables of the plugin, the registries and the console
* `Probes`: what the plugin finds at one attach
* `reapiInit`, `regameDLLInit`, `reapiStop`, `regameDLLStop`: looking for the interfaces, and
  removing the hooks
* `metaAttach`, `metaDetach`: the calls that Metamod makes
-/

namespace StatsX

/-- A call through a null pointer. -/
inductive NullPointer
  | error
  deriving DecidableEq, Repr

/-! ## Registries -/

/-- The hook chains of the engine (`SV_DropClient`) and of the game that the plugin uses. -/
inductive HookChain
  | svDropClient
  | installGameRules
  | cBasePlayerGetIntoGame
  | cBasePlayerAddAccount
  | plantBomb
  | cGrenadeDefuseBombStart
  | cGrenadeDefuseBombEnd
  | cGrenadeExplodeBomb
  | cSGameRulesOnRoundFreezeEnd
  | roundEnd
  | cBasePlayerTakeDamage
  | cBasePlayerKilled
  | cBasePlayerSetAnimation
  deriving DecidableEq, Repr

/-- A function registered in a hook chain: the plugin's own, which it names after the chain, or one
of another plugin. -/
inductive Callback
  | own (chain : HookChain)
  | foreign (id : ℕ)
  deriving DecidableEq, Repr

/-- The registries of all the hook chains. -/
abbrev Registries := HookChain → List Callback

/-! ## The plugin -/

/-- An argument of a message on the console. -/
inductive LogArg
  | str (s : String)
  | int (i : ℤ)
  deriving DecidableEq, Repr

/-- A message that `LOG_CONSOLE` prints: the format and its arguments. -/
structure LogMessage where
  format : String
  args : List LogArg
  deriving DecidableEq, Repr

/-- What the plugin asks an interface, of the engine or of the game. -/
structure Api where
  majorVersion : ℤ
  minorVersion : ℤ
  deriving DecidableEq, Repr

/-- The variables of the plugin, the registries and the console. A pointer to the hook chains is
null or not. -/
structure Plugin where
  rehldsApi : Option Api
  rehldsHookchains : Option Unit
  reGameApi : Option Api
  reGameHookchains : Option Unit
  registries : Registries
  console : List LogMessage

/-- The plugin as it is loaded, with the callbacks of other plugins. -/
def Plugin.loaded (registries : Registries) : Plugin where
  rehldsApi := none
  rehldsHookchains := none
  reGameApi := none
  reGameHookchains := none
  registries := registries
  console := []

/-- Computations on the plugin. -/
abbrev PluginM := StateT Plugin (Except NullPointer)

/-- `Plugin_info.logtag` -/
def logtag : LogArg := .str "STATS"

/-- `LOG_CONSOLE`. -/
def logConsole (format : String) (args : List LogArg) : PluginM Unit :=
  modify fun p => { p with console := p.console ++ [⟨format, args⟩] }

/-- `registerHook` of the plugin's function for a hook chain. -/
def registerHook (chain : HookChain) : PluginM Unit :=
  modify fun p =>
    { p with registries :=
        Function.update p.registries chain (p.registries chain ++ [.own chain]) }

/-- `unregisterHook` of the plugin's function for a hook chain. -/
def unregisterHook (chain : HookChain) : PluginM Unit :=
  modify fun p =>
    { p with registries :=
        Function.update p.registries chain ((p.registries chain).erase (.own chain)) }

/-- Follow a pointer. -/
def followPointer (pointer : Option Unit) : PluginM Unit :=
  match pointer with
  | some _ => pure ()
  | none => throw .error

/-! ## What is found at an attach -/

/-- What `ReAPI_Init` finds. -/
structure RehldsProbes where
  isDedicatedServer : Bool
  engineModule : Bool
  ifaceFactory : Bool
  rehldsApi : Option Api
  retCode : ℤ
  deriving DecidableEq, Repr

/-- What `ReGameDLL_Init` finds. -/
structure RegameProbes where
  szGameDLLModule : Bool
  gameModule : Bool
  ifaceFactory : Bool
  reGameApi : Option Api
  retCode : ℤ
  csEntity : Bool
  deriving DecidableEq, Repr

/-- What the plugin finds at one attach. -/
structure Probes where
  rehlds : RehldsProbes
  regame : RegameProbes
  deriving DecidableEq, Repr

/-- `REHLDS_API_VERSION_MAJOR` (rehlds_api.h). -/
abbrev rehldsApiVersionMajor : ℤ := 3

/-- `REHLDS_API_VERSION_MINOR` (rehlds_api.h). -/
abbrev rehldsApiVersionMinor : ℤ := 11

/-- `REGAMEDLL_API_VERSION_MAJOR` (regamedll_api.h). -/
abbrev regamedllApiVersionMajor : ℤ := 5

/-- `REGAMEDLL_API_VERSION_MINOR` (regamedll_api.h). -/
abbrev regamedllApiVersionMinor : ℤ := 21

/-- `CSENTITY_API_INTERFACE_VERSION` (CSEntity.h). -/
def csentityApiInterfaceVersion : String := "CSENTITY_API_INTERFACE_VERSION002"

/-! ## Initialisation -/

/-- The messages about a major version `real` that is not the `expected` one: `mismatch`, and then
`update` when the interface is the older one, or the request to update the plugin. -/
def logMajorMismatch (mismatch update : String) (expected real : ℤ) : PluginM Unit := do
  logConsole mismatch [logtag, .int expected, .int real]
  if real < expected then
    logConsole update [logtag, .int expected]
  else if expected < real then
    logConsole "[%s] Please update the %s up to a major version API >= %d"
      [logtag, logtag, .int real]

/-- `ReAPI_Init`. -/
def reapiInit (probes : RehldsProbes) : PluginM Bool := do
  if !probes.isDedicatedServer then
    -- the format has a place for an argument, and no argument is passed
    logConsole "[%s] ReHLDS API Can only run on Half-Life Dedicated Server" []
    return false
  if !probes.engineModule then
    logConsole "[%s] Failed to locate engine module" [logtag]
    return false
  if !probes.ifaceFactory then
    logConsole "[%s] Failed to locate interface factory in engine module" [logtag]
    return false
  modify fun p => { p with rehldsApi := probes.rehldsApi }
  match probes.rehldsApi with
  | none =>
    logConsole
      "[%s] Failed to locate retrieve rehlds api interface from engine module, return code is %d"
      [logtag, .int probes.retCode]
    return false
  | some api =>
    if api.majorVersion ≠ rehldsApiVersionMajor then
      logMajorMismatch "[%s] ReHLDS API major version mismatch; expected %d, real %d"
        "[%s] Please update the ReHLDS up to a major version API >= %d"
        rehldsApiVersionMajor api.majorVersion
      return false
    if api.minorVersion < rehldsApiVersionMinor then
      logConsole "[%s] ReHLDS API minor version mismatch; expected at least %d, real %d"
        [logtag, .int rehldsApiVersionMinor, .int api.minorVersion]
      logConsole "[%s] Please update the ReHLDS up to a minor version API >= %d"
        [logtag, .int rehldsApiVersionMinor]
      return false
    modify fun p => { p with rehldsHookchains := some () }
    logConsole "[%s] Re-HLDS API successfully initialized." [logtag]
    followPointer (← get).rehldsHookchains
    registerHook .svDropClient
    return true

/-- The hook chains of the game, in the order in which the plugin registers in them. -/
def regameChains : List HookChain :=
  [.installGameRules, .cBasePlayerGetIntoGame, .cBasePlayerAddAccount, .plantBomb,
    .cGrenadeDefuseBombStart, .cGrenadeDefuseBombEnd, .cGrenadeExplodeBomb,
    .cSGameRulesOnRoundFreezeEnd, .roundEnd, .cBasePlayerTakeDamage, .cBasePlayerKilled,
    .cBasePlayerSetAnimation]

/-- `ReGameDLL_Init`. -/
def regameDLLInit (probes : RegameProbes) : PluginM Bool := do
  if !probes.szGameDLLModule then
    logConsole "[%s] Failed to get GameDLL module" [logtag]
    return false
  if !probes.gameModule then
    logConsole "[%s] Failed to locate GameDLL module" [logtag]
    return false
  if !probes.ifaceFactory then
    logConsole "[%s] Failed to locate interface factory in GameDLL module" [logtag]
    return false
  modify fun p => { p with reGameApi := probes.reGameApi }
  match probes.reGameApi with
  | none =>
    logConsole
      "[%s] Failed to locate retrieve rehlds api interface from GameDLL module, return code is %d"
      [logtag, .int probes.retCode]
    return false
  | some api =>
    if api.majorVersion ≠ regamedllApiVersionMajor then
      logMajorMismatch "[%s] ReGameDLL API major version mismatch; expected %d, real %d"
        "[%s] Please update the ReGameDLL up to a major version API >= %d"
        regamedllApiVersionMajor api.majorVersion
      return false
    if api.minorVersion < regamedllApiVersionMinor then
      logConsole "[%s] ReGameDLL API minor version mismatch; expected at least %d, real %d"
        [logtag, .int regamedllApiVersionMinor, .int api.minorVersion]
      logConsole "[%s] Please update the ReGameDLL up to a minor version API >= %d"
        [logtag, .int regamedllApiVersionMinor]
      return false
    -- the pointer is set before the last interface is asked for
    modify fun p => { p with reGameHookchains := some () }
    if !probes.csEntity then
      logConsole "[%s] Interface CCSEntity API version '%s' not found"
        [logtag, .str csentityApiInterfaceVersion]
      return false
    logConsole "[%s] Re-GameDLL API successfully initialized." [logtag]
    regameChains.forM fun chain => do
      followPointer (← get).reGameHookchains
      registerHook chain
    return true

/-! ## Removal -/

/-- `ReAPI_Stop`. -/
def reapiStop : PluginM Bool := do
  followPointer (← get).rehldsHookchains
  unregisterHook .svDropClient
  return true

/-- `ReGameDLL_Stop`, which goes through the hook chains in the same order. -/
def regameDLLStop : PluginM Bool := do
  regameChains.forM fun chain => do
    followPointer (← get).reGameHookchains
    unregisterHook chain
  return true

/-! ## Attaching and detaching -/

/-- `Meta_Attach`, as far as the hooks are concerned. -/
def metaAttach (probes : Probes) : PluginM ℤ := do
  -- both results are dropped
  let _ ← reapiInit probes.rehlds
  let _ ← regameDLLInit probes.regame
  return 1

/-- `Meta_Detach`. -/
def metaDetach : PluginM ℤ := do
  let _ ← reapiStop
  let _ ← regameDLLStop
  return 1

/-- A call that Metamod makes. -/
inductive MetaCall
  | attach (probes : Probes)
  | detach
  deriving DecidableEq, Repr

/-- The plugin after a call. -/
def MetaCall.exec (c : MetaCall) (p : Plugin) : Except NullPointer Plugin :=
  match c with
  | .attach probes => (metaAttach probes).run p >>= fun r => .ok r.2
  | .detach => metaDetach.run p >>= fun r => .ok r.2

end StatsX
