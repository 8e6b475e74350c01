import StatsX.Lib.Run
import StatsX.Model.Plugin

/-!
# The rules of the game

The game installs its rules as it starts a map, through a hook chain in which the plugin is
registered while it is attached (ReGameDLL.cpp). The plugin keeps the pointer, after it has asked
the interface of the game for the version. Metamod may attach and detach the plugin between any two
of these moments.

## Main definitions

* `regameInstallGameRules`: the plugin's function for the hook chain
* `installGameRules`: the hook chain, as the game goes through it
* `Session`, `SessionInput`: the plugin with the pointer that it keeps, and what happens to it
-/

namespace StatsX

/-- `GAMERULES_API_INTERFACE_VERSION` (gamerules.h). -/
def gamerulesApiInterfaceVersion : String := "GAMERULES_API_INTERFACE_VERSION001"

/-- What the game delivers as it installs its rules: the pointer to them, and whether
`BGetIGameRules` knows the version. -/
structure InstalledRules where
  gamerules : Option ℕ
  isKnown : Bool
  deriving DecidableEq, Repr

/-- `ReGameDLL_InstallGameRules`, after `callNext`: the variable `g_pGameRules` after it. -/
def regameInstallGameRules (i : InstalledRules) (gameRules : Option ℕ) : PluginM (Option ℕ) := do
  followPointer ((← get).reGameApi.map fun _ => ())
  if !i.isKnown then
    logConsole "[%s] Interface GameRules API version '%s' not found"
      [logtag, .str gamerulesApiInterfaceVersion]
    return gameRules
  else
    return i.gamerules

/-- The callbacks of the hook chain, each of which calls the next one. -/
def installThrough (i : InstalledRules) : List Callback → Option ℕ → PluginM (Option ℕ)
  | [], gameRules => return gameRules
  | callback :: next, gameRules => do
    -- the plugin's function calls the next one first
    let gameRules ← installThrough i next gameRules
    if callback = .own .installGameRules then regameInstallGameRules i gameRules
    else return gameRules

/-- The hook chain `InstallGameRules`, as the game goes through it. -/
def installGameRules (i : InstalledRules) (gameRules : Option ℕ) : PluginM (Option ℕ) := do
  installThrough i ((← get).registries .installGameRules) gameRules

/-- The plugin with its variable `g_pGameRules`. -/
structure Session where
  plugin : Plugin
  gameRules : Option ℕ

/-- The plugin as it is loaded. -/
def Session.initial (r : Registries) : Session := ⟨.loaded r, none⟩

/-- What happens to the plugin. -/
inductive SessionInput
  | metamod (c : MetaCall)
  | install (i : InstalledRules)
  deriving DecidableEq, Repr

/-- The plugin after an input. -/
def SessionInput.exec (input : SessionInput) (s : Session) : Except NullPointer Session :=
  match input with
  | .metamod c => c.exec s.plugin >>= fun p => .ok { s with plugin := p }
  | .install i => (installGameRules i s.gameRules).run s.plugin >>= fun r => .ok ⟨r.2, r.1⟩

/-- The call that Metamod makes. -/
def SessionInput.metaCall? : SessionInput → Option MetaCall
  | .metamod c => some c
  | .install _ => none

/-- The calls that Metamod makes in a session. -/
def metaCalls (inputs : List SessionInput) : List MetaCall :=
  inputs.filterMap SessionInput.metaCall?

end StatsX
