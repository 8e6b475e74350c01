import StatsX.Lib.Run
import StatsX.Model.Call

/-!
# The switch in the engine

The switch is a variable of the engine (Manager.cpp). As a map starts, the manager asks for the
pointer to `stats_enabled` and registers the variable if nobody has yet (Util.cpp); each handler
then reads the value through the pointer. The variables belong to the engine, which other plugins
and the administrator use as well, between any two calls of the plugin.

The engine is a parameter: what the plugin asks of it, and what its documentation says of that.

## Main definitions

* `CvarEngine`, `CvarEngine.Documented`: the engine's variables
* `CvarEngine.cvarRegister`: asking for a variable, and registering it
* `Loaded`: the plugin with its manager, its statistics and the engine
* `GameInput`, `GameInput.exec`: what happens to it
-/

namespace StatsX

/-- `FCVAR_SERVER` (cvardef.h). -/
abbrev fcvarServer : ℕ := 1 <<< 2

/-- `FCVAR_SPONLY` (cvardef.h). -/
abbrev fcvarSponly : ℕ := 1 <<< 6

/-- A `cvar_t` as it is given to `CVAR_REGISTER`. -/
structure CvarDef where
  name : String
  string : String
  flags : ℕ
  deriving DecidableEq, Repr

/-- The variables of an engine with states `E` and pointers `P`. -/
structure CvarEngine (E P : Type) where
  /-- `CVAR_GET_POINTER` -/
  getPointer : E → String → Option P
  /-- `CVAR_REGISTER` -/
  register : E → CvarDef → E
  /-- The variable behind a pointer. -/
  deref : E → P → Cvar
  /-- Whether the name is that of a command, which no variable can have. -/
  isCommand : E → String → Bool

namespace CvarEngine

variable {E P : Type} (c : CvarEngine E P)

/-- The variables of `e` are still found in `e'`, behind the same pointers. -/
def Keeps (e e' : E) : Prop :=
  ∀ name p, c.getPointer e name = some p → c.getPointer e' name = some p

/-- **What the engine does when a variable is registered**: it can be found afterwards, unless a
command has its name, and the variables that were there before stay. -/
structure Documented : Prop where
  isSome_register : ∀ e d, c.isCommand e d.name = false →
    (c.getPointer (c.register e d) d.name).isSome = true
  keeps_register : ∀ e d, c.Keeps e (c.register e d)
  isCommand_register : ∀ e d name, c.isCommand (c.register e d) name = c.isCommand e name

/-- `CUtil::CvarRegister`: the engine after the call, and the pointer that it returns. -/
def cvarRegister (e : E) (name value : String) : E × Option P :=
  match c.getPointer e name with
  | none =>
    let e := c.register e ⟨name, value, fcvarServer ||| fcvarSponly⟩
    (e, c.getPointer e name)
  | some pointer => (e, some pointer)

end CvarEngine

/-- The plugin as it is loaded: the engine, the member `m_Enabled` of `gManager`, and `gStats`. -/
structure Loaded (E P : Type) where
  engine : E
  enabled : Option P
  stats : CStats

/-- The plugin just loaded, into an engine. -/
def Loaded.initial {E P : Type} (e : E) : Loaded E P := ⟨e, none, CStats.initial⟩

/-- What happens to the plugin. -/
inductive GameInput (E : Type)
  /-- the engine changes, as others register variables or set their values -/
  | engine (change : E → E)
  /-- a hook calls a handler -/
  | hook (g : Server) (handler : Handler)

namespace Loaded

variable {E P : Type} (c : CvarEngine E P)

/-- The manager as a handler reads it: the variable behind the pointer, as it is now. -/
def manager (s : Loaded E P) : CManager := ⟨s.enabled.map (c.deref s.engine)⟩

/-- `CManager::ServerActivate`. -/
def managerServerActivate (s : Loaded E P) : Loaded E P :=
  let (engine, pointer) := c.cvarRegister s.engine "stats_enabled" "0"
  { s with engine := engine, enabled := pointer }

/-- `CManager::ServerDeactivate`. -/
def managerServerDeactivate (s : Loaded E P) : Loaded E P := s

/-- What a hook has the manager do before it calls the handler: `DLL_POST_ServerActivate` and
`DLL_POST_ServerDeactivate` call it, and no other hook does. -/
def manage (h : Handler) (s : Loaded E P) : Loaded E P :=
  match h with
  | .serverActivate => s.managerServerActivate c
  | .serverDeactivate => s.managerServerDeactivate
  | _ => s

/-- The call of a handler, which finds the manager of the plugin. -/
def callOf (s : Loaded E P) (g : Server) (h : Handler) : Call :=
  ⟨{ g with manager := s.manager c }, h⟩

end Loaded

/-- The plugin after an input. -/
def GameInput.exec {E P : Type} (c : CvarEngine E P) (i : GameInput E) (s : Loaded E P) :
    Except OutOfBounds (Loaded E P) :=
  match i with
  | .engine change => .ok { s with engine := change s.engine }
  | .hook g h => do
    let s := s.manage c h
    let stats ← (s.callOf c g h).exec s.stats
    return { s with stats := stats }

end StatsX
