import StatsX.Lib.History
import StatsX.Model.Manager

/-!
# The switch of a plugin that is loaded

The manager asks for its variable whenever a map starts, and others may register it, set it and ask
for it at any time. From the first map on, the pointer of the manager is the engine's own, so that
every handler sees the value as the engine has it at that moment; before, the switch is off. Only
the first map may register the variable, and a later one leaves the engine alone, with the value
that the administrator has set.

What the statistics go through is a run of calls, as it is studied elsewhere, whose servers have the
manager of the plugin.

## Main definitions

* `GameInput.Fair`: the engine keeps its variables
* `engineSwitch`: the switch as the engine has it
* `CallAt`: the call of a handler at a moment of a run

## Main results

* `pointer_of_run`: the pointer of the manager, along a run
* `engine_of_later_map`: a map that is not the first leaves the engine alone
* `reaches_of_run`: the statistics go through a run of calls, which see the engine's switch
-/

namespace StatsX

variable {E P : Type} {c : CvarEngine E P}

/-! ## Asking for a variable -/

/-- **Asking for a variable** finds it, and changes the engine only when it was not there. -/
theorem CvarEngine.Documented.cvarRegister_spec (hdoc : c.Documented) {e : E} {name : String}
    (hfree : c.isCommand e name = false) (value : String) :
    (c.cvarRegister e name value).2 = c.getPointer (c.cvarRegister e name value).1 name ∧
      (c.cvarRegister e name value).2.isSome = true ∧
      c.isCommand (c.cvarRegister e name value).1 name = false ∧
      ((c.getPointer e name).isSome = true → (c.cvarRegister e name value).1 = e) := by
  unfold cvarRegister
  cases h : c.getPointer e name with
  | none =>
    refine ⟨rfl, hdoc.isSome_register e _ hfree, ?_, fun hsome => Bool.noConfusion hsome⟩
    rw [hdoc.isCommand_register]
    exact hfree
  | some pointer => exact ⟨h.symm, rfl, hfree, fun _ => rfl⟩

/-! ## Inputs -/

namespace GameInput

/-- The call of the handler that the input calls, at the server that the game knows. -/
def call? : GameInput E → Option Call
  | .engine _ => none
  | .hook g h => some ⟨g, h⟩

/-- The input starts a map. -/
def startsMap : GameInput E → Bool
  | .hook _ .serverActivate => true
  | _ => false

/-- The engine keeps its variables, and nobody takes the name of the switch for a command. -/
def Fair (c : CvarEngine E P) : GameInput E → Prop
  | .engine change => ∀ e, c.Keeps e (change e) ∧
    (c.isCommand e "stats_enabled" = false → c.isCommand (change e) "stats_enabled" = false)
  | .hook _ _ => True

end GameInput

namespace Loaded

/-- A hook that the handler survives: the manager has done its part, and the statistics have gone
through the call. -/
theorem hook_ok {s s' : Loaded E P} {g : Server} {h : Handler}
    (hi : GameInput.exec c (.hook g h) s = .ok s') :
    s'.engine = (s.manage c h).engine ∧ s'.enabled = (s.manage c h).enabled ∧
      ((s.manage c h).callOf c g h).exec s.stats = .ok s'.stats := by
  have hstats : (s.manage c h).stats = s.stats := by cases h <;> rfl
  obtain ⟨stats, hexec, hi⟩ := bind_ok_iff.mp hi
  obtain rfl := Except.ok.inj hi
  exact ⟨rfl, rfl, hstats ▸ hexec⟩

/-- The name of the switch is free, and once a map has started the pointer of the manager is the
engine's own. -/
structure Linked (c : CvarEngine E P) (started : Bool) (s : Loaded E P) : Prop where
  free : c.isCommand s.engine "stats_enabled" = false
  unset : started = false → s.enabled = none
  pointer : started = true → s.enabled = c.getPointer s.engine "stats_enabled"
  isSome : started = true → s.enabled.isSome = true

variable {started : Bool} {s s' : Loaded E P}

/-- Other engines keep the link. -/
theorem Linked.engine {change : E → E} (h : s.Linked c started)
    (hfair : (GameInput.engine change).Fair c) :
    Linked c started { s with engine := change s.engine } := by
  refine ⟨(hfair s.engine).2 h.free, h.unset, fun hstarted => ?_, h.isSome⟩
  obtain ⟨p, hp⟩ := Option.isSome_iff_exists.mp (h.isSome hstarted)
  have hthere := (h.pointer hstarted).symm.trans hp
  exact hp.trans ((hfair s.engine).1 _ p hthere).symm

/-- **The start of a map** links the manager to the engine, and leaves the engine alone when they
were linked before. -/
theorem Linked.managerServerActivate (hdoc : c.Documented) (h : s.Linked c started) :
    (s.managerServerActivate c).Linked c true ∧
      (started = true → (s.managerServerActivate c).engine = s.engine) := by
  obtain ⟨hpointer, hsome, hfree, hsame⟩ := hdoc.cvarRegister_spec h.free "0"
  refine ⟨⟨hfree, fun hstarted => Bool.noConfusion hstarted, fun _ => hpointer, fun _ => hsome⟩,
    fun hstarted => hsame ?_⟩
  rw [← h.pointer hstarted]
  exact h.isSome hstarted

/-- What the manager does before a handler keeps the link, and makes it when a map starts. -/
theorem Linked.manage (hdoc : c.Documented) (h : s.Linked c started) (g : Server)
    (handler : Handler) : (s.manage c handler).Linked c
      (started || GameInput.startsMap (.hook g handler : GameInput E)) := by
  cases handler with
  | serverActivate =>
    show Linked c (started || true) _
    rw [Bool.or_true]
    exact (h.managerServerActivate hdoc).1
  | _ =>
    show Linked c (started || false) s
    rw [Bool.or_false]
    exact h

/-- **One input** keeps the link. -/
theorem Linked.exec (hdoc : c.Documented) {i : GameInput E} (h : s.Linked c started)
    (hfair : i.Fair c) (hi : i.exec c s = .ok s') : s'.Linked c (started || i.startsMap) := by
  cases i with
  | engine change =>
    obtain rfl := Except.ok.inj hi
    show Linked c (started || false) _
    rw [Bool.or_false]
    exact h.engine hfair
  | hook g handler =>
    -- the link is about the engine and the pointer alone
    obtain ⟨hengine, henabled, -⟩ := hook_ok hi
    obtain ⟨hfree, hunset, hpointer, hsome⟩ := h.manage hdoc g handler
    constructor
    · rw [hengine]
      exact hfree
    · rw [henabled]
      exact hunset
    · rw [henabled, hengine]
      exact hpointer
    · rw [henabled]
      exact hsome

end Loaded

/-! ## Runs -/

section Runs

variable (hdoc : c.Documented) {e : E} (hfree : c.isCommand e "stats_enabled" = false)
  {inputs : List (GameInput E)} (hfair : ∀ i ∈ inputs, i.Fair c) {s : Loaded E P}

include hdoc hfree hfair

/-- **The pointer of the manager**, along a run: null until the first map starts, and the engine's
own from then on. -/
theorem pointer_of_run (h : run (GameInput.exec c) inputs (.initial e) = .ok s) :
    s.Linked c (inputs.any GameInput.startsMap) := by
  refine run_induction (P := fun inputs s => s.Linked c (inputs.any GameInput.startsMap)) ?_ ?_ h
  · exact ⟨hfree, fun _ => rfl, fun h => Bool.noConfusion h, fun h => Bool.noConfusion h⟩
  · intro p i t t' hp _ ih hi
    have hmem : i ∈ inputs := hp.subset (by simp)
    rw [List.any_append, List.any_cons, List.any_nil, Bool.or_false]
    exact ih.exec hdoc (hfair i hmem) hi

/-- **A map that is not the first** leaves the engine as it is, and the value of the switch with
it. -/
theorem engine_of_later_map (h : run (GameInput.exec c) inputs (.initial e) = .ok s)
    (hstarted : inputs.any GameInput.startsMap = true) {g : Server} {s' : Loaded E P}
    (hmap : GameInput.exec c (.hook g .serverActivate) s = .ok s') : s'.engine = s.engine := by
  have hlinked := pointer_of_run hdoc hfree hfair h
  obtain ⟨hengine, -, -⟩ := Loaded.hook_ok hmap
  rw [hengine]
  exact (hlinked.managerServerActivate hdoc).2 hstarted

end Runs

/-- The switch as the engine has it: the value of its variable, once a map has started. -/
def engineSwitch (c : CvarEngine E P) (started : Bool) (e : E) : Bool :=
  started && (c.getPointer e "stats_enabled").any fun p => decide ((c.deref e p).value ≠ 0)

/-- The manager of a plugin that is linked sees the engine's switch. -/
theorem Loaded.Linked.isEnabled {started : Bool} {s : Loaded E P} (h : s.Linked c started) :
    (s.manager c).isEnabled = engineSwitch c started s.engine := by
  cases started with
  | true =>
    rw [Loaded.manager, h.pointer rfl, engineSwitch]
    cases c.getPointer s.engine "stats_enabled" <;> rfl
  | false =>
    rw [Loaded.manager, h.unset rfl]
    rfl

/-- The call at the moment `m` of a run from the engine `e`: the handler that the hook calls, at the
game's server, with the switch as the engine has it then. -/
def CallAt (c : CvarEngine E P) (e : E) (m : List (GameInput E) × GameInput E) (call : Call) :
    Prop :=
  ∃ s, run (GameInput.exec c) (m.1 ++ [m.2]) (.initial e) = .ok s ∧
    call.isEnabled = engineSwitch c ((m.1 ++ [m.2]).any GameInput.startsMap) s.engine ∧
    ∃ g h, m.2 = .hook g h ∧ call = ⟨{ g with manager := call.server.manager }, h⟩

/-- **The statistics of a plugin that is loaded** go through a run of calls: one for each hook, in
their order, each with the switch as the engine has it at that moment. -/
theorem reaches_of_run (hdoc : c.Documented) {e : E}
    (hfree : c.isCommand e "stats_enabled" = false) {inputs : List (GameInput E)}
    (hfair : ∀ i ∈ inputs, i.Fair c) {s : Loaded E P}
    (h : run (GameInput.exec c) inputs (.initial e) = .ok s) :
    ∃ calls, Reaches calls s.stats ∧
      List.Forall₂ (CallAt c e) ((moments inputs).filter (·.2.call?.isSome)) calls := by
  refine run_induction (P := fun inputs s => ∃ calls, Reaches calls s.stats ∧
    List.Forall₂ (CallAt c e) ((moments inputs).filter (·.2.call?.isSome)) calls) ?_ ?_ h
  · exact ⟨[], rfl, .nil⟩
  · rintro p i t t' hp ht ⟨calls, hcalls, hat⟩ hi
    rw [moments_concat, List.filter_append]
    cases i with
    | engine change =>
      -- no call is recorded
      obtain rfl := Except.ok.inj hi
      refine ⟨calls, hcalls, ?_⟩
      rw [List.filter_singleton]
      simpa [GameInput.call?] using hat
    | hook g handler =>
      obtain ⟨hengine, henabled, hexec⟩ := Loaded.hook_ok hi
      have hrun : run (GameInput.exec c) (p ++ [.hook g handler]) (.initial e) = .ok t' :=
        run_concat_ok_iff.mpr ⟨t, ht, hi⟩
      have hlinked := pointer_of_run hdoc hfree (fun i hi => hfair i (hp.subset hi)) hrun
      have hmanager : (t.manage c handler).manager c = t'.manager c := by
        rw [Loaded.manager, Loaded.manager, hengine, henabled]
      refine ⟨calls ++ [(t.manage c handler).callOf c g handler],
        reaches_concat_iff.mpr ⟨_, hcalls, hexec⟩, List.rel_append hat ?_⟩
      refine .cons ⟨t', hrun, ?_, g, handler, rfl, rfl⟩ .nil
      show ((t.manage c handler).manager c).isEnabled = _
      rw [hmanager]
      exact hlinked.isEnabled

/-! ## A table of variables -/

/-- An engine whose variables are a table of values by their names, and without commands. -/
def cvarTable : CvarEngine (String → Option ℚ) String where
  getPointer e name := (e name).map fun _ => name
  register e d := Function.update e d.name ((e d.name).or (some (d.string.toNat?.getD 0 : ℕ)))
  deref e p := ⟨(e p).getD 0⟩
  isCommand _ _ := false

theorem documented_cvarTable : cvarTable.Documented where
  isSome_register e d _ := by
    cases h : e d.name <;> simp [cvarTable, h]
  keeps_register e d name p hp := by
    by_cases hname : name = d.name
    · subst hname
      obtain ⟨v, hv, rfl⟩ := Option.map_eq_some_iff.mp hp
      simp [cvarTable, hv]
    · simpa [cvarTable, hname] using hp
  isCommand_register _ _ _ := rfl

/-- The administrator turns the switch on. -/
def switchOn : GameInput (String → Option ℚ) :=
  .engine fun e name => (e name).map fun v => if name = "stats_enabled" then 1 else v

theorem fair_switchOn : switchOn.Fair cvarTable := by
  refine fun e => ⟨fun name p hp => ?_, fun _ => rfl⟩
  obtain ⟨v, hv, rfl⟩ := Option.map_eq_some_iff.mp hp
  simp [cvarTable, hv]

/-- A map starts, the switch is turned on, and a hit is recorded. -/
theorem reaches_of_run_duel : ∃ s,
    run (GameInput.exec cvarTable)
      [.hook duelHit.server .serverActivate, switchOn, .hook duelHit.server duelHit.handler]
      (.initial fun _ => none) = .ok s ∧
    ∃ calls, Reaches calls s.stats ∧ List.Forall₂ (CallAt cvarTable fun _ => none)
      ((moments [.hook duelHit.server .serverActivate, switchOn,
        .hook duelHit.server duelHit.handler]).filter (·.2.call?.isSome)) calls := by
  have hfair : ∀ i ∈ [.hook duelHit.server .serverActivate, switchOn,
      .hook duelHit.server duelHit.handler], i.Fair cvarTable := by
    intro i hi
    rcases List.mem_cons.mp hi with rfl | hi
    · trivial
    rcases List.mem_cons.mp hi with rfl | hi
    · exact fair_switchOn
    · obtain rfl := List.mem_singleton.mp hi
      trivial
  exact ⟨_, rfl, reaches_of_run documented_cvarTable rfl hfair rfl⟩

end StatsX
