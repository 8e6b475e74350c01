import StatsX.Lib.Writes
import StatsX.Model.Rules
import StatsX.Properties.Attach

/-!
# What is printed on the console

A message with a format is complete when its arguments are those that the conversions of the format
ask for; a function that prints it takes what happens to be on the stack for an argument that is
missing. All the messages of the plugin are complete but one, which is printed by every attach on a
server that is not dedicated.

## Main definitions

* `conversions`, `asked`: the conversions in a format
* `LogMessage.IsComplete`: the arguments are those that the format asks for

## Main results

* `console_complete_iff`: the console of a session has complete messages only, exactly when the
  plugin is attached on dedicated servers only
-/

namespace StatsX

/-! ## Formats -/

/-- What a conversion takes. -/
inductive Conversion
  /-- `%s` -/
  | str
  /-- `%d` -/
  | int
  deriving DecidableEq, Repr

/-- The conversions in the bytes of a format, if there are no others. -/
def conversions : List UInt8 → Option (List Conversion)
  | [] => some []
  | c :: l =>
    -- after a percent sign, the bytes of `s` and of `d`, or another percent sign
    if c = 37 then
      match l with
      | 115 :: l => (conversions l).map (.str :: ·)
      | 100 :: l => (conversions l).map (.int :: ·)
      | 37 :: l => conversions l
      | _ => none
    else conversions l

/-- The conversion that takes the argument. -/
def LogArg.conversion : LogArg → Conversion
  | .str _ => .str
  | .int _ => .int

/-- What the conversions of a format ask for. -/
def asked (format : String) : Option (List Conversion) := conversions format.toUTF8.data.toList

/-- **The arguments are those that the format asks for.** -/
def LogMessage.IsComplete (m : LogMessage) : Prop :=
  asked m.format = some (m.args.map LogArg.conversion)

instance (m : LogMessage) : Decidable m.IsComplete := inferInstanceAs (Decidable (_ = _))

/-! ## What the functions print -/

section

variable {α : Type}

/-- The computation prints complete messages. -/
abbrev PrintsComplete (m : PluginM α) : Prop := Writes Plugin.console LogMessage.IsComplete m

theorem logConsole_complete {format : String} {args : List LogArg}
    (h : asked format = some (args.map LogArg.conversion)) :
    PrintsComplete (logConsole format args) :=
  .append (x := ⟨format, args⟩) (fun _ => rfl) h

theorem followPointer_complete (pointer : Option Unit) :
    PrintsComplete (followPointer pointer) := by
  cases pointer with
  | none => exact .throw _
  | some _ => exact .pure _

theorem logMajorMismatch_complete {mismatch update : String} (expected real : ℤ)
    (hmismatch : asked mismatch = some [.str, .int, .int])
    (hupdate : asked update = some [.str, .int]) :
    PrintsComplete (logMajorMismatch mismatch update expected real) := by
  refine .bind (logConsole_complete hmismatch) fun _ => .ite (fun _ => ?_) fun _ => ?_
  · exact logConsole_complete hupdate
  · refine .ite (fun _ => ?_) fun _ => .pure _
    exact logConsole_complete rfl

theorem reapiInit_complete {probes : RehldsProbes} (h : probes.isDedicatedServer = true) :
    PrintsComplete (reapiInit probes) := by
  unfold reapiInit
  -- one exit after the other, and the end
  refine .ite (fun hlisten => ?_) fun _ => ?_
  · rw [h] at hlisten
    exact Bool.noConfusion hlisten
  refine .ite (fun _ => .bind (logConsole_complete rfl) fun _ => .pure _) fun _ => ?_
  refine .ite (fun _ => .bind (logConsole_complete rfl) fun _ => .pure _) fun _ => ?_
  refine .bind (.modify fun _ => rfl) fun _ => ?_
  cases probes.rehldsApi with
  | none => exact .bind (logConsole_complete rfl) fun _ => .pure _
  | some api =>
    refine .ite (fun _ => ?_) fun _ => .ite (fun _ => ?_) fun _ => ?_
    · exact .bind (logMajorMismatch_complete _ _ rfl rfl) fun _ => .pure _
    · exact .bind (logConsole_complete rfl) fun _ =>
        .bind (logConsole_complete rfl) fun _ => .pure _
    · refine .bind (.modify fun _ => rfl) fun _ => .bind (logConsole_complete rfl) fun _ => ?_
      exact .bind .get fun _ => .bind (followPointer_complete _) fun _ =>
        .bind (.modify fun _ => rfl) fun _ => .pure _

theorem regameDLLInit_complete (probes : RegameProbes) : PrintsComplete (regameDLLInit probes) := by
  unfold regameDLLInit
  refine .ite (fun _ => .bind (logConsole_complete rfl) fun _ => .pure _) fun _ => ?_
  refine .ite (fun _ => .bind (logConsole_complete rfl) fun _ => .pure _) fun _ => ?_
  refine .ite (fun _ => .bind (logConsole_complete rfl) fun _ => .pure _) fun _ => ?_
  refine .bind (.modify fun _ => rfl) fun _ => ?_
  cases probes.reGameApi with
  | none => exact .bind (logConsole_complete rfl) fun _ => .pure _
  | some api =>
    refine .ite (fun _ => ?_) fun _ => .ite (fun _ => ?_) fun _ => ?_
    · exact .bind (logMajorMismatch_complete _ _ rfl rfl) fun _ => .pure _
    · exact .bind (logConsole_complete rfl) fun _ =>
        .bind (logConsole_complete rfl) fun _ => .pure _
    · refine .bind (.modify fun _ => rfl) fun _ => .ite (fun _ => ?_) fun _ => ?_
      · exact .bind (logConsole_complete rfl) fun _ => .pure _
      · refine .bind (logConsole_complete rfl) fun _ => .bind (.forM (fun chain => ?_) _)
          fun _ => .pure _
        exact .bind .get fun _ => .bind (followPointer_complete _) fun _ => .modify fun _ => rfl

theorem metaAttach_complete {probes : Probes} (h : probes.rehlds.isDedicatedServer = true) :
    PrintsComplete (metaAttach probes) :=
  .bind (reapiInit_complete h) fun _ => .bind (regameDLLInit_complete _) fun _ => .pure _

theorem metaDetach_complete : PrintsComplete metaDetach := by
  refine .bind (.bind .get fun _ => .bind (followPointer_complete _) fun _ =>
    .bind (.modify fun _ => rfl) fun _ => .pure _) fun _ => .bind (.bind (.forM (fun chain => ?_) _)
      fun _ => .pure _) fun _ => .pure _
  exact .bind .get fun _ => .bind (followPointer_complete _) fun _ => .modify fun _ => rfl

theorem regameInstallGameRules_complete (i : InstalledRules) (gameRules : Option ℕ) :
    PrintsComplete (regameInstallGameRules i gameRules) := by
  refine .bind .get fun _ => .bind (followPointer_complete _) fun _ =>
    .ite (fun _ => ?_) fun _ => ?_
  · exact .bind (logConsole_complete rfl) fun _ => .pure _
  · exact .pure _

theorem installThrough_complete (i : InstalledRules) (callbacks : List Callback)
    (gameRules : Option ℕ) : PrintsComplete (installThrough i callbacks gameRules) := by
  induction callbacks with
  | nil => exact .pure _
  | cons callback next ih =>
    refine .bind ih fun gameRules => .ite (fun _ => ?_) fun _ => .pure _
    exact regameInstallGameRules_complete i gameRules

theorem installGameRules_complete (i : InstalledRules) (gameRules : Option ℕ) :
    PrintsComplete (installGameRules i gameRules) :=
  .bind .get fun _ => installThrough_complete i _ gameRules

end

/-! ## Sessions -/

/-- The input attaches the plugin on a server that is not dedicated. -/
def SessionInput.attachesToListen : SessionInput → Bool
  | .metamod (.attach probes) => !probes.rehlds.isDedicatedServer
  | _ => false

/-- The message that `ReAPI_Init` prints on a server that is not dedicated. -/
def listenMessage : LogMessage := ⟨"[%s] ReHLDS API Can only run on Half-Life Dedicated Server", []⟩

theorem listenMessage_not_complete : ¬ listenMessage.IsComplete := by
  intro h
  exact nomatch (show some [Conversion.str] = some [] from h)

/-- **What one input prints** is complete, unless it attaches the plugin on a server that is not
dedicated. -/
theorem SessionInput.console_exec {input : SessionInput} {s s' : Session}
    (hi : input.exec s = .ok s') : ∃ new, s'.plugin.console = s.plugin.console ++ new ∧
      ((∀ m ∈ new, m.IsComplete) ↔ input.attachesToListen = false) := by
  cases input with
  | metamod c =>
    obtain ⟨plugin, hc, hi⟩ := bind_ok_iff.mp hi
    obtain rfl := Except.ok.inj hi
    cases c with
    | attach probes =>
      obtain ⟨⟨a, p'⟩, hrun, hc⟩ := bind_ok_iff.mp hc
      obtain rfl := Except.ok.inj hc
      cases hdedicated : probes.rehlds.isDedicatedServer with
      | true =>
        obtain ⟨new, hnew, hcomplete⟩ := metaAttach_complete hdedicated _ _ _ hrun
        exact ⟨new, hnew, iff_of_true hcomplete (by simp [attachesToListen, hdedicated])⟩
      | false =>
        -- the one message without its argument, and those of the other initialisation
        have hlisten : (reapiInit probes.rehlds).run s.plugin =
            .ok (false, { s.plugin with console := s.plugin.console ++ [listenMessage] }) := by
          unfold reapiInit
          rw [hdedicated]
          rfl
        rw [metaAttach, StateT.run_bind, hlisten, ok_bind] at hrun
        obtain ⟨new, hnew, -⟩ :=
          Writes.bind (regameDLLInit_complete probes.regame) (fun _ => .pure (1 : ℤ)) _ _ _ hrun
        refine ⟨listenMessage :: new, hnew.trans (by simp), iff_of_false ?_ ?_⟩
        · exact fun hall => listenMessage_not_complete (hall _ List.mem_cons_self)
        · simp [attachesToListen, hdedicated]
    | detach =>
      obtain ⟨⟨a, p'⟩, hrun, hc⟩ := bind_ok_iff.mp hc
      obtain rfl := Except.ok.inj hc
      obtain ⟨new, hnew, hcomplete⟩ := metaDetach_complete _ _ _ hrun
      exact ⟨new, hnew, iff_of_true hcomplete rfl⟩
  | install i =>
    obtain ⟨⟨gameRules, plugin⟩, hrun, hi⟩ := bind_ok_iff.mp hi
    obtain rfl := Except.ok.inj hi
    obtain ⟨new, hnew, hcomplete⟩ := installGameRules_complete i s.gameRules _ _ _ hrun
    exact ⟨new, hnew, iff_of_true hcomplete rfl⟩

/-- **The console of a session** has complete messages only, exactly when the plugin has been
attached on dedicated servers only. -/
theorem console_complete_iff {r : Registries} {inputs : List SessionInput} {s : Session}
    (h : run SessionInput.exec inputs (.initial r) = .ok s) :
    (∀ m ∈ s.plugin.console, m.IsComplete) ↔
      ∀ input ∈ inputs, input.attachesToListen = false := by
  refine run_induction (P := fun inputs s => (∀ m ∈ s.plugin.console, m.IsComplete) ↔
    ∀ input ∈ inputs, input.attachesToListen = false) ?_ ?_ h
  · exact iff_of_true (fun _ hm => absurd hm List.not_mem_nil)
      fun _ hi => absurd hi List.not_mem_nil
  · intro p input t t' _ _ ih hi
    obtain ⟨new, hnew, hcomplete⟩ := SessionInput.console_exec hi
    rw [hnew, List.forall_mem_append, List.forall_mem_append, ih, hcomplete,
      List.forall_mem_singleton]

/-- An attach on a dedicated server, and one on a server that is not. -/
theorem console_complete_iff_attach :
    (∃ s, run SessionInput.exec [.metamod (.attach goodProbes)] (.initial noCallbacks) = .ok s ∧
      ∀ m ∈ s.plugin.console, m.IsComplete) ∧
    ∃ s, run SessionInput.exec [.metamod (.attach listenProbes)] (.initial noCallbacks) = .ok s ∧
      ¬ ∀ m ∈ s.plugin.console, m.IsComplete := by
  obtain ⟨s, hs⟩ : ∃ s, run SessionInput.exec [.metamod (.attach goodProbes)]
      (.initial noCallbacks) = .ok s := ⟨_, rfl⟩
  obtain ⟨t, ht⟩ : ∃ t, run SessionInput.exec [.metamod (.attach listenProbes)]
      (.initial noCallbacks) = .ok t := ⟨_, rfl⟩
  exact ⟨⟨s, hs, (console_complete_iff hs).mpr (by decide)⟩,
    t, ht, (console_complete_iff ht).not.mpr (by decide)⟩

end StatsX
