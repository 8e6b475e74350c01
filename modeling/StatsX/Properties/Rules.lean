import StatsX.Lib.History
import StatsX.Model.Rules
import StatsX.Properties.Attach

/-!
# The rules that the plugin keeps

The plugin's function for `InstallGameRules` calls the interface of the game. It is registered only
while an attach is in force that has found the interface, however often Metamod attaches and
detaches the plugin and however these attaches fail: the call never goes through a null pointer. The
rules that the plugin keeps are those that the game has installed last at such a time.

## Main definitions

* `Session.Live`: what is registered is live
* `rulesAfter`: the rules that a session leaves the plugin with

## Main results

* `Session.Live.exec`: what one input keeps
* `installGameRules_of_session`: along a session, no install fails, and the rules that are kept
-/

namespace StatsX

/-! ## The interface of the game -/

/-- `ReGameDLL_Init` succeeds with an interface. -/
theorem isSome_reGameApi_of_regameDLLInit {probes : RegameProbes} {p p' : Plugin}
    (h : (regameDLLInit probes).run p = .ok (true, p')) : p'.reGameApi.isSome = true := by
  obtain ⟨path, module, factory, api, retCode, csEntity⟩ := probes
  -- every exit before the end fails
  cases path
  · cases h
  cases module
  · cases h
  cases factory
  · cases h
  rcases api with _ | api
  · cases h
  by_cases hmajor : api.majorVersion = regamedllApiVersionMajor
  · by_cases hminor : api.minorVersion < regamedllApiVersionMinor
    · simp [regameDLLInit, hmajor, hminor, logConsole] at h
    · cases csEntity
      · simp [regameDLLInit, hmajor, hminor, logConsole] at h
      · simp only [regameDLLInit] at h
        simp [hmajor, hminor, logConsole, forM_registerHook] at h
        rw [← h]
        rfl
  · obtain ⟨console, hlog⟩ := logMajorMismatch_run
      "[%s] ReGameDLL API major version mismatch; expected %d, real %d"
      "[%s] Please update the ReGameDLL up to a major version API >= %d"
      regamedllApiVersionMajor api.majorVersion { p with reGameApi := some api }
    simp [regameDLLInit, hmajor, hlog] at h

/-- An attach that registers the hooks of the game leaves the interface. -/
theorem isSome_reGameApi_of_attach {probes : Probes} {p p' : Plugin}
    (h : (MetaCall.attach probes).exec p = .ok p') (hsucceeds : probes.regame.succeeds = true) :
    p'.reGameApi.isSome = true := by
  obtain ⟨p₁, hrun₁, -⟩ := reapiInit_run probes.rehlds p
  obtain ⟨p₂, hrun₂, -⟩ := regameDLLInit_run probes.regame p₁
  simp only [MetaCall.exec, metaAttach, StateT.run_bind, hrun₁, hrun₂, ok_bind, StateT.run_pure,
    pure_eq_ok, Except.ok.injEq] at h
  rw [hsucceeds] at hrun₂
  rw [← h]
  exact isSome_reGameApi_of_regameDLLInit hrun₂

/-! ## One input -/

/-- **What is registered is live**: the registries hold what the calls of Metamod left there, and
the plugin has the interface of the game while it is registered for its rules. -/
structure Session.Live (calls : List MetaCall) (s : Session) : Prop where
  registrations : ∀ chain, s.plugin.registrations chain = expected calls chain
  reGameApi : 0 < expected calls .installGameRules → s.plugin.reGameApi.isSome = true

/-- A call of Metamod in its turn leaves the registries as they should be. -/
theorem registrations_of_exec {l : List MetaCall} {c : MetaCall} {p p' : Plugin}
    (hturn : c = .detach ↔ attachedAfter l = true)
    (hp : ∀ chain, p.registrations chain = expected l chain) (hc : c.exec p = .ok p')
    (chain : HookChain) : p'.registrations chain = expected (l ++ [c]) chain := by
  cases c with
  | attach probes =>
    obtain ⟨p₁, hexec, hregistrations, -⟩ := exec_attach probes p
    obtain rfl := Except.ok.inj (hc.symm.trans hexec)
    -- nothing is registered before it
    have hbefore : expected l chain = 0 := by
      unfold attachedAfter at hturn
      unfold expected
      split <;> simp_all
    rw [hregistrations, hp, hbefore, expected_attach, Nat.zero_add]
  | detach =>
    obtain ⟨p₁, hexec, hregistrations, -⟩ := exec_detach (hasPointers_of_detach hc)
    obtain rfl := Except.ok.inj (hc.symm.trans hexec)
    -- what is registered before it is registered once
    have hbefore : expected l chain ≤ 1 := by
      unfold expected
      split
      · split_ifs <;> decide
      · decide
    rw [hregistrations, hp, expected_detach]
    omega

/-- **The hook chain**, while the plugin is live in it: it keeps the rules if it is registered and
the version is known, and changes nothing else but the console. -/
theorem installThrough_run {p : Plugin} {callbacks : List Callback}
    (hlive : 0 < callbacks.count (.own .installGameRules) → p.reGameApi.isSome = true)
    (i : InstalledRules) (gameRules : Option ℕ) :
    ∃ console, (installThrough i callbacks gameRules).run p =
      .ok (if 0 < callbacks.count (.own .installGameRules) ∧ i.isKnown = true then i.gamerules
        else gameRules, { p with console := console }) := by
  induction callbacks with
  | nil => exact ⟨p.console, rfl⟩
  | cons callback next ih =>
    obtain ⟨console, hnext⟩ := ih fun hpos =>
      hlive (hpos.trans_le (List.count_le_count_cons))
    rw [installThrough, StateT.run_bind, hnext, ok_bind]
    by_cases hown : callback = .own .installGameRules
    · subst hown
      have hcount : 0 < (Callback.own .installGameRules :: next).count (.own .installGameRules) :=
        List.count_pos_iff.mpr List.mem_cons_self
      obtain ⟨api, hapi⟩ := Option.isSome_iff_exists.mp (hlive hcount)
      rw [if_pos rfl]
      cases hknown : i.isKnown with
      | true =>
        refine ⟨console, ?_⟩
        simp [regameInstallGameRules, followPointer, hapi, hknown]
      | false =>
        refine ⟨console ++ [⟨"[%s] Interface GameRules API version '%s' not found",
          [logtag, .str gamerulesApiInterfaceVersion]⟩], ?_⟩
        simp [regameInstallGameRules, followPointer, hapi, hknown, logConsole]
    · rw [if_neg hown, List.count_cons_of_ne hown]
      exact ⟨console, rfl⟩

/-- **An install** in a live session. -/
theorem Session.Live.install {calls : List MetaCall} {s : Session} (h : s.Live calls)
    (i : InstalledRules) : ∃ console, (SessionInput.install i).exec s =
      .ok ⟨{ s.plugin with console := console },
        if 0 < expected calls .installGameRules ∧ i.isKnown = true then i.gamerules
        else s.gameRules⟩ := by
  have hcount : (s.plugin.registries .installGameRules).count (.own .installGameRules) =
      expected calls .installGameRules := h.registrations .installGameRules
  obtain ⟨console, hrun⟩ := installThrough_run
    (fun hpos => h.reGameApi (hcount ▸ hpos)) i s.gameRules
  have hchain : (installGameRules i s.gameRules).run s.plugin =
      (installThrough i (s.plugin.registries .installGameRules) s.gameRules).run s.plugin := rfl
  rw [hcount, ← hchain] at hrun
  exact ⟨console, by rw [SessionInput.exec, hrun, ok_bind]⟩

/-- **One input** keeps what is registered live. -/
theorem Session.Live.exec {p : List SessionInput} {input : SessionInput} {s s' : Session}
    (h : s.Live (metaCalls p))
    (hturn : ∀ c ∈ input.metaCall?, (c = .detach ↔ attachedAfter (metaCalls p) = true))
    (hi : input.exec s = .ok s') : s'.Live (metaCalls (p ++ [input])) := by
  unfold metaCalls
  rw [List.filterMap_append]
  cases input with
  | metamod c =>
    obtain ⟨plugin, hc, hi⟩ := bind_ok_iff.mp hi
    obtain rfl := Except.ok.inj hi
    refine ⟨registrations_of_exec (hturn c rfl) h.registrations hc, ?_⟩
    show 0 < expected (metaCalls p ++ [c]) .installGameRules → _
    cases c with
    | attach probes =>
      rw [expected_attach]
      intro hpos
      refine isSome_reGameApi_of_attach hc ?_
      by_contra hfails
      simp [Probes.succeedsFor, hfails] at hpos
    | detach =>
      rw [expected_detach]
      exact fun hpos => absurd hpos (Nat.lt_irrefl 0)
  | install i =>
    obtain ⟨console, hrun⟩ := h.install i
    obtain rfl := Except.ok.inj (hrun.symm.trans hi)
    rw [List.filterMap_cons_none rfl, List.filterMap_nil, List.append_nil]
    exact ⟨h.registrations, h.reGameApi⟩

/-! ## Sessions -/

/-- The rules that an input has the plugin keep, after the inputs before it: those that the game
installs while the plugin is attached to it, if the version is known. -/
def SessionInput.rulesSet (p : List SessionInput) : SessionInput → Option (Option ℕ)
  | .metamod _ => none
  | .install i =>
    if 0 < expected (metaCalls p) .installGameRules ∧ i.isKnown = true then some i.gamerules
    else none

/-- The rules that a session leaves the plugin with. -/
def rulesAfter (inputs : List SessionInput) : Option ℕ :=
  (latest (fun m => m.2.rulesSet m.1) (moments inputs)).getD none

theorem rulesAfter_concat (p : List SessionInput) (input : SessionInput) :
    rulesAfter (p ++ [input]) = (input.rulesSet p).getD (rulesAfter p) := by
  rw [rulesAfter, moments_concat, latest_concat, rulesAfter]
  cases input.rulesSet p <;> rfl

/-- **Along a session** the game can install its rules at any time, without a call through a null
pointer, and the plugin has kept those that were installed last while it was attached. -/
theorem installGameRules_of_session {r : Registries} (hfree : ∀ chain, .own chain ∉ r chain)
    {inputs : List SessionInput} (hcalls : Alternates (metaCalls inputs)) {s : Session}
    (h : run SessionInput.exec inputs (.initial r) = .ok s) :
    s.gameRules = rulesAfter inputs ∧ ∀ i, ∃ s', (SessionInput.install i).exec s = .ok s' := by
  have hlive : s.Live (metaCalls inputs) ∧ s.gameRules = rulesAfter inputs := by
    refine run_induction (P := fun p s => s.Live (metaCalls p) ∧ s.gameRules = rulesAfter p)
      ⟨⟨fun chain => List.count_eq_zero.mpr (hfree chain),
        fun hpos => absurd hpos (Nat.lt_irrefl 0)⟩, rfl⟩ ?_ h
    rintro p input t t' hp - ⟨ih, hrules⟩ hi
    have hturn : ∀ c ∈ input.metaCall?, (c = .detach ↔ attachedAfter (metaCalls p) = true) := by
      intro c hc
      refine hcalls (metaCalls p) c ?_
      have hprefix := hp.filterMap SessionInput.metaCall?
      rwa [List.filterMap_append, List.filterMap_cons_some hc] at hprefix
    refine ⟨ih.exec hturn hi, ?_⟩
    rw [rulesAfter_concat]
    cases input with
    | metamod c =>
      obtain ⟨plugin, -, hi⟩ := bind_ok_iff.mp hi
      obtain rfl := Except.ok.inj hi
      exact hrules
    | install i =>
      obtain ⟨console, hrun⟩ := ih.install i
      obtain rfl := Except.ok.inj (hrun.symm.trans hi)
      show (if _ then i.gamerules else t.gameRules) =
        (if _ then some i.gamerules else none).getD (rulesAfter p)
      rw [hrules]
      split_ifs <;> rfl
  refine ⟨hlive.2, fun i => ?_⟩
  obtain ⟨console, hrun⟩ := hlive.1.install i
  exact ⟨_, hrun⟩

/-- The plugin is attached and detached, and the game installs rules before and after the detach. -/
def shortSession : List SessionInput :=
  [.metamod (.attach goodProbes), .install ⟨some 7, true⟩, .metamod .detach,
    .install ⟨some 8, true⟩]

/-- The plugin keeps the first rules, and more could be installed. -/
theorem installGameRules_of_session_short : ∃ s,
    run SessionInput.exec shortSession (.initial noCallbacks) = .ok s ∧ s.gameRules = some 7 ∧
      ∀ i, ∃ s', (SessionInput.install i).exec s = .ok s' := by
  have hcalls : Alternates (metaCalls shortSession) := alternates_attach_detach goodProbes
  obtain ⟨s, hs⟩ : ∃ s, run SessionInput.exec shortSession (.initial noCallbacks) = .ok s :=
    ⟨_, rfl⟩
  obtain ⟨hrules, hinstall⟩ :=
    installGameRules_of_session (fun _ => List.not_mem_nil) hcalls hs
  exact ⟨s, hs, hrules.trans (by decide), hinstall⟩

end StatsX
