import Mathlib.Tactic.IntervalCases
import StatsX.Lib.Run
import StatsX.Model.Plugin

/-!
# Attaching and detaching

The plugin registers a hook at the end of an initialisation that succeeds, and removes all its
hooks when it is detached, through pointers that an initialisation sets on its way. The pointers
stay set after a detach. A detach is therefore safe as soon as one attach before it has set both
pointers, and the first detach comes right after the first attach.

## Main definitions

* `RehldsProbes.succeeds`, `RegameProbes.succeeds`: the probes with which an initialisation succeeds
* `Alternates`: Metamod attaches what is not attached and detaches what is
* `Sound`: no call through a null pointer, and the registries hold what they should

## Main results

* `reapiInit_run`, `regameDLLInit_run`: what an initialisation does, for all probes
* `sound_iff`: attaching and detaching is sound exactly when nothing is detached or the first attach
  sets both pointers
-/

namespace StatsX

/-! ## Initialisations -/

/-- The versions of an interface are those that the plugin asks for. -/
def Api.IsSupported (api : Api) (major minor : ℤ) : Prop :=
  api.majorVersion = major ∧ minor ≤ api.minorVersion

instance (api : Api) (major minor : ℤ) : Decidable (api.IsSupported major minor) :=
  inferInstanceAs (Decidable (_ ∧ _))

/-- `ReAPI_Init` succeeds. -/
def RehldsProbes.succeeds (probes : RehldsProbes) : Bool :=
  probes.isDedicatedServer && probes.engineModule && probes.ifaceFactory &&
    probes.rehldsApi.any (·.IsSupported rehldsApiVersionMajor rehldsApiVersionMinor)

/-- `ReGameDLL_Init` sets the pointer to the hook chains. -/
def RegameProbes.setsPointer (probes : RegameProbes) : Bool :=
  probes.szGameDLLModule && probes.gameModule && probes.ifaceFactory &&
    probes.reGameApi.any (·.IsSupported regamedllApiVersionMajor regamedllApiVersionMinor)

/-- `ReGameDLL_Init` succeeds. -/
def RegameProbes.succeeds (probes : RegameProbes) : Bool := probes.setsPointer && probes.csEntity

/-- The registries with the plugin's functions added in some of the hook chains. -/
def registered (chains : List HookChain) (r : Registries) : Registries :=
  fun chain => if chain ∈ chains then r chain ++ [.own chain] else r chain

/-- The registries with the plugin's functions removed from some of the hook chains. -/
def unregistered (chains : List HookChain) (r : Registries) : Registries :=
  fun chain => if chain ∈ chains then (r chain).erase (.own chain) else r chain

theorem registered_cons {chain : HookChain} {chains : List HookChain} (h : chain ∉ chains)
    (r : Registries) : registered chains (Function.update r chain (r chain ++ [.own chain])) =
      registered (chain :: chains) r := by
  funext chain'
  by_cases hc : chain' = chain
  · subst hc
    simp [registered, h]
  · simp [registered, hc]

theorem unregistered_cons {chain : HookChain} {chains : List HookChain} (h : chain ∉ chains)
    (r : Registries) :
    unregistered chains (Function.update r chain ((r chain).erase (.own chain))) =
      unregistered (chain :: chains) r := by
  funext chain'
  by_cases hc : chain' = chain
  · subst hc
    simp [unregistered, h]
  · simp [unregistered, hc]

@[simp] theorem registered_nil (r : Registries) : registered [] r = r := by
  funext chain
  simp [registered]

@[simp] theorem unregistered_nil (r : Registries) : unregistered [] r = r := by
  funext chain
  simp [unregistered]

/-- The messages about a major version change the console alone. -/
theorem logMajorMismatch_run (mismatch update : String) (expected real : ℤ) (p : Plugin) :
    ∃ console, (logMajorMismatch mismatch update expected real).run p =
      .ok ((), { p with console := console }) := by
  unfold logMajorMismatch
  by_cases hlt : real < expected
  · rw [if_pos hlt]
    exact ⟨_, rfl⟩
  rw [if_neg hlt]
  by_cases hgt : expected < real
  · rw [if_pos hgt]
    exact ⟨_, rfl⟩
  · rw [if_neg hgt]
    exact ⟨_, rfl⟩

/-- **What `ReAPI_Init` does**: it sets the pointer and registers the hook when it succeeds, and
neither when it fails. -/
theorem reapiInit_run (probes : RehldsProbes) (p : Plugin) : ∃ p',
    (reapiInit probes).run p = .ok (probes.succeeds, p') ∧
      p'.rehldsHookchains = (if probes.succeeds then some () else p.rehldsHookchains) ∧
      p'.reGameHookchains = p.reGameHookchains ∧
      p'.registries = if probes.succeeds then registered [.svDropClient] p.registries
        else p.registries := by
  obtain ⟨dedicated, module, factory, api, retCode⟩ := probes
  -- one exit after the other, and the end
  cases dedicated
  · exact ⟨_, rfl, rfl, rfl, rfl⟩
  cases module
  · exact ⟨_, rfl, rfl, rfl, rfl⟩
  cases factory
  · exact ⟨_, rfl, rfl, rfl, rfl⟩
  rcases api with _ | api
  · exact ⟨_, rfl, rfl, rfl, rfl⟩
  by_cases hmajor : api.majorVersion = rehldsApiVersionMajor
  · by_cases hminor : api.minorVersion < rehldsApiVersionMinor
    · simp [reapiInit, RehldsProbes.succeeds, Api.IsSupported, hmajor, hminor, logConsole]
    · have hupdate := registered_cons (List.not_mem_nil (a := HookChain.svDropClient)) p.registries
      rw [registered_nil] at hupdate
      simp [reapiInit, RehldsProbes.succeeds, Api.IsSupported, hmajor, hminor, not_lt.mp hminor,
        logConsole, registerHook, followPointer, hupdate]
  · -- whatever the messages say, nothing is set or registered
    obtain ⟨console, hlog⟩ := logMajorMismatch_run
      "[%s] ReHLDS API major version mismatch; expected %d, real %d"
      "[%s] Please update the ReHLDS up to a major version API >= %d"
      rehldsApiVersionMajor api.majorVersion { p with rehldsApi := some api }
    simp [reapiInit, RehldsProbes.succeeds, Api.IsSupported, hmajor, hlog]

/-- Statements on the hook chains of the game, once the pointer is set. -/
theorem forM_regame (op : HookChain → PluginM Unit) (update : HookChain → Registries → Registries)
    (hop : ∀ chain p, (op chain).run p =
      .ok ((), { p with registries := update chain p.registries }))
    (chains : List HookChain) {p : Plugin} (hp : p.reGameHookchains = some ()) :
    (forM chains fun chain => do
      followPointer (← get).reGameHookchains
      op chain : PluginM Unit).run p =
      .ok ((), { p with
        registries := chains.foldl (fun r chain => update chain r) p.registries }) := by
  induction chains generalizing p with
  | nil => rfl
  | cons chain chains ih =>
    obtain ⟨_, _, _, _, _, _⟩ := p
    cases hp
    simp only [List.forM_cons, StateT.run_bind, StateT.run_get, followPointer,
      StateT.run_pure, hop, ok_bind, pure_eq_ok]
    exact ih rfl

theorem foldl_registerHook {chains : List HookChain} (hchains : chains.Nodup) (r : Registries) :
    chains.foldl (fun r chain => Function.update r chain (r chain ++ [.own chain])) r =
      registered chains r := by
  induction chains generalizing r with
  | nil => simp
  | cons chain chains ih =>
    obtain ⟨hchain, hchains⟩ := List.nodup_cons.mp hchains
    rw [List.foldl_cons, ih hchains, registered_cons hchain]

theorem foldl_unregisterHook {chains : List HookChain} (hchains : chains.Nodup) (r : Registries) :
    chains.foldl (fun r chain => Function.update r chain ((r chain).erase (.own chain))) r =
      unregistered chains r := by
  induction chains generalizing r with
  | nil => simp
  | cons chain chains ih =>
    obtain ⟨hchain, hchains⟩ := List.nodup_cons.mp hchains
    rw [List.foldl_cons, ih hchains, unregistered_cons hchain]

theorem nodup_regameChains : regameChains.Nodup := by decide

theorem forM_registerHook {p : Plugin} (hp : p.reGameHookchains = some ()) :
    (forM regameChains fun chain => do
      followPointer (← get).reGameHookchains
      registerHook chain : PluginM Unit).run p =
      .ok ((), { p with registries := registered regameChains p.registries }) := by
  rw [forM_regame registerHook (fun chain r => Function.update r chain (r chain ++ [.own chain]))
    (fun _ _ => rfl) regameChains hp, foldl_registerHook nodup_regameChains]

theorem forM_unregisterHook {p : Plugin} (hp : p.reGameHookchains = some ()) :
    (forM regameChains fun chain => do
      followPointer (← get).reGameHookchains
      unregisterHook chain : PluginM Unit).run p =
      .ok ((), { p with registries := unregistered regameChains p.registries }) := by
  rw [forM_regame unregisterHook
    (fun chain r => Function.update r chain ((r chain).erase (.own chain)))
    (fun _ _ => rfl) regameChains hp, foldl_unregisterHook nodup_regameChains]

/-- **What `ReGameDLL_Init` does**: it sets the pointer when the versions fit, and registers the
hooks when it succeeds. -/
theorem regameDLLInit_run (probes : RegameProbes) (p : Plugin) : ∃ p',
    (regameDLLInit probes).run p = .ok (probes.succeeds, p') ∧
      p'.rehldsHookchains = p.rehldsHookchains ∧
      p'.reGameHookchains = (if probes.setsPointer then some () else p.reGameHookchains) ∧
      p'.registries = if probes.succeeds then registered regameChains p.registries
        else p.registries := by
  obtain ⟨path, module, factory, api, retCode, csEntity⟩ := probes
  cases path
  · exact ⟨_, rfl, rfl, rfl, rfl⟩
  cases module
  · exact ⟨_, rfl, rfl, rfl, rfl⟩
  cases factory
  · exact ⟨_, rfl, rfl, rfl, rfl⟩
  rcases api with _ | api
  · exact ⟨_, rfl, rfl, rfl, rfl⟩
  by_cases hmajor : api.majorVersion = regamedllApiVersionMajor
  · by_cases hminor : api.minorVersion < regamedllApiVersionMinor
    · simp [regameDLLInit, RegameProbes.succeeds, RegameProbes.setsPointer, Api.IsSupported, hmajor,
        hminor, logConsole]
    · cases csEntity
      · simp [regameDLLInit, RegameProbes.succeeds, RegameProbes.setsPointer, Api.IsSupported,
          hmajor, hminor, not_lt.mp hminor, logConsole]
      · simp only [regameDLLInit, RegameProbes.succeeds, RegameProbes.setsPointer]
        simp [Api.IsSupported, hmajor, hminor, not_lt.mp hminor, logConsole, forM_registerHook]
  · obtain ⟨console, hlog⟩ := logMajorMismatch_run
      "[%s] ReGameDLL API major version mismatch; expected %d, real %d"
      "[%s] Please update the ReGameDLL up to a major version API >= %d"
      regamedllApiVersionMajor api.majorVersion { p with reGameApi := some api }
    simp [regameDLLInit, RegameProbes.succeeds, RegameProbes.setsPointer, Api.IsSupported, hmajor,
      hlog]

/-! ## One call -/

/-- The initialisation that registers in a hook chain succeeds. -/
def Probes.succeedsFor (probes : Probes) (chain : HookChain) : Bool :=
  if chain = .svDropClient then probes.rehlds.succeeds else probes.regame.succeeds

/-- The attach sets both pointers. -/
def Probes.setsPointers (probes : Probes) : Bool :=
  probes.rehlds.succeeds && probes.regame.setsPointer

/-- How often the plugin's function is registered in a hook chain. -/
def Plugin.registrations (p : Plugin) (chain : HookChain) : ℕ :=
  (p.registries chain).count (.own chain)

/-- Both pointers to hook chains are set. -/
def Plugin.hasPointers (p : Plugin) : Prop :=
  p.rehldsHookchains = some () ∧ p.reGameHookchains = some ()

theorem mem_regameChains_iff {chain : HookChain} :
    chain ∈ regameChains ↔ chain ≠ .svDropClient := by
  cases chain <;> decide

/-- **What an attach does**: it registers the hooks of the initialisations that succeed, and may set
pointers. -/
theorem exec_attach (probes : Probes) (p : Plugin) : ∃ p',
    (MetaCall.attach probes).exec p = .ok p' ∧
      (∀ chain, p'.registrations chain =
        p.registrations chain + if probes.succeedsFor chain then 1 else 0) ∧
      (p.hasPointers ∨ probes.setsPointers = true → p'.hasPointers) ∧
      (p'.hasPointers → p.rehldsHookchains = some () ∨ probes.rehlds.succeeds = true) ∧
      (p'.hasPointers → p.reGameHookchains = some () ∨ probes.regame.setsPointer = true) := by
  obtain ⟨p₁, hrun₁, hrehlds₁, hregame₁, hregistries₁⟩ := reapiInit_run probes.rehlds p
  obtain ⟨p₂, hrun₂, hrehlds₂, hregame₂, hregistries₂⟩ := regameDLLInit_run probes.regame p₁
  refine ⟨p₂, ?_, fun chain => ?_, ?_, ?_, ?_⟩
  · simp only [MetaCall.exec, metaAttach, StateT.run_bind, hrun₁, hrun₂, ok_bind, StateT.run_pure,
      pure_eq_ok]
  · unfold Plugin.registrations Probes.succeedsFor
    rw [hregistries₂, hregistries₁]
    -- the hook chain is the engine's or one of the game's
    by_cases hchain : chain = .svDropClient
    · subst hchain
      have : HookChain.svDropClient ∉ regameChains := by decide
      cases probes.rehlds.succeeds <;> cases probes.regame.succeeds <;> simp [registered, this]
    · have := mem_regameChains_iff.mpr hchain
      cases probes.rehlds.succeeds <;> cases probes.regame.succeeds <;>
        simp [registered, this, hchain]
  · unfold Plugin.hasPointers Probes.setsPointers
    rw [hrehlds₂, hrehlds₁, hregame₂, hregame₁]
    cases probes.rehlds.succeeds <;> cases probes.regame.setsPointer <;> simp +contextual
  · unfold Plugin.hasPointers
    rw [hrehlds₂, hrehlds₁]
    cases probes.rehlds.succeeds <;> simp +contextual
  · unfold Plugin.hasPointers
    rw [hregame₂, hregame₁]
    cases probes.regame.setsPointer <;> simp +contextual

/-- **What a detach does**, once both pointers are set: it removes all the hooks. -/
theorem exec_detach {p : Plugin} (h : p.hasPointers) : ∃ p', MetaCall.detach.exec p = .ok p' ∧
    (∀ chain, p'.registrations chain = p.registrations chain - 1) ∧ p'.hasPointers := by
  obtain ⟨api, rehlds, api', regame, registries, console⟩ := p
  obtain ⟨rfl, rfl⟩ := h
  have hupdate := unregistered_cons (List.not_mem_nil (a := HookChain.svDropClient)) registries
  rw [unregistered_nil] at hupdate
  set engine := unregistered [.svDropClient] registries with hengine
  -- the engine's hook first, then those of the game
  have hrehlds : reapiStop.run ⟨api, some (), api', some (), registries, console⟩ =
      .ok (true, ⟨api, some (), api', some (), engine, console⟩) := by
    rw [← hupdate]
    rfl
  have hregame : regameDLLStop.run ⟨api, some (), api', some (), engine, console⟩ =
      .ok (true, ⟨api, some (), api', some (), unregistered regameChains engine, console⟩) := by
    simp [regameDLLStop, forM_unregisterHook]
  refine ⟨⟨api, some (), api', some (), unregistered regameChains engine, console⟩,
    ?_, ?_, rfl, rfl⟩
  · simp only [MetaCall.exec, metaDetach, StateT.run_bind, hrehlds, hregame, ok_bind,
      StateT.run_pure, pure_eq_ok]
  · intro chain
    unfold Plugin.registrations
    by_cases hchain : chain = .svDropClient
    · subst hchain
      have : HookChain.svDropClient ∉ regameChains := by decide
      simp [hengine, unregistered, this]
    · have := mem_regameChains_iff.mpr hchain
      simp [hengine, unregistered, this, hchain]

/-- A detach without a pointer calls through it. -/
theorem exec_detach_error {p : Plugin} (h : ¬ p.hasPointers) :
    MetaCall.detach.exec p = .error .error := by
  obtain ⟨api, rehlds, api', regame, registries, console⟩ := p
  rcases rehlds with _ | ⟨⟨⟩⟩
  · rfl
  rcases regame with _ | ⟨⟨⟩⟩
  · rfl
  · exact absurd ⟨rfl, rfl⟩ h

/-- A detach that succeeds has found both pointers. -/
theorem hasPointers_of_detach {p p' : Plugin} (h : MetaCall.detach.exec p = .ok p') :
    p.hasPointers := by
  by_contra hnot
  rw [exec_detach_error hnot] at h
  cases h

/-! ## Runs -/

/-- The calls end with an attach. -/
def attachedAfter (calls : List MetaCall) : Bool :=
  match calls.getLast? with
  | some (.attach _) => true
  | _ => false

/-- **Metamod attaches what is not attached and detaches what is.** -/
def Alternates (calls : List MetaCall) : Prop :=
  ∀ l c, l ++ [c] <+: calls → (c = .detach ↔ attachedAfter l = true)

/-- How often the plugin should be registered in a hook chain: once while it is attached and the
initialisation succeeded, and not at all otherwise. -/
def expected (calls : List MetaCall) (chain : HookChain) : ℕ :=
  match calls.getLast? with
  | some (.attach probes) => if probes.succeedsFor chain then 1 else 0
  | _ => 0

@[simp] theorem expected_attach (calls : List MetaCall) (probes : Probes) (chain : HookChain) :
    expected (calls ++ [.attach probes]) chain = if probes.succeedsFor chain then 1 else 0 := by
  rw [expected, List.getLast?_concat]

@[simp] theorem expected_detach (calls : List MetaCall) (chain : HookChain) :
    expected (calls ++ [.detach]) chain = 0 := by
  rw [expected, List.getLast?_concat]

/-- **Attaching and detaching is sound**: no call goes through a null pointer, and after each call
the plugin is registered as it should be. -/
structure Sound (calls : List MetaCall) (r : Registries) : Prop where
  defined : ∃ p, run MetaCall.exec calls (.loaded r) = .ok p
  registrations : ∀ l p, l <+: calls → run MetaCall.exec l (.loaded r) = .ok p →
    ∀ chain, p.registrations chain = expected l chain

section

variable {r : Registries}

/-- **The registries hold what they should**, as long as no call has gone through a null pointer. -/
theorem registrations_of_run (hfree : ∀ chain, .own chain ∉ r chain) {calls : List MetaCall}
    (hcalls : Alternates calls) {p : Plugin} (h : run MetaCall.exec calls (.loaded r) = .ok p)
    (chain : HookChain) : p.registrations chain = expected calls chain := by
  refine run_induction (P := fun l p => p.registrations chain = expected l chain) ?_ ?_ h
  · exact List.count_eq_zero.mpr (hfree chain)
  intro l c p p' hl _ ih hc
  have hturn := hcalls l c hl
  cases c with
  | attach probes =>
    -- nothing is registered while the plugin is not attached
    obtain ⟨p₁, hexec, hregistrations, -⟩ := exec_attach probes p
    obtain rfl := Except.ok.inj (hc.symm.trans hexec)
    have hbefore : expected l chain = 0 := by
      unfold expected
      unfold attachedAfter at hturn
      split <;> simp_all
    rw [hregistrations, ih, hbefore, expected_attach, Nat.zero_add]
  | detach =>
    -- what is registered while it is attached is registered once
    obtain ⟨p₁, hexec, hregistrations, -⟩ := exec_detach (hasPointers_of_detach hc)
    obtain rfl := Except.ok.inj (hc.symm.trans hexec)
    have hbefore : expected l chain ≤ 1 := by
      unfold expected
      split
      · split_ifs <;> decide
      · decide
    rw [hregistrations, ih, expected_detach]
    omega

/-- Once an attach has set both pointers, they stay set. -/
theorem hasPointers_of_run {calls : List MetaCall} {probes : Probes}
    (hfirst : calls.head? = some (.attach probes)) (hsets : probes.setsPointers = true) {p : Plugin}
    (h : run MetaCall.exec calls (.loaded r) = .ok p) : p.hasPointers := by
  suffices h : calls ≠ [] → p.hasPointers by
    apply h
    rintro rfl
    simp at hfirst
  refine run_induction (P := fun l p => l ≠ [] → p.hasPointers) (absurd rfl) ?_ h
  intro l c p p' hl _ ih hc _
  cases c with
  | attach probes' =>
    obtain ⟨p₁, hexec, -, hpointers, -⟩ := exec_attach probes' p
    obtain rfl := Except.ok.inj (hc.symm.trans hexec)
    apply hpointers
    rcases l.eq_nil_or_concat with rfl | ⟨l', c', rfl⟩
    · -- the first attach sets the pointers itself
      obtain ⟨q, rfl⟩ := hl
      simp only [List.nil_append, List.singleton_append, List.head?_cons, Option.some.injEq,
        MetaCall.attach.injEq] at hfirst
      exact .inr (hfirst ▸ hsets)
    · exact .inl (ih (by simp))
  | detach =>
    obtain ⟨p₁, hexec, -, hpointers⟩ := exec_detach (hasPointers_of_detach hc)
    obtain rfl := Except.ok.inj (hc.symm.trans hexec)
    exact hpointers

/-- Calls with a detach start with an attach and a detach. -/
theorem Alternates.starts {calls : List MetaCall} (h : Alternates calls)
    (hdetach : .detach ∈ calls) :
    ∃ probes rest, calls = .attach probes :: .detach :: rest := by
  rcases calls with _ | ⟨c, _ | ⟨c', rest⟩⟩
  · simp at hdetach
  · -- a single call is an attach
    have := (h [] c (List.prefix_refl _)).mp (List.mem_singleton.mp hdetach).symm
    simp [attachedAfter] at this
  · have hfirst := h [] c ⟨c' :: rest, rfl⟩
    have hsecond := h [c] c' ⟨rest, rfl⟩
    cases c with
    | attach probes => exact ⟨probes, rest, by rw [hsecond.mpr rfl]⟩
    | detach => simp [attachedAfter] at hfirst

/-- The first attach has set both pointers, when the first detach succeeds. -/
theorem setsPointers_of_run {probes : Probes} {rest : List MetaCall} {p : Plugin}
    (h : run MetaCall.exec (.attach probes :: .detach :: rest) (.loaded r) = .ok p) :
    probes.setsPointers = true := by
  obtain ⟨p₁, hattach, -, -, hrehlds, hregame⟩ := exec_attach probes (.loaded r)
  rw [run_cons, hattach, ok_bind, run_cons, bind_ok_iff] at h
  obtain ⟨p₂, hdetach, -⟩ := h
  -- the detach has gone through both pointers, null until the attach
  have hpointers := hasPointers_of_detach hdetach
  have h₁ := (hrehlds hpointers).resolve_left (by simp [Plugin.loaded])
  have h₂ := (hregame hpointers).resolve_left (by simp [Plugin.loaded])
  rw [Probes.setsPointers, h₁, h₂]
  rfl

/-- A detach finds both pointers, when the first attach sets them. -/
theorem hasPointers_before_detach {calls l : List MetaCall} (hcalls : Alternates calls)
    (hl : l ++ [.detach] <+: calls) {probes : Probes} (hfirst : calls.head? = some (.attach probes))
    (hsets : probes.setsPointers = true) {p : Plugin}
    (hrun : run MetaCall.exec l (.loaded r) = .ok p) : p.hasPointers := by
  have hne : l ≠ [] := by
    rintro rfl
    have := (hcalls [] .detach hl).mp rfl
    simp [attachedAfter] at this
  have hhead : l.head? = some (.attach probes) := by
    obtain ⟨q, rfl⟩ := (List.prefix_append _ _).trans hl
    rwa [List.head?_append_of_ne_nil _ hne] at hfirst
  exact hasPointers_of_run hhead hsets hrun

/-- **Attaching and detaching is sound** exactly when nothing is detached or the first attach sets
both pointers: `ReAPI_Init` succeeds, and `ReGameDLL_Init` succeeds or fails at its last
interface only. -/
theorem sound_iff (hfree : ∀ chain, .own chain ∉ r chain) {calls : List MetaCall}
    (hcalls : Alternates calls) : Sound calls r ↔ .detach ∉ calls ∨
      ∃ probes, calls.head? = some (.attach probes) ∧ probes.setsPointers = true := by
  constructor
  · rintro ⟨⟨p, hp⟩, -⟩
    by_cases hdetach : .detach ∈ calls
    · obtain ⟨probes, rest, rfl⟩ := hcalls.starts hdetach
      exact .inr ⟨probes, rfl, setsPointers_of_run hp⟩
    · exact .inl hdetach
  · intro hsafe
    constructor
    · refine run_progress fun l c p hl hrun => ?_
      cases c with
      | attach probes =>
        obtain ⟨p', hexec, -⟩ := exec_attach probes p
        exact ⟨p', hexec⟩
      | detach =>
        rcases hsafe with hno | ⟨probes, hfirst, hsets⟩
        · exact absurd (hl.subset (by simp)) hno
        · have hpointers := hasPointers_before_detach hcalls hl hfirst hsets hrun
          obtain ⟨p', hexec, -⟩ := exec_detach hpointers
          exact ⟨p', hexec⟩
    · intro l p hl hp chain
      refine registrations_of_run hfree (fun l' c hl' => ?_) hp chain
      exact hcalls l' c (hl'.trans hl)

end

/-! ## A server that is not dedicated -/

/-- The probes on a dedicated server with the interfaces that the plugin asks for. -/
def goodProbes : Probes where
  rehlds := ⟨true, true, true, some ⟨3, 11⟩, 0⟩
  regame := ⟨true, true, true, some ⟨5, 21⟩, 0, true⟩

/-- The probes on a listen server. -/
def listenProbes : Probes :=
  { goodProbes with rehlds := { goodProbes.rehlds with isDedicatedServer := false } }

theorem alternates_attach_detach (probes : Probes) : Alternates [.attach probes, .detach] := by
  intro l c hl
  obtain ⟨i, hi, rfl, rfl⟩ := concat_prefix_iff.mp hl
  change i < 2 at hi
  interval_cases i <;> simp [attachedAfter]

/-- The registries without callbacks. -/
def noCallbacks : Registries := fun _ => []

/-- On a listen server the detach calls through the null pointer. -/
theorem listenServer_unsound : Alternates [.attach listenProbes, .detach] ∧
    ¬ Sound [.attach listenProbes, .detach] noCallbacks := by
  refine ⟨alternates_attach_detach _, ?_⟩
  rintro ⟨⟨p, hp⟩, -⟩
  cases hp

/-- Where all is found, an attach and a detach are sound. -/
theorem sound_good : Sound [.attach goodProbes, .detach] noCallbacks :=
  (sound_iff (fun _ => List.not_mem_nil) (alternates_attach_detach goodProbes)).mpr
    (.inr ⟨goodProbes, rfl, rfl⟩)

end StatsX
