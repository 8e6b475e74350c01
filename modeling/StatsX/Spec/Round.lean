import StatsX.Lib.Since
import StatsX.Lib.Tally
import StatsX.Spec.Exec

/-!
# The round as a log

What the members `m_Round*` are for: they summarise the calls since the last `RoundFreezeEnd`
that was recorded. A round is the list of these calls; its hits, its kills, its planter and its
defuser are read off the list, and the members are tallies of them.

## Main definitions

* `thisRound calls`: the calls since the last start of a round
* `hits`, `kills`, `planter`, `defuser`: what a list of calls recorded
* `killCount l j`: the number of kills of the player in slot `j`
* `RoundState.ofCalls l`: the round members for the round `l`

## Main results

* `turns_ofCalls`: a call takes the members for a round to the members for the longer round
* `round_of_run`: the members refine the log of the round, in every run
-/

namespace StatsX

/-! ## The log -/

/-- The call starts a round: `RoundFreezeEnd`, with the switch on. -/
def Call.startsRound (c : Call) : Bool :=
  match c.handler with
  | .roundFreezeEnd => c.isEnabled
  | _ => false

/-- The calls since the last start of a round. -/
def thisRound (calls : List Call) : List Call := since Call.startsRound calls

/-- The hit that a call records. -/
def Call.hit? (c : Call) : Option Hit :=
  match c.event? with
  | some (.hit h) => some h
  | _ => none

/-- The kill that a call records. -/
def Call.kill? (c : Call) : Option Kill :=
  match c.event? with
  | some (.kill e) => some e
  | _ => none

/-- The hits that the calls recorded. -/
def hits (calls : List Call) : List Hit := calls.filterMap Call.hit?

/-- The kills that the calls recorded. -/
def kills (calls : List Call) : List Kill := calls.filterMap Call.kill?

/-- The player who planted the bomb last, if no one has begun to plant since. -/
def planter (calls : List Call) : Option CBasePlayer :=
  calls.foldl (fun last c => match c.event? with
    | some (.planted player) => some player
    | some (.planting _) => none
    | _ => last) none

/-- The player who defused the bomb last. -/
def defuser (calls : List Call) : Option CBasePlayer :=
  calls.foldl (fun last c => match c.event? with
    | some (.defused player) => some player
    | _ => last) none

theorem hits_concat (l : List Call) (c : Call) : hits (l ++ [c]) = hits l ++ c.hit?.toList := by
  rw [hits, hits, List.filterMap_append]
  cases h : c.hit? <;> simp [h]

theorem kills_concat (l : List Call) (c : Call) :
    kills (l ++ [c]) = kills l ++ c.kill?.toList := by
  rw [kills, kills, List.filterMap_append]
  cases h : c.kill? <;> simp [h]

theorem mem_hits {l : List Call} {h : Hit} (hh : h ∈ hits l) :
    ∃ c ∈ l, c.event? = some (.hit h) := by
  obtain ⟨c, hc, hhit⟩ := List.mem_filterMap.mp hh
  unfold Call.hit? at hhit
  split at hhit
  · exact ⟨c, hc, by simp_all⟩
  · simp at hhit

theorem mem_kills {l : List Call} {e : Kill} (he : e ∈ kills l) :
    ∃ c ∈ l, c.event? = some (.kill e) := by
  obtain ⟨c, hc, hkill⟩ := List.mem_filterMap.mp he
  unfold Call.kill? at hkill
  split at hkill
  · exact ⟨c, hc, by simp_all⟩
  · simp at hkill

theorem planter_concat (l : List Call) (c : Call) :
    planter (l ++ [c]) = match c.event? with
      | some (.planted player) => some player
      | some (.planting _) => none
      | _ => planter l := by
  rw [planter, List.foldl_concat]
  rfl

theorem defuser_concat (l : List Call) (c : Call) :
    defuser (l ++ [c]) = match c.event? with
      | some (.defused player) => some player
      | _ => defuser l := by
  rw [defuser, List.foldl_concat]
  rfl

/-- The planter of a round has planted the bomb in it. -/
theorem planter_mem {l : List Call} {p : CBasePlayer} (h : planter l = some p) :
    ∃ c ∈ l, c.event? = some (.planted p) := by
  induction l using List.reverseRecOn with
  | nil => simp [planter] at h
  | append_singleton l c ih =>
    rw [planter_concat] at h
    split at h
    · exact ⟨c, by simp, by simp_all⟩
    · simp at h
    · obtain ⟨c', hc', he⟩ := ih h
      exact ⟨c', by simp [hc'], he⟩

/-- The defuser of a round has defused the bomb in it. -/
theorem defuser_mem {l : List Call} {p : CBasePlayer} (h : defuser l = some p) :
    ∃ c ∈ l, c.event? = some (.defused p) := by
  induction l using List.reverseRecOn with
  | nil => simp [defuser] at h
  | append_singleton l c ih =>
    rw [defuser_concat] at h
    split at h
    · exact ⟨c, by simp, by simp_all⟩
    · obtain ⟨c', hc', he⟩ := ih h
      exact ⟨c', by simp [hc'], he⟩

theorem thisRound_concat (l : List Call) (c : Call) :
    thisRound (l ++ [c]) = if c.startsRound then [] else thisRound l ++ [c] :=
  since_concat

theorem Call.startsRound_iff {c : Call} : c.startsRound = true ↔ c.event? = some .start := by
  constructor
  · intro h
    unfold Call.startsRound at h
    split at h
    · rename_i hc
      simp [Call.event?, h, hc]
    · simp at h
  · intro h
    have hhandler : c.handler = .roundFreezeEnd := Call.comesFrom_of_event? h
    rw [Call.startsRound, hhandler]
    exact Call.isEnabled_of_event? h

/-- The number of kills of the player in slot `j` in the calls `l`. -/
def killCount (l : List Call) (j : Slot) : ℕ := (kills l).countP (·.killer.slot = j)

/-- The number of kills of the player in slot `j` that a call records, none or one. -/
def Call.killsBy (c : Call) (j : Slot) : ℕ :=
  c.kill?.elim 0 fun e => if e.killer.slot = j then 1 else 0

theorem killCount_concat (l : List Call) (c : Call) (j : Slot) :
    killCount (l ++ [c]) j = killCount l j + c.killsBy j := by
  rw [killCount, killCount, kills_concat, List.countP_append, Call.killsBy]
  cases c.kill? with
  | none => rfl
  | some e => simp [List.countP_singleton]

/-! ## The members -/

/-- The key of a hit in `m_RoundDamage`. -/
def Hit.pair (h : Hit) : Slot × Slot := (h.attacker.slot, h.victim.slot)

/-- The key of a hit in `m_RoundDamageSelf`. -/
def Hit.dealer (h : Hit) : Slot := h.attacker.slot

/-- The key of a hit in `m_RoundDamageTeam`. -/
def Hit.side (h : Hit) : TeamIndex := h.attacker.team.toIndex

/-- The key of a kill in `m_RoundFrags`. -/
def Kill.dealer (e : Kill) : Slot := e.killer.slot

/-- **The round members for the round `l`.** No call sets `roundVersus`. -/
def RoundState.ofCalls (l : List Call) : RoundState where
  roundDamage := fun a v => tally Hit.pair Hit.amount (hits l) (a, v)
  roundDamageSelf := tally Hit.dealer Hit.amount (hits l)
  roundDamageTeam := tally Hit.side Hit.amount (hits l)
  roundFrags := tally Kill.dealer (fun _ => 1) (kills l)
  roundVersus := fun _ => 0
  roundBombPlanter := (planter l).elim (-1) CBasePlayer.entindex
  roundBombDefuser := (defuser l).elim (-1) CBasePlayer.entindex

@[simp] theorem RoundState.ofCalls_nil : RoundState.ofCalls [] = .initial := rfl

/-- The counter of kills is the number of kills, as a 32-bit integer. -/
theorem roundFrags_ofCalls (l : List Call) (j : Slot) :
    (RoundState.ofCalls l).roundFrags j = BitVec.ofNat 32 (killCount l j) :=
  tally_one Kill.dealer (kills l) j

/-- **A call takes the members for a round to the members for the longer round.** -/
theorem turns_ofCalls (l : List Call) (c : Call) :
    c.turns (.ofCalls (thisRound l)) = .ofCalls (thisRound (l ++ [c])) := by
  rw [thisRound_concat]
  by_cases hstart : c.startsRound
  · rw [if_pos hstart, Call.turns, Call.startsRound_iff.mp hstart]
    rfl
  rw [if_neg hstart]
  have hne : c.event? ≠ some .start := fun h => hstart (Call.startsRound_iff.mpr h)
  simp only [Call.turns, RoundState.ofCalls, hits_concat, kills_concat, planter_concat,
    defuser_concat, Call.hit?, Call.kill?]
  rcases he : c.event? with _ | e
  · simp
  -- a hit and a kill join their logs, and each member is the tally of the longer log
  cases e with
  | hit h =>
    refine RoundState.ext (funext fun a => funext fun v => ?_) (funext fun a => ?_)
      (funext fun t => ?_) ?_ rfl rfl rfl
    · simp [Event.turns, tally_concat, Hit.pair, eq_comm]
    · simp [Event.turns, tally_concat, Hit.dealer, eq_comm]
    · simp [Event.turns, tally_concat, Hit.side, eq_comm]
    · simp [Event.turns]
  | kill e =>
    refine RoundState.ext ?_ ?_ ?_ (funext fun k => ?_) rfl rfl rfl
    · simp [Event.turns]
    · simp [Event.turns]
    · simp [Event.turns]
    · simp [Event.turns, tally_concat, Kill.dealer, eq_comm]
  | start => exact absurd he hne
  | _ => simp [Event.turns]

/-- **The members refine the log of the round**, in every run that starts with a round. -/
theorem round_of_run {calls : List Call} {s s' : CStats} (start : s.toRoundState = .initial)
    (h : run Call.exec calls s = .ok s') : s'.toRoundState = .ofCalls (thisRound calls) := by
  refine run_induction (P := fun l t => t.toRoundState = .ofCalls (thisRound l)) start ?_ h
  intro l c t t' _ _ ih hc
  rw [(Call.exec_ok hc).round, ih, turns_ofCalls]

theorem round_of_reaches {calls : List Call} {s : CStats} (h : Reaches calls s) :
    s.toRoundState = .ofCalls (thisRound calls) :=
  round_of_run rfl h

/-- The start of a round overwrites the round members and leaves the records. -/
theorem Call.exec_startsRound {b : Call} (hstart : b.startsRound = true) (s : CStats) :
    b.exec s = .ok { RoundState.initial with data := s.data } := by
  obtain ⟨g, handler⟩ := b
  cases handler <;> simp only [startsRound, Bool.false_eq_true] at hstart
  simp only [exec, Handler.body, CStats.roundFreezeEnd, hstart, if_true]
  rfl

/-- A run after the start of a round starts with the round. -/
theorem run_of_startsRound {b : Call} (hstart : b.startsRound = true) {calls : List Call}
    {s₀ s : CStats} (h : run Call.exec (b :: calls) s₀ = .ok s) :
    ∃ s₁ : CStats, s₁.toRoundState = .initial ∧ s₁.data = s₀.data ∧
      run Call.exec calls s₁ = .ok s := by
  rw [run_cons, Call.exec_startsRound hstart, ok_bind] at h
  exact ⟨{ RoundState.initial with data := s₀.data }, rfl, rfl, h⟩

end StatsX
