import Mathlib.Tactic.IntervalCases
import StatsX.Lib.Matching
import StatsX.Lib.Word
import StatsX.Model.Hooks
import StatsX.Spec.Ledger

/-!
# The life of a bomb

A bomb is planted and may explode, a defuse is started and may end; each step is counted in the
record of a player. Only the last planter of the round is known when a bomb explodes, and only by
the slot: an explosion is counted for whoever is there. The counts follow the bombs as long as the
game keeps this planter apart from all others, and as the two ends of each step are counted in the
same record.

## Main definitions

* `MarkedRun`: a run of hook calls that says which bomb, or which defuse, each of them is about
* `Lawful`: what the game makes of bombs and defuses
* `FollowsBombs`: no record counts more explosions than plants, nor a step more often than its
  beginning
* `Tidy`: the two ends of each step are counted in the same record

## Main results

* `bombStats_of_reaches`: the counts are numbers of marks since the last reset
* `followsBombs_of_tidy`: in a lawful and tidy run, the counts follow the bombs, and each explosion
  is counted for the player who planted the bomb
-/

namespace StatsX

/-! ## Runs of hooks, with the bombs they are about -/

/-- A recorded call with the bomb, or the attempt to defuse, that its hook is about. -/
abbrev Marked := Call × ℕ

/-- A run of hook calls, each with the bomb or the defuse it is about. The mark means nothing for
the other hooks. -/
inductive MarkedRun
  | done
  | call (hook : Hook) (mark : ℕ) (inner next : MarkedRun)

namespace MarkedRun

/-- The run without the marks. -/
def hooks : MarkedRun → HookRun
  | .done => .done
  | .call hook _ inner next => .call hook inner.hooks next.hooks

/-- The calls recorded in the run. What a hook records before and after `callNext` has its mark. -/
def log : MarkedRun → List Marked
  | .done => []
  | .call hook mark inner next =>
    hook.before.map (·, mark) ++ inner.log ++ hook.after.map (·, mark) ++ next.log

theorem log_map_fst (r : MarkedRun) : r.log.map Prod.fst = r.hooks.calls := by
  induction r with
  | done => rfl
  | call hook mark inner next ihInner ihNext =>
    simp [log, hooks, HookRun.calls, ihInner, ihNext, Function.comp_def]

end MarkedRun

/-- The marks of the handlers of a kind. -/
def marksOf (kind : Handler → Bool) (log : List Marked) : List ℕ :=
  (log.filter (kind ·.1.handler)).map Prod.snd

/-- The call at the end of a `PlantBomb` hook. -/
def Handler.isPlant : Handler → Bool
  | .plantBomb _ true => true
  | _ => false

def Handler.isExplosion : Handler → Bool
  | .explodeBomb => true
  | _ => false

def Handler.isDefuseEnd : Handler → Bool
  | .defuseBombEnd _ _ => true
  | _ => false

/-- **What the game does**: each `PlantBomb` plants a bomb of its own, a bomb explodes at most once
and after it has been planted, and a defuse ends at most once and for a player that started it. -/
structure Lawful (log : List Marked) : Prop where
  plants : (marksOf Handler.isPlant log).Nodup
  explosions : (marksOf Handler.isExplosion log).Nodup
  planted : ∀ p a, p ++ [a] <+: log → a.1.handler = .explodeBomb → a.2 ∈ marksOf Handler.isPlant p
  ends : (marksOf Handler.isDefuseEnd log).Nodup
  started : ∀ p a, p ++ [a] <+: log → ∀ player defused,
    a.1.handler = .defuseBombEnd (some player) defused →
      ∃ b ∈ p, b.2 = a.2 ∧ ∃ player', b.1.handler = .defuseBombStart (some player') ∧
        player'.entindex = player.entindex

/-! ## The counts -/

/-- The call counts a step of the kind `g` for the player in slot `j`. -/
def Call.counts (g : BombGroup) (j : Slot) (c : Call) : Bool :=
  match g, c.event? with
  | .planting, some (.planting player) => j = player.slot
  | .planted, some (.planted player) => j = player.slot
  | .defusing, some (.defusing player) => j = player.slot
  | .defused, some (.defused player) => j = player.slot
  | _, _ => false

/-- In the round `l`, the call counts an explosion for the player in slot `j`. -/
def Call.explodesFor (l : List Call) (j : Slot) (c : Call) : Bool :=
  match c.event? with
  | some .explosion => (planter l).any (j = ·.slot) && (c.server.playerAt j).isSome
  | _ => false

/-- After the calls `p`, the call counts a step of the kind `g` for the player in slot `j`. -/
def countsAfter (g : BombGroup) (j : Slot) (p : List Marked) (a : Marked) : Bool :=
  match g with
  | .exploded => a.1.explodesFor (thisRound (p.map Prod.fst)) j
  | g => a.1.counts g j

/-- The bombs, or the defuses, counted under `g` for the players in slot `j` since the record was
last reset. -/
def bombsCounted (g : BombGroup) (j : Slot) (log : List Marked) : List ℕ :=
  marks (·.1.resets j) Prod.snd (countsAfter g j) log

theorem planter_eq_iff {l : List Call} {j : Slot} :
    (j.val : ℤ) = (RoundState.ofCalls l).roundBombPlanter ↔ (planter l).any (j = ·.slot) := by
  unfold RoundState.ofCalls
  rcases planter l with _ | p
  · simp
  · simp only [Option.elim_some, Option.any_some, decide_eq_true_eq]
    rw [← p.slot_val, Int.natCast_inj, Fin.val_inj]

/-- What a call adds to the counts. -/
theorem posts_bombStats (g : BombGroup) (j : Slot) (p : List Marked) (a : Marked) :
    a.1.posts (.ofCalls (thisRound (p.map Prod.fst))) j (.bombStats g) =
      if countsAfter g j p a then 1 else 0 := by
  unfold Call.posts countsAfter Call.explodesFor Call.counts
  rcases a.1.event? with _ | e
  · cases g <;> rfl
  cases e with
  | settle e =>
    simp only [Option.elim_some, Event.posts, Settlement.posts]
    cases a.1.server.playerAt j <;> cases g <;> rfl
  | explosion => cases g <;> simp [Event.posts, planter_eq_iff]
  | planting player | planted player | defusing player | defused player =>
    cases g <;> simp [Event.posts]
  | _ => cases g <;> rfl

/-- **The counts are numbers of marks** since the last reset. -/
theorem bombStats_of_reaches {log : List Marked} {s : CStats} (h : Reaches (log.map Prod.fst) s)
    (g : BombGroup) (j : Slot) :
    (s.data j).bombStats g = BitVec.ofNat 32 (bombsCounted g j log).length := by
  -- from the end of the log, as a count depends on the calls before it
  induction log using List.reverseRecOn generalizing s with
  | nil =>
    obtain rfl := Except.ok.inj h
    rfl
  | append_singleton log a ih =>
    rw [List.map_append, List.map_singleton] at h
    obtain ⟨t, ht, hexec⟩ := reaches_concat_iff.mp h
    have hcell : (s.data j).bombStats g = _ := (Call.exec_ok hexec).cell j (.bombStats g)
    have hbefore : (t.data j).cell (.bombStats g) = _ := ih ht
    rw [hcell, hbefore, Call.zeroes_eq_resets rfl, round_of_reaches ht, posts_bombStats,
      bombsCounted, bombsCounted, marks_concat]
    cases a.1.resets j <;> cases countsAfter g j log a <;> simp [BitVec.ofNat_add]

/-! ## Tidy runs -/

/-- The calls `p` have counted a step of the kind `g` with the mark `m` for the player in slot `j`,
since the record was last reset. -/
def Recorded (g : BombGroup) (j : Slot) (p : List Marked) (m : ℕ) : Prop :=
  ∃ a ∈ since (·.1.resets j) p, a.1.counts g j = true ∧ a.2 = m

/-- **The two ends of a step are counted in the same record.** A plant that is counted has been
begun there, and so has the end of a defuse; when a bomb explodes while the slot of the last planter
of the round is taken, the plant of this bomb has been counted there. -/
def TidyStep (p : List Marked) (a : Marked) : Prop :=
  match a.1.event? with
  | some (.planted player) => Recorded .planting player.slot p a.2
  | some (.defused player) => Recorded .defusing player.slot p a.2
  | some .explosion => ∀ player ∈ planter (thisRound (p.map Prod.fst)),
      (a.1.server.playerAt player.slot).isSome → Recorded .planted player.slot p a.2
  | _ => True

/-- Each step of the run is tidy, and no record counts `2 ^ 31` beginnings. -/
structure Tidy (log : List Marked) : Prop where
  step : ∀ p a, p ++ [a] <+: log → TidyStep p a
  plantings_lt : ∀ p, p <+: log → ∀ j, (bombsCounted .planting j p).length < 2 ^ 31
  defusings_lt : ∀ p, p <+: log → ∀ j, (bombsCounted .defusing j p).length < 2 ^ 31

theorem Call.event?_of_counts {g : BombGroup} {j : Slot} {c : Call} (h : c.counts g j = true) :
    ∃ event player, c.event? = some event ∧ event.bombStep? = some (player, g) ∧
      player.slot = j := by
  unfold counts at h
  split at h
  case h_5 => simp at h
  all_goals
    rename_i player he
    exact ⟨_, player, he, rfl, (of_decide_eq_true h).symm⟩

/-- A plant that is counted. -/
theorem Call.planted_of_counts {j : Slot} {c : Call} (h : c.counts .planted j = true) :
    ∃ player, c.event? = some (.planted player) ∧ player.slot = j := by
  obtain ⟨event, player, he, hstep, hj⟩ := event?_of_counts h
  cases event <;> simp_all [Event.bombStep?]

/-- The end of a defuse that is counted. -/
theorem Call.defused_of_counts {j : Slot} {c : Call} (h : c.counts .defused j = true) :
    ∃ player, c.event? = some (.defused player) ∧ player.slot = j := by
  obtain ⟨event, player, he, hstep, hj⟩ := event?_of_counts h
  cases event <;> simp_all [Event.bombStep?]

theorem Call.event?_of_explodesFor {l : List Call} {j : Slot} {c : Call}
    (h : c.explodesFor l j = true) : c.event? = some .explosion ∧
      ∃ player, planter l = some player ∧ player.slot = j ∧ (c.server.playerAt j).isSome := by
  unfold explodesFor at h
  split at h
  · rename_i he
    obtain ⟨hplanter, hthere⟩ := Bool.and_eq_true_iff.mp h
    obtain ⟨player, hp, hj⟩ := (Option.any_eq_true _ _).mp hplanter
    exact ⟨he, player, hp, (of_decide_eq_true hj).symm, hthere⟩
  · simp at h

theorem mem_bombsCounted_iff {g : BombGroup} (hg : g ≠ .exploded) {j : Slot} {p : List Marked}
    {m : ℕ} : m ∈ bombsCounted g j p ↔ Recorded g j p m := by
  have hcounts : countsAfter g j = fun _ a => a.1.counts g j := by
    funext l a
    cases g <;> first | rfl | exact absurd rfl hg
  rw [bombsCounted, hcounts, marks_eq_since]
  · simp [Recorded, and_assoc]
  · intro a hreset
    have he := Call.event?_eq_none_of_resets hreset
    unfold Call.counts
    rw [he]
    cases g <;> rfl

/-- A call that counts under `g` comes from the handler for it. -/
def BombGroup.isHandler : BombGroup → Handler → Bool
  | .planted, h => h.isPlant
  | .exploded, h => h.isExplosion
  | .defused, h => h.isDefuseEnd
  | _, _ => true

theorem isHandler_of_countsAfter {g : BombGroup} {j : Slot} {p : List Marked} {a : Marked}
    (h : countsAfter g j p a = true) : g.isHandler a.1.handler = true ∧ a.1.resets j = false := by
  cases g with
  | exploded =>
    obtain ⟨he, -⟩ := Call.event?_of_explodesFor h
    have hfrom : a.1.handler = .explodeBomb := Call.comesFrom_of_event? he
    exact ⟨by rw [hfrom]; rfl, Call.resets_of_event? he j⟩
  | planting | defusing =>
    obtain ⟨event, player, he, -, -⟩ := Call.event?_of_counts h
    exact ⟨rfl, Call.resets_of_event? he j⟩
  | planted =>
    obtain ⟨player, he, -⟩ := Call.planted_of_counts h
    obtain ⟨pevOwner, hfrom, -⟩ := Call.comesFrom_of_event? he
    exact ⟨by rw [hfrom]; rfl, Call.resets_of_event? he j⟩
  | defused =>
    obtain ⟨player, he, -⟩ := Call.defused_of_counts h
    have hfrom : a.1.handler = .defuseBombEnd (some player) true := Call.comesFrom_of_event? he
    exact ⟨by rw [hfrom]; rfl, Call.resets_of_event? he j⟩

/-! ## The law -/

/-- **No record counts more explosions than plants**, nor more ends of a step than beginnings. -/
structure FollowsBombs (s : CStats) : Prop where
  exploded : ∀ j, ((s.data j).bombStats .exploded).toInt ≤ ((s.data j).bombStats .planted).toInt
  planted : ∀ j, ((s.data j).bombStats .planted).toInt ≤ ((s.data j).bombStats .planting).toInt
  defused : ∀ j, ((s.data j).bombStats .defused).toInt ≤ ((s.data j).bombStats .defusing).toInt

/-- In the calls `p`, the bomb `m` is planted by a player in slot `j` whose record has not been
reset since. -/
def PlantedBy (p : List Marked) (m : ℕ) (j : Slot) : Prop :=
  ∃ a ∈ since (·.1.resets j) p, a.2 = m ∧ ∃ pevOwner player,
    a.1.handler = .plantBomb pevOwner true ∧
      a.1.server.playerByIndexSafe pevOwner = some player ∧ player.slot = j

/-- No more ends are counted than beginnings, where each end is of a step begun in the same record
and no step ends twice. -/
theorem length_bombsCounted_le {log : List Marked} {g g' : BombGroup} {j : Slot}
    (hdistinct : (marksOf g.isHandler log).Nodup)
    (h : ∀ q a, q ++ [a] <+: log → countsAfter g j q a = true → a.2 ∈ bombsCounted g' j q)
    {p : List Marked} (hp : p <+: log) :
    (bombsCounted g j p).length ≤ (bombsCounted g' j p).length := by
  apply length_marks_le fun a => g.isHandler a.1.handler
  · intro q a ha
    exact (isHandler_of_countsAfter ha).1
  · exact hdistinct.sublist ((hp.sublist.filter _).map _)
  · intro q a hq ha
    exact ⟨(isHandler_of_countsAfter ha).2, h q a (hq.trans hp) ha⟩

/-- What a tidy step ends has been begun in the same record. -/
theorem Tidy.mem_bombsCounted {log : List Marked} (h : Tidy log) {g : BombGroup}
    {q : List Marked} {a : Marked} {j : Slot} (hq : q ++ [a] <+: log)
    (ha : countsAfter g j q a = true) :
    match g with
    | .planted => a.2 ∈ bombsCounted .planting j q
    | .exploded => a.2 ∈ bombsCounted .planted j q
    | .defused => a.2 ∈ bombsCounted .defusing j q
    | _ => True := by
  have hstep := h.step q a hq
  unfold TidyStep at hstep
  cases g with
  | planting | defusing => trivial
  | exploded =>
    obtain ⟨he, player, hplanter, rfl, hthere⟩ := Call.event?_of_explodesFor ha
    rw [he] at hstep
    exact (mem_bombsCounted_iff (by decide)).mpr (hstep player hplanter hthere)
  | planted =>
    obtain ⟨player, he, rfl⟩ := Call.planted_of_counts ha
    rw [he] at hstep
    exact (mem_bombsCounted_iff (by decide)).mpr hstep
  | defused =>
    obtain ⟨player, he, rfl⟩ := Call.defused_of_counts ha
    rw [he] at hstep
    exact (mem_bombsCounted_iff (by decide)).mpr hstep

section

variable {log : List Marked} (hlaw : Lawful log) (htidy : Tidy log) {p : List Marked}
  (hp : p <+: log) (j : Slot)
include hlaw htidy hp

theorem length_exploded_le :
    (bombsCounted .exploded j p).length ≤ (bombsCounted .planted j p).length :=
  length_bombsCounted_le (g := .exploded) hlaw.explosions
    (fun _ _ hq ha => htidy.mem_bombsCounted hq ha) hp

theorem length_planted_le :
    (bombsCounted .planted j p).length ≤ (bombsCounted .planting j p).length :=
  length_bombsCounted_le (g := .planted) hlaw.plants
    (fun _ _ hq ha => htidy.mem_bombsCounted hq ha) hp

theorem length_defused_le :
    (bombsCounted .defused j p).length ≤ (bombsCounted .defusing j p).length :=
  length_bombsCounted_le (g := .defused) hlaw.ends
    (fun _ _ hq ha => htidy.mem_bombsCounted hq ha) hp

/-- The counts of a tidy run, as integers. -/
theorem toInt_bombStats {s : CStats} (hs : Reaches (p.map Prod.fst) s) (g : BombGroup) :
    ((s.data j).bombStats g).toInt = (bombsCounted g j p).length := by
  have hexploded := length_exploded_le hlaw htidy hp j
  have hplanted := length_planted_le hlaw htidy hp j
  have hdefused := length_defused_le hlaw htidy hp j
  have hplanting := htidy.plantings_lt p hp j
  have hdefusing := htidy.defusings_lt p hp j
  rw [bombStats_of_reaches hs]
  apply toInt_ofNat_of_lt
  cases g <;> omega

/-- The counts follow the bombs in every state of a tidy run. -/
theorem followsBombs_of_reaches {s : CStats} (hs : Reaches (p.map Prod.fst) s) :
    FollowsBombs s := by
  constructor <;> intro j <;> rw [toInt_bombStats hlaw htidy hp j hs,
    toInt_bombStats hlaw htidy hp j hs, Int.ofNat_le]
  · exact length_exploded_le hlaw htidy hp j
  · exact length_planted_le hlaw htidy hp j
  · exact length_defused_le hlaw htidy hp j

end

/-- A count that has grown has not been reset, and the call counts. -/
theorem countsAfter_of_lt {g : BombGroup} {j : Slot} {p : List Marked} {a : Marked}
    (h : (bombsCounted g j p).length < (bombsCounted g j (p ++ [a])).length) :
    countsAfter g j p a = true := by
  rw [bombsCounted, bombsCounted, marks_concat] at h
  by_contra hcounts
  revert h
  cases a.1.resets j <;> simp [hcounts]

/-- A plant that is recorded has planted the bomb. -/
theorem Recorded.plantedBy {j : Slot} {p : List Marked} {m : ℕ} (h : Recorded .planted j p m) :
    PlantedBy p m j := by
  obtain ⟨b, hb, hcount, hmark⟩ := h
  obtain ⟨player, he, hj⟩ := Call.planted_of_counts hcount
  obtain ⟨pevOwner, hfrom, hplayer⟩ := Call.comesFrom_of_event? he
  exact ⟨b, hb, hmark, pevOwner, player, hfrom, hplayer, hj⟩

/-- **In a lawful and tidy run, the counts follow the bombs**, and each explosion is counted for the
player who planted the bomb. -/
theorem followsBombs_of_tidy (r : MarkedRun) (hlaw : Lawful r.log) (htidy : Tidy r.log) :
    (∀ p s, p <+: r.log → Reaches (p.map Prod.fst) s → FollowsBombs s) ∧
      ∀ p a t t', p ++ [a] <+: r.log → Reaches (p.map Prod.fst) t → a.1.exec t = .ok t' →
        ∀ j, ((t.data j).bombStats .exploded).toInt < ((t'.data j).bombStats .exploded).toInt →
          a.1.handler = .explodeBomb ∧ PlantedBy p a.2 j := by
  constructor
  · intro p s hp hs
    exact followsBombs_of_reaches hlaw htidy hp hs
  · intro p a t t' hp ht hexec j hlt
    have hprefix : p <+: r.log := (List.prefix_append p [a]).trans hp
    have ht' : Reaches ((p ++ [a]).map Prod.fst) t' := by
      rw [List.map_append]
      exact reaches_concat_iff.mpr ⟨t, ht, hexec⟩
    rw [toInt_bombStats hlaw htidy hprefix j ht, toInt_bombStats hlaw htidy hp j ht',
      Int.ofNat_lt] at hlt
    -- the call has counted an explosion, and the plant of the bomb is counted there as well
    have hcounts := countsAfter_of_lt hlt
    obtain ⟨he, -⟩ := Call.event?_of_explodesFor hcounts
    have hplanted : a.2 ∈ bombsCounted .planted j p := htidy.mem_bombsCounted hp hcounts
    exact ⟨Call.comesFrom_of_event? he, ((mem_bombsCounted_iff (by decide)).mp hplanted).plantedBy⟩

/-! ## A bomb that outlives its planter -/

/-- The game of the duel. -/
def duelServer : Server := .ofPlayers [duelT, duelCt]

/-- The terrorist plants a bomb, leaves, and another player takes the slot before it explodes. -/
def orphanedBomb : MarkedRun :=
  .call (.plantBomb duelServer duelServer 1) 1 .done <|
  .call (.dropClient duelServer (some 1)) 0 .done <|
  .call (.getIntoGame duelServer duelT) 0 .done <|
  .call (.explodeBomb duelServer) 1 .done .done

theorem lawful_orphanedBomb : Lawful orphanedBomb.log where
  plants := by decide
  explosions := by decide
  ends := by decide
  planted := by
    intro p a hp ha
    obtain ⟨i, hi, rfl, rfl⟩ := concat_prefix_iff.mp hp
    -- the explosion is the last of the five calls
    change i < 5 at hi
    rcases Nat.lt_succ_iff_lt_or_eq.mp hi with hlt | rfl
    · interval_cases i <;> cases ha
    · change 1 ∈ marksOf Handler.isPlant (orphanedBomb.log.take 4)
      decide
  started := by
    intro p a hp player defused ha
    obtain ⟨i, hi, rfl, rfl⟩ := concat_prefix_iff.mp hp
    change i < 5 at hi
    interval_cases i <;> cases ha

/-- The explosion is counted for the player who took the slot. -/
theorem orphanedBomb_misattributed : Lawful orphanedBomb.log ∧
    ∃ s, Reaches (orphanedBomb.log.map Prod.fst) s ∧ ¬ FollowsBombs s := by
  refine ⟨lawful_orphanedBomb, ?_⟩
  obtain ⟨s, hs, hbomb⟩ : ∃ s, Reaches (orphanedBomb.log.map Prod.fst) s ∧
      ¬ ((s.data 1).bombStats .exploded).toInt ≤ ((s.data 1).bombStats .planted).toInt :=
    exists_reaches_and (by decide +kernel)
  exact ⟨s, hs, fun h => hbomb (h.exploded 1)⟩

/-- The terrorist plants a bomb and it explodes. -/
def plainBomb : MarkedRun :=
  .call (.plantBomb duelServer duelServer 1) 1 .done <|
  .call (.explodeBomb duelServer) 1 .done .done

theorem lawful_plainBomb : Lawful plainBomb.log where
  plants := by decide
  explosions := by decide
  ends := by decide
  planted := by
    intro p a hp ha
    obtain ⟨i, hi, rfl, rfl⟩ := concat_prefix_iff.mp hp
    change i < 3 at hi
    rcases Nat.lt_succ_iff_lt_or_eq.mp hi with hlt | rfl
    · interval_cases i <;> cases ha
    · change 1 ∈ marksOf Handler.isPlant (plainBomb.log.take 2)
      decide
  started := by
    intro p a hp player defused ha
    obtain ⟨i, hi, rfl, rfl⟩ := concat_prefix_iff.mp hp
    change i < 3 at hi
    interval_cases i <;> cases ha

theorem length_bombsCounted_lt {log p : List Marked} (hlog : log.length < 2 ^ 31) (hp : p <+: log)
    (g : BombGroup) (j : Slot) : (bombsCounted g j p).length < 2 ^ 31 := by
  have hmarks : (bombsCounted g j p).Sublist ((p.filter fun _ => true).map Prod.snd) :=
    marks_sublist fun _ _ _ => rfl
  have hlength := hmarks.length_le
  rw [List.filter_true, List.length_map] at hlength
  exact hlength.trans_lt (hp.length_le.trans_lt hlog)

theorem tidy_plainBomb : Tidy plainBomb.log where
  step := by
    intro p a hp
    obtain ⟨i, hi, rfl, rfl⟩ := concat_prefix_iff.mp hp
    change i < 3 at hi
    interval_cases i
    · trivial
    · exact ⟨(⟨duelServer, .plantBomb 1 false⟩, 1), List.mem_cons_self, rfl, rfl⟩
    · intro player hplayer _
      obtain rfl : duelT = player := Option.some.inj hplayer
      exact ⟨(⟨duelServer, .plantBomb 1 true⟩, 1), List.mem_cons_of_mem _ List.mem_cons_self, rfl,
        rfl⟩
  plantings_lt := fun p hp j => length_bombsCounted_lt (by decide) hp _ j
  defusings_lt := fun p hp j => length_bombsCounted_lt (by decide) hp _ j

/-- The bomb explodes, and is counted for its planter. -/
theorem followsBombs_plainBomb : ∃ s, Reaches (plainBomb.log.map Prod.fst) s ∧ FollowsBombs s := by
  obtain ⟨s, hs⟩ : ∃ s, Reaches (plainBomb.log.map Prod.fst) s := exists_reaches rfl
  exact ⟨s, hs, (followsBombs_of_tidy plainBomb lawful_plainBomb tidy_plainBomb).1 plainBomb.log s
    (List.prefix_refl _) hs⟩

end StatsX
