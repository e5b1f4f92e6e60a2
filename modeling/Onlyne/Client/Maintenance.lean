import Onlyne.Client.PendingWork

/-!
# Client: the maintenance loop

The loop of `client.ts` that the library owns: `runMaintenance`, `stopMaintenance`, `wakeLoop`, `#arm` and
`#tick`, over the timers of the host clock.  A tick in flight stands at one await: its pass is running, the report
of pending work has not looked yet, or it has and the next delay is still to be chosen.

Of the clock nothing is used but its contract: a timer calls back once, and a cleared one not at all.  Everything
else is chosen from outside at every step: when a timer fires, when a pass is over and however it ended, what
other calls write before and after the report looks, and whether the notification hook throws.
-/

namespace Onlyne.Client

open Foundation Table List Option

/-! ## The loop -/

/-- The cadence while durable work is pending or the host just woke the loop. -/
def activeIntervalMs : Nat := 2000

/-- The floor the loop drops to once the durable ledger holds no pending work. -/
def idleIntervalMs : Nat := 30000

structure MaintenanceLoop where
  -- The signal of the controller is aborted.
  aborted : Bool := false
  intervalMs : Nat := activeIntervalMs
  handle : Option Nat := none
  lastPending : Bool := true
  running : Bool := false
  deriving DecidableEq, Repr

inductive Tick where
  -- `maintain` and `#recover` are running.
  | passing
  -- `hasPendingWork` before its transaction.
  | reading
  -- Behind it; a report that fails counts as pending work.
  | choosing (pending : Bool)
  deriving DecidableEq, Repr

/-- The rows `hasPendingWork` looks at. -/
structure WorkRows where
  inbox : Table String LocalAttention := ∅
  todos : Table ContextSlot PendingTodo := ∅
  outbound : OutboundRows := ∅
  services : ServiceRows := {}

def WorkRows.pending (ledger : WorkRows) (now : Int) : Bool :=
  hasPendingWork now ledger.inbox ledger.todos ledger.outbound ledger.services

/-- The loop with the host clock and its ticks in flight. -/
structure LoopNode where
  loop : MaintenanceLoop := {}
  -- The armed timers of the clock, each with its delay.
  timers : List (Nat × Nat) := []
  ticks : Table Nat Tick := ∅
  -- The number of the next timer or tick.
  next : Nat := 0
  ledger : WorkRows := {}

namespace LoopNode

section

variable (node : LoopNode)

def clearTimer : LoopNode :=
  match node.loop.handle with
  | none => node
  | some handle =>
    { node with
      timers := node.timers.filter fun timer => timer.1 ≠ handle
      loop := { node.loop with handle := none } }

/-- `#arm`. -/
def arm (intervalMs : Nat) : LoopNode :=
  let cleared := node.clearTimer
  { cleared with
    loop := { cleared.loop with intervalMs := intervalMs, handle := some node.next }
    timers := cleared.timers ++ [(node.next, intervalMs)]
    next := node.next + 1 }

def runMaintenance : LoopNode :=
  if node.loop.handle.isSome then node
  -- An aborted controller is replaced.
  else { node with loop := { node.loop with aborted := false } }.arm activeIntervalMs

def stopMaintenance : LoopNode :=
  { node with loop := { node.loop with aborted := true } }.clearTimer

def wakeLoop : LoopNode :=
  if node.loop.aborted then node
  else if node.loop.intervalMs ≠ activeIntervalMs then node.arm activeIntervalMs
  else node

/-- `#tick` up to its first await. -/
def tick : LoopNode :=
  let spent := node.clearTimer
  if spent.loop.running then spent.arm activeIntervalMs
  else
    { spent with
      loop := { spent.loop with running := true }
      ticks := spent.ticks.put spent.next .passing
      next := spent.next + 1 }

/-- `#tick` behind its report.  A change of the report is notified first, and a hook that throws ends the tick
there. -/
def choose (tick : Nat) (pending : Bool) (notify : Except Thrown Unit) : LoopNode :=
  let done := { node with
    loop := { node.loop with lastPending := pending }
    ticks := node.ticks.delete tick }
  if pending ≠ node.loop.lastPending && !notify.isOk then done
  else if node.loop.aborted then done
  else done.arm (if pending then activeIntervalMs else idleIntervalMs)

end

end LoopNode

inductive LoopAct where
  | runMaintenance
  | stopMaintenance
  -- A send begins, or evidence arrives.
  | wakeLoop
  -- The clock calls back.
  | fire (handle : Nat)
  -- The pass of a tick is over.
  | finish (tick : Nat)
  -- The transaction of the report, or its failure.
  | report (tick : Nat) (now : Int)
  | reportFailed (tick : Nat)
  | choose (tick : Nat) (notify : Except Thrown Unit)
  -- Another call writes rows.
  | write (ledger : WorkRows)

def maintenanceStep (node : LoopNode) : LoopAct → Option LoopNode
  | .runMaintenance => some node.runMaintenance
  | .stopMaintenance => some node.stopMaintenance
  | .wakeLoop => some node.wakeLoop
  | .fire handle =>
    if node.timers.any fun timer => timer.1 = handle then
      some { node with timers := node.timers.filter fun timer => timer.1 ≠ handle }.tick
    else none
  | .finish tick =>
    match node.ticks.get tick with
    | some .passing =>
      some { node with
        loop := { node.loop with running := false }
        ticks := node.ticks.put tick .reading }
    | _ => none
  | .report tick now =>
    match node.ticks.get tick with
    | some .reading => some { node with ticks := node.ticks.put tick (.choosing (node.ledger.pending now)) }
    | _ => none
  | .reportFailed tick =>
    match node.ticks.get tick with
    | some .reading => some { node with ticks := node.ticks.put tick (.choosing true) }
    | _ => none
  | .choose tick notify =>
    match node.ticks.get tick with
    | some (.choosing pending) => some (node.choose tick pending notify)
    | _ => none
  | .write ledger => some { node with ledger := ledger }

/-! ## One timer, one pass -/

def LoopNode.Passes (node : LoopNode) (tick : Nat) : Prop := node.ticks.get tick = some .passing

def StartsPass (t : Transition LoopNode LoopAct) : Prop := ∃ tick, ¬ t.before.Passes tick ∧ t.after.Passes tick

structure Disciplined (node : LoopNode) : Prop where
  -- The one armed timer is that of the loop, at the interval of the loop.
  timers : node.timers = (node.loop.handle.map fun handle => (handle, node.loop.intervalMs)).toList
  stopped : node.loop.aborted = true → node.loop.handle = none
  running : ∀ i, node.Passes i → node.loop.running = true
  alone : ∀ i j, node.Passes i → node.Passes j → i = j
  numbered : ∀ i tick, node.ticks.get i = some tick → i < node.next

section Steps

variable {node node' : LoopNode} {act : LoopAct} {handle : Nat} (intervalMs : Nat)

theorem disciplined_start : Disciplined {} where
  timers := rfl
  stopped _ := rfl
  running i h := by cases h
  alone i j h := by cases h
  numbered i tick h := by cases h

/-- A clock with no timer but that of the loop is idle once that one is cleared. -/
theorem clearTimer_eq
    (htimers : node.timers = (node.loop.handle.map fun handle => (handle, node.loop.intervalMs)).toList) :
    node.clearTimer = { node with timers := [], loop := { node.loop with handle := none } } := by
  obtain ⟨⟨aborted, intervalMs, handle, lastPending, running⟩, timers, ticks, next, ledger⟩ := node
  dsimp only at htimers
  cases handle with
  | none =>
    rw [htimers]
    rfl
  | some => simp [LoopNode.clearTimer, htimers]

section

variable (h : Disciplined node)
include h

theorem Disciplined.fired (hfired : (node.timers.any fun timer => timer.1 = handle) = true) :
    node.loop.aborted = false ∧ { node with timers := node.timers.filter fun timer => timer.1 ≠ handle }.clearTimer =
        { node with timers := [], loop := { node.loop with handle := none } } := by
  have htimers := h.timers
  cases hhandle : node.loop.handle with
  | none =>
    rw [hhandle] at htimers
    rw [htimers] at hfired
    cases hfired
  | some =>
    have hopen : node.loop.aborted = false := by
      cases habort : node.loop.aborted with
      | false => rfl
      | true =>
        rw [h.stopped habort] at hhandle
        cases hhandle
    refine ⟨hopen, ?_⟩
    simp [LoopNode.clearTimer, hhandle, htimers]

theorem Disciplined.arm (hopen : node.loop.aborted = false) (intervalMs : Nat) : Disciplined (node.arm intervalMs) := by
  unfold LoopNode.arm
  rw [clearTimer_eq h.timers]
  constructor
  case timers => rfl
  case stopped =>
    intro habort
    rw [hopen] at habort
    cases habort
  case running => exact h.running
  case alone => exact h.alone
  case numbered =>
    intro i tick hget
    have hlt := h.numbered i tick hget
    exact Nat.lt_succ_of_lt hlt

theorem Disciplined.cleared : Disciplined { node with timers := [], loop := { node.loop with handle := none } } where
  timers := rfl
  stopped _ := rfl
  running := h.running
  alone := h.alone
  numbered := h.numbered

theorem Disciplined.moved {tick : Nat} {stage : Tick} (hin : (node.ticks.get tick).isSome)
    (hstg : stage ≠ .passing) : Disciplined { node with ticks := node.ticks.put tick stage } := by
  have hpass (i : Nat) (hi : (node.ticks.put tick stage).get i = some .passing) : node.Passes i := by
    rcases get_put_cases hi with ⟨-, heq⟩ | ⟨-, hold⟩
    · exact absurd heq.symm hstg
    · exact hold
  constructor
  case timers => exact h.timers
  case stopped => exact h.stopped
  case running => exact fun i hi => h.running i (hpass i hi)
  case alone => exact fun i j hi hj => h.alone i j (hpass i hi) (hpass j hj)
  case numbered =>
    intro i other hget
    rcases get_put_cases hget with ⟨rfl, -⟩ | ⟨-, hold⟩
    · obtain ⟨old, hold⟩ := isSome_iff_exists.mp hin
      exact h.numbered i old hold
    · exact h.numbered i other hold

theorem Disciplined.finished {tick : Nat} (hpass : node.Passes tick) : Disciplined { node with
      loop := { node.loop with running := false }, ticks := node.ticks.put tick .reading } := by
  have hin : (node.ticks.get tick).isSome = true := isSome_iff_exists.mpr ⟨.passing, hpass⟩
  have hmv : Disciplined { node with ticks := node.ticks.put tick .reading } := h.moved hin (by simp)
  have hnone (i : Nat) : (node.ticks.put tick .reading).get i ≠ some .passing := by
    intro hi
    rcases get_put_cases hi with ⟨-, heq⟩ | ⟨hne, hold⟩
    · cases heq
    · exact hne (h.alone i tick hold hpass)
  constructor
  case timers => exact hmv.timers
  case stopped => exact hmv.stopped
  case running => exact fun i hi => absurd hi (hnone i)
  case alone => exact hmv.alone
  case numbered => exact hmv.numbered

theorem Disciplined.done (tick : Nat) (pending : Bool) : Disciplined { node with
      loop := { node.loop with lastPending := pending }, ticks := node.ticks.delete tick } where
  timers := h.timers
  stopped := h.stopped
  running i hi := h.running i (get_of_delete hi).2
  alone i j hi hj := h.alone i j (get_of_delete hi).2 (get_of_delete hj).2
  numbered i other hget := h.numbered i other (get_of_delete hget).2

theorem Disciplined.choose (tick : Nat) (pending : Bool) (notify : Except Thrown Unit) :
    Disciplined (node.choose tick pending notify) := by
  have hdone := h.done tick pending
  unfold LoopNode.choose
  split_ifs with hthrows habort hpend
  · exact hdone
  · exact hdone
  · exact hdone.arm (by simpa using habort) _
  · exact hdone.arm (by simpa using habort) _

theorem Disciplined.tick (hfired : (node.timers.any fun timer => timer.1 = handle) = true) :
    Disciplined { node with timers := node.timers.filter fun timer => timer.1 ≠ handle }.tick := by
  obtain ⟨hopen, hsp⟩ := h.fired hfired
  unfold LoopNode.tick
  rw [hsp]
  dsimp only
  split_ifs with hrunning
  · exact h.cleared.arm hopen _
  · -- No pass is running, so the new one is alone.
    have hnone (i : Nat) (hi : node.Passes i) : False := hrunning (h.running i hi)
    have hpass (i : Nat) (hi : (node.ticks.put node.next .passing).get i = some .passing) : i = node.next := by
      rcases get_put_cases hi with ⟨heq, -⟩ | ⟨-, hold⟩
      · exact heq
      · exact absurd hold (hnone i)
    constructor
    case timers => rfl
    case stopped => exact fun _ => rfl
    case running => exact fun _ _ => rfl
    case alone => exact fun i j hi hj => (hpass i hi).trans (hpass j hj).symm
    case numbered =>
      intro i other hget
      rcases get_put_cases hget with ⟨rfl, -⟩ | ⟨-, hold⟩
      · exact Nat.lt_succ_self _
      · exact Nat.lt_succ_of_lt (h.numbered i other hold)

/-- Every act keeps the clock and the ticks in agreement with the loop. -/
theorem Disciplined.step (hstep : maintenanceStep node act = some node') : Disciplined node' := by
  unfold maintenanceStep at hstep
  split at hstep
  case h_1 =>
    cases hstep
    unfold LoopNode.runMaintenance
    split_ifs with harmed
    · exact h
    · have hopened : Disciplined { node with loop := { node.loop with aborted := false } } :=
        ⟨h.timers, fun habort => (by cases habort), h.running, h.alone, h.numbered⟩
      exact hopened.arm rfl _
  case h_2 =>
    cases hstep
    have hcleared := @clearTimer_eq { node with loop := { node.loop with aborted := true } } h.timers
    rw [LoopNode.stopMaintenance, hcleared]
    exact ⟨rfl, fun _ => rfl, h.running, h.alone, h.numbered⟩
  case h_3 =>
    cases hstep
    unfold LoopNode.wakeLoop
    split_ifs with habort
    · exact h
    · exact h.arm (by simpa using habort) _
    · exact h
  case h_4 =>
    split_ifs at hstep with hfired
    cases hstep
    exact h.tick hfired
  case h_5 =>
    split at hstep <;> cases hstep
    next hpass => exact h.finished hpass
  case h_6 =>
    split at hstep <;> cases hstep
    next hread => exact h.moved (by rw [hread]; rfl) (by simp)
  case h_7 =>
    split at hstep <;> cases hstep
    next hread => exact h.moved (by rw [hread]; rfl) (by simp)
  case h_8 =>
    split at hstep <;> cases hstep
    exact h.choose _ _ _
  case h_9 =>
    cases hstep
    exact ⟨h.timers, h.stopped, h.running, h.alone, h.numbered⟩

end

/-! ### Stopped loops -/

@[simp] theorem clearTimer_aborted : node.clearTimer.loop.aborted = node.loop.aborted := by
  unfold LoopNode.clearTimer
  split <;> rfl

@[simp] theorem clearTimer_ticks : node.clearTimer.ticks = node.ticks := by
  unfold LoopNode.clearTimer
  split <;> rfl

@[simp] theorem arm_aborted : (node.arm intervalMs).loop.aborted = node.loop.aborted :=
  clearTimer_aborted

@[simp] theorem arm_ticks : (node.arm intervalMs).ticks = node.ticks := clearTimer_ticks

theorem choose_ticks (tick : Nat) (pending : Bool) (notify : Except Thrown Unit) :
    (node.choose tick pending notify).ticks = node.ticks.delete tick := by
  unfold LoopNode.choose
  split_ifs <;> simp

theorem aborted_kept (hstep : maintenanceStep node act = some node')
    (hact : act ≠ .runMaintenance) (habort : node.loop.aborted = true) : node'.loop.aborted = true := by
  unfold maintenanceStep at hstep
  split at hstep
  case h_1 => exact absurd rfl hact
  case h_2 =>
    cases hstep
    exact clearTimer_aborted
  case h_3 =>
    cases hstep
    rw [LoopNode.wakeLoop, if_pos habort]
    exact habort
  case h_4 =>
    split_ifs at hstep
    cases hstep
    unfold LoopNode.tick
    dsimp only
    split_ifs <;> simpa using habort
  case h_8 =>
    split at hstep <;> cases hstep
    unfold LoopNode.choose
    split_ifs <;> simpa using habort
  case h_9 =>
    cases hstep
    exact habort
  all_goals
    split at hstep <;> cases hstep
    exact habort

theorem fires_of_starts (hstep : maintenanceStep node act = some node')
    (hst : StartsPass ⟨node, act, node'⟩) : node.timers ≠ [] := by
  obtain ⟨i, hidle, hpass⟩ := hst
  unfold maintenanceStep at hstep
  split at hstep
  case h_4 =>
    split_ifs at hstep with hfired
    intro hnone
    rw [hnone] at hfired
    cases hfired
  case h_1 =>
    cases hstep
    unfold LoopNode.Passes LoopNode.runMaintenance at hpass
    split_ifs at hpass
    · exact absurd hpass hidle
    · rw [arm_ticks] at hpass
      exact absurd hpass hidle
  case h_2 =>
    cases hstep
    unfold LoopNode.Passes LoopNode.stopMaintenance at hpass
    rw [clearTimer_ticks] at hpass
    exact absurd hpass hidle
  case h_3 =>
    cases hstep
    unfold LoopNode.Passes LoopNode.wakeLoop at hpass
    split_ifs at hpass <;> simp only [arm_ticks] at hpass <;> exact absurd hpass hidle
  case h_8 =>
    split at hstep <;> cases hstep
    unfold LoopNode.Passes at hpass
    rw [choose_ticks] at hpass
    exact absurd (get_of_delete hpass).2 hidle
  case h_9 =>
    cases hstep
    exact absurd hpass hidle
  all_goals
    split at hstep <;> cases hstep
    rcases get_put_cases hpass with ⟨-, heq⟩ | ⟨-, hold⟩
    · cases heq
    · exact absurd hold hidle

end Steps

section Runs

variable {start s : LoopNode} {h : List (Transition LoopNode LoopAct)}

theorem disciplined_of_run (hrun : Run maintenanceStep {} h s) : Disciplined s :=
  hrun.invariant disciplined_start fun _ _ _ hnode hstep => hnode.step hstep

/-- A stopped loop stays without a timer until `runMaintenance` is called. -/
theorem stopped_of_run (hstart : Disciplined start) (habort : start.loop.aborted = true)
    (hrun : Run maintenanceStep start h s) (hnorun : ∀ u ∈ h, u.act ≠ .runMaintenance) : s.timers = [] := by
  have hstop : Disciplined s ∧ s.loop.aborted = true :=
    hrun.invariant_of (I := fun node => Disciplined node ∧ node.loop.aborted = true) hnorun
      ⟨hstart, habort⟩ fun _ _ _ hnode hstep hact =>
        ⟨hnode.1.step hstep, aborted_kept hstep hact hnode.2⟩
  rw [hstop.1.timers, hstop.1.stopped hstop.2]
  rfl

/-- The maintenance loop is disciplined: in every interleaving of starts, stops, wakes, timer callbacks, ends of
passes and reports, at most one timer is armed and at most one pass is running; and after a stop no timer is armed
and no pass begins until the loop is started again, whatever was running at the stop. -/
theorem maintenance_disciplined (hrun : Run maintenanceStep {} h s) :
    s.timers.length ≤ 1 ∧ (∀ i j, s.Passes i → s.Passes j → i = j) ∧
      ∀ past t rest, h = past ++ t :: rest → t.act = .stopMaintenance →
        (∀ u ∈ rest, u.act ≠ .runMaintenance) → s.timers = [] ∧ ∀ u ∈ rest, ¬ StartsPass u := by
  have hnode := disciplined_of_run hrun
  refine ⟨?_, hnode.alone, ?_⟩
  · rw [hnode.timers]
    exact length_toList_le
  · rintro past t rest rfl hstop hnorun
    obtain ⟨hpast, hstep, hrest⟩ := hrun.split_at
    have haft := (disciplined_of_run hpast).step hstep
    have habort : t.after.loop.aborted = true := by
      rw [hstop] at hstep
      have hstopped : t.after = t.before.stopMaintenance := (Option.some.inj hstep).symm
      rw [hstopped]
      exact clearTimer_aborted
    refine ⟨stopped_of_run haft habort hrest hnorun, fun u hu hst => ?_⟩
    obtain ⟨before, after, rfl, hbef, hstep', -⟩ := hrest.of_mem hu
    have hidle := stopped_of_run haft habort hbef fun v hv => hnorun v (mem_append_left _ hv)
    exact fires_of_starts hstep' hst hidle

end Runs

namespace Scenario

def owing : WorkRows := { outbound := Table.put ∅ ⟨"ann", "m"⟩ (sentRecord none) }

/-- A loop is started, its timer fires, and a send wakes it during the pass. -/
def wokenPass : List LoopAct := [.runMaintenance, .fire 0, .wakeLoop]

/-- The history of a list of acts, and the loop it leads to. -/
def lived (acts : List LoopAct) : List (Transition LoopNode LoopAct) × LoopNode :=
  (execute maintenanceStep {} acts).getD ([], {})

end Scenario

open Scenario in
/-- A loop is stopped and started again during a pass: the pass is still the only one, and so is the timer. -/
theorem maintenance_disciplined_restarted : ∃ h s, Run maintenanceStep {} h s ∧ s.timers.length ≤ 1 ∧
    (∀ i j, s.Passes i → s.Passes j → i = j) ∧ s.timers = [(2, activeIntervalMs)] ∧ s.Passes 1 := by
  obtain ⟨h, s, hrun, htimers, hpass⟩ := exists_run maintenanceStep {}
    (wokenPass ++ [.stopMaintenance, .runMaintenance])
    (fun _ s => s.timers = [(2, activeIntervalMs)] ∧ s.ticks.get 1 = some .passing) (by decide +kernel)
  obtain ⟨hone, halone, -⟩ := maintenance_disciplined hrun
  exact ⟨h, s, hrun, hone, halone, htimers, hpass⟩

/-! ## Wakes -/

def LoopNode.ActiveArmed (node : LoopNode) : Prop := ∃ handle, node.timers = [(handle, activeIntervalMs)]

def WokenSince (past : List (Transition LoopNode LoopAct)) (tick : Nat) : Prop :=
  ∃ h₁ t h₂, past = h₁ ++ t :: h₂ ∧ ¬ t.before.Passes tick ∧ t.after.Passes tick ∧ ∃ u ∈ h₂, u.act = .wakeLoop

/-- A tick chooses the next delay of a loop that is not stopped, and a wake arrived since it began. -/
def ChoosesWoken (past : List (Transition LoopNode LoopAct)) (t : Transition LoopNode LoopAct) : Prop :=
  ∃ tick notify, t.act = .choose tick notify ∧ t.before.loop.aborted = false ∧ WokenSince past tick

/-- The choice of a tick is the active cadence: its report found pending work or failed.  When the notification of
a changed report throws, the delay is the one that is armed already. -/
def choosesActive (t : Transition LoopNode LoopAct) : Bool :=
  match t.act with
  | .choose tick notify =>
    match t.before.ticks.get tick with
    | some (.choosing pending) =>
      if pending ≠ t.before.loop.lastPending && !notify.isOk then
        t.before.loop.handle.isSome && t.before.loop.intervalMs = activeIntervalMs
      else pending
    | _ => true
  | _ => true

section Wakes

variable {node node' s : LoopNode} {h : List (Transition LoopNode LoopAct)}

section

variable (hnode : Disciplined node)
include hnode

theorem Disciplined.activeArmed_iff :
    node.ActiveArmed ↔ node.loop.handle.isSome = true ∧ node.loop.intervalMs = activeIntervalMs := by
  unfold LoopNode.ActiveArmed
  rw [hnode.timers]
  cases node.loop.handle with
  | none => simp
  | some => simp

theorem arm_activeArmed (intervalMs : Nat) : (node.arm intervalMs).ActiveArmed ↔ intervalMs = activeIntervalMs := by
  unfold LoopNode.ActiveArmed LoopNode.arm
  rw [clearTimer_eq hnode.timers]
  simp

section

variable (hopen : node.loop.aborted = false)
include hopen

theorem wake_activeArmed (harmed : node.timers ≠ []) : node.wakeLoop.ActiveArmed := by
  unfold LoopNode.wakeLoop
  split_ifs with habort hidle
  · rw [hopen] at habort
    cases habort
  · exact (arm_activeArmed hnode _).mpr rfl
  · refine hnode.activeArmed_iff.mpr ⟨?_, not_not.mp hidle⟩
    cases hhandle : node.loop.handle with
    | none =>
      rw [hnode.timers, hhandle] at harmed
      exact absurd rfl harmed
    | some => rfl

theorem choose_activeArmed_iff {tick : Nat}
    {notify : Except Thrown Unit} (hstep : maintenanceStep node (.choose tick notify) = some node') :
    node'.ActiveArmed ↔ choosesActive ⟨node, .choose tick notify, node'⟩ = true := by
  simp only [maintenanceStep] at hstep
  split at hstep <;> cases hstep
  next pending hchoosing =>
  have hdone := hnode.done tick pending
  simp only [choosesActive, hchoosing, LoopNode.choose]
  split_ifs with hthrows habort hpend
  · rw [hdone.activeArmed_iff, Bool.and_eq_true, decide_eq_true_eq]
  · rw [hopen] at habort
    cases habort
  · rw [arm_activeArmed hdone]
    simp [hpend]
  · rw [arm_activeArmed hdone]
    simp [hpend, activeIntervalMs, idleIntervalMs]

theorem choose_timers (tick : Nat) (pending : Bool) : (node.choose tick pending (.ok ())).timers =
      [(node.next, if pending then activeIntervalMs else idleIntervalMs)] := by
  have hq : (decide (pending ≠ node.loop.lastPending) && !(Except.ok () : Except Thrown Unit).isOk) = false :=
    Bool.and_false _
  unfold LoopNode.choose LoopNode.arm
  rw [hq, hopen]
  simp [clearTimer_eq (hnode.done tick pending).timers]

end

end

/-- A wake on a loop that is waiting schedules the next tick at the active cadence.  A wake that arrives while a
tick is in flight is kept, in every step of a run, exactly when every tick that chooses its next delay after such a
wake finds pending work in its report, or cannot read it. -/
theorem wake_kept_iff (hrun : Run maintenanceStep {} h s) :
    (∀ t ∈ h, t.act = .wakeLoop → t.before.loop.aborted = false → t.before.timers ≠ [] → t.after.ActiveArmed) ∧
      ((∀ past t future, h = past ++ t :: future → ChoosesWoken past t → t.after.ActiveArmed) ↔
        ∀ past t future, h = past ++ t :: future → ChoosesWoken past t → choosesActive t = true) := by
  constructor
  · intro t ht hact hopen harmed
    obtain ⟨past, future, rfl, hpast, hstep, -⟩ := hrun.of_mem ht
    rw [hact] at hstep
    have hwoken : t.after = t.before.wakeLoop := (Option.some.inj hstep).symm
    rw [hwoken]
    exact wake_activeArmed (disciplined_of_run hpast) hopen harmed
  · have hiff (past t future) (hspl : h = past ++ t :: future) (hchooses : ChoosesWoken past t) :
        t.after.ActiveArmed ↔ choosesActive t = true := by
      subst hspl
      obtain ⟨hpast, hstep, -⟩ := hrun.split_at
      obtain ⟨tick, notify, hact, hopen, -⟩ := hchooses
      obtain ⟨before, act, after⟩ := t
      cases hact
      exact choose_activeArmed_iff (disciplined_of_run hpast) hopen hstep
    constructor
    · intro hkept past t future hspl hchooses
      exact (hiff past t future hspl hchooses).mp (hkept past t future hspl hchooses)
    · intro hseen past t future hspl hchooses
      exact (hiff past t future hspl hchooses).mpr (hseen past t future hspl hchooses)

end Wakes

namespace Scenario

theorem wokenSince_pass (h : List (Transition LoopNode LoopAct)) : WokenSince ((lived wokenPass).1 ++ h) 1 :=
  ⟨(lived [.runMaintenance]).1, ⟨(lived [.runMaintenance]).2, .fire 0, (lived [.runMaintenance, .fire 0]).2⟩,
    (lived wokenPass).1.drop 2 ++ h, rfl, by unfold LoopNode.Passes; decide +kernel,
    by unfold LoopNode.Passes; decide +kernel, _, List.Mem.head _, rfl⟩

theorem run_wokenPass : Run maintenanceStep {} (lived wokenPass).1 (lived wokenPass).2 := by
  have hexec : execute maintenanceStep {} wokenPass = some (lived wokenPass) := rfl
  have hrun : Run maintenanceStep {} ([] ++ (lived wokenPass).1) _ := run_of_execute .nil hexec
  exact hrun

/-- The pass of `wokenPass` goes on to its report, and the report finds `pending`. -/
theorem reported_pass (acts : List LoopAct) (pending : Bool)
    (hacts : (execute maintenanceStep (lived wokenPass).2 acts).any (fun r => (∀ t ∈ r.1, choosesActive t = true) ∧
      r.2.ticks.get 1 = some (.choosing pending) ∧ r.2.loop.aborted = false) = true) :
    ∃ past s, Run maintenanceStep {} past s ∧ WokenSince past 1 ∧ (∀ t ∈ past, choosesActive t = true) ∧
      s.ticks.get 1 = some (.choosing pending) ∧ s.loop.aborted = false := by
  obtain ⟨h, s, hrun, hall, hreport⟩ := exists_run maintenanceStep (lived wokenPass).2 acts
    (fun h s => (∀ t ∈ h, choosesActive t = true) ∧ s.ticks.get 1 = some (.choosing pending) ∧
      s.loop.aborted = false) hacts
  have hfst : ∀ t ∈ (lived wokenPass).1, choosesActive t = true := by decide +kernel
  exact ⟨_, s, run_wokenPass.append hrun, wokenSince_pass h, forall_mem_append.mpr ⟨hfst, hall⟩, hreport⟩

end Scenario

open Scenario in
/-- A send whose record is stored before the report looks is kept: the next tick comes at the active cadence. -/
theorem wake_kept_iff_stored : ∃ past t, Run maintenanceStep {} (past ++ [t]) t.after ∧ ChoosesWoken past t ∧
    t.after.ActiveArmed := by
  obtain ⟨past, s, hrun, hwoken, hactv, hchoosing, hopen⟩ :=
    reported_pass [.write owing, .finish 1, .report 1 0] true (by decide +kernel)
  have hstep : maintenanceStep s (.choose 1 (.ok ())) = some (s.choose 1 true (.ok ())) := by
    simp [maintenanceStep, hchoosing]
  have hchooses : ChoosesWoken past ⟨s, .choose 1 (.ok ()), s.choose 1 true (.ok ())⟩ := ⟨1, .ok (), rfl, hopen, hwoken⟩
  refine ⟨past, _, hrun.snoc hstep, hchooses, ?_⟩
  refine (wake_kept_iff (hrun.snoc hstep)).2.mpr ?_ past _ [] rfl hchooses
  intro past' t future hspl hchooses'
  have ht : t ∈ past ++ [⟨s, .choose 1 (.ok ()), s.choose 1 true (.ok ())⟩] := by
    rw [hspl]
    exact mem_append_right _ mem_cons_self
  rcases mem_append.mp ht with hold | hnew
  · exact hactv t hold
  · rw [mem_singleton.mp hnew]
    simp [choosesActive, hchoosing, Except.isOk, Except.toBool]

open Scenario in
/-- A send wakes the loop during a pass, the report of the pass looks before the record is stored, and the next
tick is scheduled at the idle floor although work is pending. -/
theorem wake_lost_before_report : ∃ past t future s, Run maintenanceStep {} (past ++ t :: future) s ∧
    ChoosesWoken past t ∧ ¬ t.after.ActiveArmed ∧ (∃ handle, s.timers = [(handle, idleIntervalMs)]) ∧
    s.ledger.pending 0 = true := by
  obtain ⟨past, s, hrun, hwoken, -, hchoosing, hopen⟩ :=
    reported_pass [.finish 1, .report 1 0] false (by decide +kernel)
  have hstep : maintenanceStep s (.choose 1 (.ok ())) = some (s.choose 1 false (.ok ())) := by
    simp [maintenanceStep, hchoosing]
  have htimers := choose_timers (disciplined_of_run hrun) hopen 1 false
  have hall := (hrun.snoc hstep).snoc (a := .write owing) rfl
  rw [append_assoc] at hall
  refine ⟨past, _, _, _, hall, ⟨1, .ok (), rfl, hopen, hwoken⟩, ?_, ⟨s.next, htimers⟩, ?_⟩
  · rintro ⟨handle, harmed⟩
    rw [htimers] at harmed
    simp [activeIntervalMs, idleIntervalMs] at harmed
  · have hpend : owing.pending 0 = true := by decide +kernel
    exact hpend

end Onlyne.Client
