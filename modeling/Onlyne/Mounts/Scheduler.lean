import Onlyne.Mounts.Requests

/-!
# Mounts: the scheduler

`createMountService` of `mounts.ts` as a machine.  The memory of a process is a `Scheduler`; a call that waits
is a `Flow`, which stands at one await and holds what the rest of the call needs.  An act starts a call or takes
one flow to its next await, with at most one transaction on the store, so a sequence of acts is an interleaving
of ticks, operations, runs, pushes and the stop of the gateway at their awaits.  A `boot` is the start of a new
process over the same store: what the one before had in memory is gone, wherever it stood.

What comes from outside is an `Input`: readings of the clock, drawn identifiers, what a command, a tool, a peer
or a transaction answers.  The rows and fields that only `status` and the log lines read are left out, and so
are the reading operations.
-/

namespace Onlyne.Mounts

open Foundation
open Messages (ThreadRef)
open Onlyne.Core (throws field)

/-! ## Memory -/

structure Child where
  cancelled : Bool := false
  -- Its process was spawned and has not exited.
  alive : Bool := false
  -- The process was sent a termination signal.
  signalled : Bool := false
  deriving DecidableEq, Repr

def stopChild (child : Child) : Child :=
  if child.cancelled then child
  else { child with cancelled := true, signalled := child.signalled || child.alive }

structure ActiveRun where
  taskId : TaskId
  child : Nat
  deriving DecidableEq, Repr

inductive Flow where
  -- `startDue`: a skip record is being saved, the skipped task is, or the loop goes on.
  | skipSave (nowMs : Int) (task : TaskId) (skip : Run) (rest : List TaskId)
  | skipTask (nowMs : Int) (task : TaskId) (rest : List TaskId)
  | due (nowMs : Int) (rest : List TaskId)
  -- `startRun`: the record of the run is being saved, then the task.
  | startSave (nowMs : Int) (task : TaskId) (run : Run) (child : Nat) (rest : List TaskId)
  | startTask (nowMs : Int) (task : TaskId) (run : Run) (child : Nat) (rest : List TaskId)
  -- `executeRun`: the command runs; the tool is looked up, then called.
  | commanding (task : TaskId) (run : Run) (child : Nat)
  | resolving (task : TaskId) (run : Run) (child : Nat)
  | calling (task : TaskId) (run : Run) (child : Nat) (readOnly : Bool)
  -- `finishRun`: a skip record, the push, the run and the task are being saved.
  | finishSkip (task : TaskId) (run : Run) (child : Nat) (skip : Run)
  | finishPush (task : TaskId) (run : Run) (child : Nat) (entry : PushEntry)
  | finishRun (task : TaskId) (run : Run) (child : Nat)
  | finishTask (task : TaskId) (run : Run) (child : Nat)
  -- `attemptPush`: `guarded` says that a failure is caught as one of the send.
  | pushLoad (entry : PushEntry)
  | pushResolve (entry : PushEntry) (run : Run) (push : Push)
  | pushSend (entry : PushEntry) (run : Run) (push : Push)
  | pushQueue (entry : PushEntry) (run : Run) (push : Push) (guarded : Bool)
  | pushDrop (entry : PushEntry) (run : Run) (push : Push) (guarded : Bool)
  | pushRun (entry : PushEntry) (run : Run) (push : Push) (guarded : Bool)
  -- Operations: a mount asks for its thread; a changed task is being saved, and its runs are stopped then.
  | mountThread (task : Task)
  | saving (task : TaskId)
  | ending (task : TaskId)
  -- `stop`: the runs get a moment (or the loop goes on); then what is left in `active` is repaired run by run.
  | stopWait
  | stopLoad (runId : RunId) (task : TaskId)
  | stopPush (run : Run) (entry : PushEntry)
  | stopTask (run : Run)
  | stopRun (run : Run)
  -- `loadStore`
  | loadScan (now : Int)
  | loadPush (now : Int) (entry : PushEntry) (run : Run) (runs : List Run) (ledger : List TaskId)
  | loadRun (now : Int) (run : Run) (runs : List Run) (ledger : List TaskId)
  | loadTask (now : Int) (task : TaskId) (tasks ledger : List TaskId)

structure Scheduler where
  config : Option Config := none
  -- `start` has returned: the timer is set and operations are served.
  started : Bool := false
  tasks : Table TaskId Task := ∅
  -- Running runs only.
  active : Table RunId ActiveRun := ∅
  push : Table (TaskId × RunId) PushEntry := ∅
  pushing : List (TaskId × RunId) := []
  ticking : Bool := false
  stopping : Bool := false
  children : Table Nat Child := ∅
  flows : Table Nat Flow := ∅
  -- The number of the next child or flow.
  next : Nat := 0

/-- A gateway: its store, and the scheduler of the running process. -/
structure Gateway where
  store : Store := {}
  scheduler : Scheduler := {}

/-! ## From outside -/

inductive ToolAnswer where
  | result
  | rejected
  | noAnswer
  deriving DecidableEq, Repr

inductive Admission where
  | accepted (receipt : Option (ThreadRef × String))
  | refused (message : String)
  | unsettled (message : String)
  deriving DecidableEq, Repr

structure Input where
  -- How a transaction or an outside call ends.
  outcome : Except Thrown Unit := .ok ()
  -- How the spawn of a command ends.
  spawn : Except Thrown Unit := .ok ()
  clock : Nat → Int
  -- The identifier of a new task, or of a run: the instant and random digits.
  draw : String := ""
  -- What the command or the tool left: an exit status, an answer, the output.
  exitCode : Option Int := none
  answer : ToolAnswer := .noAnswer
  summary : String := ""
  bytes : Nat := 0
  readOnly : Bool := false
  admission : Admission := .unsettled ""
  -- The entry of `active` the stop comes to next.
  pick : RunId := ""

/-! ## Schedules -/

/-- The instant after an occurrence: `advanceOverdue`, and what `startRun` does before the run starts. -/
def advance (env : Env) (schedule : Schedule) (atMs : Int) : Except Thrown (Option Int) :=
  match schedule with
  | .interval every => (iso (atMs + every)).map some
  | .cron expression => do
    match ← env.nextCron expression atMs with
    | none => .ok none
    | some next => (iso next).map some
  | .once _ => .ok none

/-- The next instant for a schedule; `immediate` fires an interval or a one-shot one at `fromMs`. -/
def nextFor (env : Env) (schedule : Schedule) (fromMs : Int) (immediate : Bool) : Except Thrown (Option Int) :=
  match schedule with
  | .once instant => if immediate then (iso fromMs).map some else .ok (some instant)
  | .interval every => (iso (if immediate then fromMs else fromMs + every)).map some
  | .cron expression => do
    match ← env.nextCron expression fromMs with
    | none => .ok none
    | some next => (iso next).map some

namespace Scheduler

section

variable (s : Scheduler)

/-- A run of the task is in `active`. -/
def runs (task : TaskId) : Bool := s.active.rows.any fun row => row.2.taskId = task

def setTask (task : Task) : Scheduler := { s with tasks := s.tasks.put task.id task }

def launch (flow : Flow) : Scheduler :=
  { s with flows := s.flows.put s.next flow, next := s.next + 1 }

def endTick : Scheduler := { s with ticking := false }

/-- A run is over: the `finally` of `startRun`. -/
def endRun (run : Run) : Scheduler := { s with active := s.active.delete run.id }

def endPush (entry : PushEntry) : Scheduler :=
  { s with pushing := s.pushing.filter (· ≠ entry.slot) }

def changeChild (children : Table Nat Child) (child : Nat) (change : Child → Child) : Table Nat Child :=
  match children.get child with
  | none => children
  | some handle => children.put child (change handle)

def setChild (child : Nat) (change : Child → Child) : Scheduler :=
  { s with children := changeChild s.children child change }

/-- The runs in `active` of the tasks that `selects` are told to stop. -/
def stopRuns (selects : TaskId → Bool) : Scheduler :=
  let stopped := s.active.rows.filter fun row => selects row.2.taskId
  { s with
    children := stopped.foldl (fun children row => changeChild children row.2.child stopChild) s.children }

end

end Scheduler

/-- Where a call has got to: the gateway then, and its next await if it has one. -/
abbrev Next := Gateway × Option Flow

namespace Gateway

def remember (g : Gateway) (change : Scheduler → Scheduler) : Gateway :=
  { g with scheduler := change g.scheduler }

/-- The transaction of `saveTask`: the task as it is in memory now. -/
def saveTask (g : Gateway) (task : TaskId) : Gateway :=
  match g.scheduler.tasks.get task with
  | none => g
  | some row => { g with store := g.store.saveTask row }

def saveRun (g : Gateway) (run : Run) : Gateway := { g with store := g.store.saveRun run }

def savePush (g : Gateway) (entry : PushEntry) : Gateway := { g with store := g.store.savePush entry }

def dropPush (g : Gateway) (entry : PushEntry) : Gateway := { g with store := g.store.dropPush entry }

end Gateway

/-! ## Starting runs -/

/-- The record of an occurrence that a run in `active` leaves out. -/
def skippedRun (task : Task) (atMs : Int) (id : RunId) (reason : String) : Run where
  id := id
  taskId := task.id
  controller := task.controller
  action := task.action
  thread := task.thread
  state := .skipped
  startedAt := atMs
  finishedAt := some atMs
  error := some ⟨.overlap,
    "The previous run was still active at this occurrence (" ++ reason ++ ")."⟩

def newRun (task : Task) (atMs : Int) (id : RunId) : Run where
  id := id
  taskId := task.id
  controller := task.controller
  action := task.action
  thread := task.thread
  state := .running
  startedAt := atMs
  push := some { messageId := id, state := .pending, attempts := 0, retryUntil := atMs + pushWindowMs }

section

variable (env : Env) (s : Scheduler) (g : Gateway) (entry : PushEntry) (run : Run)

/-- `startRun` up to its first await: the schedule advances, and the run is in `active`. -/
def startRun (task : Task) (nowMs : Int) (id : RunId) (rest : List TaskId) : Next :=
  match advance env task.schedule nowMs with
  | .error _ => (g.remember Scheduler.endTick, none)
  | .ok next =>
    let s := g.scheduler
    (g.remember fun _ => { s.setTask { task with nextRunAt := next, updatedAt := nowMs } with
        active := s.active.put id ⟨task.id, s.next⟩
        children := s.children.put s.next {}
        next := s.next + 1 },
      some (.startSave nowMs task.id (newRun task nowMs id) s.next rest))

/-- The loop of `startDue` from its head to its next await. -/
def startDue (nowMs : Int) (id : RunId) : List TaskId → Next
  | [] => (g.remember Scheduler.endTick, none)
  | due :: rest =>
    if g.scheduler.stopping then (g.remember Scheduler.endTick, none)
    else
      match g.scheduler.tasks.get due with
      | none => (g.remember Scheduler.endTick, none)
      | some task =>
        if g.scheduler.runs task.id then
          (g, some (.skipSave nowMs task.id
            (skippedRun task nowMs id "the previous run is still active") rest))
        else startRun env g task nowMs id rest

def dueTasks (nowMs : Int) : List TaskId :=
  (s.tasks.rows.filter fun row => row.2.state = .active && row.2.nextRunAt.any (· ≤ nowMs)).map Prod.fst

/-- `order` lists the due tasks in the order of their instants. -/
def inOrder (nowMs : Int) (order : List TaskId) : Bool :=
  order.isPerm (dueTasks s nowMs) &&
    order.Pairwise fun a b =>
      ((s.tasks.get a).bind Task.nextRunAt).getD 0 ≤ ((s.tasks.get b).bind Task.nextRunAt).getD 0

/-! ## The result of a run -/

structure RunOutcome where
  state : RunState
  exitCode : Option Int := none
  summary : String := ""
  bytes : Nat := 0
  error : Option RunError := none
  deriving DecidableEq, Repr

/-- A run that the gateway or a cancel stopped is recorded for that, whatever it answered. -/
def RunOutcome.stoppedBy (outcome : RunOutcome) (stopping cancelled : Bool)
    (interruptedText cancelledText : String) : RunOutcome :=
  if stopping then
    { outcome with state := .interrupted, error := some ⟨.interrupted, interruptedText⟩ }
  else if cancelled then
    { outcome with state := .cancelled, error := some ⟨.cancelled, cancelledText⟩ }
  else outcome

def commandInterrupted : String :=
  "The gateway stopped before this run finished; the external effect is unconfirmed."

def commandOutcome (stopping cancelled : Bool) (exitCode : Option Int) (summary : String) (bytes : Nat) : RunOutcome :=
  let status := match exitCode with
    | some code => toString code
    | none => "unknown"
  let outcome : RunOutcome :=
    if exitCode = some 0 then
      { state := .succeeded, exitCode := exitCode, summary := summary, bytes := bytes }
    else
      { state := .failed, exitCode := exitCode, summary := summary, bytes := bytes
        error := some ⟨.exitNonzero, "The command exited with status " ++ status ++ "."⟩ }
  outcome.stoppedBy stopping cancelled commandInterrupted
    "The mount was cancelled while this run was active."

def toolOutcome (stopping cancelled readOnly : Bool) (answer : ToolAnswer) (summary : String)
    (bytes : Nat) : RunOutcome :=
  let outcome : RunOutcome := match answer with
    | .result => { state := .succeeded, summary := summary, bytes := bytes }
    | .rejected =>
      { state := if readOnly then .failed else .unknown, summary := summary, bytes := bytes
        error := some ⟨.toolRejected, if readOnly then "The MCP tool reported failure."
          else "The MCP tool reported failure; the side effect is unconfirmed."⟩ }
    | .noAnswer =>
      { state := .unknown, summary := summary, bytes := bytes
        error := some ⟨.onlyne .unavailable,
          "The MCP server gave no answer; the side effect is unconfirmed."⟩ }
  outcome.stoppedBy stopping cancelled
    "The gateway stopped before this tool call settled; the external effect is unconfirmed."
    "The mount was cancelled while this tool call was in flight."

def thrownOutcome (thrown : Thrown) : RunOutcome :=
  let error := failureOf thrown
  { state := if error.code = .onlyne .unavailable then .unknown else .failed, error := some error }

def Run.finished (outcome : RunOutcome) (finishedAt : Int) : Run :=
  { run with
    state := outcome.state
    exitCode := outcome.exitCode
    outputSummary := outcome.summary
    outputBytes := outcome.bytes
    error := outcome.error
    finishedAt := some finishedAt }

/-- `finishRun` from the push on: the retry window opens when the result exists. -/
def queueResult (task : TaskId) (run : Run) (child : Nat) : Next :=
  match run.push with
  | none => (g, some (.finishRun task run child))
  | some push =>
    let finishedAt := run.finishedAt.getD 0
    let run := { run with push := some { push with
      state := .pending, attempts := 0, retryUntil := finishedAt + pushWindowMs } }
    let entry : PushEntry :=
      { taskId := run.taskId, runId := run.id, state := .pending, attempts := 0, nextAttemptAt := finishedAt }
    (g.remember fun s => { s with push := s.push.put entry.slot entry },
      some (.finishPush task run child entry))

/-- `finishRun` up to its first await. -/
def finishRun (id : TaskId) (run : Run) (child : Nat) (outcome : RunOutcome) (input : Input) : Next :=
  let run := run.finished outcome (input.clock 0)
  match g.scheduler.tasks.get id with
  | none => queueResult g id run child
  | some task =>
    let task := { task with lastRun := some (runSummary run), updatedAt := input.clock 0 }
    let g := g.remember fun s => s.setTask task
    if task.state ≠ .active then queueResult g id run child
    else
      match task.schedule with
      | .once _ => queueResult (g.remember fun s => s.setTask { task with state := .completed }) id run child
      | _ =>
        -- The run overran its slot.
        if task.nextRunAt.any (· ≤ input.clock 1) then
          (g, some (.finishSkip id run child
            (skippedRun task (input.clock 2) input.draw "run overran its schedule")))
        else queueResult g id run child

/-- `executeRun` up to its first await. -/
def executeRun (task : TaskId) (run : Run) (child : Nat) (input : Input) : Next :=
  match run.action with
  | .command command =>
    if !((g.scheduler.config.map Config.commands).getD []).contains command then
      finishRun g task run child (thrownOutcome (throws .invalidRequest
        ("The allowlist no longer holds the command " ++ command ++ "."))) input
    else
      match input.spawn with
      | .error thrown => finishRun g task run child (thrownOutcome thrown) input
      | .ok _ =>
        (g.remember fun s => s.setChild child fun handle => { handle with alive := true },
          some (.commanding task run child))
  | .mcp server _ _ =>
    if !((g.scheduler.config.map Config.servers).getD []).any (fun entry => entry.1 = server) then
      finishRun g task run child (thrownOutcome (throws .unavailable
        ("No configured MCP server is named " ++ server ++ "."))) input
    else (g, some (.resolving task run child))

def cancelled (g : Gateway) (child : Nat) : Bool :=
  (g.scheduler.children.get child).any Child.cancelled

/-! ## Pushing results -/

/-- The attempts of `schedulePushes` start: each queued result whose time has come and that is not in flight. -/
def schedulePushes (atMs : Int) : Scheduler :=
  (s.push.rows.filter fun row => !s.pushing.contains row.1 && row.2.nextAttemptAt ≤ atMs).foldl
    (fun s row => { s.launch (.pushLoad row.2) with pushing := row.1 :: s.pushing }) s

def pushDelay (attempts : Nat) : Int := (min retryCapMs (1000 * Nat.pow 2 (min attempts 6)) : Nat)

/-- `settle` up to its first await. -/
def settle (push : Push) (state : PushState) (message : Option String) (guarded : Bool) (now : Int) : Next :=
  if state = .pending ∨ state = .unknown then
    let nextAttemptAt := now + pushDelay push.attempts
    let push := { push with state := state, error := message, nextAttemptAt := some nextAttemptAt }
    let entry := { entry with state := state, attempts := push.attempts, nextAttemptAt := nextAttemptAt }
    (g.remember fun s => { s with push := s.push.put entry.slot entry },
      some (.pushQueue entry run push guarded))
  else
    let push := { push with state := state, error := message, nextAttemptAt := none }
    (g.remember fun s => { s with push := s.push.delete entry.slot },
      some (.pushDrop entry run push guarded))

/-- The catch around the send: codes that no retry can fix settle the result. -/
def sendFailed (push : Push) (thrown : Thrown) (input : Input) : Next :=
  let error := failureOf thrown
  let terminal := match error.code with
    | .onlyne code => terminalPush code
    | _ => false
  if terminal then settle g entry run push .refused (some error.message) false (input.clock 1)
  else if input.clock 0 > push.retryUntil then
    settle g entry run push .expired (some error.message) false (input.clock 1)
  else settle g entry run push .unknown (some error.message) false (input.clock 1)

/-- `attemptPush` once the send has answered. -/
def sent (push : Push) (input : Input) : Next :=
  match input.admission with
  | .accepted receipt =>
    let push := { push with
      state := .accepted, error := none, nextAttemptAt := none, receipt := receipt.or push.receipt }
    (g.remember fun s => { s with push := s.push.delete entry.slot },
      some (.pushDrop entry run push true))
  | .refused message => settle g entry run push .refused (some message) true (input.clock 1)
  | .unsettled message =>
    if input.clock 0 > push.retryUntil then
      settle g entry run push .expired (some message) true (input.clock 1)
    else settle g entry run push .unknown (some message) true (input.clock 1)

/-- A transaction of `attemptPush` failed. -/
def pushFailed (push : Push) (guarded : Bool) (thrown : Thrown) (input : Input) : Next :=
  if guarded then sendFailed g entry run push thrown input
  else (g.remember fun s => s.endPush entry, none)

/-! ## Operations -/

inductive Operation where
  | mount
  | update
  | cancel
  | resume
  | remove
  deriving DecidableEq, Repr

/-- A call that is refused, with what it has changed in memory so far. -/
def refused (result : Except Thrown Next) : Next :=
  match result with
  | .ok next => next
  | .error _ => (g, none)

def mountedTask (controller : NodeId) (data : Json) (config : Option Config) (input : Input) :
    Except Thrown Task := do
  let now := input.clock 0
  let schedule ← parseSchedule env (input.clock 1) (field data "schedule")
  let action ← parseAction config controller (field data "action")
  let title ← parseTitle (field data "title")
  let nextRunAt ← nextFor env schedule now (schedule matches .interval _)
  .ok (change
    { id := input.draw, controller := controller, state := .active, title := title, schedule := schedule
      action := action, nextRunAt := nextRunAt, thread := ⟨env.owner, "mnt-" ++ input.draw⟩
      createdAt := now, updatedAt := now }
    { changedAt := input.clock 2, actor := controller, kind := .mount, title := title
      schedule := some schedule, definition := some action })

def parsedIfGiven {α : Type} (value : Option Json) (parse : Option Json → Except Thrown α) : Except Thrown (Option α) :=
  match value with
  | none => .ok none
  | some value => (parse (some value)).map some

structure Patch where
  title : Option String
  schedule : Option Schedule
  action : Option Action

def parsePatch (config : Option Config) (controller : NodeId) (task : Task) (data : Json)
    (now : Int) : Except Thrown Patch := do
  if task.state = .removed then .error (throws .invalidRequest "A removed mount cannot be updated.")
  let title ← parseTitle (field data "title")
  let schedule ← parsedIfGiven (field data "schedule") (parseSchedule env now)
  let action ← parsedIfGiven (field data "action") (parseAction config controller)
  if title.isNone && schedule.isNone && action.isNone then
    .error (throws .invalidRequest "An update names at least one of title, schedule or action.")
  .ok { title, schedule, action }

/-- `update` up to its await: the parts are written in place one by one. -/
def applyPatch (controller : NodeId) (task : Task) (patch : Patch) (input : Input) : Next :=
  let task := { task with
    title := patch.title.or task.title
    action := patch.action.getD task.action
    schedule := patch.schedule.getD task.schedule }
  let nextRunAt : Except Thrown (Option Int) := match patch.schedule with
    | none => .ok task.nextRunAt
    | some schedule =>
      if task.state = .active then nextFor env schedule (input.clock 1) false else .ok none
  match nextRunAt with
  -- The new definition is in place although the update fails.
  | .error _ => (g.remember fun s => s.setTask task, none)
  | .ok nextRunAt =>
    let task := change { task with nextRunAt := nextRunAt, updatedAt := input.clock 2 }
      { changedAt := input.clock 3, actor := controller, kind := .update, title := patch.title
        schedule := patch.schedule, definition := patch.action }
    (g.remember fun s => s.setTask task, some (.saving task.id))

/-- `cancel` and `remove`: the task leaves the schedule, and its runs are stopped once it is saved. -/
def endTask (controller : NodeId) (task : Task) (state : TaskState) (kind : ChangeKind) (input : Input) : Next :=
  let task := change { task with state := state, nextRunAt := none, updatedAt := input.clock 0 }
    { changedAt := input.clock 1, actor := controller, kind := kind }
  (g.remember fun s => s.setTask task, some (.ending task.id))

def resumeTask (controller : NodeId) (task : Task) (input : Input) : Next :=
  let task := { task with state := .active }
  match nextFor env task.schedule (input.clock 0) (!(task.schedule matches .cron _)) with
  | .error _ => (g.remember fun s => s.setTask task, none)
  | .ok nextRunAt =>
    let task := change { task with nextRunAt := nextRunAt, updatedAt := input.clock 1 }
      { changedAt := input.clock 2, actor := controller, kind := .resume }
    (g.remember fun s => s.setTask task, some (.saving task.id))

def payloadOf (data : Option Json) : Except Thrown Json :=
  match data with
  | none => .ok (.object [])
  | some value => recordOf (some value) "The operation payload"

/-- `driver.execute` up to its first await. -/
def operate (resourceId : String) (operation : Operation) (data : Option Json) (input : Input) : Next :=
  refused g do
    let controller ← controllerOf g.scheduler.config resourceId
    let data ← payloadOf data
    match operation with
    | .mount =>
      let task ← mountedTask env controller data g.scheduler.config input
      .ok (g, some (.mountThread task))
    | .update =>
      let task ← requireTask g.scheduler.tasks controller data
      let patch ← parsePatch env g.scheduler.config controller task data (input.clock 0)
      .ok (applyPatch env g controller task patch input)
    | .cancel =>
      let task ← requireTask g.scheduler.tasks controller data
      .ok (if task.state = .active then endTask g controller task .cancelled .cancel input else (g, none))
    | .resume =>
      let task ← requireTask g.scheduler.tasks controller data
      if task.state = .removed then
        .error (throws .invalidRequest "A removed mount cannot be resumed.")
      else
        .ok (if task.state = .active then (g, none) else resumeTask env g controller task input)
    | .remove =>
      let task ← requireTask g.scheduler.tasks controller data
      .ok (if task.state = .removed then (g, none) else endTask g controller task .removed .remove input)

/-! ## Stopping and loading -/

/-- The next entry of `active` the stop comes to, if any is left. -/
def stopNext (pick : RunId) : Next :=
  match g.scheduler.active.get pick with
  | some entry => (g, some (.stopLoad pick entry.taskId))
  | none => if g.scheduler.active.rows.isEmpty then (g, none) else (g, some .stopWait)

def repairEntry (at_ : Int) : PushEntry :=
  { taskId := run.taskId, runId := run.id, state := .pending, attempts := 0, nextAttemptAt := at_ }

def Run.interrupted (at_ : Int) : Run :=
  { run with
    state := .interrupted
    finishedAt := some at_
    error := some ⟨.interrupted, commandInterrupted⟩
    push := run.push.map fun push =>
      if push.state = .accepted then push else { push with state := .pending, attempts := 0 } }

def Run.owesPush : Bool := run.push.any fun push => push.state ≠ .accepted

/-- The repair of one run by `stop`, from its task on. -/
def stopRepair : Next :=
  match g.scheduler.tasks.get run.taskId with
  | none => (g, some (.stopRun run))
  | some task =>
    let once := task.schedule matches .once _
    let task := { task with
      lastRun := some (runSummary run)
      updatedAt := run.finishedAt.getD 0
      state := if task.state = .active && once then .completed else task.state }
    (g.remember fun s => s.setTask task, some (.stopTask run))

/-- `stop` once it has loaded the record of a run. -/
def stopLoaded (runId : RunId) (loaded : Option Run) (input : Input) : Next :=
  match loaded with
  | none => stopNext (g.remember fun s => { s with active := s.active.delete runId }) input.pick
  | some run =>
    if run.state ≠ .running then
      stopNext (g.remember fun s => { s with active := s.active.delete runId }) input.pick
    else
      let repaired := run.interrupted (input.clock 0)
      if run.owesPush then
        let entry := repairEntry run (input.clock 0)
        (g.remember fun s => { s with push := s.push.put entry.slot entry },
          some (.stopPush repaired entry))
      else stopRepair g repaired

/-- A stored task as `loadStore` arms it again; `none` if it stays as it is. -/
def rearmed (now : Int) (ledger : List TaskId) (task : Task) : Except Thrown (Option Task) :=
  let missed := task.nextRunAt.all (· ≤ now)
  if task.state ≠ .active then .ok none
  else
    match task.schedule with
    | .once _ =>
      -- A finished or interrupted attempt counts as fired.
      if ledger.contains task.id then .ok (some { task with state := .completed, nextRunAt := none })
      else if task.nextRunAt.isNone then .ok (some { task with nextRunAt := some now })
      else .ok none
    -- Missed occurrences coalesce into one immediate run.
    | .interval _ => .ok (if missed then some { task with nextRunAt := some now } else none)
    | .cron expression =>
      if missed then do
        match ← env.nextCron expression now with
        | none => .ok (some { task with nextRunAt := none, state := .completed })
        | some next => .ok (some { task with nextRunAt := some next })
      else .ok none

/-- The second loop of `loadStore`. -/
def loadTasks (env : Env) (g : Gateway) (now : Int) (ledger : List TaskId) : List TaskId → Next
  | [] => (g.remember fun s => { s with started := true }, none)
  | id :: rest =>
    match (g.scheduler.tasks.get id).map (rearmed env now ledger) with
    | none | some (.ok none) => loadTasks env g now ledger rest
    | some (.error _) => (g, none)
    | some (.ok (some task)) =>
      (g.remember fun s => s.setTask task, some (.loadTask now id rest ledger))

def noteRepaired (at_ : Int) : Gateway :=
  match g.scheduler.tasks.get run.taskId with
  | none => g
  | some task => g.remember fun s =>
      s.setTask { task with lastRun := some (runSummary run), updatedAt := at_ }

/-- The first loop of `loadStore`: runs that were running are interrupted. -/
def loadRuns (env : Env) (g : Gateway) (now : Int) (ledger : List TaskId) : List Run → Next
  | [] => loadTasks env g now ledger (g.scheduler.tasks.rows.map Prod.fst)
  | run :: rest =>
    if run.state ≠ .running then loadRuns env g now ledger rest
    else
      let repaired := run.interrupted now
      let g := noteRepaired g repaired now
      if run.owesPush then
        let entry := repairEntry run now
        (g.remember fun s => { s with push := s.push.put entry.slot entry },
          some (.loadPush now entry repaired rest ledger))
      else (g, some (.loadRun now repaired rest ledger))

/-- `loadStore` once it has read the store. -/
def loaded (now : Int) : Next :=
  let runs := g.store.runs.rows.map Prod.snd
  let g := g.remember fun s => { s with
    tasks := g.store.tasks.rows.foldl (fun tasks row => tasks.put row.1 row.2) s.tasks
    push := g.store.pushes.rows.foldl (fun push row => push.put row.1 row.2) s.push }
  loadRuns env g now (runs.map Run.taskId) runs

/-! ## The machine -/

def resume (input : Input) : Flow → Next
  -- `startDue`
  | .skipSave nowMs task skip rest =>
    match input.outcome with
    | .error _ => (g.remember Scheduler.endTick, none)
    | .ok _ =>
      let g := g.saveRun skip
      match g.scheduler.tasks.get task with
      | none => (g, some (.skipTask nowMs task rest))
      | some row =>
        match advance env row.schedule nowMs with
        | .error _ => (g.remember Scheduler.endTick, none)
        | .ok next =>
          (g.remember fun s => s.setTask { row with nextRunAt := next, updatedAt := nowMs },
            some (.skipTask nowMs task rest))
  | .skipTask nowMs task rest =>
    match input.outcome with
    | .error _ => (g.remember Scheduler.endTick, none)
    | .ok _ => (g.saveTask task, some (.due nowMs rest))
  | .due nowMs rest => startDue env g nowMs input.draw rest
  -- `startRun`: nothing was started when a record could not be saved.
  | .startSave nowMs task run child rest =>
    match input.outcome with
    | .error _ => (g.remember fun s => (s.endRun run).endTick, none)
    | .ok _ => (g.saveRun run, some (.startTask nowMs task run child rest))
  | .startTask nowMs task run child rest =>
    match input.outcome with
    | .error _ => (g.remember fun s => (s.endRun run).endTick, none)
    | .ok _ =>
      -- The run goes on by itself.
      let (g, flow) := executeRun (g.saveTask task) task run child input
      match flow with
      | none => (g, some (.due nowMs rest))
      | some flow => (g.remember fun s => s.launch flow, some (.due nowMs rest))
  -- `executeRun`
  | .commanding task run child =>
    match input.outcome with
    | .error thrown => finishRun g task run child (thrownOutcome thrown) input
    | .ok _ =>
      let g := g.remember fun s => s.setChild child fun handle => { handle with alive := false }
      finishRun g task run child (commandOutcome g.scheduler.stopping (cancelled g child) input.exitCode
        input.summary input.bytes) input
  | .resolving task run child =>
    match input.outcome with
    | .error thrown => finishRun g task run child (thrownOutcome thrown) input
    | .ok _ => (g, some (.calling task run child input.readOnly))
  | .calling task run child readOnly =>
    match input.outcome with
    | .error thrown => finishRun g task run child (thrownOutcome thrown) input
    | .ok _ =>
      finishRun g task run child (toolOutcome g.scheduler.stopping (cancelled g child) readOnly
        input.answer input.summary input.bytes) input
  -- `finishRun`
  | .finishSkip task run child skip =>
    match input.outcome with
    | .error _ => (g.remember fun s => s.endRun run, none)
    | .ok _ =>
      let g := g.saveRun skip
      match g.scheduler.tasks.get task with
      | none => queueResult g task run child
      | some row =>
        match advance env row.schedule (input.clock 0) with
        | .error _ => (g.remember fun s => s.endRun run, none)
        | .ok next =>
          queueResult (g.remember fun s => s.setTask { row with nextRunAt := next }) task run child
  | .finishPush task run child entry =>
    match input.outcome with
    | .error _ => (g.remember fun s => s.endRun run, none)
    | .ok _ => (g.savePush entry, some (.finishRun task run child))
  | .finishRun task run child =>
    match input.outcome with
    | .error _ => (g.remember fun s => s.endRun run, none)
    | .ok _ => (g.saveRun run, some (.finishTask task run child))
  | .finishTask task run _ =>
    match input.outcome with
    | .error _ => (g.remember fun s => s.endRun run, none)
    | .ok _ => ((g.saveTask task).remember fun s => s.endRun run, none)
  -- `attemptPush`
  | .pushLoad entry =>
    match input.outcome, g.store.runs.get entry.slot with
    | .error _, _ => (g.remember fun s => s.endPush entry, none)
    | .ok _, none => (g.remember fun s => { s with push := s.push.delete entry.slot }.endPush entry, none)
    | .ok _, some run =>
      match run.push with
      | none => (g.remember fun s => { s with push := s.push.delete entry.slot }.endPush entry, none)
      | some push => (g, some (.pushResolve entry run { push with attempts := push.attempts + 1 }))
  | .pushResolve entry run push =>
    match input.outcome with
    | .ok _ => (g, some (.pushSend entry run push))
    -- A controller that is not found yet is no refusal.
    | .error thrown =>
      let message := (failureOf thrown).message
      if input.clock 0 > push.retryUntil then
        settle g entry run push .expired (some message) false (input.clock 1)
      else settle g entry run push .pending (some ("target-unresolved: " ++ message)) false (input.clock 1)
  | .pushSend entry run push =>
    match input.outcome with
    | .error thrown => sendFailed g entry run push thrown input
    | .ok _ => sent g entry run push input
  | .pushQueue entry run push guarded =>
    match input.outcome with
    | .error thrown => pushFailed g entry run push guarded thrown input
    | .ok _ => (g.savePush entry, some (.pushRun entry run push guarded))
  | .pushDrop entry run push guarded =>
    match input.outcome with
    | .error thrown => pushFailed g entry run push guarded thrown input
    | .ok _ => (g.dropPush entry, some (.pushRun entry run push guarded))
  | .pushRun entry run push guarded =>
    match input.outcome with
    | .error thrown => pushFailed g entry run push guarded thrown input
    | .ok _ => ((g.saveRun { run with push := some push }).remember fun s => s.endPush entry, none)
  -- Operations
  | .mountThread task =>
    match input.outcome with
    | .error _ => (g, none)
    | .ok _ => (g.remember fun s => s.setTask task, some (.saving task.id))
  | .saving task =>
    match input.outcome with
    | .error _ => (g, none)
    | .ok _ => (g.saveTask task, none)
  | .ending task =>
    match input.outcome with
    | .error _ => (g, none)
    | .ok _ => ((g.saveTask task).remember fun s => s.stopRuns (· = task), none)
  -- `stop`
  | .stopWait => stopNext g input.pick
  | .stopLoad runId task =>
    match input.outcome with
    | .error _ => (g, none)
    | .ok _ => stopLoaded g runId (g.store.runs.get (task, runId)) input
  | .stopPush run entry =>
    match input.outcome with
    | .error _ => (g, none)
    | .ok _ => stopRepair (g.savePush entry) run
  | .stopTask run =>
    match input.outcome with
    | .error _ => (g, none)
    | .ok _ => (g.saveTask run.taskId, some (.stopRun run))
  | .stopRun run =>
    match input.outcome with
    | .error _ => (g, none)
    | .ok _ => stopNext ((g.saveRun run).remember fun s => s.endRun run) input.pick
  -- `loadStore`
  | .loadScan now =>
    match input.outcome with
    | .error _ => (g, none)
    | .ok _ => loaded env g now
  | .loadPush now entry run runs ledger =>
    match input.outcome with
    | .error _ => (g, none)
    | .ok _ => (g.savePush entry, some (.loadRun now run runs ledger))
  | .loadRun now run runs ledger =>
    match input.outcome with
    | .error _ => (g, none)
    | .ok _ => loadRuns env (g.saveRun run) now ledger runs
  | .loadTask now task tasks ledger =>
    match input.outcome with
    | .error _ => (g, none)
    | .ok _ => loadTasks env (g.saveTask task) now ledger tasks

inductive Act where
  -- A new process with this configuration; the one before is gone.
  | boot (config : Option Config) (now : Int)
  | tick (order : List TaskId) (input : Input)
  | operate (resourceId : String) (operation : Operation) (data : Option Json) (input : Input)
  | stop
  | resume (flow : Nat) (input : Input)

/-- The memory of a new process: `start` begins to load the store when there is anything to schedule. -/
def boot (config : Option Config) (now : Int) : Scheduler :=
  if config.all fun config => config.controllers.isEmpty then { config := config, started := true }
  else Scheduler.launch { config := config } (.loadScan now)

def begun (next : Next) : Gateway :=
  match next with
  | (g, none) => g
  | (g, some flow) => g.remember fun s => s.launch flow

/-- `tick` up to its first await.  The clock is read for the pushes, then for the due tasks. -/
def tick (order : List TaskId) (input : Input) : Next :=
  let g := g.remember fun s => schedulePushes { s with ticking := true } (input.clock 0)
  startDue env g (input.clock 1) input.draw order

def step : Act → Option Gateway
  | .boot config now => some { g with scheduler := boot config now }
  | .tick order input =>
    let s := g.scheduler
    if !s.started then none
    else if s.stopping || s.ticking || s.config.isNone then some g
    else if inOrder s (input.clock 1) order then some (begun (tick env g order input)) else none
  | .operate resourceId operation data input =>
    if !g.scheduler.started then none
    else some (begun (operate env g resourceId operation data input))
  | .stop =>
    if !g.scheduler.started then none
    else if g.scheduler.stopping then some g
    else some (g.remember fun s =>
      ({ s with stopping := true }.stopRuns fun _ => true).launch .stopWait)
  | .resume id input =>
    match g.scheduler.flows.get id with
    | none => none
    | some flow =>
      match resume env g input flow with
      | (g, none) => some (g.remember fun s => { s with flows := s.flows.delete id })
      | (g, some flow) => some (g.remember fun s => { s with flows := s.flows.put id flow })

end

/-! ## Scenarios -/

namespace Scenario

/-- A gateway without cron expressions, whose JSON numbers are all a second. -/
def env : Env where
  owner := "gw"
  nextCron _ _ := .ok none
  dateParse _ := none
  integer _ := some 1000

/-- `ann` may mount one command. -/
def config : Config where
  controllers := ["ann"]
  commands := ["sync"]

def succeeds (now : Int) (draw : String := "") : Input := { clock := fun _ => now, draw := draw }

def everySecond : Json :=
  .object [("schedule", .object [("kind", .string "interval"), ("every_ms", .number "1000")]),
    ("action", .object [("kind", .string "command"), ("command", .string "sync")])]

/-- The gateway starts over an empty store, and `ann` mounts the command as `t`. -/
def mounting : List Act :=
  [.boot (some config) 0, .resume 0 (succeeds 0), .operate "mounts:ann" .mount (some everySecond) (succeeds 0 "t"),
    .resume 1 (succeeds 0), .resume 1 (succeeds 0)]

/-- The first occurrence starts as the run `r`. -/
def starting : List Act :=
  [.tick ["t"] (succeeds 0 "r"), .resume 3 (succeeds 0), .resume 3 (succeeds 0), .resume 3 (succeeds 0)]

def skipping : List Act :=
  [.tick ["t"] (succeeds 1000 "skip"), .resume 5 (succeeds 1000)]

end Scenario

end Onlyne.Mounts
