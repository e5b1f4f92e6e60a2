import Onlyne.Core.Mutate
import Onlyne.Messages.Types

/-!
# Mounts: data model

The records of `mounts.ts`: the tasks a controller mounts on a gateway, the ledger of their runs and the queue
of the results to push, with the configuration that says who may mount what.

An instant is a number of milliseconds: the source keeps it as the text `toISOString` prints and reads it with
`Date.parse`, which are inverse to each other; out of their range `toISOString` throws (`iso`).
-/

namespace Onlyne.Mounts

open Foundation
open Messages (ThreadRef)

abbrev TaskId := String

abbrev RunId := String

/-! ## Definitions of a task -/

inductive Schedule where
  | interval (everyMs : Int)
  | cron (expression : String)
  | once (instant : Int)
  deriving DecidableEq, Repr

inductive Action where
  | command (command : String)
  | mcp (server tool : String) (arguments : Option Json)
  deriving DecidableEq, Repr

inductive TaskState where
  | active
  | cancelled
  | completed
  | removed
  deriving DecidableEq, Repr

inductive RunState where
  | running
  | succeeded
  | failed
  | unknown
  | cancelled
  | interrupted
  | skipped
  deriving DecidableEq, Repr

/-! ## Records -/

/-- The code of what a run reports: one of the library, or one of the scheduler's own. -/
inductive RunErrorCode where
  | onlyne (code : ErrorCode)
  | overlap
  | interrupted
  | cancelled
  | exitNonzero
  | toolRejected
  deriving DecidableEq, Repr

structure RunError where
  code : RunErrorCode
  message : String
  deriving DecidableEq, Repr

inductive PushState where
  | pending
  | unknown
  | accepted
  | refused
  | expired
  deriving DecidableEq, Repr

/-- The push of the result of a run, as its ledger record has it. -/
structure Push where
  messageId : String
  state : PushState
  attempts : Nat
  retryUntil : Int
  nextAttemptAt : Option Int := none
  receipt : Option (ThreadRef × String) := none
  error : Option String := none
  deriving DecidableEq, Repr

/-- A run in the ledger.  It keeps the action it started with. -/
structure Run where
  id : RunId
  taskId : TaskId
  controller : NodeId
  action : Action
  thread : ThreadRef
  state : RunState
  startedAt : Int
  finishedAt : Option Int := none
  exitCode : Option Int := none
  outputSummary : String := ""
  outputBytes : Nat := 0
  error : Option RunError := none
  -- A skipped occurrence has nothing to push.
  push : Option Push := none
  deriving DecidableEq, Repr

structure RunSummary where
  id : RunId
  state : RunState
  startedAt : Int
  finishedAt : Option Int
  exitCode : Option Int
  deriving DecidableEq, Repr

def runSummary (run : Run) : RunSummary where
  id := run.id
  state := run.state
  startedAt := run.startedAt
  finishedAt := run.finishedAt
  exitCode := run.exitCode

inductive ChangeKind where
  | mount
  | update
  | cancel
  | resume
  | remove
  deriving DecidableEq, Repr

structure Change where
  changedAt : Int
  actor : NodeId
  kind : ChangeKind
  title : Option String := none
  schedule : Option Schedule := none
  definition : Option Action := none
  deriving DecidableEq, Repr

structure Task where
  id : TaskId
  controller : NodeId
  state : TaskState
  title : Option String := none
  schedule : Schedule
  action : Action
  nextRunAt : Option Int
  -- One thread for each task.
  thread : ThreadRef
  createdAt : Int
  updatedAt : Int
  changes : List Change := []
  lastRun : Option RunSummary := none
  deriving DecidableEq, Repr

structure PushEntry where
  taskId : TaskId
  runId : RunId
  state : PushState
  attempts : Nat
  nextAttemptAt : Int
  deriving DecidableEq, Repr

def PushEntry.slot (entry : PushEntry) : TaskId × RunId := (entry.taskId, entry.runId)

structure Store where
  tasks : Table TaskId Task := ∅
  runs : Table (TaskId × RunId) Run := ∅
  pushes : Table (TaskId × RunId) PushEntry := ∅

def Store.saveTask (store : Store) (task : Task) : Store :=
  { store with tasks := store.tasks.put task.id task }

def Store.saveRun (store : Store) (run : Run) : Store :=
  { store with runs := store.runs.put (run.taskId, run.id) run }

def Store.savePush (store : Store) (entry : PushEntry) : Store :=
  { store with pushes := store.pushes.put entry.slot entry }

def Store.dropPush (store : Store) (entry : PushEntry) : Store :=
  { store with pushes := store.pushes.delete entry.slot }

/-! ## Configuration -/

/-- The scheduler's part of the configuration of a gateway. -/
structure Config where
  controllers : List NodeId
  -- The ids of the allow-listed commands, and the allow-listed tools with their servers.
  commands : List String := []
  tools : List (String × String) := []
  -- Every configured MCP server with the controllers it lists.
  servers : List (String × List NodeId) := []
  deriving DecidableEq, Repr

/-- What the scheduler takes from outside and does not change. -/
structure Env where
  owner : NodeId
  -- `nextCronTime (parseCron expression)`; an expression that does not parse throws.
  nextCron : String → Int → Except Thrown (Option Int)
  dateParse : String → Option Int
  -- The value of a JSON number that is an integer.
  integer : String → Option Int

/-! ## Constants -/

def pushWindowMs : Int := 86400000

def maxChanges : Nat := 20

def retryCapMs : Nat := 60000

def terminalPush : ErrorCode → Bool
  | .invalidRequest | .forbidden | .notAMember | .idConflict | .revisionConflict | .conflict | .threadClosed
  | .payloadTooLarge | .unsupportedMediaType | .unsupportedDelivery | .ambiguousTarget => true
  | _ => false

/-- `toISOString`, which throws out of its range. -/
def iso (ms : Int) : Except Thrown Int :=
  if ms.natAbs ≤ 8640000000000000 then .ok ms else .error (.other "Invalid time value")

def failureOf : Thrown → RunError
  | .onlyne failure => ⟨.onlyne failure.code, failure.message⟩
  | .other text => ⟨.onlyne .internal, text⟩

/-- The changes of a task with one more, of which the last twenty are kept. -/
def change (task : Task) (entry : Change) : Task :=
  let changes := task.changes ++ [entry]
  { task with changes := changes.drop (changes.length - maxChanges) }

end Onlyne.Mounts
