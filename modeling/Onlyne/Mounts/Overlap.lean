import Onlyne.Mounts.Scheduler

/-!
# Mounts: runs never overlap

`startDue` looks for a run of the task in `active` and `startRun` enters the new one there before either of them
awaits anything, so no interleaving enters a second run of a task.  `resume_cases` says once what an act can do
to `active` and to the runs in flight; the invariant `Apart` follows from it case by case.
-/

namespace Onlyne.Mounts

open Foundation Table

/-! ## Runs in flight -/

def Flow.run? : Flow → Option (TaskId × RunId)
  | .startSave _ task run _ _ | .startTask _ task run _ _ | .commanding task run _ | .resolving task run _
  | .calling task run _ _ | .finishSkip task run _ _ | .finishPush task run _ _ | .finishRun task run _
  | .finishTask task run _ => some (task, run.id)
  | _ => none

def Flow.stops : Flow → Bool
  | .stopWait | .stopLoad _ _ | .stopPush _ _ | .stopTask _ | .stopRun _ => true
  | _ => false

/-- What decides which runs may start: the entries of `active`, the flows, and whether the gateway stops. -/
structure SameRuns (s s' : Scheduler) : Prop where
  active : s'.active = s.active
  stopping : s'.stopping = s.stopping
  flows : s'.flows = s.flows
  next : s'.next = s.next

theorem SameRuns.refl (s : Scheduler) : SameRuns s s := ⟨rfl, rfl, rfl, rfl⟩

variable {s s' : Scheduler} (config : Option Config) (now : Int)

theorem SameRuns.trans {s'' : Scheduler} (h : SameRuns s s') (h' : SameRuns s' s'') : SameRuns s s'' where
  active := h'.active.trans h.active
  stopping := h'.stopping.trans h.stopping
  flows := h'.flows.trans h.flows
  next := h'.next.trans h.next

/-- A part of a call that leaves the runs alone and, if it waits again, does so in a flow of this kind. -/
structure Leads (g : Gateway) (kind : Flow → Prop) (next : Next) : Prop where
  same : SameRuns g.scheduler next.1.scheduler
  flow : ∀ flow, next.2 = some flow → kind flow

/-- A part of a call that leaves the runs alone and waits again, in a flow of this kind. -/
def Waits (g : Gateway) (kind : Flow → Prop) (next : Next) : Prop :=
  ∃ g' flow, next = (g', some flow) ∧ SameRuns g.scheduler g'.scheduler ∧ kind flow

def Carries (run : TaskId × RunId) (flow : Flow) : Prop := flow.run? = some run ∧ flow.stops = false

def Plain (flow : Flow) : Prop := flow.run? = none ∧ flow.stops = false

def Stops (flow : Flow) : Prop := flow.run? = none ∧ flow.stops = true

section Parts

variable {g g' : Gateway} {kind : Flow → Prop} {next : Next} {flow : Flow} (env : Env)

theorem Leads.done (hsame : SameRuns g.scheduler g'.scheduler := by exact ⟨rfl, rfl, rfl, rfl⟩) :
    Leads g kind (g', none) where
  same := hsame
  flow _ heq := by cases heq

theorem Waits.at (hsame : SameRuns g.scheduler g'.scheduler := by exact ⟨rfl, rfl, rfl, rfl⟩)
    (hkind : kind flow := by exact ⟨rfl, rfl⟩) : Waits g kind (g', some flow) :=
  ⟨g', flow, rfl, hsame, hkind⟩

theorem Waits.after (h : Waits g' kind next)
    (hsame : SameRuns g.scheduler g'.scheduler := by exact ⟨rfl, rfl, rfl, rfl⟩) : Waits g kind next := by
  obtain ⟨g'', flow, rfl, hlast, hkind⟩ := h
  exact ⟨g'', flow, rfl, hsame.trans hlast, hkind⟩

theorem Waits.leads (h : Waits g kind next) : Leads g kind next := by
  obtain ⟨g', flow, rfl, hsame, hkind⟩ := h
  refine ⟨hsame, fun other heq => ?_⟩
  cases heq
  exact hkind

theorem Leads.at (hsame : SameRuns g.scheduler g'.scheduler := by exact ⟨rfl, rfl, rfl, rfl⟩)
    (hkind : kind flow := by exact ⟨rfl, rfl⟩) : Leads g kind (g', some flow) :=
  Waits.leads (Waits.at hsame hkind)

theorem Leads.after (h : Leads g' kind next)
    (hsame : SameRuns g.scheduler g'.scheduler := by exact ⟨rfl, rfl, rfl, rfl⟩) : Leads g kind next where
  same := hsame.trans h.same
  flow := h.flow

theorem saveTask_same (g : Gateway) (task : TaskId) : SameRuns g.scheduler (g.saveTask task).scheduler := by
  unfold Gateway.saveTask
  cases g.scheduler.tasks.get task <;> exact .refl _

/-! ### Runs -/

theorem queueResult_waits (g : Gateway) (task : TaskId) (run : Run) (child : Nat) :
    Waits g (Carries (task, run.id)) (queueResult g task run child) := by
  unfold queueResult
  cases run.push with
  | none => exact .at
  | some => exact .at

theorem finishRun_waits (g : Gateway) (task : TaskId) (run : Run) (child : Nat) (outcome : RunOutcome)
    (input : Input) : Waits g (Carries (task, run.id)) (Mounts.finishRun g task run child outcome input) := by
  have hqueue (g' : Gateway) (hsame : SameRuns g.scheduler g'.scheduler) : Waits g (Carries (task, run.id))
        (queueResult g' task (run.finished outcome (input.clock 0)) child) :=
    (queueResult_waits g' task _ child).after hsame
  unfold Mounts.finishRun
  dsimp only
  split
  · exact hqueue g (.refl _)
  · split
    · exact hqueue _ ⟨rfl, rfl, rfl, rfl⟩
    · split
      · exact hqueue _ ⟨rfl, rfl, rfl, rfl⟩
      · split
        · exact .at
        · exact hqueue _ ⟨rfl, rfl, rfl, rfl⟩

theorem executeRun_waits (g : Gateway) (task : TaskId) (run : Run) (child : Nat) (input : Input) :
    Waits g (Carries (task, run.id)) (executeRun g task run child input) := by
  unfold executeRun
  cases run.action with
  | command =>
    dsimp only
    split_ifs
    · exact finishRun_waits g task run child _ input
    · cases input.spawn with
      | error => exact finishRun_waits g task run child _ input
      | ok => exact .at
  | mcp =>
    dsimp only
    split_ifs
    · exact finishRun_waits g task run child _ input
    · exact .at

/-! ### Operations and the load -/

theorem loadTasks_leads (g : Gateway) (now : Int) (ledger tasks : List TaskId) :
    Leads g Plain (loadTasks env g now ledger tasks) := by
  induction tasks with
  | nil => exact .done
  | cons id rest ih =>
    unfold loadTasks
    split
    · exact ih
    · exact ih
    · exact .done
    · exact .at

theorem loadRuns_leads (g : Gateway) (now : Int) (ledger : List TaskId) (runs : List Run) :
    Leads g Plain (loadRuns env g now ledger runs) := by
  induction runs with
  | nil => exact loadTasks_leads ..
  | cons run rest ih =>
    have hsame : SameRuns g.scheduler (noteRepaired g (run.interrupted now) now).scheduler := by
      unfold noteRepaired
      cases g.scheduler.tasks.get (run.interrupted now).taskId with
      | none => exact .refl _
      | some => exact ⟨rfl, rfl, rfl, rfl⟩
    unfold loadRuns
    split
    · exact ih
    · split
      · exact .at (hsame.trans ⟨rfl, rfl, rfl, rfl⟩)
      · exact .at hsame

theorem refused_cases {P : Next → Prop} {result : Except Thrown Next} (hrfs : P (g, none))
    (h : ∀ next, result = .ok next → P next) : P (refused g result) := by
  cases result with
  | error => exact hrfs
  | ok next => exact h next rfl

theorem operate_leads (g : Gateway) (resourceId : String) (operation : Operation)
    (data : Option Json) (input : Input) : Leads g Plain (operate env g resourceId operation data input) := by
  refine refused_cases .done fun next hnext => ?_
  obtain ⟨controller, -, hnext⟩ := bind_eq_ok.mp hnext
  obtain ⟨payload, -, hnext⟩ := bind_eq_ok.mp hnext
  cases operation
  all_goals obtain ⟨task, -, hnext⟩ := bind_eq_ok.mp hnext
  all_goals (try obtain ⟨patch, -, hnext⟩ := bind_eq_ok.mp hnext)
  all_goals (repeat' split at hnext)
  all_goals cases hnext
  all_goals
    (try simp only [applyPatch, resumeTask])
    repeat' split
  all_goals first
    | exact .at
    | exact .done

/-! ### The stop -/

theorem stopNext_leads (g : Gateway) (pick : RunId) : Leads g Stops (stopNext g pick) := by
  unfold stopNext
  split
  · exact .at
  · split_ifs
    · exact .done
    · exact .at

theorem stopRepair_leads (g : Gateway) (run : Run) : Leads g Stops (stopRepair g run) := by
  unfold stopRepair
  split
  · exact .at
  · exact .at

end Parts

/-! ## What an act does to the runs -/

inductive Resumed (g : Gateway) (input : Input) (flow : Flow) : Next → Prop where
  -- It carries what it carried.
  | goesOn {next : Next} (leads : Leads g (fun f => f.run? = flow.run? ∧ f.stops = flow.stops) next)
      (done : next.2 = none → flow.run? = none) : Resumed g input flow next
  -- Its run is over.
  | ends {g' : Gateway} {run : TaskId × RunId} (carries : Carries run flow)
      (same : SameRuns { g.scheduler with active := g.scheduler.active.delete run.2 } g'.scheduler) :
      Resumed g input flow (g', none)
  -- A run of a task starts that has none in `active`.
  | starts {g' : Gateway} {task child flow'} (plain : Plain flow)
      (free : g.scheduler.runs task = false) (going : g.scheduler.stopping = false)
      (same : SameRuns { g.scheduler with
        active := g.scheduler.active.put input.draw ⟨task, child⟩
        next := g.scheduler.next + 1 } g'.scheduler)
      (carries : Carries (task, input.draw) flow') : Resumed g input flow (g', some flow')
  -- Its run goes on in a flow of its own.
  | launches {g' : Gateway} {run flow' own} (carries : Carries run flow)
      (same : SameRuns (g.scheduler.launch own) g'.scheduler) (owns : Carries run own)
      (plain : Plain flow') : Resumed g input flow (g', some flow')
  -- The stop drops an entry of `active`.
  | drops {next id} (stops : Stops flow)
      (leads : Leads (g.remember fun s => { s with active := s.active.delete id }) Stops next) :
      Resumed g input flow next

section Resume

variable {env : Env} {g : Gateway} {input : Input} {flow : Flow} {next : Next} {run : TaskId × RunId}

theorem Resumed.idle (hrun : flow.run? = none)
    (h : Leads g (fun f => f.run? = none ∧ f.stops = flow.stops) next) : Resumed g input flow next := by
  refine .goesOn ⟨h.same, fun f hf => ?_⟩ fun _ => hrun
  exact ⟨(h.flow f hf).1.trans hrun.symm, (h.flow f hf).2⟩

theorem Resumed.plain (h : Leads g Plain next) (hpl : Plain flow := by exact ⟨rfl, rfl⟩) : Resumed g input flow next :=
  .idle hpl.1 (hpl.2.symm ▸ h)

theorem Resumed.stops (h : Leads g Stops next) (hstops : Stops flow := by exact ⟨rfl, rfl⟩) : Resumed g input flow next :=
  .idle hstops.1 (hstops.2.symm ▸ h)

theorem Resumed.carries (h : Waits g (Carries run) next) (hcar : Carries run flow := by exact ⟨rfl, rfl⟩) :
    Resumed g input flow next := by
  obtain ⟨g', flow', rfl, hsame, hrun, hstops⟩ := h
  refine .goesOn (.at hsame ?_) fun hnone => ?_
  · exact ⟨hrun.trans hcar.1.symm, hstops.trans hcar.2.symm⟩
  · cases hnone

/-- The loop of `startDue` starts a run, or leaves the runs alone. -/
theorem startDue_cases (g : Gateway) (nowMs : Int) (input : Input) {flow : Flow} (hpl : Plain flow)
    (rest : List TaskId) : Resumed g input flow (startDue env g nowMs input.draw rest) := by
  have hdone (g' : Gateway) (hsame : SameRuns g.scheduler g'.scheduler) :
      Resumed g input flow (g', none) := .goesOn (.done hsame) fun _ => hpl.1
  cases rest with
  | nil => exact hdone _ ⟨rfl, rfl, rfl, rfl⟩
  | cons =>
    unfold startDue
    dsimp only
    split
    · exact hdone _ ⟨rfl, rfl, rfl, rfl⟩
    · next hopen =>
      split
      · exact hdone _ ⟨rfl, rfl, rfl, rfl⟩
      · next task htask =>
        split
        · refine .goesOn (.at (.refl _) ⟨hpl.1.symm, hpl.2.symm⟩) fun h => ?_
          cases h
        · next hfree =>
          unfold startRun
          split
          · exact hdone _ ⟨rfl, rfl, rfl, rfl⟩
          · exact .starts hpl (Bool.eq_false_iff.mpr hfree) (Bool.eq_false_iff.mpr hopen)
              ⟨rfl, rfl, rfl, rfl⟩ ⟨rfl, rfl⟩

theorem stopLoaded_cases (g : Gateway) (runId : RunId) (task : TaskId) (loaded : Option Run) (input : Input) :
    Resumed g input (.stopLoad runId task) (stopLoaded g runId loaded input) := by
  unfold stopLoaded
  cases loaded with
  | none => exact .drops ⟨rfl, rfl⟩ (stopNext_leads ..)
  | some =>
    dsimp only
    split
    · exact .drops ⟨rfl, rfl⟩ (stopNext_leads ..)
    · refine .stops ?_
      split
      · exact .at
      · exact stopRepair_leads ..

theorem resume_failed_cases {thrown : Thrown} (hfails : input.outcome = .error thrown) (flow : Flow) :
    Resumed g input flow (resume env g input flow) := by
  cases input
  cases hfails
  cases flow with
  | skipSave | skipTask | pushLoad | mountThread | saving | ending | loadScan | loadPush | loadRun | loadTask =>
    exact .plain .done
  | due nowMs rest => exact startDue_cases g nowMs _ ⟨rfl, rfl⟩ rest
  | startSave | startTask | finishSkip | finishPush | finishRun | finishTask =>
    exact .ends ⟨rfl, rfl⟩ ⟨rfl, rfl, rfl, rfl⟩
  | commanding | resolving | calling => exact .carries (finishRun_waits ..)
  | pushResolve | pushSend | pushQueue | pushDrop | pushRun =>
    refine .plain ?_
    simp only [resume, pushFailed, sendFailed, settle]
    repeat' split
    all_goals first
      | exact .at
      | exact .done
  | stopWait => exact .stops (stopNext_leads ..)
  | stopLoad | stopPush | stopTask | stopRun => exact .stops .done

theorem resume_answered_cases (hans : input.outcome = .ok ()) (flow : Flow) :
    Resumed g input flow (resume env g input flow) := by
  cases input
  cases hans
  cases flow with
  | skipSave =>
    refine .plain ?_
    dsimp only [resume]
    split
    · exact .at
    · split
      · exact .done
      · exact .at
  | skipTask nowMs task => exact .plain (.at (saveTask_same g task))
  | due nowMs rest => exact startDue_cases g nowMs _ ⟨rfl, rfl⟩ rest
  | startSave | resolving | finishPush | finishRun =>
    exact .carries .at
  | startTask nowMs task run child =>
    dsimp only [resume]
    obtain ⟨g', own, heq, hsame, howns⟩ := executeRun_waits (g.saveTask task) task run child _
    have hall := (saveTask_same g task).trans hsame
    rw [heq]
    have hflows : g'.scheduler.flows.put g'.scheduler.next own = g.scheduler.flows.put g.scheduler.next own := by
      rw [hall.flows, hall.next]
    have hnext := congrArg (· + 1) hall.next
    exact .launches ⟨rfl, rfl⟩ ⟨hall.active, hall.stopping, hflows, hnext⟩ howns ⟨rfl, rfl⟩
  | commanding => exact .carries ((finishRun_waits ..).after)
  | calling => exact .carries (finishRun_waits ..)
  | finishSkip =>
    dsimp only [resume]
    split
    · exact .carries ((queueResult_waits ..).after)
    · split
      · exact .ends ⟨rfl, rfl⟩ ⟨rfl, rfl, rfl, rfl⟩
      · exact .carries ((queueResult_waits ..).after)
  | finishTask task run =>
    have hsame := saveTask_same g task
    have hactv := congrArg (·.delete run.id) hsame.active
    exact .ends ⟨rfl, rfl⟩ ⟨hactv, hsame.stopping, hsame.flows, hsame.next⟩
  | pushLoad | pushSend =>
    refine .plain ?_
    simp only [resume, sent, settle]
    repeat' split
    all_goals first
      | exact .at
      | exact .done
  | pushResolve | pushQueue | pushDrop | mountThread | loadPush =>
    exact .plain .at
  | pushRun => exact .plain .done
  | saving task => exact .plain (.done (saveTask_same g task))
  | ending task => exact .plain (.done ((saveTask_same g task).trans ⟨rfl, rfl, rfl, rfl⟩))
  | stopWait => exact .stops (stopNext_leads ..)
  | stopLoad => exact stopLoaded_cases ..
  | stopPush => exact .stops ((stopRepair_leads ..).after)
  | stopTask => exact .stops (.at (saveTask_same g _))
  | stopRun => exact .drops ⟨rfl, rfl⟩ ((stopNext_leads ..).after)
  | loadScan | loadRun => exact .plain ((loadRuns_leads ..).after)
  | loadTask now task => exact .plain ((loadTasks_leads ..).after (saveTask_same g task))

/-- What a flow does to the runs when it goes on from its await. -/
theorem resume_cases (env : Env) (g : Gateway) (input : Input) (flow : Flow) :
    Resumed g input flow (resume env g input flow) := by
  cases hout : input.outcome with
  | error => exact resume_failed_cases hout flow
  | ok => exact resume_answered_cases hout flow

end Resume

/-! ## One run of a task in `active` -/

/-- No two entries of `active` are of one task. -/
def Exclusive (s : Scheduler) : Prop :=
  ∀ id id' entry entry', s.active.get id = some entry → s.active.get id' = some entry' →
    entry.taskId = entry'.taskId → id = id'

theorem Exclusive.delete (h : Exclusive s) (id : RunId) : Exclusive { s with active := s.active.delete id } := by
  intro r r' entry entry' hr hr'
  exact h r r' entry entry' (get_of_delete hr).2 (get_of_delete hr').2

theorem ne_of_free {task : TaskId} (hfree : s.runs task = false) {id : RunId} {entry : ActiveRun}
    (hent : s.active.get id = some entry) : entry.taskId ≠ task := by
  intro heq
  have hruns : s.runs task = true := List.any_eq_true.mpr ⟨(id, entry), mem_rows.mpr hent, decide_eq_true heq⟩
  rw [hfree] at hruns
  cases hruns

/-- A run may start where no run of its task is in `active`. -/
theorem Exclusive.put (h : Exclusive s) {task : TaskId} (hfree : s.runs task = false) (id : RunId)
    (child : Nat) : Exclusive { s with active := s.active.put id ⟨task, child⟩ } := by
  intro r r' entry entry' hr hr' htask
  rcases get_put_cases hr with ⟨rfl, rfl⟩ | ⟨-, hold⟩
  · rcases get_put_cases hr' with ⟨rfl, rfl⟩ | ⟨-, hold'⟩
    · rfl
    · exact absurd htask.symm (ne_of_free hfree hold')
  · rcases get_put_cases hr' with ⟨rfl, rfl⟩ | ⟨-, hold'⟩
    · exact absurd htask (ne_of_free hfree hold)
    · exact h r r' entry entry' hold hold' htask

theorem Exclusive.of_active (h : Exclusive s) (hactv : s'.active = s.active) : Exclusive s' := by
  unfold Exclusive
  rw [hactv]
  exact h

theorem Resumed.exclusive {g : Gateway} {input : Input} {flow : Flow} {next : Next}
    (h : Resumed g input flow next) (hs : Exclusive g.scheduler) : Exclusive next.1.scheduler := by
  cases h with
  | goesOn leads => exact hs.of_active leads.same.active
  | ends carries same => exact (hs.delete _).of_active same.active
  | starts plain free going same => exact (hs.put free _ _).of_active same.active
  | launches carries same => exact hs.of_active same.active
  | drops stops leads => exact (hs.delete _).of_active leads.same.active

/-! ## One run of a task in flight -/

def InFlight (s : Scheduler) (id : Nat) (run : TaskId × RunId) : Prop :=
  ∃ flow, s.flows.get id = some flow ∧ flow.run? = some run

/-- The run is in `active` under its task. -/
def Listed (s : Scheduler) (run : TaskId × RunId) : Prop :=
  ∃ entry, s.active.get run.2 = some entry ∧ entry.taskId = run.1

/-- Runs of one task are never in flight together.  Until the gateway stops this rests on `active`, which lists
every run in flight; from then on no run starts. -/
structure Apart (s : Scheduler) : Prop where
  numbered : ∀ id flow, s.flows.get id = some flow → id < s.next
  halting : ∀ id flow, s.flows.get id = some flow → flow.stops = true → s.stopping = true
  listed : s.stopping = false → ∀ id run, InFlight s id run → Listed s run
  apart : ∀ id id' task r r', InFlight s id (task, r) → InFlight s id' (task, r') → id = id'

namespace Apart

variable {s s' : Scheduler} {id : Nat} {flow : Flow} {run : TaskId × RunId} {r : RunId}

section

variable (h : Apart s)
include h

theorem fewer (hactv : s'.active = s.active) (hstop : s'.stopping = s.stopping) (hnext : s.next ≤ s'.next)
    (hflows : ∀ id flow, s'.flows.get id = some flow → s.flows.get id = some flow) : Apart s' := by
  have hfly {id : Nat} {run : TaskId × RunId} (hrun : InFlight s' id run) : InFlight s id run := by
    obtain ⟨flow, hflow, hruns⟩ := hrun
    exact ⟨flow, hflows id flow hflow, hruns⟩
  refine ⟨fun id flow hflow => ?_, fun id flow hflow hstops => ?_, fun hgo id run hrun => ?_,
    fun id id' task r r' hrun hrun' => ?_⟩
  · exact (h.numbered id flow (hflows id flow hflow)).trans_le hnext
  · exact hstop.trans (h.halting id flow (hflows id flow hflow) hstops)
  · obtain ⟨entry, hent, htask⟩ := h.listed (hstop.symm.trans hgo) id run (hfly hrun)
    exact ⟨entry, (congrArg (·.get run.2) hactv).trans hent, htask⟩
  · exact h.apart id id' task r r' (hfly hrun) (hfly hrun')

theorem of_same (hsame : SameRuns s s') : Apart s' := by
  refine h.fewer hsame.active hsame.stopping hsame.next.ge fun id flow hflow => ?_
  rwa [hsame.flows] at hflow

theorem drop (id : Nat) : Apart { s with flows := s.flows.delete id } :=
  h.fewer rfl rfl le_rfl fun _ _ hflow => (get_of_delete hflow).2

theorem put (hid : id < s.next) (hstops : flow.stops = true → s.stopping = true)
    (hlist : s.stopping = false → ∀ run, flow.run? = some run → Listed s run)
    (hapart : ∀ run, flow.run? = some run → ∀ other r, InFlight s other (run.1, r) → other = id) :
    Apart { s with flows := s.flows.put id flow } := by
  have hfly {other : Nat} {run : TaskId × RunId} (hrun : InFlight { s with flows := s.flows.put id flow } other run) :
      other = id ∧ flow.run? = some run ∨ InFlight s other run := by
    obtain ⟨found, hfnd, hruns⟩ := hrun
    rcases get_put_cases hfnd with ⟨rfl, rfl⟩ | ⟨-, hold⟩
    · exact .inl ⟨rfl, hruns⟩
    · exact .inr ⟨found, hold, hruns⟩
  refine ⟨fun other found hfnd => ?_, fun other found hfnd hfoundStops => ?_,
    fun hgo other run hrun => ?_, fun i i' task r r' hrun hrun' => ?_⟩
  · exact of_put h.numbered hfnd hid
  · rcases get_put_cases hfnd with ⟨rfl, rfl⟩ | ⟨-, hold⟩
    · exact hstops hfoundStops
    · exact h.halting other found hold hfoundStops
  · rcases hfly hrun with ⟨-, hcar⟩ | hold
    · exact hlist hgo run hcar
    · exact h.listed hgo other run hold
  · rcases hfly hrun with ⟨rfl, hcar⟩ | hold
    · rcases hfly hrun' with ⟨rfl, -⟩ | hold'
      · rfl
      · exact (hapart _ hcar i' r' hold').symm
    · rcases hfly hrun' with ⟨rfl, hcar'⟩ | hold'
      · exact hapart _ hcar' i r hold
      · exact h.apart i i' task r r' hold hold'

theorem put_idle (hid : id < s.next) (hrun : flow.run? = none)
    (hstops : flow.stops = true → s.stopping = true) : Apart { s with flows := s.flows.put id flow } := by
  refine h.put hid hstops (fun _ run hcar => ?_) fun run hcar => ?_
  · cases hrun.symm.trans hcar
  · cases hrun.symm.trans hcar

theorem replace {flow' : Flow} (hflow : s.flows.get id = some flow)
    (hrun : flow'.run? = flow.run?) (hstops : flow'.stops = flow.stops) :
    Apart { s with flows := s.flows.put id flow' } := by
  have hheld {run : TaskId × RunId} (hcar : flow'.run? = some run) : InFlight s id run :=
    ⟨flow, hflow, hrun.symm.trans hcar⟩
  refine h.put (h.numbered id flow hflow) (fun hstop => ?_) (fun hgo run hcar => ?_) fun run hcar other r hoth => ?_
  · exact h.halting id flow hflow (hstops.symm.trans hstop)
  · exact h.listed hgo id run (hheld hcar)
  · exact h.apart other id run.1 r run.2 hoth (hheld hcar)

theorem launch (hstops : flow.stops = true → s.stopping = true)
    (hlist : s.stopping = false → ∀ run, flow.run? = some run → Listed s run)
    (hapart : ∀ run, flow.run? = some run → ∀ other r, ¬InFlight s other (run.1, r)) : Apart (s.launch flow) := by
  have hmore : Apart { s with next := s.next + 1 } := h.fewer rfl rfl (Nat.le_succ _) fun _ _ => id
  exact hmore.put (Nat.lt_succ_self _) hstops hlist fun run hcar other r hoth =>
    absurd hoth (hapart run hcar other r)

theorem launch_idle (hrun : flow.run? = none)
    (hstops : flow.stops = true → s.stopping = true) : Apart (s.launch flow) := by
  refine h.launch hstops (fun _ run hcar => ?_) fun run hcar => ?_
  · cases hrun.symm.trans hcar
  · cases hrun.symm.trans hcar

/-- An entry of `active` may go once the gateway stops, or if no flow carries its run. -/
theorem unlist (hfree : s.stopping = false → ∀ id run, InFlight s id run → run.2 ≠ r) :
    Apart { s with active := s.active.delete r } := by
  refine ⟨h.numbered, h.halting, fun hgo id run hrun => ?_, h.apart⟩
  obtain ⟨entry, hent, htask⟩ := h.listed hgo id run hrun
  exact ⟨entry, (get_delete_ne _ (hfree hgo id run hrun)).trans hent, htask⟩

theorem list (hnew : s.active.get r = none) (entry : ActiveRun) :
    Apart { s with active := s.active.put r entry, next := s.next + 1 } := by
  refine ⟨fun id flow hflow => ?_, h.halting, fun hgo id run hrun => ?_, h.apart⟩
  · exact Nat.lt_succ_of_lt (h.numbered id flow hflow)
  · obtain ⟨found, hfnd, htask⟩ := h.listed hgo id run hrun
    have hne : run.2 ≠ r := by
      rintro rfl
      cases hnew.symm.trans hfnd
    exact ⟨found, (get_put_ne _ _ hne).trans hfnd, htask⟩

/-- While the gateway goes on, a task with no run in `active` has none in flight. -/
theorem not_inFlight (hgo : s.stopping = false) {task : TaskId}
    (hfree : s.runs task = false) (id : Nat) (r : RunId) : ¬InFlight s id (task, r) := by
  intro hrun
  obtain ⟨entry, hent, htask⟩ := h.listed hgo id (task, r) hrun
  exact ne_of_free hfree hent htask

end

end Apart

/-! ### What a call leaves -/

theorem SameRuns.put (h : SameRuns s s') (id : Nat) (flow : Flow) :
    SameRuns { s with flows := s.flows.put id flow } { s' with flows := s'.flows.put id flow } :=
  ⟨h.active, h.stopping, congrArg (·.put id flow) h.flows, h.next⟩

theorem SameRuns.drop (h : SameRuns s s') (id : Nat) :
    SameRuns { s with flows := s.flows.delete id } { s' with flows := s'.flows.delete id } :=
  ⟨h.active, h.stopping, congrArg (·.delete id) h.flows, h.next⟩

theorem SameRuns.launch (h : SameRuns s s') (flow : Flow) : SameRuns (s.launch flow) (s'.launch flow) where
  active := h.active
  stopping := h.stopping
  flows := by
    unfold Scheduler.launch
    rw [h.flows, h.next]
  next := congrArg (· + 1) h.next

/-- The memory once a flow has gone on: it is over, or stands at its next await. -/
def placed (id : Nat) (next : Next) : Scheduler :=
  match next with
  | (g, none) => { g.scheduler with flows := g.scheduler.flows.delete id }
  | (g, some flow) => { g.scheduler with flows := g.scheduler.flows.put id flow }

section Calls

variable {g : Gateway} {input : Input} {flow : Flow} {next : Next} {run : TaskId × RunId} {id : Nat}

variable {s : Scheduler}

/-- A run that ends leaves `active` with its flow. -/
theorem Apart.ends (h : Apart s) (hrun : InFlight s id run) :
    Apart { s with active := s.active.delete run.2, flows := s.flows.delete id } := by
  refine (h.drop id).unlist fun hgo other run' hoth hsame => ?_
  obtain ⟨flow', hflow', hcar⟩ := hoth
  obtain ⟨hne, hold⟩ := get_of_delete hflow'
  -- Both are listed under one identifier, so they are runs of one task.
  have hheld : InFlight s other run' := ⟨flow', hold, hcar⟩
  obtain ⟨entry, hent, htask⟩ := h.listed hgo id run hrun
  obtain ⟨entry', hent', htask'⟩ := h.listed hgo other run' hheld
  rw [hsame, hent] at hent'
  cases hent'
  have htsk : run'.1 = run.1 := htask'.symm.trans htask
  exact hne (h.apart other id run.1 run'.2 run.2 (htsk ▸ hheld) hrun)

theorem Apart.starts (h : Apart s) {task : TaskId} {r : RunId} {child : Nat}
    (hnew : s.active.get r = none) (hfree : s.runs task = false) (hgo : s.stopping = false)
    (hcar : Carries (task, r) flow) : let s' := { s with active := s.active.put r ⟨task, child⟩, next := s.next + 1 }
    Apart (s'.launch flow) ∧ ∀ id < s.next, Apart { s' with flows := s'.flows.put id flow } := by
  have hlist := h.list hnew ⟨task, child⟩
  have hlisted (run : TaskId × RunId) (hrun : flow.run? = some run) :
      Listed { s with active := s.active.put r ⟨task, child⟩, next := s.next + 1 } run := by
    cases hcar.1.symm.trans hrun
    exact ⟨_, get_put_self .., rfl⟩
  have hapart (run : TaskId × RunId) (hrun : flow.run? = some run) (other : Nat) (r' : RunId) :
      ¬InFlight s other (run.1, r') := by
    cases hcar.1.symm.trans hrun
    exact h.not_inFlight hgo hfree other r'
  have hstops {p : Prop} (hstop : flow.stops = true) : p := by
    rw [hcar.2] at hstop
    cases hstop
  refine ⟨hlist.launch hstops (fun _ => hlisted) hapart, fun id hid => ?_⟩
  exact hlist.put (Nat.lt_succ_of_lt hid) hstops (fun _ => hlisted) fun run hrun other r' hoth =>
    absurd hoth (hapart run hrun other r')

theorem Apart.launches (h : Apart s) {flow' own : Flow}
    (hrun : InFlight s id run) (howns : Carries run own) (hpl : Plain flow') :
    Apart { s.launch own with flows := (s.launch own).flows.put id flow' } := by
  have hstops {p : Prop} {f : Flow} (hfalse : f.stops = false) (hstop : f.stops = true) : p := by
    rw [hfalse] at hstop
    cases hstop
  have hid : id < s.next := by
    obtain ⟨flow, hflow, -⟩ := hrun
    exact h.numbered id flow hflow
  have hleft : Apart { s with flows := s.flows.put id flow' } := h.put_idle hid hpl.1 (hstops hpl.2)
  have hmv : Apart (Scheduler.launch { s with flows := s.flows.put id flow' } own) := by
    refine hleft.launch (hstops howns.2) (fun hgo run' hcar => ?_) fun run' hcar other r hoth => ?_
    · cases howns.1.symm.trans hcar
      exact h.listed hgo id run hrun
    · cases howns.1.symm.trans hcar
      obtain ⟨found, hfnd, hruns⟩ := hoth
      rcases get_put_cases hfnd with ⟨rfl, rfl⟩ | ⟨hne, hold⟩
      · cases hpl.1.symm.trans hruns
      · exact hne (h.apart other id run.1 r run.2 ⟨found, hold, hruns⟩ hrun)
  -- The two flows are written in the other order.
  refine hmv.fewer rfl rfl le_rfl fun other found hfnd => ?_
  simp only [Scheduler.launch, get_put] at hfnd ⊢
  split_ifs at hfnd ⊢
  · omega
  all_goals exact hfnd

theorem Resumed.apart (hnext : Resumed g input flow next) (h : Apart g.scheduler)
    (hflow : g.scheduler.flows.get id = some flow) (hnew : g.scheduler.active.get input.draw = none) :
    Apart (placed id next) := by
  cases hnext with
  | goesOn leads =>
    obtain ⟨g', _ | flow'⟩ := next
    · exact (h.drop id).of_same (leads.same.drop id)
    · obtain ⟨hrun, hstops⟩ := leads.flow flow' rfl
      exact (h.replace hflow hrun hstops).of_same (leads.same.put id flow')
  | ends carries same => exact (h.ends ⟨flow, hflow, carries.1⟩).of_same (same.drop id)
  | starts plain free going same carries =>
    exact ((h.starts hnew free going carries).2 id (h.numbered id flow hflow)).of_same (same.put id _)
  | launches carries same owns plain =>
    exact (h.launches ⟨flow, hflow, carries.1⟩ owns plain).of_same (same.put id _)
  | @drops _ r stops leads =>
    have hstop := h.halting id flow hflow stops.2
    have hdrop : Apart { g.scheduler with active := g.scheduler.active.delete r } :=
      h.unlist fun hgo => by cases hstop.symm.trans hgo
    obtain ⟨g', _ | flow'⟩ := next
    · exact (hdrop.drop id).of_same (leads.same.drop id)
    · obtain ⟨hrun, -⟩ := leads.flow flow' rfl
      exact (hdrop.put_idle (h.numbered id flow hflow) hrun fun _ => hstop).of_same (leads.same.put id flow')

theorem Leads.begun_apart (hleads : Leads g Plain next) (h : Apart g.scheduler) : Apart (begun next).scheduler := by
  obtain ⟨g', _ | flow'⟩ := next
  · exact h.of_same hleads.same
  · obtain ⟨hrun, hstops⟩ := hleads.flow flow' rfl
    refine (h.launch_idle hrun fun hstop => ?_).of_same (hleads.same.launch flow')
    cases hstops.symm.trans hstop

theorem Resumed.begun_apart (hnext : Resumed g input flow next) (h : Apart g.scheduler)
    (hpl : Plain flow) (hnew : g.scheduler.active.get input.draw = none) : Apart (begun next).scheduler := by
  cases hnext with
  | goesOn leads =>
    refine Leads.begun_apart ⟨leads.same, fun flow' hflow' => ?_⟩ h
    obtain ⟨hrun, hstops⟩ := leads.flow flow' hflow'
    exact ⟨hrun.trans hpl.1, hstops.trans hpl.2⟩
  | ends carries | launches carries => cases hpl.1.symm.trans carries.1
  | starts plain free going same carries =>
    exact (h.starts hnew free going carries).1.of_same (same.launch _)
  | drops stops => cases hpl.2.symm.trans stops.2

end Calls

/-! ## Every interleaving -/

section Step

variable {env : Env} {g g' : Gateway} {act : Act} {order : List TaskId} {input : Input}

theorem step_tick (hstep : step env g (.tick order input) = some g') :
    g' = g ∨ g' = begun (tick env g order input) := by
  simp only [step] at hstep
  split_ifs at hstep with hstarted hidle horder
  · exact .inl (Option.some.inj hstep).symm
  · exact .inr (Option.some.inj hstep).symm

theorem step_resume {id : Nat} (hstep : step env g (.resume id input) = some g') :
    ∃ flow, g.scheduler.flows.get id = some flow ∧ g'.scheduler = placed id (resume env g input flow) := by
  simp only [step] at hstep
  split at hstep
  · cases hstep
  · next flow hflow =>
    refine ⟨flow, hflow, ?_⟩
    split at hstep
    · next heq =>
      cases hstep
      rw [heq]
      rfl
    · next heq =>
      cases hstep
      rw [heq]
      rfl

/-- What every attempt to push that starts keeps, the start of all of them keeps. -/
theorem schedulePushes_keeps {P : Scheduler → Prop}
    (keep : ∀ s entry pushing, P s → P { s.launch (.pushLoad entry) with pushing := pushing })
    {s : Scheduler} (h : P s) (atMs : Int) : P (schedulePushes s atMs) :=
  List.foldlRecOn _ _ h fun s hs row _ => keep s row.2 _ hs

theorem schedulePushes_active (s : Scheduler) (atMs : Int) : (schedulePushes s atMs).active = s.active :=
  schedulePushes_keeps (P := fun s' => s'.active = s.active) (fun _ _ _ h => h) rfl atMs

theorem Apart.schedulePushes {s : Scheduler} (h : Apart s) (atMs : Int) : Apart (schedulePushes s atMs) := by
  refine schedulePushes_keeps (fun s entry pushing hs => ?_) h atMs
  have hload : Apart (s.launch (.pushLoad entry)) := hs.launch_idle rfl fun hstop => by cases hstop
  exact hload.of_same ⟨rfl, rfl, rfl, rfl⟩

/-- A tick, once its pushes have started, starts a run or leaves the runs alone. -/
theorem tick_cases (env : Env) (g : Gateway) (order : List TaskId) (input : Input) :
    Resumed (g.remember fun s => schedulePushes { s with ticking := true } (input.clock 0)) input
      (.due 0 []) (tick env g order input) :=
  startDue_cases _ (input.clock 1) input ⟨rfl, rfl⟩ order

theorem begun_active (next : Next) : (begun next).scheduler.active = next.1.scheduler.active := by
  obtain ⟨g, _ | flow⟩ := next <;> rfl

theorem placed_active (id : Nat) (next : Next) : (placed id next).active = next.1.scheduler.active := by
  obtain ⟨g, _ | flow⟩ := next <;> rfl

theorem boot_active : (boot config now).active = ∅ := by
  unfold boot
  split <;> rfl

/-- No act enters a second run of a task in `active`. -/
theorem step_exclusive (h : Exclusive g.scheduler) (hstep : step env g act = some g') : Exclusive g'.scheduler := by
  cases act with
  | boot config now =>
    cases hstep
    intro id id' entry entry' hent
    cases (congrArg (·.get id) (boot_active config now)).symm.trans hent
  | tick order input =>
    rcases step_tick hstep with rfl | rfl
    · exact h
    · have hpushes := h.of_active (schedulePushes_active { g.scheduler with ticking := true } (input.clock 0))
      exact ((tick_cases env g order input).exclusive hpushes).of_active (begun_active _)
  | operate resourceId operation data input =>
    simp only [step] at hstep
    split_ifs at hstep
    cases hstep
    have hleads := operate_leads env g resourceId operation data input
    exact h.of_active ((begun_active _).trans hleads.same.active)
  | stop =>
    simp only [step] at hstep
    split_ifs at hstep <;> cases hstep
    · exact h
    · exact h
  | resume id input =>
    obtain ⟨flow, -, heq⟩ := step_resume hstep
    rw [heq]
    exact ((resume_cases env g input flow).exclusive h).of_active (placed_active _ _)

/-- The identifier drawn by this act is not the one of a run in `active`. -/
def drawFresh (t : Transition Gateway Act) : Bool :=
  match t.act with
  | .tick _ input | .resume _ input => (t.before.scheduler.active.get input.draw).isNone
  | _ => true

theorem boot_apart : Apart (boot config now) := by
  have hemp : Apart { config := config } := by
    refine ⟨fun id flow hflow => ?_, fun id flow hflow => ?_, fun _ id run hrun => ?_, fun id id' task r r' hrun => ?_⟩
    · cases hflow
    · cases hflow
    · obtain ⟨flow, hflow, -⟩ := hrun
      cases hflow
    · obtain ⟨flow, hflow, -⟩ := hrun
      cases hflow
  unfold boot
  split
  · exact hemp.of_same ⟨rfl, rfl, rfl, rfl⟩
  · exact hemp.launch_idle rfl fun hstop => by cases hstop

theorem step_apart (h : Apart g.scheduler) (hstep : step env g act = some g')
    (hfr : drawFresh ⟨g, act, g'⟩ = true) : Apart g'.scheduler := by
  cases act with
  | boot config now =>
    cases hstep
    exact boot_apart config now
  | tick order input =>
    rcases step_tick hstep with rfl | rfl
    · exact h
    · have hticking : Apart { g.scheduler with ticking := true } := h.of_same ⟨rfl, rfl, rfl, rfl⟩
      have hnew : g.scheduler.active.get input.draw = none := Option.isNone_iff_eq_none.mp hfr
      have hactv := schedulePushes_active { g.scheduler with ticking := true } (input.clock 0)
      exact (tick_cases env g order input).begun_apart (hticking.schedulePushes _) ⟨rfl, rfl⟩
        ((congrArg (·.get input.draw) hactv).trans hnew)
  | operate resourceId operation data input =>
    simp only [step] at hstep
    split_ifs at hstep
    cases hstep
    exact (operate_leads env g resourceId operation data input).begun_apart h
  | stop =>
    simp only [step] at hstep
    split_ifs at hstep <;> cases hstep
    · exact h
    · have hstopping : Apart { g.scheduler with stopping := true } := by
        refine ⟨h.numbered, fun _ _ _ _ => rfl, fun hgo => ?_, h.apart⟩
        cases hgo
      have hstop : Apart ({ g.scheduler with stopping := true }.stopRuns fun _ => true) :=
        hstopping.of_same ⟨rfl, rfl, rfl, rfl⟩
      exact hstop.launch_idle rfl fun _ => rfl
  | resume id input =>
    obtain ⟨flow, hflow, heq⟩ := step_resume hstep
    rw [heq]
    exact (resume_cases env g input flow).apart h hflow (Option.isNone_iff_eq_none.mp hfr)

end Step

/-- In every interleaving of ticks, operations, completions, stops and restarts `active` holds at most one run of
a task.  As long as no identifier is drawn that a run in `active` has, no two flows carry runs of one task
either, also while a stop clears `active`. -/
theorem mounts_never_overlap {env : Env} {store : Store} {h : List (Transition Gateway Act)} {g : Gateway}
    (hrun : Foundation.Run (step env) { store := store } h g) :
    Exclusive g.scheduler ∧ ((∀ t ∈ h, drawFresh t = true) → ∀ id id' task r r',
        InFlight g.scheduler id (task, r) → InFlight g.scheduler id' (task, r') → id = id') := by
  constructor
  · refine hrun.invariant (I := fun g => Exclusive g.scheduler) (fun id id' entry entry' hent => ?_) ?_
    · cases hent
    · exact fun g act g' hs hstep => step_exclusive hs hstep
  · intro hfr
    have hinit : Apart {} := (boot_apart none 0).of_same ⟨rfl, rfl, rfl, rfl⟩
    exact (hrun.invariant_of (I := fun g => Apart g.scheduler) hfr hinit
      fun g act g' hs hstep hdraw => step_apart hs hstep hdraw).apart

open Scenario in
/-- A command is mounted every second and outlives its slot: the next tick records the occurrence as skipped while
the first run is still in flight. -/
theorem mounts_never_overlap_skipped : ∃ h g, Foundation.Run (step env) {} h g ∧ (∀ t ∈ h, drawFresh t = true) ∧
      InFlight g.scheduler 4 ("t", "r") ∧ g.store.runs.rows.any (fun row => row.2.state = .skipped) = true ∧
      Exclusive g.scheduler ∧ ∀ id task r r',
        InFlight g.scheduler id (task, r) → InFlight g.scheduler 4 (task, r') → id = 4 := by
  obtain ⟨h, g, hrun, hfr, hflow, hskipped⟩ := exists_run (step env) {} (mounting ++ starting ++ skipping)
    (fun h g => (∀ t ∈ h, drawFresh t = true) ∧ (∃ flow ∈ g.scheduler.flows.get 4, flow.run? = some ("t", "r")) ∧
      (g.store.runs.rows.any fun row => row.2.state = .skipped) = true)
    (by decide +kernel)
  obtain ⟨hexcl, hapart⟩ := mounts_never_overlap hrun
  exact ⟨h, g, hrun, hfr, hflow, hskipped, hexcl, fun id task r r' => hapart hfr id 4 task r r'⟩

/-! ## After a stop -/

def Act.boots : Act → Bool
  | .boot _ _ => true
  | _ => false

/-- The gateway stops, and every run in `active` or in a flow was there before. -/
structure Winds (s s' : Scheduler) : Prop where
  stopping : s'.stopping = true
  active : ∀ id entry, s'.active.get id = some entry → s.active.get id = some entry
  inFlight : ∀ id run, InFlight s' id run → ∃ id', InFlight s id' run

namespace Winds

variable {s s' s'' : Scheduler} {flow : Flow}

theorem refl (h : s.stopping = true) : Winds s s := ⟨h, fun _ _ hent => hent, fun id _ hrun => ⟨id, hrun⟩⟩

theorem of_same (h : Winds s s') (hsame : SameRuns s' s'') : Winds s s'' where
  stopping := hsame.stopping.trans h.stopping
  active := hsame.active ▸ h.active
  inFlight id run := by
    rintro ⟨flow, hflow, hrun⟩
    exact h.inFlight id run ⟨flow, hsame.flows ▸ hflow, hrun⟩

theorem trans (h : Winds s s') (h' : Winds s' s'') : Winds s s'' where
  stopping := h'.stopping
  active id entry hent := h.active id entry (h'.active id entry hent)
  inFlight id run hrun := by
    obtain ⟨id', hrun'⟩ := h'.inFlight id run hrun
    exact h.inFlight id' run hrun'

theorem put (h : Winds s s') (id : Nat) (hruns : ∀ run, flow.run? = some run → ∃ id', InFlight s id' run) :
    Winds s { s' with flows := s'.flows.put id flow } := by
  refine ⟨h.stopping, h.active, ?_⟩
  rintro other run ⟨found, hfnd, hrun⟩
  rcases get_put_cases hfnd with ⟨-, rfl⟩ | ⟨-, hold⟩
  · exact hruns run hrun
  · exact h.inFlight other run ⟨found, hold, hrun⟩

theorem drop (h : Winds s s') (id : Nat) : Winds s { s' with flows := s'.flows.delete id } := by
  refine ⟨h.stopping, h.active, ?_⟩
  rintro other run ⟨found, hfnd, hrun⟩
  exact h.inFlight other run ⟨found, (get_of_delete hfnd).2, hrun⟩

theorem unlist (h : Winds s s') (r : RunId) : Winds s { s' with active := s'.active.delete r } :=
  ⟨h.stopping, fun id entry hent => h.active id entry (get_of_delete hent).2, h.inFlight⟩

theorem launch (h : Winds s s') (hruns : ∀ run, flow.run? = some run → ∃ id', InFlight s id' run) :
    Winds s (s'.launch flow) :=
  { h.put s'.next hruns with }

end Winds

section Winding

variable {env : Env} {g g' : Gateway} {act : Act} {input : Input} {flow : Flow} {next : Next} {id : Nat}

/-- A flow that goes on while the gateway stops hands on the run it carries, or none. -/
theorem Resumed.winds (hnext : Resumed g input flow next) (hstop : g.scheduler.stopping = true)
    (hflow : g.scheduler.flows.get id = some flow) : Winds g.scheduler (placed id next) := by
  have hcarried (run : TaskId × RunId) (hrun : flow.run? = some run) : ∃ id', InFlight g.scheduler id' run :=
    ⟨id, flow, hflow, hrun⟩
  have hnone {flow' : Flow} (hidle : flow'.run? = none) (run : TaskId × RunId) (hrun : flow'.run? = some run) :
      ∃ id', InFlight g.scheduler id' run := by
    cases hidle.symm.trans hrun
  have hself := Winds.refl hstop
  cases hnext with
  | goesOn leads =>
    obtain ⟨g', _ | flow'⟩ := next
    · exact (hself.drop id).of_same (leads.same.drop id)
    · have hruns := (leads.flow flow' rfl).1
      exact (hself.put id (hruns ▸ hcarried)).of_same (leads.same.put id flow')
  | @ends _ run _ same => exact ((hself.unlist run.2).drop id).of_same (same.drop id)
  | starts _ _ going => cases hstop.symm.trans going
  | launches carries same owns plain =>
    have hown := hself.launch (owns.1.trans carries.1.symm ▸ hcarried)
    exact (hown.put id (hnone plain.1)).of_same (same.put id _)
  | @drops _ r _ leads =>
    obtain ⟨g', _ | flow'⟩ := next
    · exact ((hself.unlist r).drop id).of_same (leads.same.drop id)
    · exact ((hself.unlist r).put id (hnone (leads.flow flow' rfl).1)).of_same (leads.same.put id flow')

theorem step_winds (hstop : g.scheduler.stopping = true) (hstep : step env g act = some g')
    (hboot : act.boots = false) : Winds g.scheduler g'.scheduler := by
  have hself := Winds.refl hstop
  cases act with
  | boot => cases hboot
  | tick | stop =>
    simp only [step, hstop, Bool.true_or, if_true] at hstep
    split_ifs at hstep
    cases hstep
    exact hself
  | operate resourceId operation data input =>
    simp only [step] at hstep
    split_ifs at hstep
    cases hstep
    have hleads := operate_leads env g resourceId operation data input
    generalize Mounts.operate env g resourceId operation data input = next at hleads
    obtain ⟨g', _ | flow⟩ := next
    · exact hself.of_same hleads.same
    · refine (hself.of_same hleads.same).launch fun run hrun => ?_
      cases (hleads.flow flow rfl).1.symm.trans hrun
  | resume id input =>
    obtain ⟨flow, hflow, heq⟩ := step_resume hstep
    rw [heq]
    exact (resume_cases env g input flow).winds hstop hflow

end Winding

/-- **A stop lets nothing begin.**  Once the gateway stops, and until the next process, it goes on stopping, and in
every interleaving of ticks, operations, completions and further stops each run in `active` or carried by a flow
was in `active` or carried by a flow before. -/
theorem stop_begins_nothing {env : Env} {g g' : Gateway} {h : List (Transition Gateway Act)}
    (hrun : Foundation.Run (step env) g h g') (hstop : g.scheduler.stopping = true)
    (hboot : ∀ t ∈ h, t.act.boots = false) : Winds g.scheduler g'.scheduler :=
  hrun.invariant_of (I := fun g' => Winds g.scheduler g'.scheduler) hboot (.refl hstop)
    fun _ _ _ hwinds hstep hact => hwinds.trans (step_winds hwinds.stopping hstep hact)

open Scenario in
/-- The gateway is stopped while the run `r` is in flight, and a tick comes too late. -/
theorem stop_begins_nothing_ticked : ∃ h g h' g', Foundation.Run (step env) {} h g ∧
      Foundation.Run (step env) g h' g' ∧ InFlight g.scheduler 4 ("t", "r") ∧ Winds g.scheduler g'.scheduler := by
  let late : List Act := [.tick ["t"] (succeeds 1000 "late")]
  obtain ⟨h, g, hrun, hstop, hflow, hlate⟩ := exists_run (step env) {} (mounting ++ starting ++ [.stop])
    (fun _ g => g.scheduler.stopping = true ∧ (∃ flow ∈ g.scheduler.flows.get 4, flow.run? = some ("t", "r")) ∧
      (execute (step env) g late).any (fun r => ∀ t ∈ r.1, t.act.boots = false) = true) (by decide +kernel)
  obtain ⟨h', g', hrun', hboot⟩ := exists_run (step env) g late (fun h' _ => ∀ t ∈ h', t.act.boots = false) hlate
  exact ⟨h, g, h', g', hrun, hrun', hflow, stop_begins_nothing hrun' hstop hboot⟩

end Onlyne.Mounts
