import Onlyne.Resources.Operations

/-!
# Resources: operations without a final result stay owed

A recovery pass looks at the operations that are flagged for settlement and at the handovers that are open.  The
flag is written by four transactions: the claim raises it, a handover and its end lower it, and a settlement raises
it for an outcome that is `unknown` and lowers it for any other one.  A driver may report that an operation is still
pending; what recovery and a retry read that way is not written, what `execute` returns is.

`unresolved_owed_iff` says that every operation without a final result is flagged or belongs to an open handover, and
keeps its record, exactly when no settlement writes `pending` outside an open handover and no handover is opened over
such an operation; a pass asks the driver about every flagged one.  `pending_report_forgotten` is a run in which a pass
passes over a pending operation.
-/

namespace Onlyne.Resources

open Foundation Table List

/-! ## What recovery looks at -/

section

variable (s : Store) (t : Transition Node Act)

def openHandover (key : ResourceRef × String) : Bool :=
  (s.handover.get key).any fun handover => handover.state = .open_

def OperationsOwed : Prop :=
  ∀ key intent, s.operation.get key = some intent → intent.record.result.state.final = false →
    intent.settle = true ∨ openHandover s key = true

def KeepsUnresolved : Prop :=
  ∀ key intent, t.before.store.operation.get key = some intent → intent.record.result.state.final = false →
    ∃ intent', t.after.store.operation.get key = some intent' ∧ intent'.record.request = intent.record.request

/-- A recovery pass lists every operation, and asks the driver about each listed one that is flagged and has no
final result. -/
def PassAsks : Prop :=
  match t.act with
  | .advance .intents (.go _) => .recoverIntents t.before.store.operation.rows ∈ t.after.tasks
  | .advance (.recoverIntents ((key, intent) :: rest)) (.go _) =>
    intent.owed = true → .recoverQuery key.1 key.2 intent.late rest ∈ t.after.tasks
  | _ => True

/-- The transition settles an operation with what `execute` of the driver returned, and that is `pending`; the
record is still to be settled and belongs to no open handover. -/
def settlesPending : Bool :=
  match t.act with
  | .advance (.settle call outcome late) (.go _) =>
    outcome.state = .pending && !openHandover t.before.store call.key &&
      (t.before.store.operation.get call.key).any fun intent => replaceable intent.record.result.state late
  | _ => false

def opensOverUnresolved (ctx : Context) (t : Transition Node Act) : Bool :=
  match t.act with
  | .advance (.initiate call target deadline resource) (.go clock) =>
    (t.before.store.handover.get call.key).isNone &&
      (t.before.store.operation.get call.key).any (fun intent => !intent.record.result.state.final) &&
      (initiateTx ctx call target deadline resource clock t.before.store).isOk
  | _ => false

/-! ## What the calls in flight hold -/

def Shelved (row : OperationRow) : Prop :=
  row.2.record.request.operationId = row.1.2 ∧ ∃ resource, s.resource.get row.1.1 = some resource

/-- What a call in flight holds: handovers and ordinary operations go their own ways, and the rows of a pass are
filed. -/
def Holds : Task → Prop
  | .initiate call _ _ _ => call.handover = true
  | .validate call _ | .claim call _ => call.handover = false
  | .recoverIntents rows | .recoverQuery _ _ _ rows | .recoverSettle _ _ _ _ rows => ∀ row ∈ rows, Shelved s row
  | _ => True

end

/-- A retry and a pass settle only an outcome other than `pending`. -/
def Reported : Task → Prop
  | .resumeSettle _ outcome | .recoverSettle _ _ outcome _ _ => outcome.state ≠ .pending
  | _ => True

/-- The rows and the calls in flight of every reachable node. -/
structure Settling (n : Node) : Prop where
  homed : Homed n.store
  filed : ∀ key intent, n.store.operation.get key = some intent → Shelved n.store (key, intent)
  -- A record of a handover comes with its handover row.
  opened : ∀ key intent, n.store.operation.get key = some intent →
    intent.record.request.operation = "handover" → n.store.handover.get key ≠ none
  tasks : ∀ task ∈ n.tasks, Holds n.store task ∧ Reported task

section Step

variable {ctx : Context} {s s' : Store} {n n' : Node} {a : Act} {clock : Clock}

theorem Change.filed {row : OperationRow} (h : Change ctx s a s') (hfiled : Shelved s row) : Shelved s' row := by
  obtain ⟨hid, resource, hrsc⟩ := hfiled
  obtain ⟨resource', hrsc', -⟩ := h.resource hrsc
  exact ⟨hid, resource', hrsc'⟩

variable {task next : Task} {input : Input} {key : ResourceRef × String} {intent : Intent} {call : Call}
  {outcome : Settlement} {late : Bool}

theorem Change.holds (h : Change ctx s a s') (hhld : Holds s task) : Holds s' task := by
  cases task with
  | recoverIntents | recoverQuery | recoverSettle => exact fun row hrow => h.filed (hhld row hrow)
  | _ => exact hhld

theorem resume_reported {outcome : Outcome} (h : resume ctx s task input = some outcome)
    (hnext : next ∈ outcome.tasks) : Reported next := by
  have hres := resume_resumes h hnext
  generalize outcome.store = s' at hres
  cases hres with
  | resumeSettle =>
    cases h
    unfold askingStep at hnext
    dsimp only at hnext
    split_ifs at hnext with hpend
    · exact hpend
    · cases mem_singleton.mp hnext
  | recoverReport =>
    cases h
    unfold recoverReport at hnext
    dsimp only at hnext
    split_ifs at hnext with hpend
    · exact hpend
    · cases mem_singleton.mp hnext
  | recoverOrphan => exact OperationState.noConfusion
  | _ => trivial

section

variable (h : Settling n)
include h

theorem Settling.starts_holds (hchg : Change ctx n.store a n'.store)
    (hst : Starts ctx n a n'.store task) : Holds n'.store task := by
  generalize n'.store = s' at hst hchg
  cases hst with
  | operate | recover | probe => trivial
  | @advance waiting next input _ hwait resumes =>
    have hhld := hchg.holds (h.tasks waiting hwait).1
    cases resumes with
    | initiates handover => exact handover
    | validates other => exact other
    | validated => exact hhld
    | scansIntents =>
      rintro ⟨key, intent⟩ hmem
      exact h.filed key intent (mem_rows.mp hmem)
    | intentDone | recoverAsks | recoverOrphan => exact fun row hrow => hhld row (mem_cons_of_mem _ hrow)
    | recoverReport | recoverSilence | recoverNext => exact hhld
    | _ => trivial

theorem Settling.reported_step (hstep : step ctx n a = some n') (htask : task ∈ n'.tasks) : Reported task := by
  rcases step_tasks hstep htask with hold | hst
  · exact (h.tasks task hold).2
  · generalize n'.store = s' at hst
    cases hst with
    | operate | recover | probe => trivial
    | advance =>
      obtain ⟨outcome, hout, -, htsk, -⟩ := outcome_of_advance hstep
      rw [htsk] at htask
      rcases mem_append.mp htask with hold | hnew
      · exact (h.tasks task (mem_of_mem_erase hold)).2
      · exact resume_reported hout hnew

theorem Settling.filed_step (hchg : Change ctx n.store a n'.store)
    (hrow : n'.store.operation.get key = some intent) : Shelved n'.store (key, intent) := by
  generalize n'.store = s' at hchg hrow
  have hkept (hold : n.store.operation.get key = some intent) : Shelved s' (key, intent) :=
    hchg.filed (h.filed key intent hold)
  cases hchg with
  | claimed free row may new | initiated free row handler new =>
    rcases get_put_cases hrow with ⟨rfl, rfl⟩ | ⟨-, hold⟩
    · exact ⟨by rw [new]; rfl, _, row⟩
    · exact hkept hold
  | settled settles row =>
    rcases get_put_cases hrow with ⟨rfl, rfl⟩ | ⟨-, hold⟩
    · exact (h.filed _ _ row :)
    · exact hkept hold
  | aborted aborting handover unfinished operation =>
    rcases get_put_cases hrow with ⟨rfl, rfl⟩ | ⟨-, hold⟩
    · exact (h.filed _ _ operation :)
    · exact hkept hold
  | switched handover unfinished bound revision initiator drawn forward operation =>
    rcases get_put_cases hrow with ⟨rfl, rfl⟩ | ⟨-, hold⟩
    · exact ⟨(h.filed _ _ operation).1, _, get_put_self _ _ _⟩
    · exact hkept hold
  | _ => exact hkept hrow

theorem Settling.kept (hstep : step ctx n a = some n') : Settling n' := by
  have hchg := step_change hstep
  refine ⟨hchg.homed h.homed, fun _ _ => h.filed_step hchg,
    fun _ _ => hchg.opened h.homed h.opened fun _ _ _ hact => ?_, ?_⟩
  · subst hact
    exact (h.tasks _ (mem_tasks_of_advance hstep)).1
  intro task htask
  refine ⟨?_, h.reported_step hstep htask⟩
  rcases step_tasks hstep htask with hold | hst
  · exact hchg.holds (h.tasks task hold).1
  · exact h.starts_holds hchg hst

end

theorem settling_empty : Settling {} where
  homed := homed_empty
  filed _ _ hrow := by cases hrow
  opened _ _ hrow := by cases hrow
  tasks _ htask := by cases htask

/-! ## The flag -/

theorem openHandover_iff :
    openHandover s key = true ↔ ∃ handover, s.handover.get key = some handover ∧ handover.state = .open_ := by
  unfold openHandover
  rw [Option.any_eq_true]
  simp

def Store.settled (s : Store) (call : Call) (intent : Intent) (outcome : Settlement) : Store :=
  let row : Intent := ⟨intent.record.settled (outcome.result call.request.operationId), outcome.state = .unknown⟩
  { s with operation := s.operation.put call.key row }

/-- A settlement of what `execute` returned: it writes the outcome over a result that may be replaced, and nothing
when the store fails. -/
theorem step_settle (hstep : step ctx n (.advance (.settle call outcome late) input) = some n') :
    n'.store = n.store ∨ ∃ clock, input = .go clock := by
  obtain ⟨outcome, hout, hst, -⟩ := outcome_of_advance hstep
  cases input with
  | go clock => exact .inr ⟨clock, rfl⟩
  | failed =>
    cases hout
    exact .inl (hst.trans (reported_store ..))
  | lost =>
    cases hout
    exact .inl hst
  | _ => simp [resume] at hout

theorem step_settle_go (hstep : step ctx n (.advance (.settle call outcome late) (.go clock)) = some n')
    (hrow : n.store.operation.get call.key = some intent) (hmay : replaceable intent.record.result.state late = true) :
    n'.store = n.store.settled call intent outcome := by
  obtain ⟨next, hres, hst, -⟩ := outcome_of_advance hstep
  cases hres
  have hset : settle call.ref call.request.operationId outcome late n.store =
      .ok (outcome.result call.request.operationId, n.store.settled call intent outcome) := by
    unfold settle
    rw [show n.store.operation.get (call.ref, call.request.operationId) = some intent from hrow]
    dsimp only
    rw [if_pos hmay]
    rfl
  rw [hst, reported_store, hset]
  rfl

theorem eq_unknown {state : OperationState} (hfin : state.final = false) (hpend : state ≠ .pending) :
    state = .unknown := by
  cases state with
  | unknown => rfl
  | pending => exact absurd rfl hpend
  | committed | aborted => cases hfin

/-- A settlement leaves an operation without a final result flagged, or writes `pending` over it. -/
theorem Settling.settled_owed (h : Settling n) (hstep : step ctx n (.advance task input) = some n')
    (howed : OperationsOwed n.store) {ref : ResourceRef} {id : String}
    (settles : Settles task ref id outcome late) (hrow : n.store.operation.get (ref, id) = some intent)
    (hmay : replaceable intent.record.result.state late = true)
    (hhand : n'.store.handover = n.store.handover) (hrow' : n'.store.operation.get (ref, id) =
      some ⟨intent.record.settled (outcome.result id), outcome.state = .unknown⟩)
    (hunr : outcome.state.final = false) (hnot : settlesPending ⟨n, .advance task input, n'⟩ = false) :
    outcome.state = .unknown ∨ openHandover n'.store (ref, id) = true := by
  have hreported := (h.tasks _ (mem_tasks_of_advance hstep)).2
  cases settles with
  | resumed | recovered => exact .inl (eq_unknown hunr hreported)
  | @reported call =>
    by_cases hpend : outcome.state = .pending
    · right
      have hopen : openHandover n'.store call.key = openHandover n.store call.key := by
        unfold openHandover
        rw [hhand]
      refine hopen.trans ?_
      rcases step_settle hstep with hsame | ⟨clock, rfl⟩
      · rw [hsame] at hrow'
        rcases howed call.key _ hrow' hunr with hflag | hopened
        · simp [hpend] at hflag
        · exact hopened
      · by_contra hcl
        have hsettles : settlesPending ⟨n, .advance (.settle call outcome late) (.go clock), n'⟩ = true := by
          unfold settlesPending
          dsimp only
          rw [show n.store.operation.get call.key = some intent from hrow]
          simpa [hpend, hmay] using hcl
        rw [hnot] at hsettles
        cases hsettles
    · exact .inl (eq_unknown hunr hpend)

/-- Only a settlement that writes `pending` lowers the flag of an operation without a final result. -/
theorem Settling.owed_iff (h : Settling n) (hstep : step ctx n a = some n') (howed : OperationsOwed n.store) :
    OperationsOwed n'.store ↔ settlesPending ⟨n, a, n'⟩ = false := by
  constructor
  · intro howed'
    rw [← Bool.not_eq_true]
    intro hpend
    unfold settlesPending at hpend
    split at hpend
    · next call outcome late clock hact =>
      subst hact
      simp only [Bool.and_eq_true, decide_eq_true_eq, Bool.not_eq_eq_eq_not, Bool.not_true, Option.any_eq_true] at hpend
      obtain ⟨⟨hst, hcl⟩, intent, hrow, hmay⟩ := hpend
      rw [step_settle_go hstep hrow hmay] at howed'
      have hunr : (outcome.result call.request.operationId).state.final = false := by
        rw [show (outcome.result call.request.operationId).state = .pending from hst]
        rfl
      rcases howed' call.key _ (get_put_self _ _ _) hunr with hflag | hopen
      · simp [hst] at hflag
      · exact Bool.false_ne_true (hcl.symm.trans hopen)
    · cases hpend
  · intro hnot key intent hrow hunr
    cases (step_change hstep).row h.homed hrow with
    | same row handover =>
      rcases howed key intent row hunr with hflag | hopen
      · exact .inl hflag
      · right
        unfold openHandover at hopen ⊢
        rw [handover]
        exact hopen
    | claimed => exact .inl rfl
    | settled act settles row may handover =>
      subst act
      rcases h.settled_owed hstep howed settles row may handover hrow hunr hnot with hunk | hopen
      · exact .inl (decide_eq_true hunk)
      · exact .inr hopen
    | opened act home free handover => exact .inr (openHandover_iff.mpr ⟨_, handover, rfl⟩)
    | closed row before unfinished after ended outcome => exact absurd (outcome.symm.trans hunr) (by simp)

/-! ## The request -/

theorem step_initiate {target deadline : String} {resource : Resource}
    (hstep : step ctx n (.advance (.initiate call target deadline resource) (.go clock)) = some n') :
    n'.store = committed n.store (initiateTx ctx call target deadline resource clock n.store) := by
  obtain ⟨outcome, hres, hst, -⟩ := outcome_of_advance hstep
  cases hres
  rw [hst]
  unfold initiateStep
  split <;> next htx => rw [htx]; rfl

/-- Only a handover that is opened over it takes the record of an operation without a final result. -/
theorem Settling.keeps_iff (h : Settling n) (hstep : step ctx n a = some n') :
    KeepsUnresolved ⟨n, a, n'⟩ ↔ opensOverUnresolved ctx ⟨n, a, n'⟩ = false := by
  constructor
  · intro hkp
    rw [← Bool.not_eq_true]
    intro hopens
    unfold opensOverUnresolved at hopens
    split at hopens
    · next call target deadline resource clock hact =>
      subst hact
      simp only [Bool.and_eq_true, Option.isNone_iff_eq_none, Option.any_eq_true, Bool.not_eq_eq_eq_not,
        Bool.not_true] at hopens
      obtain ⟨⟨hfree, intent, hrow, hunr⟩, hok⟩ := hopens
      obtain ⟨intent', hrow', hreq⟩ := hkp call.key intent hrow hunr
      rw [step_initiate hstep] at hrow'
      cases htx : initiateTx ctx call target deadline resource clock n.store with
      | error =>
        rw [htx] at hok
        cases hok
      | ok committed =>
        obtain ⟨⟨opened, claimed⟩, tx'⟩ := committed
        rw [htx] at hrow'
        rcases initiateTx_ok htx with ⟨-, -, hfnd, -⟩ | ⟨-, -, fresh, record, -, -, rfl, -, rfl⟩
        · rw [hfree] at hfnd
          cases hfnd
        · -- The row now holds the request of the handover, and the old one was no handover.
          have hnew : some intent' = some _ := hrow'.symm.trans (get_put_self _ _ _)
          cases hnew
          have hhand : call.handover = true := (h.tasks _ (mem_tasks_of_advance hstep)).1
          have hop : intent.record.request.operation = "handover" := by
            rw [← hreq]
            exact of_decide_eq_true hhand
          exact h.opened call.key intent hrow hop hfree
    · cases hopens
  · intro hnot key intent hrow hunr
    obtain ⟨intent', hrow'⟩ := (step_change hstep).operation_isSome ⟨intent, hrow⟩
    refine ⟨intent', hrow', ?_⟩
    cases (step_change hstep).row h.homed hrow' with
    | same row | settled act settles row | closed row =>
      rw [hrow] at row
      cases row
      rfl
    | claimed act home free =>
      rw [hrow] at free
      cases free
    | opened act home free =>
      subst act home
      have hst := step_initiate hstep
      unfold opensOverUnresolved at hnot
      dsimp only at hnot
      rw [free, hrow] at hnot
      cases htx : initiateTx ctx _ _ _ _ _ n.store with
      | error =>
        rw [htx] at hst
        rw [hst] at hrow'
        cases hrow.symm.trans hrow'
        rfl
      | ok =>
        rw [htx] at hnot
        simp [hunr, Except.isOk, Except.toBool] at hnot

/-! ## The pass -/

theorem Settling.passAsks (h : Settling n) (hstep : step ctx n a = some n') : PassAsks ⟨n, a, n'⟩ := by
  unfold PassAsks
  split
  · next clock hact =>
    subst hact
    obtain ⟨outcome, hres, -, htsk, -⟩ := outcome_of_advance hstep
    cases hres
    simp [htsk, proceed]
  · next key intent rest clock hact =>
    subst hact
    intro howed
    have hrows : ∀ row ∈ (key, intent) :: rest, Shelved n.store row := (h.tasks _ (mem_tasks_of_advance hstep)).1
    obtain ⟨hid, resource, hrsc⟩ := hrows _ mem_cons_self
    obtain ⟨outcome, hres, -, htsk, -⟩ := outcome_of_advance hstep
    cases hres
    rw [htsk]
    refine mem_append_right _ ?_
    simpa [recoverIntent, howed, hrsc, proceed] using hid.symm
  · trivial

end Step

/-! ## Whole runs -/

theorem settling_of_run {ctx : Context} {h : List (Transition Node Act)} {n : Node} (hrun : Run (step ctx) {} h n) :
    Settling n :=
  hrun.invariant settling_empty fun _ _ _ hset hstep => hset.kept hstep

/-- **No record dangles.**  In every state a node reaches, an operation record stands under its own id and its
resource is there; a record of a handover has its handover row, which names the same resource and id. -/
theorem records_filed {ctx : Context} {h : List (Transition Node Act)} {n : Node} (hrun : Run (step ctx) {} h n)
    {key : ResourceRef × String} {intent : Intent} (hrow : n.store.operation.get key = some intent) :
    intent.record.request.operationId = key.2 ∧ (∃ resource, n.store.resource.get key.1 = some resource) ∧
      (intent.record.request.operation = "handover" → ∃ handover, n.store.handover.get key = some handover ∧
        handover.resourceRef = key.1 ∧ handover.operationId = key.2) := by
  have hset := settling_of_run hrun
  obtain ⟨hid, hres⟩ := hset.filed key intent hrow
  refine ⟨hid, hres, fun hop => ?_⟩
  obtain ⟨handover, hhand⟩ := Option.ne_none_iff_exists'.mp (hset.opened key intent hrow hop)
  obtain rfl := hset.homed key handover hhand
  exact ⟨handover, hhand, rfl, rfl⟩

open Scenario in
/-- A handover to `bob` is opened. -/
theorem records_filed_opened : ∃ h n, Run (step (context "hub")) {} h n ∧ ∃ key intent,
    n.store.operation.get key = some intent ∧ ∃ handover, n.store.handover.get key = some handover := by
  let chat := resource "hub" "chat" "ann"
  obtain ⟨h, n, hrun, ⟨key, intent⟩, hmem, hop⟩ := exists_run (step (context "hub")) {}
    (.register "hub" chat :: opening chat "op" "bob")
    (fun _ n => ∃ row ∈ n.store.operation.rows, row.2.record.request.operation = "handover") (by decide +kernel)
  have hrow := Table.mem_rows.mp hmem
  obtain ⟨handover, hhand, -⟩ := (records_filed hrun hrow).2.2 hop
  exact ⟨h, n, hrun, key, intent, hrow, handover, hhand⟩

/-- **Unresolved operations stay owed.**  In every interleaving of operations, outcomes of the driver, handovers,
crashes and recovery passes, every operation without a final result is flagged for settlement or belongs to an open
handover, and keeps its record, exactly when no outcome `pending` of `execute` is written outside an open handover and
no handover is opened over such an operation.  Every pass that reaches its list of operations asks the driver about
each flagged one on it. -/
theorem unresolved_owed_iff (ctx : Context) {h : List (Transition Node Act)} {n : Node}
    (hrun : Run (step ctx) {} h n) : ((∀ t ∈ h, OperationsOwed t.after.store ∧ KeepsUnresolved t) ↔
      ∀ t ∈ h, settlesPending t = false ∧ opensOverUnresolved ctx t = false) ∧ ∀ t ∈ h, PassAsks t := by
  have hset : ∀ t ∈ h, Settling t.before := by
    intro t ht
    obtain ⟨h₁, h₂, rfl, hbef, -⟩ := hrun.of_mem ht
    exact settling_of_run hbef
  refine ⟨?_, fun t ht => (hset t ht).passAsks (hrun.step_of_mem ht)⟩
  have howed : (∀ t ∈ h, OperationsOwed t.after.store) ↔ ∀ t ∈ h, settlesPending t = false := by
    refine hrun.forall_after_iff_of (I := fun n : Node => OperationsOwed n.store) ?_ ?_
    · intro key intent hrow
      cases hrow
    · intro past t future _ hpast hstep hbef
      exact (settling_of_run hpast).owed_iff hstep hbef
  have hkp : (∀ t ∈ h, KeepsUnresolved t) ↔ ∀ t ∈ h, opensOverUnresolved ctx t = false :=
    forall₂_congr fun t ht => (hset t ht).keeps_iff (hrun.step_of_mem ht)
  simp only [forall_and]
  exact and_congr howed hkp

namespace Scenario

def reporting (resource : Resource) (id : String) (report : Settlement) : List Act :=
  let call := sendCall resource id
  [.operate call, .advance (.prior call) (.go clock), .advance (.admitted call) (.go clock),
    .advance (.validate call resource) (.hook none), .advance (.claim call resource) (.go clock),
    .advance (.execute call resource) (.go clock), .advance (.executing call) (.driver (some report)),
    .advance (.settle call report false) (.go clock)]

def recovering : List Act :=
  [.recover, .advance .expire (.go clock), .advance .handovers (.go clock),
    .advance (.recoverHandovers []) (.go clock), .advance .intents (.go clock)]

def reportedRow (resource : Resource) (id : String) (report : Settlement) (flag : Bool) : OperationRow :=
  let call := sendCall resource id
  (call.key, ⟨call.record (context resource.resourceRef.owner) (report.result id) 0 resource.revision, flag⟩)

end Scenario

open Scenario in
/-- The driver does not know the outcome of a send; the operation stays flagged, and a pass asks the driver. -/
theorem unresolved_owed_iff_unknown : ∃ h n, Run (step (context "hub")) {} h n ∧
      (∀ t ∈ h, OperationsOwed t.after.store ∧ KeepsUnresolved t) ∧ (∀ t ∈ h, PassAsks t) ∧
      ∃ intent, n.store.operation.get (⟨"hub", "chat"⟩, "op") = some intent ∧
        intent.record.result.state = .unknown ∧ .recoverQuery ⟨"hub", "chat"⟩ "op" true [] ∈ n.tasks := by
  let chat := resource "hub" "chat" "ann"
  let report : Settlement := ⟨.unknown, none, none⟩
  obtain ⟨h, n, hrun, hcond, ⟨intent, hrow, hunk⟩, hasks⟩ := exists_run (step (context "hub")) {}
    (.register "hub" chat :: reporting chat "op" report ++ recovering ++
      [.advance (.recoverIntents [reportedRow chat "op" report true]) (.go clock)])
    (fun h n => (∀ t ∈ h, settlesPending t = false ∧ opensOverUnresolved (context "hub") t = false) ∧
      (∃ intent ∈ n.store.operation.get (⟨"hub", "chat"⟩, "op"), intent.record.result.state = .unknown) ∧
      .recoverQuery ⟨"hub", "chat"⟩ "op" true [] ∈ n.tasks)
    (by decide +kernel)
  obtain ⟨howed, hpass⟩ := unresolved_owed_iff (context "hub") hrun
  exact ⟨h, n, hrun, howed.mpr hcond, hpass, intent, hrow, hunk, hasks⟩

/-- A recovery pass waits for the driver's `query`. -/
def Task.asksDriver : Task → Bool
  | .recoverQuery .. => true
  | _ => false

open Scenario in
/-- The driver reports that a send is pending: its row loses the flag, it has no handover, and a recovery pass runs to
its end without asking the driver.  And a handover that comes with the id of a send overwrites its pending record. -/
theorem pending_report_forgotten : (∃ h n, Run (step (context "hub")) {} h n ∧ n.tasks = [] ∧
      (∃ t ∈ h, .recoverIntents t.before.store.operation.rows ∈ t.after.tasks) ∧
      (∀ t ∈ h, ∀ task ∈ t.after.tasks, task.asksDriver = false) ∧
      ∃ intent, n.store.operation.get (⟨"hub", "chat"⟩, "op") = some intent ∧
        intent.record.result.state = .pending ∧ intent.settle = false ∧
        n.store.handover.get (⟨"hub", "chat"⟩, "op") = none) ∧
    ∃ h n, Run (step (context "hub")) {} h n ∧ ∃ t ∈ h, ∃ intent intent',
      t.before.store.operation.get (⟨"hub", "chat"⟩, "op") = some intent ∧
      t.after.store.operation.get (⟨"hub", "chat"⟩, "op") = some intent' ∧
      intent.record.request.operation = "send" ∧ intent.record.result.state = .pending ∧
      intent'.record.request.operation = "handover" := by
  let chat := resource "hub" "chat" "ann"
  constructor
  · let report : Settlement := ⟨.pending, none, none⟩
    exact exists_run _ _ (.register "hub" chat :: reporting chat "op" report ++ recovering ++
        [.advance (.recoverIntents [reportedRow chat "op" report false]) (.go clock),
          .advance (.recoverIntents []) (.go clock)])
      _ (by decide +kernel)
  · let call := handoverCall chat "op" "bob"
    obtain ⟨h, n, hrun, t, ht, intent, hrow, intent', hrow', hrebound⟩ := exists_run (step (context "hub")) {}
      (.register "hub" chat :: .operate call :: .advance (.prior call) (.go clock) ::
        .advance (.admitted call) (.go clock) :: (sending chat "op").take 5 ++
        [.advance (.initiate call "bob" deadline chat) (.go clock)])
      (fun h _ => ∃ t ∈ h, ∃ intent ∈ t.before.store.operation.get (⟨"hub", "chat"⟩, "op"),
        ∃ intent' ∈ t.after.store.operation.get (⟨"hub", "chat"⟩, "op"),
          intent.record.request.operation = "send" ∧ intent.record.result.state = .pending ∧
            intent'.record.request.operation = "handover")
      (by decide +kernel)
    exact ⟨h, n, hrun, t, ht, intent, intent', hrow, hrow', hrebound⟩

end Onlyne.Resources
