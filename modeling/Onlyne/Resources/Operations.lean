import Onlyne.Resources.Calls
import Onlyne.Resources.Handovers
import Onlyne.Resources.Outputs

/-!
# Resources: operation ids

An operation id of a resource is bound to the first request that claims it.  Ordinary operations claim it in
`claimOperation`, which looks at the operation row; handovers claim it in the transaction of `initiate`,
which looks at the handover row alone.  `operation_ids_bound` says that exactly the initiations which find
an operation row without a handover row break the binding; `initiate_rebinds` is a run in which one does.
-/

namespace Onlyne.Resources

open Foundation Table Option

/-! ## The law and the condition -/

section

variable (s : Store) (key : ResourceRef × String) (record : OperationRecord)

def OperationRecord.content : Json :=
  requestContent record.actor record.resourceRef record.request

/-- The act takes the call to a step that looks for the binding of its id. -/
inductive Comes : Act → Call → Prop where
  | prior {call clock} : Comes (.advance (.prior call) (.go clock)) call
  | claim {call resource clock} : Comes (.advance (.claim call resource) (.go clock)) call
  | initiate {call target deadline resource clock} :
      Comes (.advance (.initiate call target deadline resource) (.go clock)) call

def KeepsRecord (intent intent' : Intent) : Prop :=
  intent'.record.actor = intent.record.actor ∧ intent'.record.request = intent.record.request ∧
    intent'.record.digest = intent.record.digest ∧
    (intent.record.result.state.final = true → intent'.record.result = intent.record.result)

/-- The transition keeps every record, and a call that comes to an id bound to another request is answered
with a conflict and changes nothing. -/
def Binds (ctx : Context) (t : Transition Node Act) : Prop :=
  (∀ key intent, t.before.store.operation.get key = some intent →
    ∃ intent', t.after.store.operation.get key = some intent' ∧ KeepsRecord intent intent') ∧
  ∀ call, Comes t.act call → ∀ intent, t.before.store.operation.get call.key = some intent →
    intent.record.content ≠ call.content →
    outputs ctx t = some [.answered call (.error idConflict)] ∧ t.after.store = t.before.store

/-- An initiation does not find an operation row without a handover row. -/
def unclaimed (t : Transition Node Act) : Bool :=
  match t.act with
  | .advance (.initiate call _ _ _) (.go _) =>
    (t.before.store.operation.get call.key).isNone || (t.before.store.handover.get call.key).isSome
  | _ => true

/-! ## What holds while the condition does -/

def Owned : Prop :=
  (∃ intent, s.operation.get key = some intent) ∧ s.handover.get key = none

/-- The rows a recovery pass still has to look at: an owed one belongs to an ordinary operation. -/
def OwnedRows (rows : List OperationRow) : Prop :=
  ∀ row ∈ rows, row.2.record.request.operationId = row.1.2 ∧ (row.2.owed = true → Owned s row.1)

def Knows : Task → Prop
  | .initiate call target _ _ => call.handover = true ∧ target ≠ ""
  | .validate call _ | .claim call _ => call.handover = false ∧ call.actor ≠ ""
  | .execute call _ | .executing call | .late call | .settle call _ _ => Owned s call.key
  | .recoverIntents rows => OwnedRows s rows
  | .recoverQuery ref id _ rest | .recoverSettle ref id _ _ rest =>
    Owned s (ref, id) ∧ OwnedRows s rest
  | _ => True

/-- The operation row of a handover: it carries the digest of the handover, is never pending or owed, and
has no certain result while the handover is open. -/
def Handed (handover : HandoverIntent) (intent : Intent) : Prop :=
  intent.record.digest = handover.digest ∧ intent.settle = false ∧
    intent.record.result.state ≠ .pending ∧
    (handover.state = .open_ → intent.record.result.state.final = false)

def Recorded : Prop :=
  record.resourceRef = key.1 ∧ record.request.operationId = key.2 ∧
    record.digest = digestOf record.actor record.resourceRef record.request

/-- The rows and the calls in flight agree on who holds an id. -/
structure Bound (n : Node) : Prop where
  homed : Homed n.store
  handler : ∀ ref resource, n.store.resource.get ref = some resource → resource.binding.handler ≠ ""
  target : ∀ key handover, n.store.handover.get key = some handover → handover.target ≠ ""
  recorded : ∀ key intent, n.store.operation.get key = some intent → Recorded key intent.record
  -- A record of a handover comes with its handover row.
  opened : ∀ key intent, n.store.operation.get key = some intent →
    intent.record.request.operation = "handover" → n.store.handover.get key ≠ none
  handed : ∀ key handover, n.store.handover.get key = some handover →
    ∃ intent, n.store.operation.get key = some intent ∧ Handed handover intent
  tasks : ∀ task ∈ n.tasks, Knows n.store task

theorem Change.operation_isSome {ctx : Context} {s s' : Store} {a : Act} (h : Change ctx s a s')
    {key : ResourceRef × String} (hrow : ∃ intent, s.operation.get key = some intent) :
    ∃ intent, s'.operation.get key = some intent := by
  obtain ⟨intent, hrow⟩ := hrow
  have hput (key' : ResourceRef × String) (intent' : Intent) :
      ∃ found, (s.operation.put key' intent').get key = some found := by
    rw [get_put]
    split_ifs
    · exact ⟨intent', rfl⟩
    · exact ⟨intent, hrow⟩
  cases h with
  | claimed | settled | initiated | aborted | switched => exact hput _ _
  | _ => exact ⟨intent, hrow⟩

/-- The initiation of an act, when it does not overwrite an ordinary operation. -/
def Unclaimed (a : Act) : Prop :=
  ∀ call target deadline resource clock,
    a = .advance (.initiate call target deadline resource) (.go clock) →
    s.operation.get call.key ≠ none → s.handover.get call.key ≠ none

end

theorem unclaimed_iff {t : Transition Node Act} : unclaimed t = true ↔ Unclaimed t.before.store t.act := by
  unfold unclaimed Unclaimed
  split
  · next call target deadline resource clock hact =>
    rw [hact, Bool.or_eq_true, isNone_iff_eq_none, isSome_iff_ne_none]
    constructor
    · rintro hunc _ _ _ _ _ heq hrow
      cases heq
      exact hunc.resolve_left hrow
    · intro hunc
      by_cases hrow : t.before.store.operation.get call.key = none
      · exact .inl hrow
      · exact .inr (hunc call target deadline resource clock rfl hrow)
  · next hoth =>
    refine iff_of_true rfl ?_
    intro call target deadline resource clock hact
    exact absurd hact (hoth call target deadline resource clock)

section Step

variable {ctx : Context} {s s' : Store} {a : Act}

section

variable (h : Change ctx s a s') (hhm : Homed s) (hunc : Unclaimed s a)
include h hhm hunc

theorem Change.owned {key : ResourceRef × String} (hown : Owned s key) : Owned s' key := by
  refine ⟨h.operation_isSome hown.1, ?_⟩
  obtain ⟨⟨intent, hrow⟩, hfree⟩ := hown
  -- A handover row is written only where one is, or by an initiation that finds no operation row.
  have hput {key' : ResourceRef × String} {handover handover' : HandoverIntent}
      (hfnd : s.handover.get key' = some handover) :
      (s.handover.put key' handover').get key = none := by
    rw [get_put_ne, hfree]
    rintro rfl
    rw [hfree] at hfnd
    cases hfnd
  cases h with
  | initiated free =>
    refine (get_put_ne _ _ ?_).trans hfree
    rintro rfl
    exact hunc _ _ _ _ _ rfl (by rw [hrow]; simp) free
  | aborted aborting handover =>
    have hhome := hhm _ _ handover
    rw [hhome] at handover
    exact hput handover
  | switched handover =>
    exact hput handover
  | _ => exact hfree

theorem Change.ownedRows {rows : List OperationRow} (hown : OwnedRows s rows) : OwnedRows s' rows := by
  intro row hrow
  obtain ⟨hid, hkey⟩ := hown row hrow
  exact ⟨hid, fun howed => h.owned hhm hunc (hkey howed)⟩

theorem Change.knows {task : Task} (hkn : Knows s task) : Knows s' task := by
  cases task with
  | execute | executing | late | settle => exact h.owned hhm hunc hkn
  | recoverIntents => exact h.ownedRows hhm hunc hkn
  | recoverQuery | recoverSettle =>
    exact ⟨h.owned hhm hunc hkn.1, h.ownedRows hhm hunc hkn.2⟩
  | _ => exact hkn

end

end Step

/-! ## Operation rows -/

/-- How the act leaves an operation row: as it was, claimed, settled, opened with a handover, or closed
with it. -/
inductive RowChange (ctx : Context) (s : Store) (a : Act) (s' : Store) (key : ResourceRef × String) :
    Intent → Prop where
  | same {intent} (row : s.operation.get key = some intent)
      (handover : s'.handover.get key = s.handover.get key) : RowChange ctx s a s' key intent
  | claimed {call : Call} {resource} {clock : Clock} {revision}
      (act : a = .advance (.claim call resource) (.go clock)) (home : key = call.key)
      (free : s.operation.get key = none) (handover : s'.handover = s.handover) :
      RowChange ctx s a s' key ⟨call.record ctx ⟨call.request.operationId, .pending, none, none⟩
        clock.third revision, true⟩
  | settled {task input} {outcome : Settlement} {late} {intent : Intent}
      (act : a = .advance task input) (settles : Settles task key.1 key.2 outcome late)
      (row : s.operation.get key = some intent)
      (may : replaceable intent.record.result.state late = true) (handover : s'.handover = s.handover) :
      RowChange ctx s a s' key ⟨intent.record.settled (outcome.result key.2), outcome.state = .unknown⟩
  | opened {call : Call} {target deadline} {resource fresh : Resource} {clock : Clock}
      (act : a = .advance (.initiate call target deadline resource) (.go clock)) (home : key = call.key)
      (free : s.handover.get key = none)
      (handover : s'.handover.get key = some (call.handoverIntent target deadline fresh)) :
      RowChange ctx s a s' key ⟨call.record ctx
        ⟨call.request.operationId, .unknown, none, some probeWaitOutcome⟩ clock.third fresh.revision, false⟩
  | closed {intent : Intent} {handover : HandoverIntent} {state}
      {result : OperationResult} (row : s.operation.get key = some intent)
      (before : s.handover.get key = some handover) (unfinished : handover.state = .open_)
      (after : s'.handover.get key = some { handover with state := state }) (ended : state ≠ .open_)
      (outcome : result.state.final = true) : RowChange ctx s a s' key ⟨intent.record.settled result, false⟩

section Rows

variable {ctx : Context} {s s' : Store} {a : Act} {key : ResourceRef × String} {intent' : Intent}

theorem Change.row (h : Change ctx s a s') (hhm : Homed s)
    (hrow : s'.operation.get key = some intent') : RowChange ctx s a s' key intent' := by
  cases h with
  | claimed free row may new =>
    rcases get_put_cases hrow with ⟨rfl, rfl⟩ | ⟨-, hold⟩
    · subst new
      exact .claimed rfl rfl free rfl
    · exact .same hold rfl
  | settled settles row may =>
    rcases get_put_cases hrow with ⟨rfl, rfl⟩ | ⟨-, hold⟩
    · exact .settled rfl settles row may rfl
    · exact .same hold rfl
  | initiated free row handler new =>
    rcases get_put_cases hrow with ⟨rfl, rfl⟩ | ⟨hkey, hold⟩
    · subst new
      exact .opened rfl rfl free (get_put_self _ _ _)
    · exact .same hold (get_put_ne _ _ hkey)
  | aborted aborting handover unfinished operation outcome =>
    rw [hhm _ _ handover] at handover
    rcases get_put_cases hrow with ⟨rfl, rfl⟩ | ⟨hkey, hold⟩
    · exact .closed operation handover unfinished (get_put_self _ _ _) (by simp) (by rw [outcome]; rfl)
    · exact .same hold (get_put_ne _ _ hkey)
  | switched handover unfinished bound revision initiator drawn forward operation outcome =>
    rcases get_put_cases hrow with ⟨rfl, rfl⟩ | ⟨hkey, hold⟩
    · exact .closed operation handover unfinished (get_put_self _ _ _) (by simp) (by rw [outcome]; rfl)
    · exact .same hold (get_put_ne _ _ hkey)
  | _ => exact .same hrow rfl

theorem Change.opened (h : Change ctx s a s') (hhm : Homed s) (hopn : ∀ key intent, s.operation.get key = some intent →
      intent.record.request.operation = "handover" → s.handover.get key ≠ none)
    (hclm : ∀ call resource clock, a = .advance (.claim call resource) (.go clock) → call.handover = false)
    (hrow : s'.operation.get key = some intent') (hop : intent'.record.request.operation = "handover") :
    s'.handover.get key ≠ none := by
  cases h.row hhm hrow with
  | same row handover =>
    rw [handover]
    exact hopn key _ row hop
  | claimed act => exact absurd hop (of_decide_eq_false (hclm _ _ _ act))
  | settled act settles row may handover =>
    rw [handover]
    exact (hopn key _ row :) hop
  | opened act home free handover => rw [handover]; simp
  | closed row before unfinished after => rw [after]; simp

/-- A handover row after an act was there, up to its state, or an initiation wrote it. -/
theorem Change.handover_row (h : Change ctx s a s') (hhm : Homed s) {handover' : HandoverIntent}
    (hrow : s'.handover.get key = some handover') : (∃ handover state, s.handover.get key = some handover ∧
      handover' = { handover with state := state }) ∨
    ∃ call target deadline resource clock fresh,
      a = .advance (.initiate call target deadline resource) (.go clock) ∧ key = call.key ∧
      (∃ intent, s'.operation.get key = some intent) ∧
      handover' = call.handoverIntent target deadline fresh := by
  cases h with
  | @initiated call target deadline resource fresh clock _ free row handler new =>
    rcases get_put_cases hrow with ⟨rfl, rfl⟩ | ⟨-, hold⟩
    · exact .inr ⟨call, target, deadline, resource, clock, fresh, rfl, rfl, ⟨_, get_put_self _ _ _⟩, rfl⟩
    · exact .inl ⟨handover', handover'.state, hold, rfl⟩
  | @aborted _ _ _ _ handover _ _ aborting found unfinished operation outcome =>
    have hhome := hhm _ _ found
    rw [hhome] at found
    rcases get_put_cases hrow with ⟨rfl, rfl⟩ | ⟨-, hold⟩
    · exact .inl ⟨handover, .aborted, found, rfl⟩
    · exact .inl ⟨handover', handover'.state, hold, rfl⟩
  | switched found =>
    rcases get_put_cases hrow with ⟨rfl, rfl⟩ | ⟨-, hold⟩
    · exact .inl ⟨_, .committed, found, rfl⟩
    · exact .inl ⟨handover', handover'.state, hold, rfl⟩
  | _ => exact .inl ⟨handover', handover'.state, hrow, rfl⟩

theorem not_final_of_replaceable {state : OperationState} {late : Bool}
    (h : replaceable state late = true) : state.final = false := by
  cases state <;> simp_all [replaceable, OperationState.final]

end Rows

/-! ## One act -/

section Bound

variable {ctx : Context} {n n' : Node} {a : Act} {key : ResourceRef × String} {intent' intent : Intent}
  {task : Task}

section

variable (hbd : Bound n)
include hbd

theorem Bound.settled_owned {outcome : Settlement} {late : Bool}
    (htask : task ∈ n.tasks) (settles : Settles task key.1 key.2 outcome late)
    (hrow : n.store.operation.get key = some intent) (may : replaceable intent.record.result.state late = true) :
    n.store.handover.get key = none := by
  cases hhand : n.store.handover.get key with
  | none => rfl
  | some handover =>
    have hkn := hbd.tasks task htask
    obtain ⟨ref, id⟩ := key
    cases settles with
    | resumed =>
      -- Without `late` only a pending result is replaced, and that of a handover never is.
      obtain ⟨found, hfnd, -, -, hpend, -⟩ := hbd.handed _ _ hhand
      rw [hrow] at hfnd
      cases hfnd
      simp [replaceable] at may
      exact absurd may hpend
    | reported => exact absurd (hhand.symm.trans hkn.2) (by simp)
    | recovered => exact absurd (hhand.symm.trans hkn.1.2) (by simp)

theorem Bound.starts_knows (hunc : Unclaimed n.store a)
    (hchg : Change ctx n.store a n'.store) (h : Starts ctx n a n'.store task) : Knows n'.store task := by
  generalize n'.store = s' at h hchg
  cases h with
  | operate | recover | probe => trivial
  | @advance waiting next input _ hwait resumes =>
    have hkn := hchg.knows hbd.homed hunc (hbd.tasks waiting hwait)
    cases resumes with
    | initiates handover bound named => exact ⟨handover, named⟩
    | validates other bound handler =>
      exact ⟨other, by rw [← handler]; exact hbd.handler _ _ bound⟩
    | validated => exact hkn
    | claimed free row handovers =>
      refine ⟨⟨_, row⟩, ?_⟩
      rw [handovers]
      cases hhand : n.store.handover.get _ with
      | none => rfl
      | some =>
        obtain ⟨intent, hrow, -⟩ := hbd.handed _ _ hhand
        rw [free] at hrow
        cases hrow
    | executes | undriven | lateCall | reports | reportsLate => exact hkn
    | scansIntents =>
      rintro ⟨key, intent⟩ hmem
      have hrow := mem_rows.mp hmem
      refine ⟨(hbd.recorded key intent hrow).2.1, fun howed => ⟨⟨intent, hrow⟩, ?_⟩⟩
      cases hhand : n.store.handover.get key with
      | none => rfl
      | some handover =>
        -- The row of a handover is never owed.
        obtain ⟨found, hfnd, -, hset, -⟩ := hbd.handed _ _ hhand
        rw [hrow] at hfnd
        cases hfnd
        simp [Intent.owed, hset] at howed
    | intentDone => exact fun row hrow => hkn row (List.mem_cons_of_mem _ hrow)
    | recoverAsks owed | recoverOrphan owed =>
      obtain ⟨hid, hown⟩ := hkn _ List.mem_cons_self
      rw [hid]
      exact ⟨hown owed, fun row hrow => hkn row (List.mem_cons_of_mem _ hrow)⟩
    | recoverReport => exact hkn
    | recoverSilence | recoverNext => exact hkn.2
    | _ => trivial

theorem Bound.handler_step (hchg : Change ctx n.store a n'.store)
    {ref : ResourceRef} {resource : Resource} (hrow : n'.store.resource.get ref = some resource) :
    resource.binding.handler ≠ "" := by
  generalize n'.store = s' at hchg hrow
  cases hchg with
  | registered owner handler =>
    exact of_put hbd.handler hrow handler
  | received row | acked row =>
    exact of_put hbd.handler hrow (hbd.handler _ _ row :)
  | switched handover =>
    exact of_put hbd.handler hrow (hbd.target _ _ handover)
  | _ => exact hbd.handler _ _ hrow

theorem Bound.target_step (htsk : ∀ task input, a = .advance task input → task ∈ n.tasks)
    (hchg : Change ctx n.store a n'.store) {handover : HandoverIntent}
    (hrow : n'.store.handover.get key = some handover) : handover.target ≠ "" := by
  rcases hchg.handover_row hbd.homed hrow with
    ⟨handover, _, hold, rfl⟩ | ⟨call, target, deadline, resource, clock, fresh, hact, -, -, rfl⟩
  · exact (hbd.target _ _ hold :)
  · exact (hbd.tasks _ (htsk _ _ hact)).2

theorem Bound.recorded_step (hchg : Change ctx n.store a n'.store)
    (hrow' : n'.store.operation.get key = some intent') : Recorded key intent'.record := by
  cases hchg.row hbd.homed hrow' with
  | same row => exact hbd.recorded key _ row
  | claimed act home | opened act home => subst home; exact ⟨rfl, rfl, rfl⟩
  | settled act settles row | closed row => exact (hbd.recorded key _ row :)

section

variable (htsk : ∀ task input, a = .advance task input → task ∈ n.tasks)
  (hchg : Change ctx n.store a n'.store)
include htsk hchg

theorem Bound.handed_step {handover' : HandoverIntent} (hhand' : n'.store.handover.get key = some handover') :
    ∃ intent', n'.store.operation.get key = some intent' ∧ Handed handover' intent' := by
  have hex : ∃ intent', n'.store.operation.get key = some intent' := by
    rcases hchg.handover_row hbd.homed hhand' with
      ⟨handover, -, hold, -⟩ | ⟨_, _, _, _, _, _, -, -, hnew, -⟩
    · obtain ⟨intent, hrow, -⟩ := hbd.handed key handover hold
      exact hchg.operation_isSome ⟨intent, hrow⟩
    · exact hnew
  obtain ⟨intent', hrow'⟩ := hex
  refine ⟨intent', hrow', ?_⟩
  cases hchg.row hbd.homed hrow' with
  | same row handover =>
    rw [handover] at hhand'
    obtain ⟨found, hfnd, hhanded⟩ := hbd.handed key handover' hhand'
    rw [row] at hfnd
    cases hfnd
    exact hhanded
  | claimed act home free handover =>
    rw [handover] at hhand'
    obtain ⟨found, hfnd, -⟩ := hbd.handed key handover' hhand'
    rw [free] at hfnd
    cases hfnd
  | settled act settles row may handover =>
    rw [handover, hbd.settled_owned (htsk _ _ act) settles row may] at hhand'
    cases hhand'
  | opened act home free handover =>
    rw [handover] at hhand'
    cases hhand'
    exact ⟨rfl, rfl, by simp [Call.record], fun _ => rfl⟩
  | closed row before unfinished after ended outcome =>
    rw [after] at hhand'
    cases hhand'
    obtain ⟨found, hfnd, hdig, -⟩ := hbd.handed key _ before
    rw [row] at hfnd
    cases hfnd
    refine ⟨hdig, rfl, ?_, fun hopen => absurd hopen ended⟩
    intro hpend
    simp [OperationRecord.settled] at hpend
    rw [hpend] at outcome
    cases outcome

end

section

variable (hstep : step ctx n a = some n') (hunc : Unclaimed n.store a)
include hstep hunc

theorem Bound.kept : Bound n' := by
  have hchg := step_change hstep
  have htsk : ∀ task input, a = .advance task input → task ∈ n.tasks := by
    rintro task input rfl
    exact mem_tasks_of_advance hstep
  refine ⟨hchg.homed hbd.homed, fun _ _ => hbd.handler_step hchg,
    fun _ _ => hbd.target_step htsk hchg, fun _ _ => hbd.recorded_step hchg,
    fun _ _ => hchg.opened hbd.homed hbd.opened fun _ _ _ hact => (hbd.tasks _ (htsk _ _ hact)).1,
    fun _ _ => hbd.handed_step htsk hchg, ?_⟩
  intro task htask
  rcases step_tasks hstep htask with hold | hnew
  · exact hchg.knows hbd.homed hunc (hbd.tasks task hold)
  · exact hbd.starts_knows hunc hchg hnew

theorem Bound.keepsRecord (hrow : n.store.operation.get key = some intent) :
    ∃ intent', n'.store.operation.get key = some intent' ∧ KeepsRecord intent intent' := by
  have hchg := step_change hstep
  obtain ⟨intent', hrow'⟩ := hchg.operation_isSome ⟨intent, hrow⟩
  refine ⟨intent', hrow', ?_⟩
  cases hchg.row hbd.homed hrow' with
  | same row =>
    rw [row] at hrow
    cases hrow
    exact ⟨rfl, rfl, rfl, fun _ => rfl⟩
  | claimed act home free =>
    rw [free] at hrow
    cases hrow
  | settled act settles row may =>
    rw [row] at hrow
    cases hrow
    refine ⟨rfl, rfl, rfl, fun hfin => ?_⟩
    rw [not_final_of_replaceable may] at hfin
    cases hfin
  | opened act home free =>
    -- The condition rules out the one writer that does not look at the row it replaces.
    subst home
    exact absurd free (hunc _ _ _ _ _ act (by rw [hrow]; simp))
  | closed row before unfinished =>
    rw [row] at hrow
    cases hrow
    obtain ⟨found, hfnd, -, -, -, hopen⟩ := hbd.handed key _ before
    rw [row] at hfnd
    cases hfnd
    refine ⟨rfl, rfl, rfl, fun hfin => ?_⟩
    rw [hopen unfinished] at hfin
    cases hfin

end

end

end Bound

/-! ## Calls that come to a bound id -/

section Conflict

variable {ctx : Context} {s : Store} {call : Call} {intent : Intent}

/-- The call finds its id bound under another digest: it is answered with the conflict. -/
theorem priorStep_conflict (hrow : s.operation.get call.key = some intent) (hdig : intent.record.digest ≠ call.digest) :
    priorStep s call = answer s call (.error idConflict) := by
  unfold priorStep resumed
  rw [hrow]
  exact if_pos hdig

variable {resource : Resource} {clock : Clock} {target deadline : String}

theorem claimStep_conflict (hac : call.actor ≠ "")
    (hrow : s.operation.get call.key = some intent) (hdig : intent.record.digest ≠ call.digest) :
    claimStep ctx s call resource clock = answer s call (.error idConflict) := by
  have hclm : claimOperation ctx call clock s = .error idConflict := by
    simp [claimOperation, failIf, hac, hrow, hdig, bind, Except.bind]
  unfold claimStep
  rw [hclm]

theorem initiateStep_conflict {handover : HandoverIntent} (hrow : s.handover.get call.key = some handover)
    (hdig : handover.digest ≠ call.digest) :
    initiateStep ctx s call target deadline resource clock = answer s call (.error idConflict) := by
  have htx : initiateTx ctx call target deadline resource clock s = .error idConflict := by
    unfold initiateTx
    rw [hrow]
    exact if_pos hdig
  unfold initiateStep
  rw [htx]

theorem deadline_ne_idConflict {first second : Int} {retryUntil : String} :
    Core.deadline ctx.toContext first second retryUntil ≠ .error idConflict := by
  unfold Core.deadline utc
  split
  · next failure h =>
    split at h <;> cases h
    simp [idConflict, Core.throws, onlyneError]
  · split_ifs <;> simp [idConflict, Core.throws, onlyneError]

theorem initiateTx_free (hfree : s.handover.get call.key = none) :
    initiateTx ctx call target deadline resource clock s ≠ .error idConflict := by
  unfold initiateTx
  rw [hfree]
  intro h
  rcases bind_eq_error.mp h with hdl | ⟨_, -, h⟩
  · exact deadline_ne_idConflict hdl
  rcases bind_eq_error.mp h with hrsc | ⟨fresh, -, h⟩
  · unfold requireValue at hrsc
    split at hrsc <;> cases hrsc
  split at h
  · simp [revisionConflict, idConflict, Core.throws, onlyneError] at h
  rcases bind_eq_error.mp h with hhdl | ⟨_, -, h⟩
  · unfold failIf at hhdl
    split at hhdl <;> cases hhdl
  · cases h

theorem initiateStep_free (hfree : s.handover.get call.key = none) :
    (initiateStep ctx s call target deadline resource clock).output ≠ [.answered call (.error idConflict)] := by
  unfold initiateStep
  split
  · next thrown h =>
    intro heq
    rw [show thrown = idConflict by simpa [answer] using heq] at h
    exact initiateTx_free hfree h
  · simp [proceed]
  · simp [proceed]

end Conflict

/-! ## Every run -/

section Runs

variable {ctx : Context} {t : Transition Node Act}

theorem Bound.conflict {n n' : Node} {a : Act} (hbd : Bound n) (hstep : step ctx n a = some n')
    (hunc : Unclaimed n.store a) {call : Call} (hcomes : Comes a call) {intent : Intent}
    (hrow : n.store.operation.get call.key = some intent) (hcont : intent.record.content ≠ call.content) :
    outputs ctx ⟨n, a, n'⟩ = some [.answered call (.error idConflict)] ∧ n'.store = n.store := by
  have hdig : intent.record.digest ≠ call.digest := by
    rw [(hbd.recorded _ _ hrow).2.2]
    exact fun h => hcont (digestOf_eq_iff.mp h)
  -- Whichever step looks for the binding answers with the conflict.
  have hans : ∃ task input, a = .advance task input ∧
      resume ctx n.store task input = some (answer n.store call (.error idConflict)) := by
    cases hcomes with
    | prior => exact ⟨_, _, rfl, congrArg some (priorStep_conflict hrow hdig)⟩
    | claim =>
      have hac := (hbd.tasks _ (mem_tasks_of_advance hstep)).2
      exact ⟨_, _, rfl, congrArg some (claimStep_conflict hac hrow hdig)⟩
    | initiate =>
      obtain ⟨handover, hhand⟩ := ne_none_iff_exists'.mp (hunc _ _ _ _ _ rfl (by rw [hrow]; simp))
      obtain ⟨found, hfnd, hsame, -⟩ := hbd.handed _ _ hhand
      rw [hrow] at hfnd
      cases hfnd
      rw [hsame] at hdig
      exact ⟨_, _, rfl, congrArg some (initiateStep_conflict hhand hdig)⟩
  obtain ⟨task, input, rfl, hres⟩ := hans
  obtain ⟨outcome, hout, hst, -, houts⟩ := outcome_of_advance hstep
  rw [hres] at hout
  cases hout
  exact ⟨houts, hst⟩

/-- A transition binds exactly when it does not open a handover over an ordinary operation. -/
theorem Bound.binds_iff (hbd : Bound t.before) (hstep : step ctx t.before t.act = some t.after) :
    Binds ctx t ↔ Unclaimed t.before.store t.act := by
  constructor
  · rintro ⟨-, hconf⟩ call target deadline resource clock hact hrow hfree
    obtain ⟨intent, hrow⟩ := ne_none_iff_exists'.mp hrow
    obtain ⟨before, a, after⟩ := t
    cases hact
    have htask := hbd.tasks _ (mem_tasks_of_advance hstep)
    -- The record is not that of a handover, the call is: their contents differ.
    have hcont : intent.record.content ≠ call.content := by
      intro hsame
      have hop : intent.record.request.operation = "handover" := by
        rw [operation_eq_of_content hsame]
        exact of_decide_eq_true htask.1
      exact hbd.opened _ _ hrow hop hfree
    obtain ⟨outcome, hres, -, -, houts⟩ := outcome_of_advance hstep
    cases hres
    have hans := (hconf call .initiate intent hrow hcont).1
    rw [houts] at hans
    exact initiateStep_free hfree (Option.some.inj hans)
  · intro hunc
    exact ⟨fun key intent hrow => hbd.keepsRecord hstep hunc hrow, fun call hcomes intent hrow hcont =>
        hbd.conflict hstep hunc hcomes hrow hcont⟩

theorem bound_empty : Bound {} where
  homed key handover hrow := by cases hrow
  handler ref resource hrow := by cases hrow
  target key handover hrow := by cases hrow
  recorded key intent hrow := by cases hrow
  opened key intent hrow := by cases hrow
  handed key handover hrow := by cases hrow
  tasks task htask := by cases htask

end Runs

/-- In a run from the empty node every record keeps its actor, its request, its digest and a result that is
certain, and every call that comes to an id bound to another request is answered with a conflict, exactly
when no initiation finds an operation row without a handover row. -/
theorem operation_ids_bound (ctx : Context) {h : List (Transition Node Act)} {n : Node}
    (hrun : Run (step ctx) {} h n) : (∀ t ∈ h, Binds ctx t) ↔ ∀ t ∈ h, unclaimed t = true := by
  refine hrun.forall_iff_of (I := Bound) bound_empty ?_ ?_
  · intro n a n' hbd hstep hunc
    exact hbd.kept hstep (unclaimed_iff.mp hunc)
  · intro n a n' hbd hstep
    exact (hbd.binds_iff (t := ⟨n, a, n'⟩) hstep).trans unclaimed_iff.symm

open Scenario in
/-- A send is settled under an id, and a handover that comes with the same id afterwards is answered with a
conflict; the run binds. -/
theorem operation_ids_bound_sent : ∃ h n, Run (step (context "hub")) {} h n ∧
      (∃ t ∈ h, outputs (context "hub") t = some [.answered
        (handoverCall (resource "hub" "chat" "ann") "op" "bob") (.error idConflict)]) ∧
      ∀ t ∈ h, Binds (context "hub") t := by
  let chat := resource "hub" "chat" "ann"
  let call := handoverCall chat "op" "bob"
  obtain ⟨h, n, hrun, hconf, hunc⟩ := exists_run (step (context "hub")) {}
    (.register "hub" chat :: sending chat "op" ++ [.operate call, .advance (.prior call) (.go clock)])
    (fun h _ => (∃ t ∈ h, outputs (context "hub") t = some [.answered call (.error idConflict)]) ∧
      ∀ t ∈ h, unclaimed t = true)
    (by decide +kernel)
  exact ⟨h, n, hrun, hconf, (operation_ids_bound (context "hub") hrun).mpr hunc⟩

open Scenario in
/-- A handover and a send come with one id before either claims it.  The send is claimed, executed and
settled; the transaction of the handover then overwrites its request and its committed result. -/
theorem initiate_rebinds : ∃ h n, Run (step (context "hub")) {} h n ∧ ∃ t ∈ h, ∃ intent intent',
      t.before.store.operation.get (⟨"hub", "chat"⟩, "op") = some intent ∧
      t.after.store.operation.get (⟨"hub", "chat"⟩, "op") = some intent' ∧
      intent.record.request.operation = "send" ∧ intent.record.result.state = .committed ∧
      intent'.record.request.operation = "handover" ∧ intent'.record.result.state = .unknown ∧
      intent'.record.digest ≠ intent.record.digest := by
  let chat := resource "hub" "chat" "ann"
  let call := handoverCall chat "op" "bob"
  obtain ⟨h, n, hrun, t, ht, intent, hrow, intent', hrow', hrebound⟩ := exists_run (step (context "hub")) {}
    (.register "hub" chat :: .operate call :: .advance (.prior call) (.go clock) ::
      .advance (.admitted call) (.go clock) :: sending chat "op" ++
      [.advance (.initiate call "bob" deadline chat) (.go clock)])
    (fun h _ => ∃ t ∈ h, ∃ intent ∈ t.before.store.operation.get (⟨"hub", "chat"⟩, "op"),
      ∃ intent' ∈ t.after.store.operation.get (⟨"hub", "chat"⟩, "op"),
        intent.record.request.operation = "send" ∧ intent.record.result.state = .committed ∧
          intent'.record.request.operation = "handover" ∧ intent'.record.result.state = .unknown ∧
          intent'.record.digest ≠ intent.record.digest)
    (by decide +kernel)
  exact ⟨h, n, hrun, t, ht, intent, intent', hrow, hrow', hrebound⟩

end Onlyne.Resources
