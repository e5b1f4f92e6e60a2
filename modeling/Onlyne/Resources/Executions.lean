import Onlyne.Resources.Operations

/-!
# Resources: the external effect happens at most once

The call of the driver is the only place where an operation takes effect outside.  A call gets there only
through the transaction that writes the row of its operation id, and that row is never lost: not by a
crash between the claim and the call, nor by a retry or a recovery pass, which never call `execute`.
`executions_nodup` says that the driver executes every operation id of a resource at most once.
-/

namespace Onlyne.Resources

open Foundation List Option

/-! ## Executions -/

def executedKey : Output → Option (ResourceRef × String)
  | .executed resource request => some (resource.resourceRef, request.operationId)
  | _ => none

def executes (ctx : Context) (t : Transition Node Act) : List (ResourceRef × String) :=
  ((outputs ctx t).getD []).filterMap executedKey

def executions (ctx : Context) (h : List (Transition Node Act)) : List (ResourceRef × String) :=
  h.flatMap (executes ctx)

def pendingKey : Task → Option (ResourceRef × String)
  | .execute call _ => some call.key
  | _ => none

/-- The operations that calls in flight are about to execute. -/
def pending (tasks : List Task) : List (ResourceRef × String) := tasks.filterMap pendingKey

/-! ## What one act does -/

section Step

variable {ctx : Context} {n n' : Node} {a : Act}

theorem executes_eq_nil (hstep : step ctx n a = some n')
    (hoth : ∀ call resource clock, a ≠ .advance (.execute call resource) (.go clock)) :
    executes ctx ⟨n, a, n'⟩ = [] := by
  obtain ⟨⟨m, emitted⟩, hact, rfl⟩ := map_eq_some_iff.mp hstep
  simp only [executes, outputs, hact, map_some, getD_some, filterMap_eq_nil_iff]
  intro output hout
  have hemits := act_emits hact hout
  generalize m.store = s' at hemits
  cases hemits with
  | executed => exact absurd rfl (hoth _ _ _)
  | _ => rfl

theorem pending_append (tasks tasks' : List Task) : pending (tasks ++ tasks') = pending tasks ++ pending tasks' :=
  filterMap_append

theorem pending_erase_sublist (tasks : List Task) (task : Task) :
    (pending (tasks.erase task)).Sublist (pending tasks) :=
  erase_sublist.filterMap _

/-- A call leads to one that is about to execute only by claiming its operation. -/
theorem resume_pending {task : Task} {input : Input} {outcome : Outcome}
    (h : resume ctx n.store task input = some outcome) :
    pending outcome.tasks = [] ∨ ∃ call resource clock, task = .claim call resource ∧
      input = .go clock ∧ pending outcome.tasks = [call.key] ∧
      n.store.operation.get call.key = none ∧ outcome.store.operation.get call.key ≠ none := by
  by_cases hnone : pending outcome.tasks = []
  · exact .inl hnone
  obtain ⟨key, hkey⟩ := exists_mem_of_ne_nil _ hnone
  obtain ⟨next, hnext, hpend⟩ := mem_filterMap.mp hkey
  have hres := resume_resumes h hnext
  generalize hs' : outcome.store = s' at hres
  cases hres with
  | @claimed call resource clock intent _ free row handovers =>
    refine .inr ⟨call, resource, clock, rfl, rfl, ?_, free, by rw [row]; simp⟩
    cases h
    unfold claimStep at hnext ⊢
    split at hnext
    · cases hnext
    · obtain ⟨-, -, heq⟩ := mem_resumed_tasks hnext
      cases heq
    · rfl
  | _ => cases hpend

/-- An act that starts a call, or ends them all, leaves no further call about to execute. -/
theorem pending_of_other (hstep : step ctx n a = some n') (hoth : ∀ task input, a ≠ .advance task input) :
    (pending n'.tasks).Sublist (pending n.tasks) := by
  have hnew (task : Task) (h : pendingKey task = none) :
      (pending (n.tasks ++ [task])).Sublist (pending n.tasks) := by
    rw [pending_append, pending, pending, filterMap_cons_none h, filterMap_nil, append_nil]
  obtain ⟨⟨m, emitted⟩, hact, rfl⟩ := map_eq_some_iff.mp hstep
  cases a
  case advance task input => exact absurd rfl (hoth task input)
  all_goals
    simp only [act] at hact
    repeat' split at hact
  all_goals
    cases hact
    first | exact List.Sublist.refl _ | exact hnew _ rfl | exact nil_sublist _

end Step

/-! ## Every run -/

def Referenced (s : Store) : Prop :=
  ∀ ref resource, s.resource.get ref = some resource → resource.resourceRef = ref

def Names : Task → Prop
  | .validate call resource | .claim call resource | .execute call resource =>
    resource.resourceRef = call.ref
  | _ => True

/-- The operations that were executed or are about to be, in order. -/
def claims (ctx : Context) (h : List (Transition Node Act)) (n : Node) : List (ResourceRef × String) :=
  executions ctx h ++ pending n.tasks

/-- No operation is executed twice, or executed and about to be; each has its row. -/
structure Single (ctx : Context) (h : List (Transition Node Act)) (n : Node) : Prop where
  referenced : Referenced n.store
  names : ∀ task ∈ n.tasks, Names task
  once : (claims ctx h n).Nodup
  claimed : ∀ key ∈ claims ctx h n, n.store.operation.get key ≠ none

section Run

variable {ctx : Context} {n n' : Node} {a : Act} {h : List (Transition Node Act)}

theorem Change.referenced {s s' : Store} (hchg : Change ctx s a s') (hrefs : Referenced s) : Referenced s' := by
  intro ref resource hrow
  cases hchg with
  | registered =>
    exact Table.of_put hrefs hrow rfl
  | received row | acked row =>
    exact Table.of_put hrefs hrow (hrefs _ _ row :)
  | switched handover unfinished bound =>
    exact Table.of_put hrefs hrow (hrefs _ _ bound :)
  | _ => exact hrefs ref resource hrow

theorem Single.names_step (hone : Single ctx h n) (hstep : step ctx n a = some n') : ∀ task ∈ n'.tasks, Names task := by
  intro task htask
  rcases step_tasks hstep htask with hold | hnew
  · exact hone.names task hold
  · generalize n'.store = s' at hnew
    cases hnew with
    | operate | recover | probe => trivial
    | advance waiting resumes =>
      have hbef := hone.names _ waiting
      cases resumes with
      | validates other bound => exact hone.referenced _ _ bound
      | validated | claimed => exact hbef
      | _ => trivial

theorem claims_snoc (t : Transition Node Act) (n : Node) :
    claims ctx (h ++ [t]) n = executions ctx h ++ (executes ctx t ++ pending n.tasks) := by
  simp [claims, executions]

theorem Single.keeps (hone : Single ctx h n) (hstep : step ctx n a = some n') :
    ∀ key ∈ claims ctx h n, n'.store.operation.get key ≠ none := by
  intro key hkey
  obtain ⟨intent, hrow⟩ := ne_none_iff_exists'.mp (hone.claimed key hkey)
  obtain ⟨intent', hrow'⟩ := (step_change hstep).operation_isSome ⟨intent, hrow⟩
  rw [hrow']
  simp

/-- What an act executes and what is about to be executed after it was about to be before, up to order, or
one operation is new, and had no row. -/
theorem Single.executes_step (hone : Single ctx h n) (hstep : step ctx n a = some n') :
    (executes ctx ⟨n, a, n'⟩ ++ pending n'.tasks).Subperm (pending n.tasks) ∨
    ∃ key earlier, executes ctx ⟨n, a, n'⟩ ++ pending n'.tasks = earlier ++ [key] ∧
      earlier.Subperm (pending n.tasks) ∧ n.store.operation.get key = none ∧ n'.store.operation.get key ≠ none := by
  by_cases hexec : ∃ call resource clock, a = .advance (.execute call resource) (.go clock)
  · obtain ⟨call, resource, clock, rfl⟩ := hexec
    have hwait := mem_tasks_of_advance hstep
    have hnm : resource.resourceRef = call.ref := hone.names _ hwait
    obtain ⟨outcome, hres, -, htsk, houts⟩ := outcome_of_advance hstep
    cases hres
    have hperm : (call.key :: pending (n.tasks.erase (.execute call resource))).Perm (pending n.tasks) :=
      ((perm_cons_erase hwait).filterMap pendingKey).symm
    refine .inl ?_
    rw [executes, houts, htsk, pending_append]
    unfold executeStep
    split_ifs
    · have hkey : (resource.resourceRef, call.request.operationId) = call.key := by
        rw [hnm]
        rfl
      show ([(resource.resourceRef, call.request.operationId)] ++ (pending _ ++ [])).Subperm _
      rw [hkey, append_nil]
      exact hperm.subperm
    · show ([] ++ (pending _ ++ [])).Subperm _
      rw [nil_append, append_nil]
      exact (pending_erase_sublist n.tasks _).subperm
  · have hnone : executes ctx ⟨n, a, n'⟩ = [] :=
      executes_eq_nil hstep fun call resource clock hact => hexec ⟨call, resource, clock, hact⟩
    rw [hnone, nil_append]
    by_cases hadvance : ∃ task input, a = .advance task input
    · obtain ⟨task, input, rfl⟩ := hadvance
      obtain ⟨outcome, hres, hst, htsk, -⟩ := outcome_of_advance hstep
      have herase := (pending_erase_sublist n.tasks task).subperm
      rw [htsk, pending_append, hst]
      rcases resume_pending hres with hpend | ⟨call, _, _, -, -, hpend, hfree, hrow⟩
      · rw [hpend, append_nil]
        exact .inl herase
      · rw [hpend]
        exact .inr ⟨call.key, _, rfl, herase, hfree, hrow⟩
    · refine .inl (pending_of_other hstep ?_).subperm
      exact fun task input hact => hadvance ⟨task, input, hact⟩

theorem nodup_of_subperm {keys keys' : List (ResourceRef × String)} (h : keys.Subperm keys')
    (hnodup : keys'.Nodup) : keys.Nodup := by
  obtain ⟨middle, hperm, hsub⟩ := h
  exact hperm.nodup_iff.mp (hnodup.sublist hsub)

theorem Single.step_kept (hone : Single ctx h n) (hstep : step ctx n a = some n') :
    Single ctx (h ++ [⟨n, a, n'⟩]) n' := by
  have hkp := hone.keeps hstep
  suffices hclaims : (claims ctx (h ++ [⟨n, a, n'⟩]) n').Nodup ∧
      ∀ key ∈ claims ctx (h ++ [⟨n, a, n'⟩]) n', n'.store.operation.get key ≠ none from
    ⟨(step_change hstep).referenced hone.referenced, hone.names_step hstep, hclaims.1, hclaims.2⟩
  rw [claims_snoc]
  rcases hone.executes_step hstep with hold | ⟨key, earlier, heq, hold, hfree, hrow⟩
  · have hsub := (subperm_append_left (executions ctx h)).mpr hold
    exact ⟨nodup_of_subperm hsub hone.once, fun key hkey => hkp key (hsub.subset hkey)⟩
  · have hsub := (subperm_append_left (executions ctx h)).mpr hold
    rw [heq, ← append_assoc]
    constructor
    · -- The new operation had no row, and every other claim has one.
      refine (nodup_of_subperm hsub hone.once).append (nodup_singleton key) ?_
      rintro other hoth hnew
      cases mem_singleton.mp hnew
      exact hone.claimed key (hsub.subset hoth) hfree
    · intro other hoth
      rcases mem_append.mp hoth with hoth | hnew
      · exact hkp other (hsub.subset hoth)
      · cases mem_singleton.mp hnew
        exact hrow

theorem single_empty : Single ctx [] {} where
  referenced ref resource hrow := by cases hrow
  names task htask := by cases htask
  once := nodup_nil
  claimed key hkey := by cases hkey

end Run

/-- Over every interleaving of the calls of a node, with crashes and recovery passes at any point, the
driver executes each operation id of a resource at most once. -/
theorem executions_nodup (ctx : Context) {h : List (Transition Node Act)} {n : Node}
    (hrun : Run (step ctx) {} h n) : (executions ctx h).Nodup := by
  have hone : Single ctx h n := by
    refine hrun.induction_on (I := Single ctx) single_empty ?_
    intro h n a n' _ hone hstep
    exact hone.step_kept hstep
  exact (nodup_append.mp hone.once).1

open Scenario in
/-- The driver executes a send and its caller crashes before the result is settled; the retry asks the
driver for the outcome and does not execute again. -/
theorem executions_nodup_retried : ∃ h n, Run (step (context "hub")) {} h n ∧
      executions (context "hub") h = [(⟨"hub", "chat"⟩, "op")] ∧ (executions (context "hub") h).Nodup := by
  let chat := resource "hub" "chat" "ann"
  let call := sendCall chat "op"
  obtain ⟨h, n, hrun, hfacts⟩ := exists_run (step (context "hub")) {}
    (.register "hub" chat :: (sending chat "op").take 6 ++ [.crash, .operate call, .advance (.prior call) (.go clock)])
    (fun h n => executions (context "hub") h = [(⟨"hub", "chat"⟩, "op")] ∧ n.tasks.any (· matches .resume _ _))
    (by decide +kernel)
  exact ⟨h, n, hrun, hfacts.1, executions_nodup (context "hub") hrun⟩

/-! ## Who caused an execution -/

/-- An earlier act found the resource row, and in it the caller as the handler. -/
def Authorised (h : List (Transition Node Act)) (call : Call) (resource : Resource) : Prop :=
  resource.binding.handler = call.actor ∧
    ∃ t ∈ h, t.before.store.resource.get call.ref = some resource ∧ ∃ input, t.act = .advance (.admitted call) input

/-- What a call on its way to the driver has behind it. -/
def Passed (h : List (Transition Node Act)) : Task → Prop
  | .validate call resource | .claim call resource | .execute call resource => Authorised h call resource
  | _ => True

section Authority

variable {ctx : Context} {n n' : Node} {a : Act} {h : List (Transition Node Act)} {task : Task}

theorem Passed.mono (t : Transition Node Act) (hpass : Passed h task) : Passed (h ++ [t]) task := by
  cases task with
  | validate | claim | execute =>
    obtain ⟨hhnd, t', ht', hrest⟩ := hpass
    exact ⟨hhnd, t', mem_append_left _ ht', hrest⟩
  | _ => trivial

theorem passed_step (hpass : ∀ task ∈ n.tasks, Passed h task) (hstep : step ctx n a = some n') :
    ∀ task ∈ n'.tasks, Passed (h ++ [⟨n, a, n'⟩]) task := by
  intro task htask
  rcases step_tasks hstep htask with hold | hnew
  · exact (hpass task hold).mono _
  · generalize n'.store = s' at hnew
    cases hnew with
    | operate | recover | probe => trivial
    | advance waiting resumes =>
      have hbef := hpass _ waiting
      cases resumes with
      | validates other bound handler =>
        exact ⟨handler, _, mem_append_right _ (mem_singleton_self _), bound, _, rfl⟩
      | validated | claimed => exact Passed.mono _ hbef
      | _ => trivial

end Authority

/-- **An execution has its reasons.**  Over every interleaving of the calls of a node, with crashes and recovery
passes at any point, whenever the driver executes a request, the row of its operation id is already stored, and
an earlier act of its call found the resource row the driver is given, with the caller as the handler. -/
theorem executions_authorised (ctx : Context) {past future : List (Transition Node Act)} {t : Transition Node Act}
    {n : Node} (hrun : Run (step ctx) {} (past ++ t :: future) n) {resource : Resource} {request : OperationRequest}
    (hexec : .executed resource request ∈ (outputs ctx t).getD []) :
    t.before.store.operation.get (resource.resourceRef, request.operationId) ≠ none ∧
      ∃ call, call.request = request ∧ call.ref = resource.resourceRef ∧ Authorised past call resource := by
  obtain ⟨hpast, hstep, -⟩ := hrun.split_at
  have hone : Single ctx past t.before := hpast.induction_on (I := Single ctx) single_empty
    fun _ _ _ _ _ hone hstep => hone.step_kept hstep
  have hpass : ∀ task ∈ t.before.tasks, Passed past task :=
    hpast.induction_on (I := fun h n => ∀ task ∈ n.tasks, Passed h task) (fun _ htask => absurd htask not_mem_nil)
      fun _ _ _ _ _ hpass hstep => passed_step hpass hstep
  obtain ⟨⟨m, emitted⟩, hact, hafter⟩ := map_eq_some_iff.mp hstep
  simp only [outputs, hact, map_some, getD_some] at hexec
  have hemits := act_emits hact hexec
  generalize t.act = a at hemits
  generalize m.store = s' at hemits
  cases hemits with
  | @executed call _ _ waiting =>
    have hnames : resource.resourceRef = call.ref := hone.names _ waiting
    refine ⟨?_, call, rfl, hnames.symm, hpass _ waiting⟩
    rw [hnames]
    exact hone.claimed _ (mem_append_right _ (mem_filterMap.mpr ⟨_, waiting, rfl⟩))

open Scenario in
/-- `ann` is the handler of a chat, and the driver executes what they send. -/
theorem executions_authorised_sent : ∃ past t future n, Run (step (context "hub")) {} (past ++ t :: future) n ∧
      .executed (resource "hub" "chat" "ann") (sendCall (resource "hub" "chat" "ann") "op").request ∈
        (outputs (context "hub") t).getD [] ∧
      ∃ call, Authorised past call (resource "hub" "chat" "ann") := by
  let chat := resource "hub" "chat" "ann"
  obtain ⟨h, n, hrun, t, ht, hexec⟩ := exists_run (step (context "hub")) {} (.register "hub" chat :: (sending chat "op").take 6)
    (fun h _ => ∃ t ∈ h, .executed chat (sendCall chat "op").request ∈ (outputs (context "hub") t).getD [])
    (by decide +kernel)
  obtain ⟨past, future, rfl⟩ := append_of_mem ht
  obtain ⟨-, call, -, -, hauth⟩ := executions_authorised (context "hub") hrun hexec
  exact ⟨past, t, future, n, hrun, hexec, call, hauth⟩

end Onlyne.Resources
