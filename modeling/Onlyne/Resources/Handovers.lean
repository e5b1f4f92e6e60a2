import Onlyne.Resources.Changes

/-!
# Resources: the binding under handovers

A handover row is opened once and closed once.  The binding of a resource moves only in the transaction
that closes a handover as committed, and that transaction finds the revision the handover expected.  Since
every switch draws a revision that was never used, a revision that was left behind does not come back:
`handover_binding_safe` puts this together for every interleaving of the calls of a node.
-/

namespace Onlyne.Resources

open Foundation Table List

/-! ## Commits and aborts -/

section

variable (t : Transition Node Act) (ref : ResourceRef) (id : String) (intent : HandoverIntent)

/-- The transition commits the handover `intent` of the resource `ref` under the operation `id`. -/
def Commits : Prop :=
  t.before.store.handover.get (ref, id) = some intent ∧ intent.state = .open_ ∧
    t.after.store.handover.get (ref, id) = some { intent with state := .committed }

def Aborts : Prop :=
  t.before.store.handover.get (ref, id) = some intent ∧ intent.state = .open_ ∧
    t.after.store.handover.get (ref, id) = some { intent with state := .aborted }

/-- The revision a transition draws when it moves a binding. -/
def draws : List String :=
  match t.act with
  | .advance (.commit ref _ _ _) (.id _ fresh) =>
    if t.after.store.resource.get ref = t.before.store.resource.get ref then [] else [fresh]
  | _ => []

def brings : List String :=
  match t.act with
  | .register _ resource => [resource.revision]
  | _ => draws t

/-- The host never draws an id that is a revision already. -/
def FreshIds (h : List (Transition Node Act)) : Prop :=
  h.Pairwise fun t t' => ∀ id ∈ draws t', id ∉ brings t

instance (h : List (Transition Node Act)) : Decidable (FreshIds h) :=
  inferInstanceAs (Decidable (h.Pairwise fun t t' => ∀ id ∈ draws t', id ∉ brings t))

theorem draws_subset_brings : draws t ⊆ brings t := by
  intro id hid
  unfold brings
  split
  · next heq =>
    rw [draws, heq] at hid
    cases hid
  · exact hid

end

/-! ## Handover rows -/

section Rows

variable {ctx : Context} {s s' : Store} {a : Act} {intent : HandoverIntent}

def Homed (s : Store) : Prop :=
  ∀ key intent, s.handover.get key = some intent → key = (intent.resourceRef, intent.operationId)

theorem Homed.put {key : ResourceRef × String} (hhm : Homed s) (hrows : s'.handover = s.handover.put key intent)
    (hkey : key = (intent.resourceRef, intent.operationId)) : Homed s' := by
  intro key' intent' hget
  rw [hrows] at hget
  exact of_put hhm hget hkey

theorem Change.homed (h : Change ctx s a s') (hhm : Homed s) : Homed s' := by
  cases h with
  | initiated | aborted => exact hhm.put rfl rfl
  | switched handover =>
    have hhome := hhm _ _ handover
    exact hhm.put rfl hhome
  | _ => exact hhm

/-- The act switches the handler of the resource to the target of its handover: it finds the revision and
the handler the handover was opened with, and leaves the target under a fresh revision. -/
def Switches (s : Store) (a : Act) (s' : Store) (ref : ResourceRef) (id : String) (intent : HandoverIntent) : Prop :=
  ∃ cursor next now fresh resource position,
    a = .advance (.commit ref id cursor next) (.id now fresh) ∧
    s.resource.get ref = some resource ∧ resource.revision = intent.expectedRevision ∧
    resource.binding.handler = intent.initiator ∧ fresh ≠ resource.revision ∧
    s'.resource.get ref = some (resource.handedTo intent.target position fresh)

variable {ref : ResourceRef}

/-- A handover row stays as it is, or is open and closed by an abort that leaves the resources or by a
switch. -/
theorem Change.handover (h : Change ctx s a s') (hhm : Homed s) {id : String}
    (hrow : s.handover.get (ref, id) = some intent) : s'.handover.get (ref, id) = some intent ∨
    intent.state = .open_ ∧ s'.handover.get (ref, id) = some { intent with state := .aborted } ∧
      s'.resource = s.resource ∨
    intent.state = .open_ ∧ s'.handover.get (ref, id) = some { intent with state := .committed } ∧
      Switches s a s' ref id intent := by
  cases h with
  | initiated free =>
    refine .inl ((get_put_ne _ _ ?_).trans hrow)
    intro hkey
    rw [← hkey, hrow] at free
    cases free
  | @aborted _ _ ref' id' closing _ _ aborting handover unfinished operation outcome =>
    have hhome := hhm _ _ handover
    by_cases hkey : (ref, id) = (ref', id')
    · cases hkey
      rw [handover] at hrow
      cases hrow
      refine .inr (.inl ⟨unfinished, ?_, rfl⟩)
      rw [hhome]
      exact get_put_self _ _ _
    · rw [hhome] at hkey
      exact .inl ((get_put_ne _ _ hkey).trans hrow)
  | @switched ref' id' cursor fresh position next now closing resource _ _ handover unfinished bound revision
      initiator drawn forward operation outcome =>
    by_cases hkey : (ref, id) = (ref', id')
    · cases hkey
      rw [handover] at hrow
      cases hrow
      exact .inr (.inr ⟨unfinished, get_put_self _ _ _, cursor, next, now, fresh, resource,
        position, rfl, bound, revision, initiator, drawn, get_put_self _ _ _⟩)
    · exact .inl ((get_put_ne _ _ hkey).trans hrow)
  | _ => exact .inl hrow

/-! ## Resource rows -/

def Forward (before after : String) : Prop := after = before ∨ follows after before = .ok true

/-- A resource row stays; its readers stay, its cursor does not move back, and its handler and revision
change only in a switch. -/
theorem Change.resource (h : Change ctx s a s') {resource : Resource}
    (hrow : s.resource.get ref = some resource) : ∃ resource', s'.resource.get ref = some resource' ∧
      resource'.logReaders = resource.logReaders ∧ Forward resource.binding.cursor resource'.binding.cursor ∧
      (resource'.binding.handler = resource.binding.handler ∧ resource'.revision = resource.revision ∨
      ∃ id intent, s.handover.get (ref, id) = some intent ∧ intent.state = .open_ ∧
        s'.handover.get (ref, id) = some { intent with state := .committed } ∧
        resource.revision = intent.expectedRevision ∧ resource'.binding.handler = intent.target ∧
        resource'.revision ≠ resource.revision ∧ ∃ cursor next now,
          a = .advance (.commit ref id cursor next) (.id now resource'.revision)) := by
  cases h with
  | @registered actor registered owner handler free cursor seq =>
    refine ⟨resource, (get_put_ne _ _ ?_).trans hrow, rfl, .inl rfl, .inl ⟨rfl, rfl⟩⟩
    rintro rfl
    rw [hrow] at free
    cases free
  | @received actor ref' input clock old event last row seq new home number source retained =>
    by_cases hkey : ref = ref'
    · subst hkey
      rw [row] at hrow
      cases hrow
      exact ⟨_, get_put_self _ _ _, rfl, .inl rfl, .inl ⟨rfl, rfl⟩⟩
    · exact ⟨resource, (get_put_ne _ _ hkey).trans hrow, rfl, .inl rfl, .inl ⟨rfl, rfl⟩⟩
  | @acked actor ref' id mutation clock old event slot answered row handler found forward =>
    by_cases hkey : ref = ref'
    · subst hkey
      rw [row] at hrow
      cases hrow
      exact ⟨_, get_put_self _ _ _, rfl, .inr forward, .inl ⟨rfl, rfl⟩⟩
    · exact ⟨resource, (get_put_ne _ _ hkey).trans hrow, rfl, .inl rfl, .inl ⟨rfl, rfl⟩⟩
  | @switched ref' id cursor fresh position next now intent old _ _ handover unfinished bound revision
      initiator drawn forward operation outcome =>
    by_cases hkey : ref = ref'
    · subst hkey
      rw [bound] at hrow
      cases hrow
      refine ⟨_, get_put_self _ _ _, rfl, ?_, .inr ⟨id, intent, handover, unfinished,
        get_put_self _ _ _, revision, rfl, drawn, cursor, next, now, rfl⟩⟩
      rcases forward with ⟨rfl, -⟩ | ⟨rfl, hfwd⟩
      · exact .inl rfl
      · exact .inr hfwd
    · exact ⟨resource, (get_put_ne _ _ hkey).trans hrow, rfl, .inl rfl, .inl ⟨rfl, rfl⟩⟩
  | _ => exact ⟨resource, hrow, rfl, .inl rfl, .inl ⟨rfl, rfl⟩⟩

theorem Change.new_resource (h : Change ctx s a s') {resource : Resource} (hfree : s.resource.get ref = none)
    (hrow : s'.resource.get ref = some resource) :
    ∃ actor, a = .register actor resource ∧ ∃ position, decimal resource.binding.cursor = .ok position := by
  have hold {ref' : ResourceRef} {old new : Resource} (hrow' : s.resource.get ref' = some old)
      (hput : (s.resource.put ref' new).get ref = some resource) : False := by
    rcases get_put_cases hput with ⟨rfl, -⟩ | ⟨-, hput⟩
    · rw [hrow'] at hfree
      cases hfree
    · rw [hput] at hfree
      cases hfree
  cases h with
  | @registered actor registered owner handler free cursor seq =>
    rcases get_put_cases hrow with ⟨rfl, rfl⟩ | ⟨-, hput⟩
    · exact ⟨actor, rfl, cursor⟩
    · rw [hput] at hfree
      cases hfree
  | received row | acked row => exact (hold row hrow).elim
  | switched handover unfinished bound =>
    exact (hold bound hrow).elim
  | _ => cases hfree.symm.trans hrow

end Rows

/-! ## Whole runs -/

section Runs

variable {ctx : Context} {start n : Node} {h : List (Transition Node Act)}
  {t : Transition Node Act} {ref : ResourceRef} {id : String} {intent : HandoverIntent}

theorem Commits.switches (hcom : Commits t ref id intent) (hhm : Homed t.before.store)
    (hstep : step ctx t.before t.act = some t.after) : Switches t.before.store t.act t.after.store ref id intent := by
  obtain ⟨hbef, hopen, haft⟩ := hcom
  rcases (step_change hstep).handover hhm hbef with hsame | ⟨-, habort, -⟩ | ⟨-, -, hswitches⟩
  · have hst := congrArg (Option.map HandoverIntent.state) (hsame.symm.trans haft)
    rw [Option.map_some, hopen] at hst
    cases hst
  · cases congrArg (Option.map HandoverIntent.state) (habort.symm.trans haft)
  · exact hswitches

theorem Aborts.keeps (habort : Aborts t ref id intent) (hhm : Homed t.before.store)
    (hstep : step ctx t.before t.act = some t.after) : t.after.store.resource = t.before.store.resource := by
  obtain ⟨hbef, hopen, haft⟩ := habort
  rcases (step_change hstep).handover hhm hbef with hsame | ⟨-, -, hkp⟩ | ⟨-, hcom, -⟩
  · have hst := congrArg (Option.map HandoverIntent.state) (hsame.symm.trans haft)
    rw [Option.map_some, hopen] at hst
    cases hst
  · exact hkp
  · cases congrArg (Option.map HandoverIntent.state) (hcom.symm.trans haft)

theorem closed_stays (hrun : Run (step ctx) start h n) (hstart : Homed start.store) :
    h.Pairwise fun t t' => ∀ ref id intent, t.after.store.handover.get (ref, id) = some intent →
      intent.state ≠ .open_ → t'.before.store.handover.get (ref, id) = some intent := by
  refine hrun.pairwise_of (I := fun n => Homed n.store) (C := fun _ => True)
    (P := fun t n => ∀ ref id intent, t.after.store.handover.get (ref, id) = some intent →
      intent.state ≠ .open_ → n.store.handover.get (ref, id) = some intent)
    (fun _ _ => trivial) hstart (fun _ _ _ hhm hstep _ => (step_change hstep).homed hhm) ?_ ?_ ?_
  · intro n a n' _ _ _ ref id intent hrow _
    exact hrow
  · intro t n a n' hhm hcl hstep _ ref id intent hrow hst
    rcases (step_change hstep).handover hhm (hcl ref id intent hrow hst) with
      hsame | ⟨hopen, -⟩ | ⟨hopen, -⟩
    · exact hsame
    · exact absurd hopen hst
    · exact absurd hopen hst
  · intro t n a n' _ hcl _ _
    exact hcl

/-- Neither transition aborts a handover that the other one commits. -/
def Apart (t t' : Transition Node Act) : Prop :=
  ∀ ref id intent intent', ¬ (Aborts t ref id intent ∧ Commits t' ref id intent') ∧
    ¬ (Aborts t' ref id intent ∧ Commits t ref id intent')

instance : Std.Symm Apart :=
  ⟨fun _ _ hapart ref id intent intent' => (hapart ref id intent intent').symm⟩

theorem apart_self (t : Transition Node Act) : Apart t t := by
  intro ref id intent intent'
  have hne : ¬ (Aborts t ref id intent ∧ Commits t ref id intent') := by
    rintro ⟨⟨-, -, habort⟩, -, -, hcom⟩
    cases congrArg (Option.map HandoverIntent.state) (habort.symm.trans hcom)
  exact ⟨hne, hne⟩

theorem not_committed_of_aborts (hrun : Run (step ctx) start h n) (hstart : Homed start.store)
    {t' : Transition Node Act} (ht : t ∈ h) (ht' : t' ∈ h) {intent' : HandoverIntent}
    (haborts : Aborts t ref id intent) : ¬ Commits t' ref id intent' := by
  -- Of two transitions the later one finds the row as the earlier one closed it.
  have hordered : h.Pairwise Apart := by
    refine (closed_stays hrun hstart).imp ?_
    intro t t' hcl ref id intent intent'
    constructor
    · rintro ⟨⟨-, -, habort⟩, hbef, hopen, -⟩
      have hrow := hcl ref id _ habort (by simp)
      rw [hbef] at hrow
      cases hrow
      cases hopen
    · rintro ⟨⟨hbef, hopen, -⟩, -, -, hcommitted⟩
      have hrow := hcl ref id _ hcommitted (by simp)
      rw [hbef] at hrow
      cases hrow
      cases hopen
  intro hcom
  have hapart := hordered.forall_of_forall (fun t _ => apart_self t) ht ht'
  exact (hapart ref id intent intent').1 ⟨haborts, hcom⟩

theorem mem_draws {cursor fresh : String} {next : Next} {now : Int}
    (hact : t.act = .advance (.commit ref id cursor next) (.id now fresh))
    (hchg : t.after.store.resource.get ref ≠ t.before.store.resource.get ref) : fresh ∈ draws t := by
  unfold draws
  rw [hact]
  dsimp only
  rw [if_neg hchg]
  exact mem_singleton_self _

/-- What a run leaves: where the revisions came from, and that those left behind are not current. -/
structure Left (h : List (Transition Node Act)) (n : Node) : Prop where
  homed : Homed n.store
  position : ∀ ref resource, n.store.resource.get ref = some resource →
    ∃ position, decimal resource.binding.cursor = .ok position
  brought : ∀ ref resource, n.store.resource.get ref = some resource →
    ∃ t ∈ h, resource.revision ∈ brings t
  left : ∀ t ∈ h, ∀ ref id intent, Commits t ref id intent →
    (∃ t' ∈ h, intent.expectedRevision ∈ brings t') ∧
      ∃ resource, n.store.resource.get ref = some resource ∧
        resource.revision ≠ intent.expectedRevision
  once : h.Pairwise fun t t' => ∀ ref id intent id' intent', Commits t ref id intent →
    Commits t' ref id' intent' → intent.expectedRevision ≠ intent'.expectedRevision

theorem Forward.le {before after : String} {k : Nat} (h : Forward before after)
    (hbef : decimal before = .ok k) : ∃ k', decimal after = .ok k' ∧ k ≤ k' := by
  rcases h with rfl | hfol
  · exact ⟨k, hbef, le_rfl⟩
  · obtain ⟨left, right, hleft, hright, hlt⟩ := follows_ok hfol
    rw [hbef] at hright
    cases hright
    exact ⟨left, hleft, (of_decide_eq_true hlt.symm).le⟩

/-- A row after a step keeps its revision, or has one that is drawn in that step. -/
theorem revision_step (hstep : step ctx t.before t.act = some t.after) {resource : Resource}
    (hrow : t.before.store.resource.get ref = some resource) :
    ∃ resource', t.after.store.resource.get ref = some resource' ∧ (resource'.revision = resource.revision ∨
        resource'.revision ≠ resource.revision ∧ resource'.revision ∈ draws t) := by
  obtain ⟨resource', hrow', -, -, ⟨-, hsame⟩ | ⟨id, intent, -, -, -, -, -, hne, cursor, next, now,
    hact⟩⟩ := (step_change hstep).resource hrow
  · exact ⟨resource', hrow', .inl hsame⟩
  · refine ⟨resource', hrow', .inr ⟨hne, mem_draws hact ?_⟩⟩
    rw [hrow, hrow', Ne, Option.some.injEq]
    rintro rfl
    exact hne rfl

theorem Commits.leaves (hcom : Commits t ref id intent) (hhm : Homed t.before.store)
    (hstep : step ctx t.before t.act = some t.after) : ∃ resource, t.before.store.resource.get ref = some resource ∧
      resource.revision = intent.expectedRevision ∧ ∃ resource',
      t.after.store.resource.get ref = some resource' ∧ resource'.revision ≠ intent.expectedRevision := by
  obtain ⟨cursor, next, now, fresh, resource, position, -, hrow, hexp, -, hne, hrow'⟩ := hcom.switches hhm hstep
  refine ⟨resource, hrow, hexp, _, hrow', ?_⟩
  rw [← hexp]
  exact hne

theorem Left.step (hleft : Left h t.before) (hstep : step ctx t.before t.act = some t.after)
    (hfr : ∀ t' ∈ h, ∀ id ∈ draws t, id ∉ brings t') : Left (h ++ [t]) t.after := by
  have hchg := step_change hstep
  refine ⟨hchg.homed hleft.homed, ?_, ?_, ?_, ?_⟩
  · intro ref resource' hrow'
    cases hrow : t.before.store.resource.get ref with
    | none =>
      obtain ⟨-, -, hpos⟩ := hchg.new_resource hrow hrow'
      exact hpos
    | some resource =>
      obtain ⟨position, hpos⟩ := hleft.position ref resource hrow
      obtain ⟨found, hfnd, -, hfwd, -⟩ := hchg.resource hrow
      rw [hrow'] at hfnd
      cases hfnd
      obtain ⟨position', hpos', -⟩ := hfwd.le hpos
      exact ⟨position', hpos'⟩
  · intro ref resource' hrow'
    cases hrow : t.before.store.resource.get ref with
    | none =>
      obtain ⟨actor, hact, -⟩ := hchg.new_resource hrow hrow'
      exact ⟨t, by simp, by simp [brings, hact]⟩
    | some resource =>
      obtain ⟨found, hfnd, hsame | ⟨-, hdrawn⟩⟩ := revision_step hstep hrow
      · rw [hrow'] at hfnd
        cases hfnd
        obtain ⟨t', ht', hbrought⟩ := hleft.brought ref resource hrow
        exact ⟨t', mem_append_left _ ht', by rwa [hsame]⟩
      · rw [hrow'] at hfnd
        cases hfnd
        exact ⟨t, by simp, draws_subset_brings t hdrawn⟩
  · intro t₀ ht₀ ref id intent hcom
    rcases mem_append.mp ht₀ with hold | hnew
    · obtain ⟨⟨t', ht', hbrought⟩, resource, hrow, hne⟩ := hleft.left t₀ hold ref id intent hcom
      refine ⟨⟨t', mem_append_left _ ht', hbrought⟩, ?_⟩
      obtain ⟨resource', hrow', hsame | ⟨-, hdrawn⟩⟩ := revision_step hstep hrow
      · exact ⟨resource', hrow', by rwa [hsame]⟩
      · refine ⟨resource', hrow', ?_⟩
        rintro heq
        rw [heq] at hdrawn
        exact hfr t' ht' _ hdrawn hbrought
    · cases mem_singleton.mp hnew
      obtain ⟨resource, hrow, hexp, resource', hrow', hne⟩ := hcom.leaves hleft.homed hstep
      obtain ⟨t', ht', hbrought⟩ := hleft.brought ref resource hrow
      exact ⟨⟨t', mem_append_left _ ht', by rwa [← hexp]⟩, resource', hrow', hne⟩
  · rw [pairwise_append]
    refine ⟨hleft.once, pairwise_singleton _ _, ?_⟩
    intro t₀ ht₀ t' ht' ref id intent id' intent' hcom hcom'
    cases mem_singleton.mp ht'
    obtain ⟨-, resource, hrow, hne⟩ := hleft.left t₀ ht₀ ref id intent hcom
    obtain ⟨found, hfnd, hexp, -⟩ := hcom'.leaves hleft.homed hstep
    rw [hrow] at hfnd
    cases hfnd
    rw [← hexp]
    exact hne.symm

theorem homed_empty : Homed {} := by
  intro key intent hrow
  cases hrow

theorem left_nil : Left [] {} where
  homed := homed_empty
  position ref resource hrow := by cases hrow
  brought ref resource hrow := by cases hrow
  left t ht := by cases ht
  once := .nil

theorem left_of_run (hrun : Run (step ctx) {} h n) (hfr : FreshIds h) : Left h n := by
  induction hrun with
  | nil => exact left_nil
  | @snoc past n n' a hprev hstep ih =>
    obtain ⟨hpast, -, hnow⟩ := pairwise_append.mp hfr
    exact (ih hpast).step (t := ⟨n, a, n'⟩) hstep fun t' ht' => hnow t' ht' _ (mem_singleton_self _)

end Runs

/-! ## The binding -/

/-- Over every interleaving of the calls of a node, with any answers of the peers, when no revision is ever
drawn twice: a resource stays registered, its handler and its revision change only in a transition that
commits a handover of it, its cursor does not decrease and its log readers do not change; of the handovers
of a resource that expected one revision at most one commits; and a transition that aborts a handover
leaves the resources as they were, and that handover never commits. -/
theorem handover_binding_safe (ctx : Context) {h : List (Transition Node Act)} {n : Node}
    (hrun : Run (step ctx) {} h n) (hfresh : FreshIds h) :
    (∀ t ∈ h, ∀ ref resource, t.before.store.resource.get ref = some resource →
      ∃ resource', t.after.store.resource.get ref = some resource' ∧
        (resource'.binding.handler ≠ resource.binding.handler ∨ resource'.revision ≠ resource.revision →
            ∃ id intent, Commits t ref id intent ∧ intent.expectedRevision = resource.revision ∧
              resource'.binding.handler = intent.target) ∧
        (∃ position position', decimal resource.binding.cursor = .ok position ∧
          decimal resource'.binding.cursor = .ok position' ∧ position ≤ position') ∧
        resource'.logReaders = resource.logReaders) ∧
    (∀ t ∈ h, ∀ ref id intent id' intent', Commits t ref id intent → Commits t ref id' intent' →
      id = id' ∧ intent = intent') ∧ (h.Pairwise fun t t' => ∀ ref id intent id' intent', Commits t ref id intent →
      Commits t' ref id' intent' → intent.expectedRevision ≠ intent'.expectedRevision) ∧
    (∀ t ∈ h, ∀ ref id intent, Aborts t ref id intent → t.after.store.resource = t.before.store.resource ∧
        ∀ t' ∈ h, ∀ intent', ¬ Commits t' ref id intent') := by
  have hat : ∀ t ∈ h, step ctx t.before t.act = some t.after ∧ ∃ past, Left past t.before := by
    intro t ht
    obtain ⟨past, future, rfl, hpast, hstep, -⟩ := hrun.of_mem ht
    exact ⟨hstep, past, left_of_run hpast (pairwise_append.mp hfresh).1⟩
  refine ⟨?_, ?_, (left_of_run hrun hfresh).once, ?_⟩
  · intro t ht ref resource hrow
    obtain ⟨hstep, past, hleft⟩ := hat t ht
    obtain ⟨resource', hrow', hreaders, hfwd, hbind⟩ := (step_change hstep).resource hrow
    obtain ⟨position, hpos⟩ := hleft.position ref resource hrow
    obtain ⟨position', hpos', hle⟩ := hfwd.le hpos
    refine ⟨resource', hrow', ?_, ⟨position, position', hpos, hpos', hle⟩, hreaders⟩
    intro hmv
    rcases hbind with ⟨hhdl, hrev⟩ | ⟨id, intent, hbef, hopen, haft, hexp, htgt, -⟩
    · rcases hmv with hmv | hmv
      · exact absurd hhdl hmv
      · exact absurd hrev hmv
    · exact ⟨id, intent, ⟨hbef, hopen, haft⟩, hexp.symm, htgt⟩
  · intro t ht ref id intent id' intent' hcom hcom'
    obtain ⟨hstep, past, hleft⟩ := hat t ht
    obtain ⟨cursor, next, now, fresh, -, -, hact, -⟩ := hcom.switches hleft.homed hstep
    obtain ⟨cursor', next', now', fresh', -, -, hact', -⟩ := hcom'.switches hleft.homed hstep
    rw [hact] at hact'
    cases hact'
    exact ⟨rfl, Option.some.inj (hcom.1.symm.trans hcom'.1)⟩
  · intro t ht ref id intent habort
    obtain ⟨hstep, past, hleft⟩ := hat t ht
    exact ⟨habort.keeps hleft.homed hstep, fun t' ht' intent' =>
      not_committed_of_aborts hrun homed_empty ht ht' habort⟩

open Scenario in
/-- A run in which a handover commits: the target holds the resource under the revision that was drawn. -/
theorem handover_binding_safe_switched : ∃ h n, Run (step (context "hub")) {} h n ∧ FreshIds h ∧
      (n.store.resource.get ⟨"hub", "chat"⟩).map (fun resource => (resource.binding.handler,
        resource.revision)) = some ("bob", "second") ∧
      ∀ t ∈ h, ∀ ref resource, t.before.store.resource.get ref = some resource →
        ∃ resource', t.after.store.resource.get ref = some resource' ∧ resource'.logReaders = resource.logReaders := by
  let chat := resource "hub" "chat" "ann"
  let call := handoverCall chat "op" "bob"
  obtain ⟨h, n, hrun, hfacts⟩ := exists_run (step (context "hub")) {}
    (.register "hub" chat :: opening chat "op" "bob" ++
      [.advance (.probing call (call.handoverIntent "bob" deadline chat)) (.replied (ProbeAnswer.accept "0").json),
        .advance (.commit chat.resourceRef "op" "0" (.caller call)) (.id 0 "second")])
    (fun h n => FreshIds h ∧ (n.store.resource.get ⟨"hub", "chat"⟩).map
      (fun resource => (resource.binding.handler, resource.revision)) = some ("bob", "second"))
    (by decide +kernel)
  refine ⟨h, n, hrun, hfacts.1, hfacts.2, ?_⟩
  intro t ht ref resource hrow
  obtain ⟨resource', hrow', -, -, hreaders⟩ :=
    (handover_binding_safe (context "hub") hrun hfacts.1).1 t ht ref resource hrow
  exact ⟨resource', hrow', hreaders⟩

end Onlyne.Resources
