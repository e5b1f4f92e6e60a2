import Onlyne.Resources.Calls
import Onlyne.Resources.Handovers
import Onlyne.Resources.Network

/-!
# Resources: a handover needs the consent of its target

The target records its answer to a probe under the operation id alone.  The answer to a probe that is posted
again is checked against the digest of the probe, which names the resource; the answer a recovery pass reads
back is not.  `handover_consented` says that every handover commits with an accept for its own resource, as
long as a pass reads an accept back only for the one resource the node hands to that target under that
operation id; `read_back_commits_other` is a run in which an accept for one resource commits another.
-/

namespace Onlyne.Resources

open Foundation Table List

/-! ## Consent and the condition -/

/-- The target recorded an accept for a probe of `node` that names the resource and the operation. -/
def Consented (w : World) (node target : NodeId) (ref : ResourceRef) (id : String) : Prop :=
  ∃ (probe : HandoverProbe) (cursor : String), probe.resource = ref ∧ probe.operationId = id ∧
    (w.nodes target).store.probe.get id = some ⟨node, probe.digest, .accept cursor⟩

/-- When a recovery pass reads an accept back, its node hands no other resource to that target under that
operation id. -/
def sole (t : Transition World (NodeId × Act)) : Bool :=
  match t.act with
  | (node, .advance (.readBack row _) (.replied value)) =>
    match probeAnswerOf value with
    | .ok (.accept _) => (t.before.nodes node).store.handover.rows.all fun other =>
        other.2.operationId ≠ row.2.operationId || other.2.target ≠ row.2.target ||
          other.1.1 = row.1.1
    | _ => true
  | _ => true

/-! ## Rows that stay -/

def Held (s : Store) (key : ResourceRef × String) (probe : HandoverProbe) (target : NodeId) : Prop :=
  ∃ intent, s.handover.get key = some intent ∧ intent.probe = probe ∧ intent.target = target

section Rows

variable {ctx : Context} {s s' : Store} {a : Act} {probe : HandoverProbe} {record : ProbeRecord}
  {target : NodeId} {id : String}

variable {key : ResourceRef × String}

theorem Change.held (h : Change ctx s a s') (hhm : Homed s)
    (hheld : Held s key probe target) : Held s' key probe target := by
  obtain ⟨intent, hrow, hprobe, htgt⟩ := hheld
  rcases h.handover hhm hrow with hsame | ⟨-, hrow', -⟩ | ⟨-, hrow', -⟩
  · exact ⟨intent, hsame, hprobe, htgt⟩
  · exact ⟨_, hrow', hprobe, htgt⟩
  · exact ⟨_, hrow', hprobe, htgt⟩

theorem Held.names (hheld : Held s key probe target) (hhm : Homed s) : key = (probe.resource, probe.operationId) := by
  obtain ⟨intent, hrow, rfl, -⟩ := hheld
  exact hhm key intent hrow

theorem Change.probe_row (h : Change ctx s a s')
    (hrow : s.probe.get id = some record) : s'.probe.get id = some record := by
  cases h with
  | recorded free =>
    refine (get_put_ne _ _ ?_).trans hrow
    rintro rfl
    rw [free] at hrow
    cases hrow
  | _ => exact hrow

theorem Change.new_probe_row (h : Change ctx s a s')
    (hrow : s'.probe.get id = some record) : s.probe.get id = some record ∨ ∃ sender probe answer clock,
      a = .advance (.record sender probe answer) (.go clock) ∧ probe.operationId = id ∧
      record = ⟨sender, probe.digest, answer⟩ := by
  cases h with
  | @recorded sender probe answer clock free =>
    rcases get_put_cases hrow with ⟨rfl, rfl⟩ | ⟨-, hold⟩
    · exact .inr ⟨sender, probe, answer, clock, rfl, rfl, rfl⟩
    · exact .inl hold
  | _ => exact .inl hrow

end Rows

theorem probeAnswerOf_json {answer answer' : ProbeAnswer} (h : probeAnswerOf answer.json = .ok answer') :
    answer' = answer := by
  cases answer with
  | accept =>
    obtain ⟨-, -, hcurs⟩ := bind_eq_ok.mp h
    obtain ⟨-, -, heq⟩ := bind_eq_ok.mp hcurs
    cases heq
    rfl
  | reject =>
    obtain ⟨-, -, hreason⟩ := bind_eq_ok.mp h
    obtain ⟨-, -, heq⟩ := bind_eq_ok.mp hreason
    cases heq
    rfl

/-! ## What the nodes know of each other -/

/-- The rows a recovery pass still has to look at are handovers of the store. -/
def HeldRows (s : Store) (rows : List HandoverRow) : Prop :=
  ∀ row ∈ rows, Held s row.1 row.2.probe row.2.target

def HeldNext (s : Store) : Next → Prop
  | .caller _ => True
  | .pass rest => HeldRows s rest

def Granted (w : World) (node : NodeId) (ref : ResourceRef) (id : String) : Prop :=
  ∃ probe target, Held (w.nodes node).store (ref, id) probe target ∧ Consented w node target ref id

/-- What a call in flight of `node` knows. -/
def Agrees (w : World) (node : NodeId) : Task → Prop
  | .handshake call intent | .probing call intent =>
    Held (w.nodes node).store (call.ref, intent.operationId) intent.probe intent.target
  | .abort _ _ _ _ next => HeldNext (w.nodes node).store next
  | .commit ref id _ next => Granted w node ref id ∧ HeldNext (w.nodes node).store next
  | .recoverHandovers rows => HeldRows (w.nodes node).store rows
  | .readBack row rest =>
    Held (w.nodes node).store row.1 row.2.probe row.2.target ∧ HeldRows (w.nodes node).store rest
  | .probe sender probe _ | .decide sender probe _ | .record sender probe _ =>
    .probe sender node probe ∈ w.wire
  | _ => True

/-- What is on the wire and what the calls know agrees with the rows. -/
structure Agreed (w : World) : Prop where
  homed : ∀ node, Homed (w.nodes node).store
  posted : ∀ sender target probe, .probe sender target probe ∈ w.wire →
    ∃ key, Held (w.nodes sender).store key probe target
  probed : ∀ target sender probe answer, .probed target sender probe answer ∈ w.wire →
    (w.nodes target).store.probe.get probe.operationId = some ⟨sender, probe.digest, answer⟩
  recorded : ∀ target sender id answer, .recorded target sender id answer ∈ w.wire →
    ∃ digest, (w.nodes target).store.probe.get id = some ⟨sender, digest, answer⟩
  -- A recorded answer is one to a probe that was sent.
  asked : ∀ target id record, (w.nodes target).store.probe.get id = some record →
    ∃ probe, .probe record.sender target probe ∈ w.wire ∧ probe.operationId = id ∧
      record.digest = probe.digest
  tasks : ∀ node, ∀ task ∈ (w.nodes node).tasks, Agrees w node task

section Step

variable {ctx : NodeId → Context} {w w' : World} {node : NodeId} {a : Act}
  {target owner : NodeId} {id cursor : String} {value : Json} {ref : ResourceRef} {row : HandoverRow}
  {task : Task}

theorem World.probe_mono (h : w.step ctx (node, a) = some w') {record : ProbeRecord}
    (hrow : (w.nodes target).store.probe.get id = some record) :
    (w'.nodes target).store.probe.get id = some record := by
  by_cases htgt : target = node
  · subst htgt
    exact (step_change (World.step_node h)).probe_row hrow
  · rw [World.step_other h htgt]
    exact hrow

section

variable (hagr : Agreed w) (h : w.step ctx (node, a) = some w')
include hagr h

theorem Agreed.held_mono {key : ResourceRef × String}
    {probe : HandoverProbe} (hheld : Held (w.nodes owner).store key probe target) :
    Held (w'.nodes owner).store key probe target := by
  by_cases hown : owner = node
  · subst hown
    exact (step_change (World.step_node h)).held (hagr.homed owner) hheld
  · rw [World.step_other h hown]
    exact hheld

theorem Agreed.heldRows_mono {rows : List HandoverRow} (hrows : HeldRows (w.nodes owner).store rows) :
    HeldRows (w'.nodes owner).store rows :=
  fun row hrow => hagr.held_mono h (hrows row hrow)

theorem Agreed.heldNext_mono {next : Next} (hnext : HeldNext (w.nodes owner).store next) :
    HeldNext (w'.nodes owner).store next := by
  cases next with
  | caller => trivial
  | pass => exact hagr.heldRows_mono h hnext

end

theorem World.consented_mono (h : w.step ctx (node, a) = some w')
    (hcons : Consented w owner target ref id) : Consented w' owner target ref id := by
  obtain ⟨probe, cursor, hrsc, hid, hrow⟩ := hcons
  exact ⟨probe, cursor, hrsc, hid, World.probe_mono h hrow⟩

theorem Agreed.agrees_mono (hagr : Agreed w) (h : w.step ctx (node, a) = some w')
    (hagrees : Agrees w owner task) : Agrees w' owner task := by
  cases task with
  | handshake | probing => exact hagr.held_mono h hagrees
  | abort => exact hagr.heldNext_mono h hagrees
  | commit =>
    obtain ⟨⟨probe, target, hheld, hcons⟩, hnext⟩ := hagrees
    exact ⟨⟨probe, target, hagr.held_mono h hheld, World.consented_mono h hcons⟩, hagr.heldNext_mono h hnext⟩
  | recoverHandovers => exact hagr.heldRows_mono h hagrees
  | readBack => exact ⟨hagr.held_mono h hagrees.1, hagr.heldRows_mono h hagrees.2⟩
  | probe | decide | record => exact World.wire_mono h hagrees
  | _ => trivial

variable {intent : HandoverIntent} {rest : List HandoverRow}

theorem Agreed.consented_of_probed (hagr : Agreed w) {call : Call}
    (hdlv : delivered w.wire node (.advance (.probing call intent) (.replied value)) = true)
    (hheld : Held (w.nodes node).store (call.ref, intent.operationId) intent.probe intent.target)
    (hans : probeAnswerOf value = .ok (.accept cursor)) :
    Consented w node intent.target call.ref intent.operationId := by
  obtain ⟨p, hp, hmatch⟩ := any_eq_true.mp hdlv
  unfold answersProbe at hmatch
  split at hmatch
  · next target sender probe answer =>
    simp only [Bool.and_eq_true, decide_eq_true_eq] at hmatch
    obtain ⟨⟨⟨rfl, rfl⟩, rfl⟩, rfl⟩ := hmatch
    have hrow := hagr.probed _ _ _ _ hp
    rw [← probeAnswerOf_json hans] at hrow
    have hnm := hheld.names (hagr.homed _)
    exact ⟨intent.probe, cursor, (congrArg Prod.fst hnm).symm, rfl, hrow⟩
  · cases hmatch

/-- The answer a pass reads back is one for the resource of the handover, when its node hands no other
resource to that target under that operation id. -/
theorem Agreed.consented_of_recorded (hagr : Agreed w)
    (hdlv : delivered w.wire node (.advance (.readBack row rest) (.replied value)) = true)
    (hsole : ∀ other ∈ (w.nodes node).store.handover.rows, other.2.operationId = row.2.operationId →
      other.2.target = row.2.target → other.1.1 = row.1.1) (hans : probeAnswerOf value = .ok (.accept cursor)) :
    Consented w node row.2.target row.1.1 row.2.operationId := by
  obtain ⟨p, hp, hmatch⟩ := any_eq_true.mp hdlv
  unfold answersAsk at hmatch
  split at hmatch
  · next target sender id answer =>
    simp only [Bool.and_eq_true, decide_eq_true_eq] at hmatch
    obtain ⟨⟨⟨rfl, rfl⟩, rfl⟩, rfl⟩ := hmatch
    obtain ⟨digest, hrow⟩ := hagr.recorded _ _ _ _ hp
    rw [← probeAnswerOf_json hans] at hrow
    -- The recorded answer is one to a probe this node sent, so a handover of this node sent it.
    obtain ⟨probe, hprobe, hid, rfl⟩ := hagr.asked _ _ _ hrow
    obtain ⟨key, hheld⟩ := hagr.posted _ _ _ hprobe
    have hnm := hheld.names (hagr.homed _)
    obtain ⟨intent, hint, rfl, htgt⟩ := hheld
    have hrsc := hsole (key, intent) (mem_rows.mpr hint) hid htgt
    subst hnm
    exact ⟨intent.probe, cursor, hrsc, hid, hrow⟩
  · cases hmatch

theorem sole_spec (hsole : sole ⟨w, (node, .advance (.readBack row rest) (.replied value)), w'⟩ = true)
    (hans : probeAnswerOf value = .ok (.accept cursor)) :
    ∀ other ∈ (w.nodes node).store.handover.rows, other.2.operationId = row.2.operationId →
      other.2.target = row.2.target → other.1.1 = row.1.1 := by
  intro other hoth hid htgt
  simp only [sole, hans, all_eq_true, Bool.or_eq_true, decide_eq_true_eq] at hsole
  rcases hsole other hoth with (hno | hno) | hsame
  · exact absurd hid hno
  · exact absurd htgt hno
  · exact hsame

section

variable (hagr : Agreed w) (h : w.step ctx (node, a) = some w') (hsole : sole ⟨w, (node, a), w'⟩ = true)
include hagr h hsole

theorem Agreed.starts_agrees
    (hst : Starts (ctx node) (w.nodes node) a (w'.nodes node).store task) : Agrees w' node task := by
  have hdlv := (World.step_spec h).1
  generalize hs' : (w'.nodes node).store = s' at hst
  cases hst with
  | operate | recover => trivial
  | probe => exact World.wire_mono h (of_decide_eq_true hdlv)
  | @advance waiting next input _ hwait resumes =>
    have hbef := hagr.tasks node waiting hwait
    have hagrees := hagr.agrees_mono h hbef
    cases resumes with
    | opened row =>
      rw [← hs'] at row
      exact ⟨_, row, rfl, rfl⟩
    | expires | unreached => trivial
    | probes => exact hagrees
    | accepted answer =>
      refine ⟨⟨_, _, hagrees, ?_⟩, trivial⟩
      exact World.consented_mono h (hagr.consented_of_probed hdlv hbef answer)
    | abortedNext => exact hagrees
    | committedNext | unanswered | readAbort => exact hagrees.2
    | scansHandovers =>
      intro row hrow
      exact ⟨row.2, by rw [hs']; exact mem_rows.mp hrow, rfl, rfl⟩
    | passes | recoverExpires => exact fun row hrow => hagrees row (mem_cons_of_mem _ hrow)
    | readsBack =>
      exact ⟨hagrees _ mem_cons_self, fun row hrow => hagrees row (mem_cons_of_mem _ hrow)⟩
    | @readAccept value row rest cursor answer =>
      have hcons := hagr.consented_of_recorded hdlv (sole_spec hsole answer) answer
      refine ⟨⟨row.2.probe, row.2.target, ?_, World.consented_mono h hcons⟩, hagrees.2⟩
      have hkey : row.1 = (row.1.1, row.2.operationId) := by
        rw [hbef.1.names (hagr.homed node)]
        rfl
      rw [← hkey]
      exact hagrees.1
    | decides | records => exact hagrees
    | _ => trivial

theorem Agreed.kept : Agreed w' where
  homed owner := by
    by_cases hown : owner = node
    · subst hown
      exact (step_change (World.step_node h)).homed (hagr.homed owner)
    · rw [World.step_other h hown]
      exact hagr.homed owner
  posted sender target probe hp := by
    rcases World.mem_wire h hp with hold | ⟨output, hpkt, hemits⟩
    · obtain ⟨key, hheld⟩ := hagr.posted sender target probe hold
      exact ⟨key, hagr.held_mono h hheld⟩
    · generalize (w'.nodes node).store = s' at hemits
      cases hemits with
      | posted waiting =>
        cases hpkt
        exact ⟨_, hagr.held_mono h (hagr.tasks _ _ waiting)⟩
      | _ => cases hpkt
  probed target sender probe answer hp := by
    rcases World.mem_wire h hp with hold | ⟨output, hpkt, hemits⟩
    · exact World.probe_mono h (hagr.probed target sender probe answer hold)
    · generalize hs' : (w'.nodes node).store = s' at hemits
      cases hemits with
      | probed row =>
        cases hpkt
        rw [hs']
        exact row
      | _ => cases hpkt
  recorded target sender id answer hp := by
    rcases World.mem_wire h hp with hold | ⟨output, hpkt, hemits⟩
    · obtain ⟨digest, hrow⟩ := hagr.recorded target sender id answer hold
      exact ⟨digest, World.probe_mono h hrow⟩
    · generalize (w'.nodes node).store = s' at hemits
      cases hemits with
      | recorded row =>
        cases hpkt
        exact ⟨_, World.probe_mono h row⟩
      | _ => cases hpkt
  asked target id record hrow := by
    have hold : (w.nodes target).store.probe.get id = some record →
        ∃ probe, .probe record.sender target probe ∈ w'.wire ∧ probe.operationId = id ∧
          record.digest = probe.digest := by
      intro hrow
      obtain ⟨probe, hprobe, hrest⟩ := hagr.asked target id record hrow
      exact ⟨probe, World.wire_mono h hprobe, hrest⟩
    by_cases htgt : target = node
    · subst htgt
      have hstep := World.step_node h
      rcases (step_change hstep).new_probe_row hrow with
        hsame | ⟨sender, probe, answer, clock, rfl, hid, rfl⟩
      · exact hold hsame
      · have hwait := hagr.tasks target _ (mem_tasks_of_advance hstep)
        exact ⟨probe, World.wire_mono h hwait, hid, rfl⟩
    · rw [World.step_other h htgt] at hrow
      exact hold hrow
  tasks owner task htask := by
    by_cases hown : owner = node
    · subst hown
      rcases step_tasks (World.step_node h) htask with hold | hnew
      · exact hagr.agrees_mono h (hagr.tasks owner task hold)
      · exact hagr.starts_agrees h hsole hnew
    · rw [World.step_other h hown] at htask
      exact hagr.agrees_mono h (hagr.tasks owner task htask)

end

theorem agreed_empty : Agreed {} where
  homed node key handover hrow := by cases hrow
  posted sender target probe hp := by cases hp
  probed target sender probe answer hp := by cases hp
  recorded target sender id answer hp := by cases hp
  asked target id record hrow := by cases hrow
  tasks node task htask := by cases htask

theorem Agreed.commits (hagr : Agreed w) (h : w.step ctx (node, a) = some w')
    (hcom : Commits ⟨w.nodes owner, a, w'.nodes owner⟩ ref id intent) :
    (∃ resource', (w'.nodes owner).store.resource.get ref = some resource' ∧
      resource'.binding.handler = intent.target) ∧ Consented w owner intent.target ref id := by
  have hown : owner = node := by
    by_contra hoth
    obtain ⟨hbef, hopen, haft⟩ := hcom
    simp only [World.step_other h hoth, hbef] at haft
    rw [Option.some.inj haft] at hopen
    cases hopen
  subst hown
  have hstep := World.step_node h
  obtain ⟨cursor, next, now, fresh, resource, position, hact, -, -, -, -, haft⟩ :=
    hcom.switches (hagr.homed owner) hstep
  refine ⟨⟨_, haft, rfl⟩, ?_⟩
  cases hact
  obtain ⟨⟨probe, target, ⟨found, hfnd, -, rfl⟩, hcons⟩, -⟩ := hagr.tasks owner _ (mem_tasks_of_advance hstep)
  rw [hcom.1] at hfnd
  cases hfnd
  exact hcons

end Step

/-- In every run of any nodes in which a recovery pass reads an accept back only while its node hands no
other resource to that target under that operation id: a handover that commits makes its target the handler,
the target has recorded an accept for a probe that names exactly the resource and the operation, and its
record is for no other resource. -/
theorem handover_consented (ctx : NodeId → Context) {h : List (Transition World (NodeId × Act))}
    {w : World} (hrun : Run (World.step ctx) {} h w) (hsole : ∀ t ∈ h, sole t = true) :
    ∀ t ∈ h, ∀ node ref id intent, Commits ⟨t.before.nodes node, t.act.2, t.after.nodes node⟩ ref id intent →
      (∃ resource', (t.after.nodes node).store.resource.get ref = some resource' ∧
        resource'.binding.handler = intent.target) ∧ Consented t.before node intent.target ref id ∧
      ∀ record (probe : HandoverProbe), (t.before.nodes intent.target).store.probe.get id = some record →
        record.digest = probe.digest → probe.resource = ref ∧ probe.operationId = id := by
  intro t ht node ref id intent hcom
  have hagr : Agreed t.before := by
    refine hrun.before_of hsole agreed_empty ?_ ht
    rintro w ⟨node, a⟩ w' hagr hstep hsole
    exact hagr.kept hstep hsole
  have hact : t.before.step ctx (t.act.1, t.act.2) = some t.after := hrun.step_of_mem ht
  obtain ⟨hhdl, hcons⟩ := hagr.commits hact hcom
  refine ⟨hhdl, hcons, ?_⟩
  intro record probe hrec hdig
  obtain ⟨consented, cursor, rfl, rfl, hrow⟩ := hcons
  rw [hrow] at hrec
  cases hrec
  obtain ⟨hid, hrsc⟩ := HandoverProbe.digest_names hdig
  exact ⟨hrsc.symm, hid.symm⟩

/-! ## A pass that reads back -/

namespace Scenario

section

variable (node : NodeId) (resource : Resource) (id target : String)

/-- The handover of `resource` as it is opened. -/
def intent : HandoverIntent :=
  (handoverCall resource id target).handoverIntent target deadline resource

/-- The acts of a node that opens a handover and stops waiting for the answer of its target. -/
def unanswered : List (NodeId × Act) :=
  (opening resource id target).map (fun a => (node, a)) ++
    [(node, .advance (.probing (handoverCall resource id target) (intent resource id target)) .timeout)]

def accepting : List (NodeId × Act) :=
  let probe := (intent resource id target).probe
  [(target, .probe node probe), (target, .advance (.probe node probe 1000) (.go clock)),
    (target, .advance (.decide node probe 1000) (.decided 0 none)),
    (target, .advance (.record node probe (.accept "0")) (.go clock))]

def readingBack (row : HandoverRow) (rest : List HandoverRow) : List (NodeId × Act) :=
  [(node, .recover), (node, .advance .expire (.go clock)), (node, .advance .handovers (.go clock)),
    (node, .advance (.recoverHandovers (row :: rest)) (.go clock)),
    (row.2.target, .probeAnswer node row.2.operationId),
    (node, .advance (.readBack row rest) (.replied (ProbeAnswer.accept "0").json)),
    (node, .advance (.commit row.1.1 row.2.operationId "0" (.pass rest)) (.id 0 "second"))]

end

end Scenario

open Scenario in
/-- The answer to a probe comes too late for its call; the next pass reads it back and commits the
handover, with the consent of its target. -/
theorem handover_consented_read_back : ∃ h w, Run (World.step context) {} h w ∧ ∃ t ∈ h, ∃ found,
      Commits ⟨t.before.nodes "hub", t.act.2, t.after.nodes "hub"⟩ ⟨"hub", "chat"⟩ "op" found ∧
      Consented t.before "hub" found.target ⟨"hub", "chat"⟩ "op" := by
  let chat := resource "hub" "chat" "ann"
  obtain ⟨h, w, hrun, hsole, t, ht, hbef, haft⟩ := exists_run (World.step context) {}
    ((("hub", .register "hub" chat) :: unanswered "hub" chat "op" "bob") ++ accepting "hub" chat "op" "bob" ++
      readingBack "hub" ((chat.resourceRef, "op"), intent chat "op" "bob") [])
    (fun h _ => (∀ t ∈ h, sole t = true) ∧ ∃ t ∈ h,
      (t.before.nodes "hub").store.handover.get (⟨"hub", "chat"⟩, "op") = some (intent chat "op" "bob") ∧
        (t.after.nodes "hub").store.handover.get (⟨"hub", "chat"⟩, "op") =
          some { intent chat "op" "bob" with state := .committed })
    (by decide +kernel)
  have hcom : Commits ⟨t.before.nodes "hub", t.act.2, t.after.nodes "hub"⟩ ⟨"hub", "chat"⟩ "op"
      (intent chat "op" "bob") := ⟨hbef, rfl, haft⟩
  exact ⟨h, w, hrun, t, ht, _, hcom, (handover_consented context hrun hsole t ht _ _ _ _ hcom).2.1⟩

open Scenario in
/-- The node hands two resources to one target under one operation id.  The target accepts the probe for the
first; the probe for the second never reaches it.  The pass that asks about the second gets the accept
for the first, and commits. -/
theorem read_back_commits_other : ∃ h w, Run (World.step context) {} h w ∧ ∃ t ∈ h, ∃ found,
      Commits ⟨t.before.nodes "hub", t.act.2, t.after.nodes "hub"⟩ ⟨"hub", "desk"⟩ "op" found ∧
      ¬ Consented t.before "hub" found.target ⟨"hub", "desk"⟩ "op" := by
  let chat := resource "hub" "chat" "ann"
  let desk := resource "hub" "desk" "ann"
  obtain ⟨h, w, hrun, t, ht, hbef, haft, hrec⟩ := exists_run (World.step context) {}
    ((("hub", .register "hub" chat) :: ("hub", .register "hub" desk) ::
      unanswered "hub" chat "op" "bob") ++ accepting "hub" chat "op" "bob" ++
      unanswered "hub" desk "op" "bob" ++
      readingBack "hub" ((desk.resourceRef, "op"), intent desk "op" "bob")
        [((chat.resourceRef, "op"), intent chat "op" "bob")])
    (fun h _ => ∃ t ∈ h,
      (t.before.nodes "hub").store.handover.get (⟨"hub", "desk"⟩, "op") = some (intent desk "op" "bob") ∧
        (t.after.nodes "hub").store.handover.get (⟨"hub", "desk"⟩, "op") =
          some { intent desk "op" "bob" with state := .committed } ∧
        (t.before.nodes "bob").store.probe.get "op" = some ⟨"hub", (intent chat "op" "bob").probe.digest, .accept "0"⟩)
    (by decide +kernel)
  refine ⟨h, w, hrun, t, ht, intent desk "op" "bob", ⟨hbef, rfl, haft⟩, ?_⟩
  rintro ⟨probe, cursor, hrsc, -, hrow⟩
  -- The record names the first resource.
  have hdig := congrArg (Option.map ProbeRecord.digest) (hrec.symm.trans hrow)
  have hnm := (HandoverProbe.digest_names (Option.some.inj hdig)).2
  rw [hrsc] at hnm
  exact absurd hnm (by decide)

end Onlyne.Resources
