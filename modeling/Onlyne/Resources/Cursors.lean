import Onlyne.Resources.EventLog
import Onlyne.Resources.Handovers

/-!
# Resources: the cursor and the end of the log

The cursor of a binding is the last event its handler has consumed, so it should stay within the log.  An
acknowledgement names an event of the log; a handover takes the cursor from the answer of its target, and
nothing compares it with the log.  `cursors_within_log_iff` says that the cursors stay within the log exactly
when every handover that takes effect does so with an answer within the log; `accepted_cursor_skips` is a run
in which one does not.
-/

namespace Onlyne.Resources

open Foundation Table

def within (position eventSeq : String) : Bool :=
  match decimal position, decimal eventSeq with
  | .ok position, .ok last => position ≤ last
  | _, _ => false

theorem within_iff {position eventSeq : String} : within position eventSeq = true ↔
    ∃ number last, decimal position = .ok number ∧ decimal eventSeq = .ok last ∧ number ≤ last := by
  unfold within
  split
  · next number last hpos hseq => simp [hpos, hseq]
  · next hnot =>
    simp only [Bool.false_eq_true, false_iff]
    rintro ⟨number, last, hpos, hseq, -⟩
    exact hnot number last hpos hseq

def Within (s : Store) : Prop :=
  ∀ ref resource, s.resource.get ref = some resource →
    within resource.binding.cursor resource.eventSeq = true

def RegistersWithin (t : Transition Node Act) : Prop :=
  ∀ ref, t.before.store.resource.get ref = none → ∀ resource,
    t.after.store.resource.get ref = some resource →
      within resource.binding.cursor resource.eventSeq = true

/-- A handover that takes effect has an answer within the log. -/
def answersWithin (t : Transition Node Act) : Bool :=
  match t.act with
  | .advance (.commit ref _ cursor _) (.id _ _) =>
    t.after.store.resource.get ref = t.before.store.resource.get ref ||
      (t.before.store.resource.get ref).any fun resource => within cursor resource.eventSeq
  | _ => true

section Step

variable {ctx : Context} {s s' : Store} {n n' : Node} {a : Act} {resource : Resource} {ref : ResourceRef}
  {position eventSeq cursor : String}

theorem Within.put_iff (hin : Within s) {moved : Resource} (hrows : s'.resource = s.resource.put ref moved) :
    Within s' ↔ within moved.binding.cursor moved.eventSeq = true := by
  constructor
  · intro h
    exact h ref moved (by rw [hrows]; exact get_put_self _ _ _)
  · intro h ref' resource hrow
    rw [hrows] at hrow
    exact of_put hin hrow h

theorem answersWithin_of_kept (hrows : n'.store.resource = n.store.resource) : answersWithin ⟨n, a, n'⟩ = true := by
  unfold answersWithin
  split
  · simp [hrows]
  · rfl

theorem within_next {last : Nat} (h : within position eventSeq = true)
    (hseq : decimal eventSeq = .ok last) : within position (toString (last + 1)) = true := by
  obtain ⟨number, last', hpos, hlast, hle⟩ := within_iff.mp h
  rw [hseq] at hlast
  cases hlast
  exact within_iff.mpr ⟨number, last + 1, hpos, decimal_toString _, Nat.le_succ_of_le hle⟩

theorem within_of_event (hcnt : Counted s) {id : String}
    {event : ResourceEvent} (hrow : s.resource.get ref = some resource)
    (hev : s.event.get (ref, id) = some event) : within id resource.eventSeq = true := by
  obtain ⟨resource', last, number, hrow', hseq, -, hle, rfl⟩ := hcnt _ _ _ hev
  rw [hrow] at hrow'
  cases hrow'
  exact within_iff.mpr ⟨number, last, decimal_toString _, hseq, hle⟩

/-- A cursor that is not after another one is within every log the other is within. -/
theorem within_of_not_follows (hfol : follows cursor position = .ok false) (h : within position eventSeq = true) :
    within cursor eventSeq = true := by
  obtain ⟨left, right, hleft, hright, hnot⟩ := follows_ok hfol
  obtain ⟨number, last, hpos, hlast, hle⟩ := within_iff.mp h
  rw [hright] at hpos
  cases hpos
  have hge : left ≤ right := Nat.le_of_not_lt (of_decide_eq_false hnot.symm)
  exact within_iff.mpr ⟨left, last, hleft, hlast, hge.trans hle⟩

theorem within_switched (hin : within resource.binding.cursor resource.eventSeq = true)
    (hfwd : position = resource.binding.cursor ∧ follows cursor resource.binding.cursor = .ok false ∨
      position = cursor ∧ follows cursor resource.binding.cursor = .ok true) :
    within position resource.eventSeq = true ↔ within cursor resource.eventSeq = true := by
  rcases hfwd with ⟨rfl, hnot⟩ | ⟨rfl, -⟩
  · exact iff_of_true hin (within_of_not_follows hnot hin)
  · rfl

/-- An act keeps the cursors within the log exactly when it switches no handler on an answer past it. -/
theorem Within.step_iff (hin : Within n.store) (hlogs : Logs n)
    (hreg : RegistersWithin ⟨n, a, n'⟩) (hstep : step ctx n a = some n') :
    Within n'.store ↔ answersWithin ⟨n, a, n'⟩ = true := by
  have hkept (hrows : n'.store.resource = n.store.resource) :
      Within n'.store ↔ answersWithin ⟨n, a, n'⟩ = true := by
    refine iff_of_true ?_ (answersWithin_of_kept hrows)
    intro ref resource hrow
    rw [hrows] at hrow
    exact hin ref resource hrow
  have hchg := step_change hstep
  generalize hs' : n'.store = s' at hchg
  cases hchg with
  | @registered actor resource owner handler free cursor seq =>
    refine (hin.put_iff rfl).trans (iff_of_true ?_ rfl)
    refine hreg resource.resourceRef free resource ?_
    rw [hs']
    exact get_put_self _ _ _
  | received row seq new home number =>
    refine (hin.put_iff rfl).trans (iff_of_true ?_ rfl)
    have hbef := hin _ _ row
    rw [number]
    exact within_next hbef seq
  | acked row handler found =>
    have hid := within_of_event hlogs.counted row found
    exact (hin.put_iff rfl).trans (iff_of_true hid rfl)
  | @switched ref id cursor fresh position next now intent resource row result handover unfinished bound
      revision initiator drawn forward operation outcome =>
    have hcurs := within_switched (hin _ _ bound) forward
    have hrows : n'.store.resource = n.store.resource.put ref (resource.handedTo intent.target position fresh) :=
      congrArg Store.resource hs'
    have hput : Within n'.store ↔ within position resource.eventSeq = true := hin.put_iff hrows
    rw [← hs', hput, hcurs]
    -- The switch changes the row: the revision is a fresh one.
    have hmv : n'.store.resource.get ref ≠ n.store.resource.get ref := by
      rw [hrows, get_put_self, bound]
      intro heq
      exact drawn (congrArg Resource.revision (Option.some.inj heq))
    rw [bound] at hmv
    simp [answersWithin, hmv, bound]
  | _ =>
    have hrows := congrArg Store.resource hs'
    rw [← hs']
    exact hkept hrows

end Step

/-- In a run from the empty node in which every resource is registered with a cursor within its log, no
cursor ever passes the end of its log exactly when every handover that takes effect does so with an answer
of its target within the log. -/
theorem cursors_within_log_iff (ctx : Context) {h : List (Transition Node Act)} {n : Node}
    (hrun : Run (step ctx) {} h n) (hregisters : ∀ t ∈ h, RegistersWithin t) :
    (∀ t ∈ h, Within t.after.store) ↔ ∀ t ∈ h, answersWithin t = true := by
  refine hrun.forall_after_iff_of (I := fun n => Within n.store) (fun ref resource hrow => by cases hrow) ?_
  intro past t future heq hpast hstep hin
  exact hin.step_iff (logs_of_run hpast) (hregisters t (by rw [heq]; simp)) hstep

/-- The resource of a registration has its cursor within its log. -/
def registersWithin (t : Transition Node Act) : Bool :=
  match t.act with
  | .register _ resource => within resource.binding.cursor resource.eventSeq
  | _ => true

theorem registersWithin_spec {ctx : Context} {h : List (Transition Node Act)} {n : Node}
    (hrun : Run (step ctx) {} h n) (hall : h.all registersWithin = true) : ∀ t ∈ h, RegistersWithin t := by
  intro t ht ref hnone resource hrow
  have hreg := List.all_eq_true.mp hall t ht
  obtain ⟨actor, hact, -⟩ := (step_change (hrun.step_of_mem ht)).new_resource hnone hrow
  rw [registersWithin, hact] at hreg
  exact hreg

namespace Scenario

/-- A resource is registered and handed to a target that answers with `cursor`. -/
def handedOver (cursor : String) : List Act :=
  let chat := resource "hub" "chat" "ann"
  let call := handoverCall chat "op" "bob"
  .register "hub" chat :: opening chat "op" "bob" ++
    [.advance (.probing call (call.handoverIntent "bob" deadline chat))
        (.replied (ProbeAnswer.accept cursor).json),
      .advance (.commit chat.resourceRef "op" cursor (.caller call)) (.id 0 "second")]

end Scenario

open Scenario in
/-- A handover that its target accepts at the end of the log keeps the cursors within it. -/
theorem cursors_within_log_iff_accepted : ∃ h n, Run (step (context "hub")) {} h n ∧
      (n.store.resource.get ⟨"hub", "chat"⟩).map (fun resource => resource.binding) =
        some ⟨"bob", "0"⟩ ∧ ∀ t ∈ h, Within t.after.store := by
  obtain ⟨h, n, hrun, hbind, hreg, hans⟩ := exists_run (step (context "hub")) {} (handedOver "0")
    (fun h n => (n.store.resource.get ⟨"hub", "chat"⟩).map (fun resource => resource.binding) =
      some ⟨"bob", "0"⟩ ∧ h.all registersWithin ∧ ∀ t ∈ h, answersWithin t = true)
    (by decide +kernel)
  exact ⟨h, n, hrun, hbind, (cursors_within_log_iff (context "hub") hrun (registersWithin_spec hrun hreg)).mpr hans⟩

open Scenario in
/-- The target of a handover answers with a position the log has not reached, and becomes the handler with
a cursor past the end of the log. -/
theorem accepted_cursor_skips : ∃ h n, Run (step (context "hub")) {} h n ∧ (∀ t ∈ h, RegistersWithin t) ∧ ∃ resource,
      n.store.resource.get ⟨"hub", "chat"⟩ = some resource ∧ resource.eventSeq = "0" ∧
      resource.binding = ⟨"bob", "7"⟩ ∧ ¬ Within n.store := by
  obtain ⟨h, n, hrun, hreg, resource, hrow, hseq, hbind⟩ := exists_run (step (context "hub")) {} (handedOver "7")
    (fun h n => h.all registersWithin ∧ ∃ resource ∈ n.store.resource.get ⟨"hub", "chat"⟩,
      resource.eventSeq = "0" ∧ resource.binding = ⟨"bob", "7"⟩)
    (by decide +kernel)
  refine ⟨h, n, hrun, registersWithin_spec hrun hreg, resource, hrow, hseq, hbind, ?_⟩
  intro hin
  have hcurs := hin _ _ hrow
  rw [hbind, hseq] at hcurs
  exact absurd hcurs (by decide)

end Onlyne.Resources
