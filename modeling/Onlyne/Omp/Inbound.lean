import Onlyne.Omp.Guard

/-!
# Host: the route of an inbound entry

`decideInbound` of `decider.ts`.  The judge is asked up to three questions, and what it answers is arbitrary: a text
that was offered, another one, or nothing.  An obligation, an entry that the judge says needs an answer, is routed
only where it can be met.
-/

namespace Onlyne.Omp

open Foundation Table
open Messages (DeliveryPlan)

inductive ContextState where
  | unbound
  | idle
  | running
  | parked
  | lost
  deriving DecidableEq

/-- A record of the registry, which stands under its alias. -/
structure RegistryRecord extends ContextRecord where
  mainAgentId : String
  state : ContextState

def RegistryRecord.live (record : RegistryRecord) : Bool := record.state ≠ .lost && record.state ≠ .unbound

def RegistryRecord.canAnswer (record : RegistryRecord) : Bool := record.agentId = some record.mainAgentId

inductive Insertion where
  | steer
  | followUp

inductive InboundDecision where
  | fragment
  | wake (insertion : Insertion)
  | context (name : String)
  | newSubagent

/-- The choices the judge makes where it is asked, or how the question fails. -/
structure Judge where
  needsAnswer : Except ErrorCode (Option String)
  routingTarget : Except ErrorCode (Option String)
  insertionMode : Except ErrorCode (Option String)

section Decider

variable (node : NodeId) (registry : Option (Table String RegistryRecord)) (judge : Judge)

def boundContext (name : String) : Except ErrorCode InboundDecision :=
  match registry with
  | none => .error .unavailable
  | some records =>
    if (records.get name).any fun record => record.agentId.isSome && record.live then .ok (.context name)
    else .error .contextLost

def needsAnswer : Except ErrorCode Bool := do
  match ← judge.needsAnswer with
  | some "yes" => .ok true
  | some "no" => .ok false
  | _ => .error .decisionUnavailable

def insertionMode (needsAnswer : Bool) : Except ErrorCode (Option Insertion) := do
  match ← judge.insertionMode with
  | some "steer" => .ok (some .steer)
  | some "follow_up" => .ok (some .followUp)
  | some "fragment" => .ok (if needsAnswer then some .followUp else none)
  | _ => .error .decisionUnavailable

/-- The contexts that are offered; a registry that cannot be read has none. -/
def validContexts (needsAnswer : Bool) : List String :=
  let records := (registry.map Table.rows).getD []
  ((records.filter fun (name, record) => record.nodeId = node && record.agentId.isSome && record.live &&
    (!needsAnswer || record.canAnswer) && name ≠ "main").take 3).map Prod.fst

def routingTarget (options : List String) : Except ErrorCode (Option String) :=
  if options.all (· = "main_agent") then .ok (some "main_agent") else judge.routingTarget

def decideInbound (plan : Option DeliveryPlan) : Except ErrorCode InboundDecision :=
  match plan.bind DeliveryPlan.context with
  | some name => boundContext registry name
  | none => do
    let needsAnswer ← needsAnswer judge
    if plan.any fun plan => plan.execution = .known .new then
      if needsAnswer then
        let insertion ← insertionMode judge needsAnswer
        .ok (.wake (insertion.getD .followUp))
      else .ok .newSubagent
    else
      let valid := validContexts node registry needsAnswer
      match ← routingTarget judge ("main_agent" :: valid ++ if needsAnswer then [] else ["new_subagent"]) with
      | none => .error .decisionUnavailable
      | some "new_subagent" => .ok (if needsAnswer then .wake .followUp else .newSubagent)
      | some "main_agent" =>
        let insertion ← insertionMode judge needsAnswer
        .ok (insertion.elim .fragment .wake)
      | some chosen => .ok (if valid.contains chosen then .context chosen else .wake .followUp)

/-- An obligation can be met there: the main session takes a turn, or the context is live, bound and able to answer. -/
def InboundDecision.Meets : InboundDecision → Prop
  | .wake _ => True
  | .context name => ∃ records record, registry = some records ∧ records.get name = some record ∧
    record.nodeId = node ∧ record.agentId.isSome = true ∧ record.live = true ∧ record.canAnswer = true
  | .fragment | .newSubagent => False

end Decider

variable {node : NodeId} {registry : Option (Table String RegistryRecord)} {judge : Judge}

theorem validContexts_meet {name : String} (h : name ∈ validContexts node registry true) :
    InboundDecision.Meets node registry (.context name) := by
  obtain ⟨⟨_, record⟩, hrow, rfl⟩ := List.mem_map.mp h
  obtain ⟨hrow, hvalid⟩ := List.mem_filter.mp (List.mem_of_mem_take hrow)
  cases registry with
  | none => cases hrow
  | some records =>
    simp only [Bool.and_eq_true, decide_eq_true_eq, Bool.not_true, Bool.false_or] at hvalid
    obtain ⟨⟨⟨⟨hnode, hagent⟩, hlive⟩, hans⟩, -⟩ := hvalid
    exact ⟨records, record, rfl, mem_rows.mp hrow, hnode, hagent, hlive, hans⟩

theorem insertionMode_obligation {insertion : Option Insertion} (h : insertionMode judge true = .ok insertion) :
    ∃ turn, insertion = some turn := by
  obtain ⟨mode, -, hmode⟩ := bind_eq_ok.mp h
  split at hmode <;> cases hmode <;> exact ⟨_, rfl⟩

/-- Whatever the judge answers, an entry that needs an answer is routed where an answer can be given. -/
theorem obligation_routed {plan : Option DeliveryPlan} {decision : InboundDecision}
    (hplan : plan.bind DeliveryPlan.context = none) (hneeds : judge.needsAnswer = .ok (some "yes"))
    (h : decideInbound node registry judge plan = .ok decision) : decision.Meets node registry := by
  have hneeded : needsAnswer judge = .ok true := by
    unfold needsAnswer
    rw [hneeds]
    rfl
  unfold decideInbound at h
  rw [hplan] at h
  obtain ⟨needed, hasked, h⟩ := bind_eq_ok.mp h
  cases hneeded.symm.trans hasked
  simp only [if_true] at h
  split_ifs at h
  · obtain ⟨insertion, -, ⟨⟩⟩ := bind_eq_ok.mp h
    trivial
  · obtain ⟨target, -, h⟩ := bind_eq_ok.mp h
    split at h
    · cases h
    · cases h
      trivial
    · obtain ⟨insertion, hmode, ⟨⟩⟩ := bind_eq_ok.mp h
      obtain ⟨turn, rfl⟩ := insertionMode_obligation hmode
      trivial
    · cases h
      split_ifs with hvalid
      · exact validContexts_meet (by simpa using hvalid)
      · trivial

private def writerContext : Table String RegistryRecord :=
  (∅ : Table ..).put "ctx-1" { nodeId := "n", agentId := some "agent", mainAgentId := "agent", state := .idle }

/-- The judge names a context that can answer. -/
theorem obligation_routed_context : ∃ judge decision, judge.needsAnswer = .ok (some "yes") ∧
    decideInbound "n" (some writerContext) judge none = .ok decision ∧ decision.Meets "n" (some writerContext) := by
  have h : decideInbound "n" (some writerContext) ⟨.ok (some "yes"), .ok (some "ctx-1"), .ok none⟩ none =
    .ok (.context "ctx-1") := rfl
  exact ⟨_, _, rfl, h, obligation_routed rfl rfl h⟩

end Onlyne.Omp
