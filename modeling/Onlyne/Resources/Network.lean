import Onlyne.Resources.Outputs

/-!
# Resources: nodes that hand over to each other

Several nodes and the requests and answers between them.  A peer request is signed and carries the identity
of its sender, and an answer comes from the node that was asked, so a node starts `probe` and `probeAnswer`
only for a request that was sent to it, and a call that waits for a peer continues with an answer only when
that peer gave it.  Requests and answers may be lost, late or repeated: what was sent stays on the wire, and
a call may always continue with a timeout or a failure instead.
-/

namespace Onlyne.Resources

open Foundation

inductive Packet where
  -- `POST /handover/probes`, and the answer to it.
  | probe (sender target : NodeId) (probe : HandoverProbe)
  | probed (target sender : NodeId) (probe : HandoverProbe) (answer : ProbeAnswer)
  -- `GET /handover/probes/{operation_id}`, and the answer to it.
  | ask (sender target : NodeId) (operationId : String)
  | recorded (target sender : NodeId) (operationId : String) (answer : ProbeAnswer)
  deriving DecidableEq

structure World where
  nodes : NodeId → Node := fun _ => {}
  wire : List Packet := []

/-- What an output of `node` puts on the wire; an error is an answer that no call continues with. -/
def packet (node : NodeId) : Output → Option Packet
  | .posted target probe => some (.probe node target probe)
  | .asked target operationId => some (.ask node target operationId)
  | .probed sender probe (.ok answer) => some (.probed node sender probe answer)
  | .recorded sender operationId (.ok answer) => some (.recorded node sender operationId answer)
  | _ => none

/-- The packet answers the probe of `intent` that `node` sent with the body `value`. -/
def answersProbe (node : NodeId) (intent : HandoverIntent) (value : Json) : Packet → Bool
  | .probed target sender probe answer =>
    target = intent.target && sender = node && probe = intent.probe && answer.json = value
  | _ => false

/-- The packet answers with the body `value` what `node` asked about the operation of `intent`. -/
def answersAsk (node : NodeId) (intent : HandoverIntent) (value : Json) : Packet → Bool
  | .recorded target sender operationId answer =>
    target = intent.target && sender = node && operationId = intent.operationId &&
      answer.json = value
  | _ => false

/-- The wire holds what the act of `node` gets from a peer. -/
def delivered (wire : List Packet) (node : NodeId) : Act → Bool
  | .probe sender probe => .probe sender node probe ∈ wire
  | .probeAnswer sender operationId => .ask sender node operationId ∈ wire
  | .advance (.probing _ intent) (.replied value) => wire.any (answersProbe node intent value)
  | .advance (.readBack row _) (.replied value) => wire.any (answersAsk node row.2 value)
  | _ => true

def World.step (ctx : NodeId → Context) (w : World) (a : NodeId × Act) : Option World :=
  if delivered w.wire a.1 a.2 then
    (act (ctx a.1) (w.nodes a.1) a.2).map fun next =>
      ⟨Function.update w.nodes a.1 next.1, w.wire ++ next.2.filterMap (packet a.1)⟩
  else none

/-! ## What one act of a node does to the others -/

section Step

variable {ctx : NodeId → Context} {w w' : World} {node : NodeId} {a : Act} {p : Packet}

section

variable (h : w.step ctx (node, a) = some w')
include h

theorem World.step_spec :
    delivered w.wire node a = true ∧ ∃ n' outputs, act (ctx node) (w.nodes node) a = some (n', outputs) ∧
      w' = ⟨Function.update w.nodes node n', w.wire ++ outputs.filterMap (packet node)⟩ := by
  unfold World.step at h
  split_ifs at h with hdlv
  obtain ⟨⟨n', outputs⟩, hact, heq⟩ := Option.map_eq_some_iff.mp h
  exact ⟨hdlv, n', outputs, hact, heq.symm⟩

theorem World.step_node : Resources.step (ctx node) (w.nodes node) a = some (w'.nodes node) := by
  obtain ⟨-, n', outputs, hact, rfl⟩ := World.step_spec h
  simp [Resources.step, hact]

theorem World.step_other {other : NodeId} (hoth : other ≠ node) : w'.nodes other = w.nodes other := by
  obtain ⟨-, n', outputs, -, rfl⟩ := World.step_spec h
  exact Function.update_of_ne hoth _ _

theorem World.wire_mono (hp : p ∈ w.wire) : p ∈ w'.wire := by
  obtain ⟨-, n', outputs, -, rfl⟩ := World.step_spec h
  exact List.mem_append_left _ hp

theorem World.mem_wire (hp : p ∈ w'.wire) : p ∈ w.wire ∨ ∃ output, packet node output = some p ∧
      Emits (ctx node) (w.nodes node) a (w'.nodes node).store output := by
  obtain ⟨-, n', outputs, hact, rfl⟩ := World.step_spec h
  rcases List.mem_append.mp hp with hold | hnew
  · exact .inl hold
  · obtain ⟨output, hout, hpkt⟩ := List.mem_filterMap.mp hnew
    refine .inr ⟨output, hpkt, ?_⟩
    show Emits (ctx node) (w.nodes node) a (Function.update w.nodes node n' node).store output
    rw [Function.update_self]
    exact act_emits hact hout

end

end Step

end Onlyne.Resources
