import Onlyne.Resources.Changes

/-!
# Resources: what one act does outside the store

`act_emits` says once what an act can do outside the store: answer a caller, call the driver, send a request
to a peer, tell the driver which events left retention, or answer a peer.  Each entry of `Emits` names the
step that does it and what that step read or committed.
-/

namespace Onlyne.Resources

open Foundation List

def outputs (ctx : Context) (t : Transition Node Act) : Option (List Output) :=
  (act ctx t.before t.act).map Prod.snd

/-- `Emits ctx n a s' output`: the act `a` of the node `n` leaves the rows `s'` and does `output`. -/
inductive Emits (ctx : Context) (n : Node) : Act → Store → Output → Prop where
  | answered {a s' call answer} : Emits ctx n a s' (.answered call answer)
  | executed {call : Call} {resource clock} (waiting : .execute call resource ∈ n.tasks) :
      Emits ctx n (.advance (.execute call resource) (.go clock)) n.store (.executed resource call.request)
  | posted {call} {intent : HandoverIntent} {clock} (waiting : .handshake call intent ∈ n.tasks) :
      Emits ctx n (.advance (.handshake call intent) (.go clock)) n.store (.posted intent.target intent.probe)
  | asked {row : HandoverRow} {rest clock} :
      Emits ctx n (.advance (.recoverHandovers (row :: rest)) (.go clock)) n.store
        (.asked row.2.target row.2.operationId)
  | retired {clock : Clock} {events s'} (scan : expireEvents ctx clock.first n.store = .ok (events, s')) :
      Emits ctx n (.advance .expire (.go clock)) s' (.retired events)
  | probeFailed {a s' sender probe thrown} : Emits ctx n a s' (.probed sender probe (.error thrown))
  | probed {a} {s' : Store} {sender} {probe : HandoverProbe} {answer}
      (row : s'.probe.get probe.operationId = some ⟨sender, probe.digest, answer⟩) :
      Emits ctx n a s' (.probed sender probe (.ok answer))
  | recorded {a sender operationId digest answer}
      (row : n.store.probe.get operationId = some ⟨sender, digest, answer⟩) :
      Emits ctx n a n.store (.recorded sender operationId (.ok answer))
  | unrecorded {a s' sender operationId thrown} :
      Emits ctx n a s' (.recorded sender operationId (.error thrown))

/-! ## Steps that reach outside -/

section Emits

variable {ctx : Context} {n n' : Node} {output : Output}
  {a : Act} {clock : Clock} {sender : NodeId} {probe : HandoverProbe} {answer : ProbeAnswer}
  {operationId : String} {input : Input} {task : Task}

theorem expire_emits (hout : output ∈ (expireStep ctx n.store clock.first).output) :
    Emits ctx n (.advance .expire (.go clock)) (expireStep ctx n.store clock.first).store output := by
  unfold expireStep at hout ⊢
  split at hout
  · cases hout
  · next scan =>
    split_ifs at hout ⊢
    · cases hout
    · cases mem_singleton.mp hout
      exact .retired scan

theorem repeatedProbe_ok {record : ProbeRecord} (h : repeatedProbe record sender probe = .ok answer) :
    record = ⟨sender, probe.digest, answer⟩ := by
  unfold repeatedProbe at h
  split_ifs at h with hoth
  cases h
  simp only [Bool.or_eq_true, decide_eq_true_eq, not_or, not_not] at hoth
  obtain ⟨hsend, hdig⟩ := hoth
  rw [← hsend, ← hdig]

theorem probed_emits {s' : Store} {answer : Except Thrown ProbeAnswer}
    (h : ∀ value, answer = .ok value → s'.probe.get probe.operationId = some ⟨sender, probe.digest, value⟩) :
    Emits ctx n a s' (.probed sender probe answer) := by
  cases answer with
  | error => exact .probeFailed
  | ok value => exact .probed (h value rfl)

theorem probe_emits {deadline : Int} (hout : output ∈ (probeStep n.store sender probe deadline).output) :
    Emits ctx n a (probeStep n.store sender probe deadline).store output := by
  unfold probeStep at hout ⊢
  split at hout
  · next existing hrow =>
    cases mem_singleton.mp hout
    refine probed_emits fun value hval => ?_
    rw [hrow, repeatedProbe_ok hval]
  · cases hout

theorem recordProbe_row {recorded : ProbeAnswer} {tx tx' : Store}
    (h : recordProbe sender probe answer tx = .ok (recorded, tx')) :
    tx'.probe.get probe.operationId = some ⟨sender, probe.digest, recorded⟩ := by
  rcases recordProbe_ok h with ⟨rfl, record, hrow, hrec⟩ | ⟨-, rfl, rfl⟩
  · rw [hrow, repeatedProbe_ok hrec]
  · exact Table.get_put_self _ _ _

theorem record_emits (hout : output ∈ (recordStep n.store sender probe answer).output) :
    Emits ctx n a (recordStep n.store sender probe answer).store output := by
  unfold recordStep at hout ⊢
  split at hout
  · cases mem_singleton.mp hout
    exact .probeFailed
  · next hrec =>
    cases mem_singleton.mp hout
    exact .probed (recordProbe_row hrec)

theorem probeAnswer_ok {tx : Store} (h : probeAnswer sender operationId tx = .ok answer) :
    ∃ digest, tx.probe.get operationId = some ⟨sender, digest, answer⟩ := by
  obtain ⟨record, hrec, h⟩ := bind_eq_ok.mp h
  obtain ⟨_, hsend, h⟩ := bind_eq_ok.mp h
  cases h
  rw [failIf_eq_ok, decide_eq_false_iff_not, not_not] at hsend
  rw [requireValue_eq_ok] at hrec
  exact ⟨record.digest, by rw [hrec, ← hsend]⟩

theorem probeAnswer_emits :
    Emits ctx n a n.store (.recorded sender operationId (probeAnswer sender operationId n.store)) := by
  cases hans : probeAnswer sender operationId n.store with
  | error => exact .unrecorded
  | ok =>
    obtain ⟨digest, hrow⟩ := probeAnswer_ok hans
    exact .recorded hrow

theorem resume_emits {outcome : Outcome} (hwait : task ∈ n.tasks)
    (h : resume ctx n.store task input = some outcome) (hout : output ∈ outcome.output) :
    Emits ctx n (.advance task input) outcome.store output := by
  unfold resume at h
  split at h
  all_goals cases h
  all_goals first
    | exact expire_emits hout
    | exact probe_emits hout
    | exact record_emits hout
    | (cases hout; done)
    | (cases mem_singleton.mp hout; exact .answered)
    -- A request to a peer, a call of the driver or an answer.
    | (revert hout
       simp only [priorStep, resumed, admittedStep, queryStep, readEventStep, fetchEventStep, readLogStep,
         scanLogStep, resumeStep, askingStep, initiateStep, handshakeStep, decided, probedStep, settled, claimStep,
         executeStep, reported, recoverHandover, readBackStep, readBackFailed, recoverIntent, recoverReport,
         recovered, decideStep]
       repeat' split
       all_goals intro hout
       all_goals first
         | (cases hout; done)
         | (cases mem_singleton.mp hout; constructor <;> assumption))

theorem act_emits {outputs : List Output} (h : act ctx n a = some (n', outputs))
    (houtput : output ∈ outputs) : Emits ctx n a n'.store output := by
  cases a
  case advance =>
    simp only [act] at h
    split_ifs at h with hwait
    obtain ⟨outcome, hout, heq⟩ := Option.map_eq_some_iff.mp h
    cases heq
    exact resume_emits hwait hout houtput
  all_goals
    simp only [act] at h
    repeat' split at h
  all_goals
    cases h
    first
    | (cases houtput; done)
    | (cases mem_singleton.mp houtput
       first | exact .answered | exact .probeFailed | exact probeAnswer_emits)

theorem outcome_of_advance {n : Node} (hstep : step ctx n (.advance task input) = some n') :
    ∃ outcome, resume ctx n.store task input = some outcome ∧ n'.store = outcome.store ∧
      n'.tasks = n.tasks.erase task ++ outcome.tasks ∧
      outputs ctx ⟨n, .advance task input, n'⟩ = some outcome.output := by
  simp only [step, act] at hstep
  simp only [outputs, act]
  split_ifs at hstep ⊢ with htask
  · cases hres : resume ctx n.store task input with
    | none => simp [hres] at hstep
    | some outcome =>
      rw [hres] at hstep
      cases hstep
      exact ⟨outcome, rfl, rfl, rfl, by simp⟩
  · cases hstep

end Emits

end Onlyne.Resources
