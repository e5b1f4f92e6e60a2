import Onlyne.Client.OutboxChanges
import Onlyne.Client.Calls

/-!
# Client: the whole client

A client is its outbox, its inbound rows, the registry of awaited replies and its calls in flight, each under
the number it was started with.  An act starts a call, takes one call to its next await, or is a write of the
message service of the same node; a sequence of acts is an interleaving of the calls.
-/

namespace Onlyne.Client

open Foundation Table Option
open Messages (Message MessageRef ThreadRef Entry Attention)

structure OnlyneClient where
  outbox : Outbox := {}
  rows : InboundRows := {}
  awaiting : AwaitedReplies := {}
  calls : Table Nat Task := ∅
  -- The number of the next call.
  next : Nat := 0

inductive Act where
  -- A send, a recovery pass, or a step of one of them.
  | out (act : OutAct)
  -- A runtime binding hands over an entry.
  | receive (entry : Entry) (obligationId : String) (context : Option String)
  -- The host confirms a consumption.
  | confirm (entry : Entry) (context : Option String) (via : Via) (now : Int)
  | reconcile (now : Int)
  | maintain
  -- The message service of this node admits an entry for it, or changes an obligation.
  | admitted (attention : Attention) (context : Option String)
  | revised (attention : Attention)
  -- A call in flight continues.
  | advance (call : Nat) (input : Input)
  -- The process ends and starts again over the same rows.
  | crash

section

variable (ctx : Context) (s : OnlyneClient)

def OnlyneClient.spawn (task : Task) : OnlyneClient :=
  { s with calls := s.calls.put s.next task, next := s.next + 1 }

/-- The waits that a step of the outbox starts: a message sent to await its reply is registered. -/
def waitsOf : OutAct → List OutOutput → List StoredOutbound
  | .deliver call _ _ _, outputs =>
    if call.plan.response = .known .await then
      outputs.filterMap fun output => match output with
        | .posted record => some record
        | .answered _ _ => none
    else []
  | _, _ => []

def OnlyneClient.move (call : Nat) (outcome : Outcome) : OnlyneClient :=
  { s with
    rows := outcome.rows
    awaiting := outcome.awaiting
    calls := match outcome.task with
      | some task => s.calls.put call task
      | none => s.calls.delete call }

def clientAct : Act → Option (OnlyneClient × List Output)
  -- The end of the process is an act of the whole client.
  | .out .crash => none
  | .out act =>
    (outAct ctx s.outbox act).map fun next =>
      ((waitsOf act next.2).foldl (fun s record => s.spawn (.registering record)) { s with outbox := next.1 }, [])
  | .receive entry id context =>
    -- Invalid evidence resolves nothing.
    if attest ctx (attentionOf entry id ctx.node) entry.threadRef.owner none then
      some (s.spawn (.work (.receiving entry id context) .caller), [])
    else some (s, [.ended []])
  | .confirm entry context via now => some (s.spawn (.work (.confirming entry context via now) .caller), [])
  | .reconcile now => some (s.spawn (.known now none), [])
  | .maintain => some (s.spawn (.listing .deliver [] 0), [])
  | .admitted attention context => some ({ s with rows := admittedTx attention context s.rows }, [])
  | .revised attention => some ({ s with rows := revisedTx attention s.rows }, [])
  | .advance call input =>
    (s.calls.get call).bind fun task =>
      (resume ctx s.outbox.rows s.rows s.awaiting task input).map fun outcome =>
        (s.move call outcome, outcome.output)
  | .crash => some ({ s with outbox := { s.outbox with tasks := [] }, awaiting := {}, calls := ∅ }, [])

def clientStep (a : Act) : Option OnlyneClient := (clientAct ctx s a).map Prod.fst

def outputs (t : Transition OnlyneClient Act) : List Output :=
  ((clientAct ctx t.before t.act).map Prod.snd).getD []

end

section Steps

variable {ctx : Context} {s s' : OnlyneClient}

theorem resume_of_advance {call : Nat} {input : Input} (hstep : clientStep ctx s (.advance call input) = some s') :
    ∃ task outcome, s.calls.get call = some task ∧
      resume ctx s.outbox.rows s.rows s.awaiting task input = some outcome ∧ s' = s.move call outcome := by
  simp only [clientStep, clientAct, Option.map_bind, bind_eq_some_iff, Function.comp_apply,
    Option.map_map, map_eq_some_iff] at hstep
  obtain ⟨task, htask, outcome, hout, rfl⟩ := hstep
  exact ⟨task, outcome, htask, hout, rfl⟩

theorem spawn_waits (records : List StoredOutbound) (s : OnlyneClient) :
    (records.foldl (fun s record => s.spawn (.registering record)) s).outbox = s.outbox ∧
      (records.foldl (fun s record => s.spawn (.registering record)) s).rows = s.rows := by
  induction records generalizing s with
  | nil => exact ⟨rfl, rfl⟩
  | cons record rest ih => exact ih (s.spawn (.registering record))

theorem outAct_of_out {act : OutAct} (hstep : clientStep ctx s (.out act) = some s') :
    ∃ next, outAct ctx s.outbox act = some next ∧
      s' = (waitsOf act next.2).foldl (fun s record => s.spawn (.registering record)) { s with outbox := next.1 } := by
  cases act with
  | crash => cases hstep
  | deliver | recover | advance =>
    simp only [clientStep, clientAct, Option.map_map, map_eq_some_iff] at hstep
    obtain ⟨next, hnext, rfl⟩ := hstep
    exact ⟨next, hnext, rfl⟩

end Steps

/-! ## The calls of a client -/

def Task.begins : Task → Bool
  | .work (.receiving _ _ _) .caller | .work (.confirming _ _ _ _) .caller | .known _ none
  | .listing .deliver [] 0 | .registering _ => true
  | _ => false

def Act.spawns (task : Task) : Act → Prop
  | .receive entry id context => task = .work (.receiving entry id context) .caller
  | .confirm entry context via now => task = .work (.confirming entry context via now) .caller
  | .reconcile now => task = .known now none
  | .maintain => task = .listing .deliver [] 0
  | .out _ => ∃ record, task = .registering record
  | .admitted _ _ | .revised _ | .advance _ _ | .crash => False

variable {s : OnlyneClient} {call : Nat} {task : Task} {ctx : Context} {a : Act}

theorem Act.begins_of_spawns (h : a.spawns task) : task.begins = true := by
  cases a with
  | receive | confirm | reconcile | maintain =>
    cases h
    rfl
  | out =>
    obtain ⟨record, rfl⟩ := h
    rfl
  | admitted | revised | advance | crash => cases h

theorem OnlyneClient.move_get (s : OnlyneClient) (call : Nat) (outcome : Outcome) :
    (s.move call outcome).calls.get call = outcome.task := by
  unfold OnlyneClient.move
  cases outcome.task with
  | none => exact get_delete_self _ _
  | some => exact get_put_self _ _ _

theorem OnlyneClient.move_get_ne (s : OnlyneClient) {call other : Nat} (outcome : Outcome) (hne : other ≠ call) :
    (s.move call outcome).calls.get other = s.calls.get other := by
  unfold OnlyneClient.move
  cases outcome.task with
  | none => exact get_delete_ne _ hne
  | some => exact get_put_ne _ _ hne

theorem spawn_call {begun : Task} (htask : (s.spawn begun).calls.get call = some task) :
    s.calls.get call = some task ∨ task = begun := by
  rcases get_put_cases htask with ⟨-, rfl⟩ | ⟨-, hold⟩
  · exact .inr rfl
  · exact .inl hold

theorem spawn_waits_call (records : List StoredOutbound)
    (htask : (records.foldl (fun s record => s.spawn (.registering record)) s).calls.get call = some task) :
    s.calls.get call = some task ∨ ∃ record, task = .registering record := by
  induction records generalizing s with
  | nil => exact .inl htask
  | cons record rest ih =>
    rcases ih htask with hold | hwait
    · exact (spawn_call hold).imp_right fun heq => ⟨record, heq⟩
    · exact .inr hwait

/-- A call in flight was in flight already, or stands where its last step led, or the act has just started it. -/
theorem clientStep_call {s' : OnlyneClient} (hstep : clientStep ctx s a = some s')
    (htask : s'.calls.get call = some task) : s.calls.get call = some task ∨ a.spawns task ∨
      ∃ old input outcome, a = .advance call input ∧ s.calls.get call = some old ∧
        resume ctx s.outbox.rows s.rows s.awaiting old input = some outcome ∧ outcome.task = some task ∧
        outcome.rows = s'.rows := by
  cases a with
  | out =>
    obtain ⟨next, -, rfl⟩ := outAct_of_out hstep
    exact (spawn_waits_call _ htask).imp_right .inl
  | receive =>
    simp only [clientStep, clientAct] at hstep
    split_ifs at hstep <;> cases hstep
    · exact (spawn_call htask).imp_right .inl
    · exact .inl htask
  | advance call' input =>
    obtain ⟨old, outcome, hold, hres, rfl⟩ := resume_of_advance hstep
    by_cases hcall : call = call'
    · subst hcall
      exact .inr (.inr ⟨old, input, outcome, rfl, hold, hres, (s.move_get call outcome).symm.trans htask, rfl⟩)
    · exact .inl ((s.move_get_ne outcome hcall).symm.trans htask)
  | confirm | reconcile | maintain =>
    cases hstep
    exact (spawn_call htask).imp_right .inl
  | admitted | revised =>
    cases hstep
    exact .inl htask
  | crash =>
    cases hstep
    cases htask

/-! ## The outbox of a client -/

def Act.outAct : Act → Option OutAct
  | .out act => some act
  | .crash => some .crash
  | _ => none

theorem clientStep_outbox {s' : OnlyneClient} (hstep : clientStep ctx s a = some s') : match a.outAct with
    | some act => outStep ctx s.outbox act = some s'.outbox
    | none => s'.outbox = s.outbox := by
  cases a with
  | out =>
    obtain ⟨next, hnext, rfl⟩ := outAct_of_out hstep
    simp only [Act.outAct, outStep, hnext, (spawn_waits _ _).1]
    rfl
  | receive =>
    simp only [clientStep, clientAct] at hstep
    split_ifs at hstep <;> cases hstep <;> rfl
  | advance =>
    obtain ⟨task, outcome, -, -, rfl⟩ := resume_of_advance hstep
    rfl
  | crash | confirm | reconcile | maintain | admitted | revised =>
    cases hstep
    rfl

/-- The outbox of a client runs as an outbox: whatever holds of every run of the outbox holds of the outbox in
every run of the client. -/
theorem outbox_run {start : OnlyneClient} {h : List (Transition OnlyneClient Act)}
    (hrun : Run (clientStep ctx) start h s) : ∃ h', Run (outStep ctx) start.outbox h' s.outbox ∧
      h'.map (fun t => t.act) = h.filterMap fun t => t.act.outAct := by
  induction hrun with
  | nil => exact ⟨[], .nil, rfl⟩
  | @snoc past s s' a hprev hstep ih =>
    obtain ⟨h', hrun', hacts⟩ := ih
    have hout := clientStep_outbox hstep
    cases hact : a.outAct with
    | none =>
      rw [hact] at hout
      refine ⟨h', ?_, ?_⟩
      · rw [hout]
        exact hrun'
      · rw [List.filterMap_append, hacts]
        simp [hact]
    | some =>
      rw [hact] at hout
      refine ⟨_, hrun'.snoc hout, ?_⟩
      rw [List.map_append, List.filterMap_append, hacts]
      simp [hact]

/-! ## A node of the runs that follow -/

namespace Scenario

def ann : Context where
  node := "ann"

def entry : Entry where
  threadRef := ⟨"bob", "t"⟩
  seq := 0
  message := ⟨"m", "bob", "note", "hi", none⟩
  authenticatedAuthor := "bob"
  replyAuthority := "bob"
  stampedAt := ""

def go : Input := .go 0 none

end Scenario

end Onlyne.Client
