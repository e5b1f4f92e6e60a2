import Onlyne.Client.InFlight

/-!
# Client: injections

A call that brings an entry to the host works on the record it read at its beginning, and `runtime.inject` is
called several transactions later.  While no row is marked as injected under a call that still takes it for
open, every injection finds its row open.
-/

namespace Onlyne.Client

open Foundation Table List Option
open Messages (Message MessageRef ThreadRef Entry Attention)

/-! ## Records a call takes for open -/

def After.holds : After → List LocalAttention
  | .inbox rest _ => rest.filter fun record => !record.injected
  | _ => []

def Task.holds : Task → List LocalAttention
  | .work handling after => handling.holds ++ after.holds
  | .inbox rest _ => rest.filter fun record => !record.injected
  | _ => []

/-! ## The rows of the inbox -/

def Keyed (rows : InboundRows) : Prop :=
  ∀ id row, rows.inbox.get id = some row → row.attention.obligationId = id

def IsOpen (rows : InboundRows) (id : String) : Prop :=
  ∃ row, rows.inbox.get id = some row ∧ row.injected = false

/-- What every transaction does: it drops no row of the inbox and moves none. -/
structure InboxKept (rows rows' : InboundRows) : Prop where
  present : ∀ id, rows.inbox.get id ≠ none → rows'.inbox.get id ≠ none
  keyed : Keyed rows → Keyed rows'

section Rows

variable {ctx : Context} {rows rows' : InboundRows}

theorem inboxKept_of_eq (hinbox : rows'.inbox = rows.inbox) : InboxKept rows rows' := by
  refine ⟨fun id hrow => ?_, fun hkey id row hrow => hkey id row ?_⟩
  · rw [hinbox]
    exact hrow
  · rw [← hinbox]
    exact hrow

theorem inboxKept_of_put {id : String} {row : LocalAttention} (hinbox : rows'.inbox = rows.inbox.put id row)
    (hid : Keyed rows → row.attention.obligationId = id) : InboxKept rows rows' := by
  constructor
  · intro id' hrow
    rw [hinbox, get_put]
    split_ifs
    · simp
    · exact hrow
  · intro hkey id' row' hrow
    rw [hinbox] at hrow
    exact of_put hkey hrow (hid hkey)

variable (entry : Entry) (context : Option String)

theorem confirmed_attention (row : LocalAttention) : (row.confirmed entry context).attention = row.attention := by
  unfold LocalAttention.confirmed
  split <;> rfl

theorem confirmTx_kept (via : Via) (now : Int) (rows : InboundRows) :
    InboxKept rows (confirmTx ctx entry context via now rows).2 := by
  unfold confirmTx
  split
  · exact inboxKept_of_eq rfl
  · constructor
    · intro id hrow
      simpa using hrow
    · intro hkey id row hrow
      rw [get_mapValues, map_eq_some_iff] at hrow
      obtain ⟨row, hrow, rfl⟩ := hrow
      rw [confirmed_attention]
      exact hkey id row hrow

theorem InboxChange.inboxKept (hchg : InboxChange ctx rows rows') : InboxKept rows rows' := by
  cases hchg with
  | kept | answered | cleared | reported => exact inboxKept_of_eq rfl
  | confirmed entry context via now => exact confirmTx_kept entry context via now rows
  | _ =>
    -- The inbox is left, or one row is put back under its obligation.
    simp only [receiveTx, storeTx, ackTx, checkFailedTx, settleTx, todoDoneTx, admittedTx, revisedTx]
    repeat' split
    all_goals first
      | exact inboxKept_of_eq rfl
      | exact inboxKept_of_put rfl fun _ => rfl
      | exact inboxKept_of_put rfl fun hkey => (hkey _ _ ‹rows.inbox.get _ = some _› :)

end Rows

/-! ## What a call holds after a step -/

section Steps

variable {ctx : Context} {outbound : OutboundRows} {rows : InboundRows} {awaiting : AwaitedReplies}
  {record r : LocalAttention} {entry : Entry} {work : Work} {input : Input}

theorem mem_open : record ∈ [r].filter (fun record => !record.injected) ↔ record = r ∧ r.injected = false := by
  rw [mem_filter, mem_singleton]
  constructor
  · rintro ⟨rfl, hopen⟩
    exact ⟨rfl, by simpa using hopen⟩
  · rintro ⟨rfl, hopen⟩
    exact ⟨rfl, by simpa using hopen⟩

/-! ## Loops hold no record but those of the inbox -/

theorem Task.holds_of_bare {task : Task} (hbare : task.bare = true) : task.holds = [] := by
  unfold Task.bare at hbare
  split at hbare
  case h_1 => rfl
  case h_2 => rfl
  case h_3 => cases hbare
  case h_4 => cases hbare
  case h_5 hwork hinbox =>
    unfold Task.holds
    split
    · exact absurd rfl (hwork _ _)
    · exact absurd rfl (hinbox _ _)
    · rfl

theorem resume_holds {task next : Task} {outcome : Outcome} (hkey : Keyed outcome.rows)
    (hres : resume ctx outbound rows awaiting task input = some outcome) (hnext : outcome.task = some next)
    (hmem : record ∈ next.holds) : record ∈ task.holds ∨ IsOpen outcome.rows record.attention.obligationId := by
  have hst := resume_stands hres hnext
  generalize outcome.rows = rows' at hst hkey ⊢
  cases hst with
  | bare hbare =>
    rw [Task.holds_of_bare hbare] at hmem
    cases hmem
  | queued =>
    obtain ⟨hque, hopen⟩ := mem_filter.mp hmem
    obtain ⟨id, hrow⟩ := mem_queued.mp hque
    rw [hkey id record hrow]
    exact .inr ⟨record, hrow, by simpa using hopen⟩
  | worked _ hheld =>
    rcases mem_append.mp hmem with hin | hin
    · rcases hheld with hsub | ⟨arrival, rfl, hget⟩
      · exact .inl (mem_append_left _ (hsub hin))
      -- It is the row that was just read.
      · obtain ⟨rfl, hopen⟩ := mem_open.mp hin
        rw [hkey _ _ hget]
        exact .inr ⟨arrival.record, hget, hopen⟩
    · exact .inl (mem_append_right _ hin)
  | back => exact .inl (mem_append_right _ hmem)
  | passed =>
    obtain ⟨hin, hopen⟩ := mem_filter.mp hmem
    exact .inl (mem_filter.mpr ⟨mem_cons_of_mem _ hin, hopen⟩)
  | @consumed first _ _ rest failures _ hhands =>
    left
    rw [Task.holds, ← singleton_append, filter_append]
    exact mem_append.mpr ((mem_append.mp hmem).imp_left fun hin => hhands.holds hin)

end Steps

/-! ## No second injection -/

def marks (t : Transition OnlyneClient Act) (id : String) : Bool :=
  ((t.before.rows.inbox.get id).any fun row => !row.injected) &&
    (t.after.rows.inbox.get id).any fun row => row.injected

def undisturbed (t : Transition OnlyneClient Act) : Bool :=
  (t.before.calls.rows.flatMap fun call => call.2.holds).all fun record =>
    !marks t record.attention.obligationId

structure Fresh (s : OnlyneClient) : Prop where
  keyed : Keyed s.rows
  isOpen : ∀ call task, s.calls.get call = some task → ∀ record ∈ task.holds,
    IsOpen s.rows record.attention.obligationId

theorem Task.holds_of_begins {task : Task} (hbeg : task.begins = true) : task.holds = [] := by
  unfold Task.begins at hbeg
  split at hbeg
  case h_6 => cases hbeg
  all_goals rfl

section Runs

variable {ctx : Context} {s s' : OnlyneClient} {a : Act}

section

variable (hfr : Fresh s) (hstep : clientStep ctx s a = some s') (hq : undisturbed ⟨s, a, s'⟩ = true)
include hfr hstep hq

theorem Fresh.stays_open {call : Nat} {task : Task} (htask : s.calls.get call = some task)
    {record : LocalAttention} (hmem : record ∈ task.holds) : IsOpen s'.rows record.attention.obligationId := by
  obtain ⟨row, hrow, hopen⟩ := hfr.isOpen call task htask record hmem
  have hpres := (clientStep_change hstep).inboxKept.present record.attention.obligationId (by simp [hrow])
  obtain ⟨row', hrow'⟩ := ne_none_iff_exists'.mp hpres
  refine ⟨row', hrow', ?_⟩
  have hheld : record ∈ s.calls.rows.flatMap fun call => call.2.holds :=
    mem_flatMap.mpr ⟨(call, task), mem_rows.mpr htask, hmem⟩
  have hmark := List.all_eq_true.mp hq record hheld
  simpa [marks, hrow, hopen, hrow'] using hmark

theorem Fresh.kept : Fresh s' := by
  have hkept := (clientStep_change hstep).inboxKept
  have hkey := hkept.keyed hfr.keyed
  refine ⟨hkey, fun call task htask record hmem => ?_⟩
  rcases clientStep_call hstep htask with hold | hspawn | ⟨old, input, outcome, rfl, hold, hres, hnext, hrows⟩
  · exact hfr.stays_open hstep hq hold hmem
  · rw [Task.holds_of_begins (Act.begins_of_spawns hspawn)] at hmem
    cases hmem
  · rw [← hrows] at hkey ⊢
    rcases resume_holds hkey hres hnext hmem with hin | hopen
    · rw [hrows]
      exact hfr.stays_open hstep hq hold hin
    · exact hopen

end

end Runs

/-! ### The calls of `runtime.inject` -/

/-- The obligations for whose rows `runtime.inject` is called. -/
def injections (output : List Output) : List String :=
  output.filterMap fun call => match call with
    | .inject id _ _ _ => some id
    | _ => none

section Calls

variable {ctx : Context} {outbound : OutboundRows} {rows : InboundRows} {awaiting : AwaitedReplies}
  {task : Task} (round : Round) (pull : Pull) (thrown : Thrown)

@[simp] theorem injections_nil : injections [] = [] := rfl

@[simp] theorem injections_append (first rest : List Output) :
    injections (first ++ rest) = injections first ++ injections rest := filterMap_append

@[simp] theorem injections_ended (failures : List Thrown) : injections [.ended failures] = [] := rfl

@[simp] theorem injections_land (arrival : Arrival) (now : Int) :
    injections (land ctx rows awaiting arrival now).output = [] := by
  unfold land
  split
  · rfl
  · split <;> rfl

variable (entry : Entry)

@[simp] theorem injections_notifying (registry : AwaitedReplies) (notify : Option Thrown) (flow : Flow) :
    injections (notifying ctx rows entry registry notify flow).output = [] := by
  unfold notifying
  split_ifs <;> rfl

@[simp] theorem injections_afterConfirm (place : Option String) (notify : Option Thrown) :
    injections (afterConfirm ctx rows awaiting entry place notify).output = [] := by
  unfold afterConfirm
  split
  · rfl
  · exact injections_notifying _ _ _ _

@[simp] theorem injections_afterSettle (changed : Bool) (notify : Option Thrown) :
    injections (afterSettle ctx rows awaiting entry changed notify).output = [] := by
  unfold afterSettle
  split_ifs
  · exact injections_notifying _ _ _ _
  · rfl

variable {input : Input}

/-- The handling of an entry calls the host only for a row that it takes for open. -/
theorem workStep_injections {work : Work} {worked : Worked}
    (hstep : workStep ctx outbound rows awaiting work input = some worked) :
    ∀ id ∈ injections worked.output, ∃ record ∈ work.holds, record.attention.obligationId = id := by
  intro id hmem
  unfold workStep at hstep
  split at hstep <;> cases hstep
  case h_16 =>
    simp only [present] at hmem
    split_ifs at hmem with hcons
    · cases hmem
    · cases mem_singleton.mp hmem
      refine ⟨_, ?_, rfl⟩
      rw [Work.holds, if_neg hcons]
      exact mem_singleton_self _
  case h_7 =>
    rw [injections_land] at hmem
    cases hmem
  case h_12 =>
    rw [injections_afterSettle] at hmem
    cases hmem
  case h_19 =>
    rw [injections_afterConfirm] at hmem
    cases hmem
  all_goals cases hmem

@[simp] theorem injections_roundFails : injections (round.fails thrown).2 = [] := by
  unfold Round.fails
  split <;> rfl

@[simp] theorem injections_pullFails : injections (pull.fails ctx thrown).2 = [] := by
  unfold Pull.fails
  split_ifs
  · exact injections_roundFails _ _
  · rfl

@[simp] theorem injections_follow (after : After) (flow : Flow) : injections (after.follow ctx flow).2 = [] := by
  cases flow with
  | next => rfl
  | back => cases after <;> rfl
  | raise =>
    cases after with
    | items => exact injections_pullFails _ _
    | caller | todos | inbox => rfl

@[simp] theorem injections_roundCome : injections (round.come rows).2 = [] := by
  unfold Round.come
  split
  · split <;> rfl
  · split_ifs <;> rfl

@[simp] theorem injections_pullCome (cursor : Option String) (rest : List Attention) :
    injections (pull.come ctx cursor rest).2 = [] := by
  unfold Pull.come
  split
  · split_ifs <;> rfl
  · split_ifs
    · rfl
    · rfl
    · exact injections_pullFails _ _

theorem injections_listed {cursor : Option String} {fetched : Nat} {again complete : Task}
    {endless : Option Task × List Output} (hendless : injections endless.2 = []) :
    injections (listed cursor fetched again complete endless).2 = [] := by
  unfold listed
  split_ifs
  · rfl
  · rfl
  · exact hendless

theorem loopStep_injections {next : Option Task × List Output}
    (hstep : loopStep ctx rows awaiting task input = some next) : injections next.2 = [] := by
  unfold loopStep at hstep
  split at hstep
  case h_48 =>
    obtain ⟨entry, -, rfl⟩ := map_eq_some_iff.mp hstep
    rfl
  case h_53 => cases hstep
  all_goals cases hstep
  case h_1 | h_12 => exact injections_listed rfl
  case h_26 => exact injections_listed (injections_roundFails _ _)
  case h_16 => split_ifs <;> rfl
  all_goals
    first
      | rfl
      | simp

theorem comeInbox_injections (record : LocalAttention) (rest : List LocalAttention) (failures : List Thrown)
    (now : Int) : injections (comeInbox ctx awaiting record rest failures now).2.2 = [] := by
  unfold comeInbox
  split
  · rfl
  · split_ifs
    · rfl
    · exact injections_follow _ _

theorem resume_injections {outcome : Outcome} (hres : resume ctx outbound rows awaiting task input = some outcome) :
    ∀ id ∈ injections outcome.output, ∃ record ∈ task.holds, record.attention.obligationId = id := by
  intro id hmem
  unfold resume at hres
  split at hres
  case h_2 =>
    obtain ⟨worked, hwk, rfl⟩ := map_eq_some_iff.mp hres
    rw [injections_append, injections_follow, append_nil] at hmem
    obtain ⟨record, hrec, hid⟩ := workStep_injections hwk id hmem
    exact ⟨record, mem_append_left _ hrec, hid⟩
  case h_4 =>
    cases hres
    rw [comeInbox_injections] at hmem
    cases hmem
  case h_10 =>
    obtain ⟨next, hloop, rfl⟩ := map_eq_some_iff.mp hres
    rw [loopStep_injections hloop] at hmem
    cases hmem
  all_goals
    cases hres
    cases hmem

theorem advance_of_injection {t : Transition OnlyneClient Act} {id : String} (hmem : id ∈ injections (outputs ctx t)) :
    ∃ call input task outcome, t.act = .advance call input ∧ t.before.calls.get call = some task ∧
      resume ctx t.before.outbox.rows t.before.rows t.before.awaiting task input = some outcome ∧
      id ∈ injections outcome.output := by
  obtain ⟨s, a, s'⟩ := t
  cases a with
  | advance call input =>
    cases htask : s.calls.get call with
    | none => simp [outputs, clientAct, htask] at hmem
    | some task =>
      cases hres : resume ctx s.outbox.rows s.rows s.awaiting task input with
      | none => simp [outputs, clientAct, htask, hres] at hmem
      | some outcome =>
        refine ⟨call, input, task, outcome, rfl, htask, hres, ?_⟩
        simpa [outputs, clientAct, htask, hres] using hmem
  | out act =>
    cases hout : outAct ctx s.outbox act <;> cases act <;> simp [outputs, clientAct, hout] at hmem
  | receive =>
    simp only [outputs, clientAct] at hmem
    split_ifs at hmem <;> cases hmem
  | confirm | reconcile | maintain | admitted | revised | crash => cases hmem

end Calls

/-- Take any rows under their obligations and no call in flight, and any run in which no act marks a row as
injected that a call in flight takes for open.  Then `runtime.inject` is never called for a row that records a
completed injection at that moment. -/
theorem no_second_injection (ctx : Context) {start s : OnlyneClient} {h : List (Transition OnlyneClient Act)}
    (hkeyed : Keyed start.rows) (hidle : start.calls = ∅) (hrun : Run (clientStep ctx) start h s)
    (hquiet : ∀ t ∈ h, undisturbed t = true) :
    ∀ t ∈ h, ∀ id ∈ injections (outputs ctx t), ∀ row, t.before.rows.inbox.get id = some row →
      row.injected = false := by
  intro t ht id hid row hrow
  have hstart : Fresh start := by
    refine ⟨hkeyed, fun call task htask => ?_⟩
    rw [hidle] at htask
    cases htask
  have hfr : Fresh t.before := hrun.before_of hquiet hstart (fun _ _ _ hfr hstep hquiet => hfr.kept hstep hquiet) ht
  obtain ⟨call, input, task, outcome, -, htask, hres, hcalled⟩ := advance_of_injection hid
  obtain ⟨record, hrec, rfl⟩ := resume_injections hres id hcalled
  obtain ⟨row', hrow', hopen⟩ := hfr.isOpen call task htask record hrec
  rw [hrow] at hrow'
  cases hrow'
  exact hopen

/-- A runtime binding hands the entry over, and it is acknowledged. -/
def Scenario.landing (context : Option String) : List Act :=
  [.receive entry "o" context, .advance 0 go, .advance 0 go, .advance 0 .done, .advance 0 go]

open Scenario in
/-- An entry that is handed over is injected once and its consumption confirmed. -/
theorem no_second_injection_received :
    ∃ h s, Run (clientStep ann) {} h s ∧ (h.flatMap fun t => injections (outputs ann t)) = ["o"] ∧
      (∃ row, s.rows.inbox.get "o" = some row ∧ row.injected = true) ∧
      ∀ t ∈ h, ∀ id ∈ injections (outputs ann t), ∀ row, t.before.rows.inbox.get id = some row →
        row.injected = false := by
  obtain ⟨h, s, hrun, honce, hrow, hq⟩ := exists_run (clientStep ann) {}
    (landing none ++ [.advance 0 go, .advance 0 go, .advance 0 go, .advance 0 (.injected "ann" true 0), .advance 0 go])
    (fun h s => (h.flatMap fun t => injections (outputs ann t)) = ["o"] ∧
      (∃ row ∈ s.rows.inbox.get "o", row.injected = true) ∧ ∀ t ∈ h, undisturbed t = true)
    (by decide +kernel)
  have hkey : Keyed ({} : OnlyneClient).rows := fun id row hrow => by cases hrow
  exact ⟨h, s, hrun, honce, hrow, no_second_injection ann hkey rfl hrun hq⟩

open Scenario in
/-- While an entry that landed in one context is on its way to the host, the host confirms its consumption in
another: the row records the injection, and the entry is injected nevertheless. -/
theorem confirmed_elsewhere_injected_again :
    ∃ h s, Run (clientStep ann) {} h s ∧ ∃ t ∈ h, ∃ id ∈ injections (outputs ann t),
      ∃ row, t.before.rows.inbox.get id = some row ∧ row.injected = true := by
  exact exists_run _ _
    (landing (some "a") ++ [.confirm entry (some "b") .toolResult 0, .advance 1 go, .advance 0 go, .advance 0 go,
      .advance 0 go])
    _ (by decide +kernel)

end Onlyne.Client
