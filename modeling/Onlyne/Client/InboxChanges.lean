import Onlyne.Client.Node

/-!
# Client: what an act does to the inbound rows

One inversion for the handling of an entry, one for a call, one for the client: every act makes at most one of
the transactions of the inbound half, and which one is decided by where the call stands.  Invariants of the rows
are proved for these transactions.
-/

namespace Onlyne.Client

open Foundation Table Option
open Messages (Message MessageRef ThreadRef Entry Attention)

inductive InboxChange (ctx : Context) (rows : InboundRows) : InboundRows → Prop where
  | kept : InboxChange ctx rows rows
  | received (entry : Entry) (id : String) (context : Option String) :
      InboxChange ctx rows (receiveTx ctx entry id context rows).2
  | stored (ref : ThreadRef) (attention : Attention) : InboxChange ctx rows (storeTx ctx ref attention rows).2
  | acked (id : String) : InboxChange ctx rows (ackTx id rows)
  | checkFailed (id : String) : InboxChange ctx rows (checkFailedTx id rows)
  | settled (id : String) (settlement : AttentionSettlement) :
      InboxChange ctx rows (settleTx id settlement rows).2
  | confirmed (entry : Entry) (context : Option String) (via : Via) (now : Int) :
      InboxChange ctx rows (confirmTx ctx entry context via now rows).2
  | todoDone (entry : Entry) (context : String) : InboxChange ctx rows (todoDoneTx entry context rows)
  | answered (peer : NodeId) (now : Int) : InboxChange ctx rows (peerAnsweredTx peer now rows)
  | cleared (ref : ThreadRef) : InboxChange ctx rows { rows with backoff := rows.backoff.delete ref }
  | reported (ref : ThreadRef) (failure : Failure) (now : Int) :
      InboxChange ctx rows (reportTx ref failure now rows)
  | admitted (attention : Attention) (context : Option String) :
      InboxChange ctx rows (admittedTx attention context rows)
  | revised (attention : Attention) : InboxChange ctx rows (revisedTx attention rows)

/-- The transaction a step of the handling of an entry makes. -/
inductive WorkWrites (ctx : Context) (rows : InboundRows) : Work → InboundRows → Prop where
  | received (entry : Entry) (id : String) (context : Option String) :
      WorkWrites ctx rows (.receiving entry id context) (receiveTx ctx entry id context rows).2
  | stored (ref : ThreadRef) (attention : Attention) :
      WorkWrites ctx rows (.storing ref attention) (storeTx ctx ref attention rows).2
  | acked (arrival : Arrival) : WorkWrites ctx rows (.ackRecord arrival) (ackTx arrival.obligationId rows)
  | checkFailed (record : LocalAttention) (thrown : Thrown) :
      WorkWrites ctx rows (.checkFailed record thrown) (checkFailedTx record.attention.obligationId rows)
  | settled (entry : Entry) (record : LocalAttention) (settlement : AttentionSettlement) :
      WorkWrites ctx rows (.settling entry record settlement)
        (settleTx record.attention.obligationId settlement rows).2
  | confirmed (entry : Entry) (context : Option String) (via : Via) (begun : Int) :
      WorkWrites ctx rows (.confirming entry context via begun) (confirmTx ctx entry context via begun rows).2
  | todoDone (entry : Entry) (context : String) :
      WorkWrites ctx rows (.todoDone entry context) (todoDoneTx entry context rows)

inductive TaskWrites (ctx : Context) (rows : InboundRows) : Task → Input → InboundRows → Prop where
  | kept (task : Task) (input : Input) : TaskWrites ctx rows task input rows
  | work {work rows'} (after : After) (now : Int) (notify : Option Thrown)
      (writes : WorkWrites ctx rows work rows') : TaskWrites ctx rows (.work work after) (.go now notify) rows'
  | answered (peer : NodeId) (caught : Bool) (rest : List NodeId) (now : Int) (notify : Option Thrown) :
      TaskWrites ctx rows (.answering peer caught rest) (.go now notify) (peerAnsweredTx peer now rows)
  | cleared (pull : Pull) (now : Int) (notify : Option Thrown) :
      TaskWrites ctx rows (.clearing pull) (.go now notify) { rows with backoff := rows.backoff.delete pull.ref }
  | reported (pull : Pull) (thrown : Thrown) (now : Int) (notify : Option Thrown) :
      TaskWrites ctx rows (.reporting pull thrown) (.go now notify)
        (reportTx pull.ref (failureOf thrown) now rows)

inductive ActWrites (ctx : Context) (s : OnlyneClient) : Act → InboundRows → Prop where
  | kept (a : Act) : ActWrites ctx s a s.rows
  | advanced {call input task rows'}
      (stands : s.calls.get call = some task) (writes : TaskWrites ctx s.rows task input rows') :
      ActWrites ctx s (.advance call input) rows'
  | admitted (attention : Attention) (context : Option String) :
      ActWrites ctx s (.admitted attention context) (admittedTx attention context s.rows)
  | revised (attention : Attention) : ActWrites ctx s (.revised attention) (revisedTx attention s.rows)

inductive RowWrites (ctx : Context) : Work → String → Option LocalAttention → Option LocalAttention → Prop where
  | kept (work : Work) (id : String) (row : Option LocalAttention) : RowWrites ctx work id row row
  | received (entry : Entry) (id : String) (context : Option String) :
      RowWrites ctx (.receiving entry id context) id none
        (some { attention := attentionOf entry id ctx.node, context := context })
  | stored (ref : ThreadRef) (attention : Attention) (previous : Option LocalAttention)
      (attested : attest ctx attention ref.owner (previous.bind fun row => row.attention.entry) = true) :
      RowWrites ctx (.storing ref attention) (obligationIdOf ctx ref attention) previous
        (some (merged previous (obligationIdOf ctx ref attention) attention))
  | acked (arrival : Arrival) (row : LocalAttention) :
      RowWrites ctx (.ackRecord arrival) arrival.obligationId (some row)
        (some { row with attention := { row.attention with acked := true } })
  | checkFailed (record : LocalAttention) (thrown : Thrown) (row : LocalAttention) (failures : Option Nat) :
      RowWrites ctx (.checkFailed record thrown) record.attention.obligationId (some row)
        (some { row with resourceCheckFailures := failures })
  | settled (entry : Entry) (record : LocalAttention) (settlement : AttentionSettlement) (row : LocalAttention)
      (isOpen : row.injected = false) :
      RowWrites ctx (.settling entry record settlement) record.attention.obligationId (some row)
        (some { row with injected := true, settlement := some settlement })
  | confirmed (entry : Entry) (context : Option String) (via : Via) (begun : Int) (id : String)
      (row : LocalAttention) :
      RowWrites ctx (.confirming entry context via begun) id (some row) (some (row.confirmed entry context))

inductive ActRow (ctx : Context) (s : OnlyneClient) (id : String) :
    Act → Option LocalAttention → Option LocalAttention → Prop where
  | kept (a : Act) (row : Option LocalAttention) : ActRow ctx s id a row row
  | handled {call now notify work after row row'} (stands : s.calls.get call = some (.work work after))
      (writes : RowWrites ctx work id row row') : ActRow ctx s id (.advance call (.go now notify)) row row'
  | admitted (attention : Attention) (context : Option String) (named : attention.obligationId = id) :
      ActRow ctx s id (.admitted attention context) none (some { attention := attention, context := context })
  | revised (attention : Attention) (row : LocalAttention) (named : attention.obligationId = id) :
      ActRow ctx s id (.revised attention) (some row) (some { row with attention := attention })

section Steps

variable {ctx : Context} {outbound : OutboundRows} {rows : InboundRows} {awaiting : AwaitedReplies}
  {task : Task}

/-! ## One act, one transaction -/

variable {work : Work} {input : Input} {rows' : InboundRows} {s s' : OnlyneClient} {a : Act}

theorem workStep_writes {worked : Worked} (hstep : workStep ctx outbound rows awaiting work input = some worked) :
    worked.rows = rows ∨ (∃ now notify, input = .go now notify) ∧ WorkWrites ctx rows work worked.rows := by
  unfold workStep at hstep
  split at hstep <;> cases hstep
  case h_1 => exact .inr ⟨⟨_, _, rfl⟩, .received _ _ _⟩
  case h_2 => exact .inr ⟨⟨_, _, rfl⟩, .stored _ _⟩
  case h_6 => exact .inr ⟨⟨_, _, rfl⟩, .acked _⟩
  case h_10 => exact .inr ⟨⟨_, _, rfl⟩, .checkFailed _ _⟩
  case h_11 => exact .inr ⟨⟨_, _, rfl⟩, .settled _ _ _⟩
  case h_18 => exact .inr ⟨⟨_, _, rfl⟩, .confirmed _ _ _ _⟩
  case h_23 => exact .inr ⟨⟨_, _, rfl⟩, .todoDone _ _⟩
  all_goals left
  all_goals first
    | rfl
    | (simp only [land, present, afterConfirm, afterSettle, notifying]
       repeat' split
       all_goals rfl)

theorem resume_writes {outcome : Outcome} (hres : resume ctx outbound rows awaiting task input = some outcome) :
    TaskWrites ctx rows task input outcome.rows := by
  unfold resume at hres
  split at hres
  case h_2 =>
    obtain ⟨worked, hwk, rfl⟩ := map_eq_some_iff.mp hres
    rcases workStep_writes hwk with hkept | ⟨⟨now, notify, rfl⟩, hwr⟩
    · simp only [hkept]
      exact .kept _ _
    · exact .work _ now notify hwr
  case h_3 =>
    cases hres
    exact .answered _ _ _ _ _
  case h_5 =>
    cases hres
    exact .cleared _ _ _
  case h_6 =>
    cases hres
    exact .reported _ _ _ _
  case h_10 =>
    obtain ⟨next, -, rfl⟩ := map_eq_some_iff.mp hres
    exact .kept _ _
  all_goals
    cases hres
    exact .kept _ _

theorem WorkWrites.change (h : WorkWrites ctx rows work rows') : InboxChange ctx rows rows' := by
  cases h <;> constructor

theorem TaskWrites.change (h : TaskWrites ctx rows task input rows') : InboxChange ctx rows rows' := by
  cases h with
  | work _ _ _ hwr => exact hwr.change
  | _ => constructor

theorem clientStep_writes (hstep : clientStep ctx s a = some s') : ActWrites ctx s a s'.rows := by
  cases a with
  | out =>
    obtain ⟨next, -, rfl⟩ := outAct_of_out hstep
    rw [(spawn_waits _ _).2]
    exact .kept _
  | receive =>
    simp only [clientStep, clientAct] at hstep
    split_ifs at hstep <;> cases hstep <;> exact .kept _
  | advance =>
    obtain ⟨task, outcome, htask, hres, rfl⟩ := resume_of_advance hstep
    exact .advanced htask (resume_writes hres)
  | admitted =>
    cases hstep
    exact .admitted _ _
  | revised =>
    cases hstep
    exact .revised _
  | confirm | reconcile | maintain | crash =>
    cases hstep
    exact .kept _

theorem clientStep_change (hstep : clientStep ctx s a = some s') : InboxChange ctx s.rows s'.rows := by
  have hwr := clientStep_writes hstep
  generalize s'.rows = rows' at hwr ⊢
  cases hwr with
  | kept => exact .kept
  | advanced _ hwr => exact hwr.change
  | admitted => exact .admitted _ _
  | revised => exact .revised _

theorem WorkWrites.frame (hwr : WorkWrites ctx rows work rows') : (∃ inbox, rows' = { rows with inbox := inbox }) ∨
      (∃ entry context via begun, work = .confirming entry context via begun ∧
        rows' = (confirmTx ctx entry context via begun rows).2) ∨
      ∃ entry context, work = .todoDone entry context ∧ rows' = todoDoneTx entry context rows := by
  cases hwr with
  | confirmed => exact .inr (.inl ⟨_, _, _, _, rfl, rfl⟩)
  | todoDone => exact .inr (.inr ⟨_, _, rfl, rfl⟩)
  | _ =>
    left
    simp only [receiveTx, storeTx, ackTx, checkFailedTx, settleTx]
    repeat' split
    all_goals exact ⟨_, rfl⟩

/-! ## One row -/

theorem rowWrites_of_put {id : String} {row : LocalAttention} (hinbox : rows'.inbox = rows.inbox.put id row)
    (hrow : RowWrites ctx work id (rows.inbox.get id) (some row)) (id' : String) :
    RowWrites ctx work id' (rows.inbox.get id') (rows'.inbox.get id') := by
  rw [hinbox]
  by_cases hid : id' = id
  · subst hid
    rwa [get_put_self]
  · rw [get_put_ne _ _ hid]
    exact .kept _ _ _

theorem WorkWrites.row (hwr : WorkWrites ctx rows work rows') (id : String) :
    RowWrites ctx work id (rows.inbox.get id) (rows'.inbox.get id) := by
  cases hwr with
  | received entry named context =>
    unfold receiveTx
    split
    · exact .kept _ _ _
    · next hnone =>
      refine rowWrites_of_put rfl ?_ id
      rw [hnone]
      exact .received entry named context
  | stored ref attention =>
    simp only [storeTx]
    split_ifs with hatt
    · exact .kept _ _ _
    · exact rowWrites_of_put rfl (.stored ref attention _ hatt) id
    · exact .kept _ _ _
  | acked | checkFailed | settled =>
    simp only [ackTx, checkFailedTx, settleTx]
    repeat' split
    all_goals first
      | exact .kept _ _ _
      | (refine rowWrites_of_put rfl ?_ id
         rw [‹rows.inbox.get _ = _›]
         constructor <;> exact Bool.eq_false_of_not_eq_true ‹_›)
  | confirmed entry context via begun =>
    unfold confirmTx
    split
    · exact .kept _ _ _
    · simp only [get_mapValues]
      cases rows.inbox.get id with
      | none => exact .kept _ _ _
      | some row => exact .confirmed entry context via begun id row
  | todoDone =>
    unfold todoDoneTx
    split <;> exact .kept _ _ _

theorem clientStep_row (hstep : clientStep ctx s a = some s') (id : String) :
    ActRow ctx s id a (s.rows.inbox.get id) (s'.rows.inbox.get id) := by
  have hwr := clientStep_writes hstep
  generalize s'.rows = rows' at hwr ⊢
  cases hwr with
  | kept => exact .kept _ _
  | advanced htask hwr =>
    cases hwr with
    | work _ _ _ hwork => exact .handled htask (hwork.row id)
    | kept | answered | cleared | reported => exact .kept _ _
  | admitted attention context =>
    unfold admittedTx
    split_ifs with hsome
    · exact .kept _ _
    · by_cases hid : id = attention.obligationId
      · subst hid
        rw [get_put_self, not_isSome_iff_eq_none.mp hsome]
        exact .admitted attention context rfl
      · rw [get_put_ne _ _ hid]
        exact .kept _ _
  | revised attention =>
    unfold revisedTx
    split
    · next current hcur =>
      by_cases hid : id = attention.obligationId
      · subst hid
        rw [get_put_self, hcur]
        exact .revised attention current rfl
      · rw [get_put_ne _ _ hid]
        exact .kept _ _
    · exact .kept _ _

end Steps

end Onlyne.Client
