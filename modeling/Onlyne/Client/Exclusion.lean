import Onlyne.Client.InFlight

/-!
# Client: settlement and consumption

An entry leaves the inbox in one of two ways: its consumption is confirmed, or its delivery is settled because the
resource it is about went elsewhere.  The two are written by different calls, in different transactions and under
different keys: a settlement under the obligation, a consumption and its todo under a context and the place of the
entry in its thread.  The mark of an injection is what both look at.
-/

namespace Onlyne.Client

open Foundation Table List Option
open Messages (Message MessageRef ThreadRef Entry Attention)

/-! ## Rows and entries -/

def LocalAttention.place (row : LocalAttention) : ThreadRef × Nat := (row.attention.threadRef, row.attention.seq)

def LocalAttention.slotIn (row : LocalAttention) (context : String) : ContextSlot :=
  ⟨context, row.attention.threadRef, row.attention.seq⟩

def inInbox (rows : InboundRows) (entry : Entry) : Bool := rows.scanInbox.any fun row => row.isOf entry

def spent (rows : InboundRows) (slot : ContextSlot) : Bool :=
  ((rows.consumed.get slot).any fun record => record.confirmed) || (rows.todo.get slot).isSome

/-- Each entry has one row: no two rows are of one entry, and a row stays the row of its entry. -/
def oneRow (t : Transition OnlyneClient Act) : Bool :=
  (t.after.rows.inbox.rows.all fun row => t.after.rows.inbox.rows.all fun row' =>
    row.2.place ≠ row'.2.place || row.1 = row'.1) &&
  t.before.rows.inbox.rows.all fun row => (t.after.rows.inbox.get row.1).all fun row' => row'.place = row.2.place

/-- The entries that are handled are entries of the inbox: the host confirms no other, an entry that is handed
over is handed over under its own row, and the message service of the node writes the obligations of its entries
and does not take a body back meanwhile. -/
def withinInbox (t : Transition OnlyneClient Act) : Bool :=
  match t.act with
  | .confirm entry _ _ _ => inInbox t.before.rows entry
  | .advance call (.go _ _) =>
    match t.before.calls.get call with
    | some (.work (.receiving entry _ _) _) => inInbox t.after.rows entry
    | _ => true
  | .admitted attention _ => soundAttention attention
  | .revised attention =>
    soundAttention attention &&
      (t.before.rows.inbox.get attention.obligationId).all fun row =>
        row.attention.entry.isNone || attention.entry.isSome
  | _ => true

theorem inInbox_iff {rows : InboundRows} {entry : Entry} :
    inInbox rows entry = true ↔ ∃ id row, rows.inbox.get id = some row ∧ row.isOf entry = true := by
  rw [inInbox, List.any_eq_true]
  constructor
  · rintro ⟨row, hrow, hof⟩
    obtain ⟨id, hget⟩ := mem_scanInbox.mp hrow
    exact ⟨id, row, hget, hof⟩
  · rintro ⟨id, row, hget, hof⟩
    exact ⟨row, mem_scanInbox.mpr ⟨id, hget⟩, hof⟩

theorem place_of_oneRow {t : Transition OnlyneClient Act} (hone : oneRow t = true) {id : String}
    {row row' : LocalAttention} (hbef : t.before.rows.inbox.get id = some row)
    (haft : t.after.rows.inbox.get id = some row') : row'.place = row.place := by
  have hstays := List.all_eq_true.mp (Bool.and_eq_true_iff.mp hone).2 (id, row) (mem_rows.mpr hbef)
  simpa [haft] using hstays

theorem id_of_oneRow {t : Transition OnlyneClient Act} (hone : oneRow t = true) {id id' : String}
    {row row' : LocalAttention} (hrow : t.after.rows.inbox.get id = some row)
    (hrow' : t.after.rows.inbox.get id' = some row') (hplace : row.place = row'.place) : id = id' := by
  have hdist := List.all_eq_true.mp (Bool.and_eq_true_iff.mp hone).1 (id, row) (mem_rows.mpr hrow)
  have hpair := List.all_eq_true.mp hdist (id', row') (mem_rows.mpr hrow')
  simpa [hplace] using hpair

/-! ## What no transaction takes back -/

structure MarksKept (row row' : LocalAttention) : Prop where
  marked : row.injected = true → row'.injected = true ∧ row'.settlement = row.settlement
  body : row.attention.entry.isSome = true → row'.attention.entry.isSome = true

def RowsKept (rows rows' : InboundRows) : Prop :=
  ∀ id row, rows.inbox.get id = some row → ∃ row', rows'.inbox.get id = some row' ∧ MarksKept row row'

section Rows

variable {ctx : Context} {rows rows' : InboundRows} {context : Option String} {row : LocalAttention}
  {work : Work}

theorem MarksKept.refl (row : LocalAttention) : MarksKept row row := ⟨fun hmark => ⟨hmark, rfl⟩, fun hbody => hbody⟩

theorem RowWrites.rowKept {id : String} {row' : Option LocalAttention}
    (hwr : RowWrites ctx work id (some row) row') : ∃ new, row' = some new ∧ MarksKept row new := by
  cases hwr with
  | kept => exact ⟨row, rfl, .refl row⟩
  | stored =>
    refine ⟨_, rfl, fun hmark => ⟨hmark, rfl⟩, fun hbody => ?_⟩
    simp only [merged, bind_some, isSome_or, hbody, Bool.or_true]
  | acked | checkFailed => exact ⟨_, rfl, fun hmark => ⟨hmark, rfl⟩, fun hbody => hbody⟩
  | settled _ _ _ _ hopen =>
    refine ⟨_, rfl, fun hmark => ?_, fun hbody => hbody⟩
    rw [hopen] at hmark
    cases hmark
  | confirmed =>
    refine ⟨_, rfl, ?_⟩
    unfold LocalAttention.confirmed
    split_ifs
    · exact ⟨fun _ => ⟨rfl, rfl⟩, fun hbody => hbody⟩
    · exact .refl row

theorem clientStep_rowsKept {s s' : OnlyneClient} {a : Act} (hstep : clientStep ctx s a = some s')
    (hin : withinInbox ⟨s, a, s'⟩ = true) : RowsKept s.rows s'.rows := by
  intro id row hrow
  have hact := clientStep_row hstep id
  rw [hrow] at hact
  generalize s'.rows.inbox.get id = row' at hact ⊢
  cases hact with
  | kept => exact ⟨row, rfl, .refl row⟩
  | handled _ hwr => exact hwr.rowKept
  | revised attention _ hnamed =>
    subst hnamed
    refine ⟨_, rfl, fun hmark => ⟨hmark, rfl⟩, fun hbody => ?_⟩
    simpa [withinInbox, hrow, isSome_iff_ne_none.mp hbody] using (Bool.and_eq_true_iff.mp hin).2

/-! ## What a confirmation writes -/

variable {entry : Entry} {slot : ContextSlot}

theorem confirmTx_spent {via : Via} {begun : Int}
    (hsp : spent (confirmTx ctx entry context via begun rows).2 slot = true) : spent rows slot = true ∨
      ∃ place, consumedIn ctx entry context rows = some place ∧ slot = contextSlot place entry := by
  unfold confirmTx at hsp
  split at hsp
  · exact .inl hsp
  · next place hplace =>
    by_cases hslot : slot = contextSlot place entry
    · exact .inr ⟨place, hplace, hslot⟩
    · left
      have hcons : (if alreadyConsumed entry place rows then rows.consumed
          else rows.consumed.put (contextSlot place entry) ⟨true, via, begun⟩).get slot = rows.consumed.get slot := by
        split_ifs
        · rfl
        · exact get_put_ne _ _ hslot
      have htodo : (oweTodo ctx entry place rows.todo).get slot = rows.todo.get slot := by
        unfold oweTodo
        split_ifs
        · exact get_put_ne _ _ hslot
        · rfl
      simpa only [spent, hcons, htodo] using hsp

theorem todoDoneTx_spent {context : String} (hsp : spent (todoDoneTx entry context rows) slot = true) :
    spent rows slot = true := by
  unfold todoDoneTx at hsp
  split at hsp
  · next current hcur =>
    by_cases hslot : slot = contextSlot context entry
    · simp [spent, hslot, hcur]
    · simpa only [spent, get_put_ne _ _ hslot] using hsp
  · exact hsp

theorem WorkWrites.spent (hwr : WorkWrites ctx rows work rows')
    (hsp : spent rows' slot = true) : Client.spent rows slot = true ∨ ∃ entry context via begun place,
      work = .confirming entry context via begun ∧ rows' = (confirmTx ctx entry context via begun rows).2 ∧
      consumedIn ctx entry context rows = some place ∧ slot = contextSlot place entry := by
  rcases hwr.frame with ⟨inbox, rfl⟩ | ⟨entry, context, via, begun, rfl, rfl⟩ | ⟨entry, context, rfl, rfl⟩
  · exact .inl hsp
  · refine (confirmTx_spent hsp).imp_right ?_
    rintro ⟨place, hplace, hslot⟩
    exact ⟨entry, context, via, begun, place, rfl, rfl, hplace, hslot⟩
  · exact .inl (todoDoneTx_spent hsp)

theorem exists_unsettled {place : String}
    (hplace : consumedIn ctx entry context rows = some place) (hin : inInbox rows entry = true) :
    ∃ id row, rows.inbox.get id = some row ∧ row.isOf entry = true ∧ row.settlement = none := by
  obtain ⟨id, row, hrow, hof⟩ := inInbox_iff.mp hin
  have hfnd : row ∈ rows.scanInbox.filter fun row => row.isOf entry :=
    mem_filter.mpr ⟨mem_scanInbox.mpr ⟨id, hrow⟩, hof⟩
  simp only [consumedIn] at hplace
  split_ifs at hplace with hall
  have hsome : ((rows.scanInbox.filter fun row => row.isOf entry).filter fun row => row.settlement.isNone) ≠ [] := by
    intro hnone
    apply hall
    simp [hnone, ne_nil_of_mem hfnd]
  obtain ⟨free, hfree⟩ := exists_mem_of_ne_nil _ hsome
  obtain ⟨hmem, hunsettled⟩ := mem_filter.mp hfree
  obtain ⟨hscan, hfreeOf⟩ := mem_filter.mp hmem
  obtain ⟨id', hget⟩ := mem_scanInbox.mp hscan
  exact ⟨id', free, hget, hfreeOf, isNone_iff_eq_none.mp hunsettled⟩

theorem confirmed_marked (hof : row.isOf entry = true) (hfree : row.settlement = none) (context : Option String) :
    (row.confirmed entry context).injected = true ∧ (row.confirmed entry context).settlement = none := by
  unfold LocalAttention.confirmed
  split_ifs with hopen
  · exact ⟨rfl, hfree⟩
  · refine ⟨?_, hfree⟩
    simpa [hof, hfree] using hopen

end Rows

/-! ## The invariant -/

/-- A call that is about to store an entry it was handed. -/
def Task.receives (entry : Entry) : Task → Prop
  | .work (.receiving handed _ _) .caller => handed = entry
  | _ => False

/-- Every entry a call carries has a row, and the row of an entry that is spent in some context is injected and
not settled. -/
structure Exclusive (s : OnlyneClient) : Prop where
  sound : Sound s.rows
  carried : ∀ call task, s.calls.get call = some task → ∀ entry ∈ task.entries,
    task.receives entry ∨ inInbox s.rows entry = true
  marked : ∀ slot, spent s.rows slot = true → ∃ id row, s.rows.inbox.get id = some row ∧
    row.slotIn slot.context = slot ∧ row.injected = true ∧ row.settlement = none

section Steps

variable {ctx : Context} {s s' : OnlyneClient} {a : Act} {row : LocalAttention} {entry : Entry}
  {context : Option String} {rows : InboundRows} {id : String} {begun : Int} {call : Nat} {via : Via}

theorem slotIn_of_isOf (hsnd : soundAttention row.attention = true) (hof : row.isOf entry = true)
    (context : String) : row.slotIn context = contextSlot context entry := by
  obtain ⟨held, hheld, hsame⟩ := (Option.any_eq_true _ _).mp hof
  obtain ⟨hthr, hseq⟩ := soundAttention_iff.mp hsnd held hheld
  simp only [Bool.and_eq_true, decide_eq_true_eq] at hsame
  rw [LocalAttention.slotIn, contextSlot, ← hthr, ← hseq, hsame.1, hsame.2]

theorem inInbox_kept (hsnd : Sound s.rows) (hsnd' : Sound s'.rows) (hkept : RowsKept s.rows s'.rows)
    (hone : oneRow ⟨s, a, s'⟩ = true) (hin : inInbox s.rows entry = true) : inInbox s'.rows entry = true := by
  obtain ⟨id, row, hrow, hof⟩ := inInbox_iff.mp hin
  obtain ⟨row', hrow', hkept⟩ := hkept id row hrow
  have hbody : row.attention.entry.isSome = true := by
    obtain ⟨held, hheld, -⟩ := (Option.any_eq_true _ _).mp hof
    exact isSome_iff_exists.mpr ⟨held, hheld⟩
  obtain ⟨held', hheld'⟩ := isSome_iff_exists.mp (hkept.body hbody)
  have hplace : row'.place = row.place := place_of_oneRow hone hrow hrow'
  have hslot := slotIn_of_isOf (hsnd id row hrow) hof ""
  obtain ⟨hthr', hseq'⟩ := soundAttention_iff.mp (hsnd' id row' hrow') held' hheld'
  refine inInbox_iff.mpr ⟨id, row', hrow', ?_⟩
  simp only [LocalAttention.place, Prod.mk.injEq] at hplace
  simp only [LocalAttention.slotIn, contextSlot, ContextSlot.mk.injEq, true_and] at hslot
  simp only [LocalAttention.isOf, hheld', any_some, Bool.and_eq_true, decide_eq_true_eq]
  exact ⟨by rw [hthr', hplace.1, hslot.1], by rw [hseq', hplace.2, hslot.2]⟩

theorem inInbox_of_body (hrow : rows.inbox.get id = some row)
    (hbody : row.attention.entry = some entry) : inInbox rows entry = true :=
  inInbox_iff.mpr ⟨id, row, hrow, by simp [LocalAttention.isOf, hbody]⟩

theorem receives_of_resume {outbound : OutboundRows} {awaiting : AwaitedReplies}
    {task next : Task} {input : Input} {outcome : Outcome} (hrecv : task.receives entry)
    (hres : resume ctx outbound rows awaiting task input = some outcome) (hnext : outcome.task = some next) :
    (∃ id context, task = .work (.receiving entry id context) .caller) ∧ ∃ now notify, input = .go now notify := by
  unfold Task.receives at hrecv
  split at hrecv
  · subst hrecv
    refine ⟨⟨_, _, rfl⟩, ?_⟩
    cases input with
    | go now notify => exact ⟨now, notify, rfl⟩
    | lost | failed =>
      cases hres
      cases hnext
    | _ => cases hres
  · cases hrecv

section

variable (h : Exclusive s)
include h

theorem Exclusive.carries (hstep : clientStep ctx s a = some s') (hsnd' : Sound s'.rows)
    (hkept : RowsKept s.rows s'.rows) (hone : oneRow ⟨s, a, s'⟩ = true)
    (hwithin : withinInbox ⟨s, a, s'⟩ = true) {task : Task} (htask : s'.calls.get call = some task)
    (hmem : entry ∈ task.entries) : task.receives entry ∨ inInbox s'.rows entry = true := by
  have hstays {entry : Entry} (hin : inInbox s.rows entry = true) : inInbox s'.rows entry = true :=
    inInbox_kept h.sound hsnd' hkept hone hin
  rcases clientStep_call hstep htask with hold | hspawn | ⟨old, input, outcome, rfl, hold, hres, hnext, hrows⟩
  · exact (h.carried call task hold entry hmem).imp_right hstays
  · cases a with
    | receive =>
      cases hspawn
      exact .inl (mem_singleton.mp hmem).symm
    | confirm =>
      cases hspawn
      rw [mem_singleton.mp hmem]
      exact .inr (hstays hwithin)
    | reconcile | maintain =>
      cases hspawn
      cases hmem
    | out =>
      obtain ⟨record, rfl⟩ := hspawn
      cases hmem
    | admitted | revised | advance | crash => cases hspawn
  · right
    rcases resume_entries hres hnext hmem with hin | ⟨id, row, hrow, hbody⟩
    · rcases h.carried call old hold entry hin with hrecv | hin
      · obtain ⟨⟨id, context, rfl⟩, now, notify, rfl⟩ := receives_of_resume hrecv hres hnext
        simpa only [withinInbox, hold] using hwithin
      · exact hstays hin
    · rw [hrows] at hrow
      exact inInbox_of_body hrow hbody

theorem Exclusive.marks_kept (hkept : RowsKept s.rows s'.rows) (hone : oneRow ⟨s, a, s'⟩ = true)
    {slot : ContextSlot} (hsp : spent s.rows slot = true) :
    ∃ id row, s'.rows.inbox.get id = some row ∧ row.slotIn slot.context = slot ∧ row.injected = true ∧
      row.settlement = none := by
  obtain ⟨id, row, hrow, hslot, hinj, hfree⟩ := h.marked slot hsp
  obtain ⟨row', hrow', hkept⟩ := hkept id row hrow
  have hplace : row'.place = row.place := place_of_oneRow hone hrow hrow'
  obtain ⟨hinj', hset⟩ := hkept.marked hinj
  simp only [LocalAttention.place, Prod.mk.injEq] at hplace
  refine ⟨id, row', hrow', ?_, hinj', by rw [hset, hfree]⟩
  rw [← hslot, LocalAttention.slotIn, LocalAttention.slotIn, hplace.1, hplace.2]

/-- The row of an entry whose consumption is being confirmed is marked by the transaction. -/
theorem Exclusive.marks_confirmed {place : String} (hin : inInbox s.rows entry = true)
    (hplace : consumedIn ctx entry context s.rows = some place) :
    ∃ id row, (confirmTx ctx entry context via begun s.rows).2.inbox.get id = some row ∧
      row.slotIn place = contextSlot place entry ∧ row.injected = true ∧ row.settlement = none := by
  obtain ⟨id, row, hrow, hof, hfree⟩ := exists_unsettled hplace hin
  obtain ⟨hinj, hset⟩ := confirmed_marked hof hfree context
  refine ⟨id, row.confirmed entry context, ?_, ?_, hinj, hset⟩
  · simp [confirmTx, hplace, hrow]
  · have hattn : (row.confirmed entry context).attention = row.attention := by
      unfold LocalAttention.confirmed
      split <;> rfl
    rw [LocalAttention.slotIn, hattn]
    exact slotIn_of_isOf (h.sound id row hrow) hof place

theorem Exclusive.confirming
    {after : After} (htask : s.calls.get call = some (.work (.confirming entry context via begun) after)) :
    inInbox s.rows entry = true := by
  have hmem : entry ∈ (Task.work (.confirming entry context via begun) after).entries :=
    mem_append_left _ (mem_singleton_self _)
  rcases h.carried call _ htask entry hmem with hrecv | hin
  · cases hrecv
  · exact hin

theorem Exclusive.kept (hstep : clientStep ctx s a = some s') (hone : oneRow ⟨s, a, s'⟩ = true)
    (hin : withinInbox ⟨s, a, s'⟩ = true) : Exclusive s' := by
  have hkept := clientStep_rowsKept hstep hin
  have hsnd' : Sound s'.rows := h.sound.kept hstep (by
    cases a with
    | admitted => exact hin
    | revised => exact (Bool.and_eq_true_iff.mp hin).1
    | _ => rfl)
  refine ⟨hsnd', fun call task htask entry hmem => h.carries hstep hsnd' hkept hone hin htask hmem, ?_⟩
  intro slot hsp
  have hstays (hsp : spent s.rows slot = true) := h.marks_kept hkept hone hsp
  have hwr := clientStep_writes hstep
  obtain ⟨outbox, rows', awaiting, calls, next⟩ := s'
  change ActWrites ctx s a rows' at hwr
  cases hwr with
  | kept => exact hstays hsp
  | advanced htask hwr =>
    cases hwr with
    | kept | answered | cleared | reported => exact hstays hsp
    | work after _ _ hwork =>
      rcases hwork.spent hsp with hold | ⟨entry, context, via, begun, place, rfl, rfl, hplace, rfl⟩
      · exact hstays hold
      · exact h.marks_confirmed (h.confirming htask) hplace
  | admitted =>
    apply hstays
    unfold admittedTx at hsp
    split_ifs at hsp <;> exact hsp
  | revised =>
    apply hstays
    unfold revisedTx at hsp
    split at hsp <;> exact hsp

end

theorem unsettled_of_marked (context : String) (hone : oneRow ⟨s, a, s'⟩ = true)
    (hrow : s'.rows.inbox.get id = some row)
    (hmark : ∃ id' row', s'.rows.inbox.get id' = some row' ∧ row'.slotIn context = row.slotIn context ∧
      row'.injected = true ∧ row'.settlement = none) : row.settlement = none := by
  obtain ⟨id', row', hrow', hslot, -, hfree⟩ := hmark
  have hplace : row.place = row'.place := by
    simp only [LocalAttention.slotIn, ContextSlot.mk.injEq, true_and] at hslot
    rw [LocalAttention.place, LocalAttention.place, hslot.1, hslot.2]
  obtain rfl := id_of_oneRow hone hrow hrow' hplace
  rw [hrow] at hrow'
  cases hrow'
  exact hfree

end Steps

/-- Take any run of a client that starts with an empty store, in which each entry has one row and the entries that
are handled are entries of the inbox.  Then no row carries a settlement whose entry is consumed or owes a todo in
any context, and no row whose entry is consumed gains a settlement. -/
theorem settled_never_consumed (ctx : Context) {s : OnlyneClient} {h : List (Transition OnlyneClient Act)}
    (hrun : Run (clientStep ctx) {} h s) (hone : ∀ t ∈ h, oneRow t = true)
    (hwithin : ∀ t ∈ h, withinInbox t = true) : ∀ t ∈ h,
      (∀ id row, t.after.rows.inbox.get id = some row → row.settlement.isSome = true →
        ∀ context, spent t.after.rows (row.slotIn context) = false) ∧
      ∀ id row row', t.before.rows.inbox.get id = some row → t.after.rows.inbox.get id = some row' →
        (∃ context, spent t.before.rows (row.slotIn context) = true) → row'.settlement = none := by
  intro t ht
  have hstep := hrun.step_of_mem ht
  have hstart : Exclusive {} := by
    refine ⟨fun id row hrow => ?_, fun call task htask => ?_, fun slot hsp => ?_⟩
    · cases hrow
    · cases htask
    · cases hsp
  have hbef : Exclusive t.before := hrun.before_of (C := fun t => oneRow t = true ∧ withinInbox t = true)
      (fun t ht => ⟨hone t ht, hwithin t ht⟩) hstart
      (fun _ _ _ hexcl hstep hC => hexcl.kept hstep hC.1 hC.2) ht
  have haft : Exclusive t.after := hbef.kept hstep (hone t ht) (hwithin t ht)
  constructor
  · intro id row hrow hset context
    by_contra hsp
    have hmark := haft.marked (row.slotIn context) (by simpa using hsp)
    rw [unsettled_of_marked context (hone t ht) hrow hmark] at hset
    cases hset
  · rintro id row row' hrow hrow' ⟨context, hsp⟩
    have hkept := clientStep_rowsKept hstep (hwithin t ht)
    have hmark := hbef.marks_kept hkept (hone t ht) hsp
    have hplace : row'.place = row.place := place_of_oneRow (hone t ht) hrow hrow'
    simp only [LocalAttention.place, Prod.mk.injEq] at hplace
    have hslot : row'.slotIn context = row.slotIn context := by
      rw [LocalAttention.slotIn, LocalAttention.slotIn, hplace.1, hplace.2]
    refine unsettled_of_marked context (hone t ht) hrow' ?_
    rw [hslot]
    exact hmark

def Scenario.handedOver : Entry :=
  { entry with
    seq := 1
    message := ⟨"n", "bob", "note", "hi", some {
      data := some (.object [("resource_ref", .object [("owner", .string "bob"), ("id", .string "r")])]) }⟩ }

open Scenario in
/-- One entry is injected and one settled while the other is on its way; the host confirms both. -/
theorem settled_never_consumed_two_entries : ∃ h s, Run (clientStep ann) {} h s ∧
      ((s.rows.inbox.get "p").any fun row => row.settlement.isSome) = true ∧
      spent s.rows (contextSlot "ann" entry) = true ∧ ∀ t ∈ h,
        (∀ id row, t.after.rows.inbox.get id = some row → row.settlement.isSome = true →
          ∀ context, spent t.after.rows (row.slotIn context) = false) ∧
        ∀ id row row', t.before.rows.inbox.get id = some row → t.after.rows.inbox.get id = some row' →
          (∃ context, spent t.before.rows (row.slotIn context) = true) → row'.settlement = none := by
  obtain ⟨h, s, hrun, hset, hsp, hone, hin⟩ := exists_run (clientStep ann) {}
    [.receive entry "o" none, .advance 0 go, .advance 0 go, .advance 0 .done, .advance 0 go, .advance 0 go,
      .advance 0 go, .advance 0 go, .receive handedOver "p" none, .advance 1 go, .advance 1 go, .advance 1 .done,
      .advance 1 go, .advance 1 go, .advance 1 (.described "carol" "1"), .advance 0 (.injected "ann" true 0),
      .advance 1 go, .advance 0 go, .confirm handedOver none .toolResult 0, .advance 2 go, .advance 2 go]
    (fun h s => ((s.rows.inbox.get "p").any fun row => row.settlement.isSome) = true ∧
      spent s.rows (contextSlot "ann" entry) = true ∧ (∀ t ∈ h, oneRow t = true) ∧ ∀ t ∈ h, withinInbox t = true)
    (by decide +kernel)
  exact ⟨h, s, hrun, hset, hsp, settled_never_consumed ann hrun hone hin⟩

end Onlyne.Client
