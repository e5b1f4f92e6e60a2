import Onlyne.Client.InboxChanges

/-!
# Client: what a call in flight carries

The handling of an entry carries the entry and the record it read through several transactions, and writes rows by
the obligation id of that record.  One inversion says where what it carries comes from: it was carried before the
step, or it is the row the step has just read or written.  The loops around it carry nothing but the queue of a
replay.
-/

namespace Onlyne.Client

open Foundation Table List Option
open Messages (Message MessageRef ThreadRef Entry Attention)

/-! ## What is carried -/

/-- The entry a stored row is handled with: the one handed over, or the body of the record. -/
def Arrival.body (arrival : Arrival) : Option Entry := arrival.entry.or arrival.record.attention.entry

/-- The obligations whose rows the handling of an entry may still write. -/
def Work.names : Work → List String
  | .receiving _ id _ => [id]
  | .arrived arrival | .acking arrival | .ackRecord arrival | .landed arrival =>
    [arrival.obligationId, arrival.record.attention.obligationId]
  | .describing _ record _ _ | .checkFailed record _ | .settling _ record _ | .relating _ record
  | .routing _ record _ | .checking _ record _ | .decided _ record _ _ => [record.attention.obligationId]
  | _ => []

def Work.starts : Work → Bool
  | .receiving _ _ _ | .storing _ _ => true
  | _ => false

def Work.entries : Work → List Entry
  | .receiving entry _ _ | .describing entry _ _ _ | .settling entry _ _ | .relating entry _
  | .routing entry _ _ | .checking entry _ _ | .decided entry _ _ _ | .injecting entry
  | .confirming entry _ _ _ => [entry]
  | .arrived arrival | .acking arrival | .ackRecord arrival | .landed arrival => arrival.body.toList
  | _ => []

/-- The record the handling of an entry takes for not injected, on its way to the host. -/
def Work.holds : Work → List LocalAttention
  | .arrived arrival | .acking arrival | .ackRecord arrival | .landed arrival =>
    [arrival.record].filter fun record => !record.injected
  | .describing _ record _ _ | .relating _ record | .routing _ record _ | .checking _ record _ => [record]
  | .decided _ record _ consumed => if consumed then [] else [record]
  | _ => []

def bodies (records : List LocalAttention) : List Entry := records.filterMap fun record => record.attention.entry

def After.entries : After → List Entry
  | .inbox rest _ => bodies rest
  | _ => []

def Task.entries : Task → List Entry
  | .work handling after => handling.entries ++ after.entries
  | .inbox rest _ => bodies rest
  | _ => []

/-- A call that carries no record and no entry: it reads a page of a thread, or a todo. -/
def Task.bare : Task → Bool
  | .work (.storing ref _) (.items _ _ pull) => ref = pull.ref
  | .work (.todoLook _ _) (.todos _ _) => true
  | .work _ _ | .inbox _ _ => false
  | _ => true

theorem Task.entries_of_bare {task : Task} (hbare : task.bare = true) : task.entries = [] := by
  unfold Task.bare at hbare
  split at hbare
  case h_1 => rfl
  case h_2 => rfl
  case h_3 => cases hbare
  case h_4 => cases hbare
  case h_5 hwork hinbox =>
    unfold Task.entries
    split
    · exact absurd rfl (hwork _ _)
    · exact absurd rfl (hinbox _ _)
    · rfl

section Steps

variable {ctx : Context} {outbound : OutboundRows} {rows : InboundRows} {awaiting : AwaitedReplies}
  {record : LocalAttention} {input : Input} {entry : Entry} {work : Work} {notify : Option Thrown}
  {flow : Flow} {now : Int}

theorem mem_scanInbox : record ∈ rows.scanInbox ↔ ∃ id, rows.inbox.get id = some record := by
  rw [InboundRows.scanInbox, List.mem_map]
  simp only [sortedBy, mem_insertionSort]
  constructor
  · rintro ⟨⟨id, row⟩, hrow, rfl⟩
    exact ⟨id, mem_rows.mp hrow⟩
  · rintro ⟨id, hrow⟩
    exact ⟨(id, record), mem_rows.mpr hrow, rfl⟩

theorem mem_queued : record ∈ rows.queued ↔ ∃ id, rows.inbox.get id = some record := by
  rw [InboundRows.queued, mem_insertionSort, mem_scanInbox]

/-! ## Loops -/

def bareAt : Option Task → Bool
  | none => true
  | some task => task.bare

theorem bareAt_pullFails (pull : Pull) (thrown : Thrown) : bareAt (pull.fails ctx thrown).1 = true := by
  unfold Pull.fails Round.fails
  repeat' split
  all_goals rfl

theorem loopStep_bare {task : Task} {next : Option Task × List Output}
    (hstep : loopStep ctx rows awaiting task input = some next) :
    bareAt next.1 = true ∨ ∃ failures, next.1 = some (.inbox rows.queued failures) := by
  unfold loopStep at hstep
  split at hstep
  case h_21 failures _ _ =>
    cases hstep
    exact .inr ⟨failures, rfl⟩
  case h_48 =>
    obtain ⟨entry, -, rfl⟩ := map_eq_some_iff.mp hstep
    exact .inl rfl
  case h_53 => cases hstep
  all_goals
    left
    cases hstep
  case h_49 _ record =>
    cases evidence record rows <;> rfl
  all_goals first
    | rfl
    | (simp only [listed, Round.fails, Round.come, Pull.fails, Pull.over, Pull.come, askFailed, deliverTodo]
       repeat' split
       all_goals first | rfl | simp [bareAt, Task.bare])

/-! ## Handling an entry -/

/-- The handling goes on with rows and entries of the given ones. -/
structure GoesOn (work : Work) (names : List String) (entries : List Entry) : Prop where
  begun : work.starts = false
  names : work.names ⊆ names
  entries : work.entries ⊆ entries

structure HandsOn (work : Work) (names : List String) (entries : List Entry) (records : List LocalAttention) :
    Prop extends GoesOn work names entries where
  holds : work.holds ⊆ records

/-- `#consume` goes on with the entry and the record it was given. -/
theorem route_carries {related : Option StoredOutbound} (hflow : route ctx awaiting entry record related = .next work) :
    HandsOn work [record.attention.obligationId] [entry] [record] := by
  unfold route at hflow
  split_ifs at hflow
  cases hflow
  exact ⟨⟨rfl, List.Subset.refl _, List.Subset.refl _⟩, List.Subset.refl _⟩

theorem consider_carries (hflow : consider ctx awaiting entry record = .next work) :
    HandsOn work [record.attention.obligationId] [entry] [record] := by
  unfold consider at hflow
  split_ifs at hflow
  · cases hflow
    exact ⟨⟨rfl, List.Subset.refl _, List.Subset.refl _⟩, List.Subset.refl _⟩
  · exact route_carries hflow

theorem consume_carries (hflow : consume ctx awaiting entry record now = .next work) :
    HandsOn work [record.attention.obligationId] [entry] ([record].filter fun record => !record.injected) := by
  unfold consume at hflow
  split_ifs at hflow with hinj
  have hopen : [record].filter (fun record => !record.injected) = [record] := by simp [hinj]
  rw [hopen]
  split at hflow
  · cases hflow
    exact ⟨⟨rfl, List.Subset.refl _, List.Subset.refl _⟩, List.Subset.refl _⟩
  · exact consider_carries hflow

theorem land_carries {arrival : Arrival} (hflow : (land ctx rows awaiting arrival now).flow = .next work) :
    HandsOn work [arrival.record.attention.obligationId] arrival.body.toList (Work.landed arrival).holds := by
  unfold land at hflow
  split at hflow
  · next entry hent =>
    rw [Arrival.body, hent]
    exact consume_carries hflow
  · next hent =>
    split at hflow
    · cases hflow
    · next entry hbody =>
      split_ifs at hflow
      rw [Arrival.body, hent, hbody]
      exact consume_carries hflow

theorem notifying_next {registry : AwaitedReplies}
    (hflow : (notifying ctx rows entry registry notify flow).flow = .next work) : flow = .next work := by
  unfold notifying at hflow
  split_ifs at hflow
  · cases notify with
    | none => exact hflow
    | some => cases hflow
  · exact hflow

theorem afterConfirm_next {place : Option String}
    (hflow : (afterConfirm ctx rows awaiting entry place notify).flow = .next work) :
    ∃ context, work = .todoLook entry context := by
  unfold afterConfirm at hflow
  split at hflow
  · cases hflow
  · have htodo := notifying_next hflow
    unfold deliverTodo at htodo
    split_ifs at htodo
    cases htodo
    exact ⟨_, rfl⟩

theorem afterSettle_next {changed : Bool} : (afterSettle ctx rows awaiting entry changed notify).flow ≠ .next work := by
  intro hflow
  unfold afterSettle at hflow
  split_ifs at hflow
  exact absurd (notifying_next hflow) (by simp)

inductive Carries (ctx : Context) (rows : InboundRows) : InboundRows → Work → Work → Prop where
  -- It was carried before.
  | on {rows'} {work next : Work} (goesOn : GoesOn next work.names work.entries) :
      Carries ctx rows rows' work next
  -- An entry was handed over, and its row is read or written.
  | received (entry : Entry) (id : String) (context : Option String) :
      Carries ctx rows (receiveTx ctx entry id context rows).2 (.receiving entry id context)
        (.arrived ⟨id, (receiveTx ctx entry id context rows).1, some entry⟩)
  -- A row of an owner's list is stored.
  | stored {ref attention record} (row : (storeTx ctx ref attention rows).1 = some record) :
      Carries ctx rows (storeTx ctx ref attention rows).2 (.storing ref attention)
        (.arrived ⟨obligationIdOf ctx ref attention, record, none⟩)

/-! ## The rows behind it -/

/-- The record a handed-over entry is handled with is the row it was stored in. -/
theorem receiveTx_get (entry : Entry) (id : String) (context : Option String) (rows : InboundRows) :
    (receiveTx ctx entry id context rows).2.inbox.get id = some (receiveTx ctx entry id context rows).1 := by
  unfold receiveTx
  split
  · next stored hstor => exact hstor
  · exact get_put_self _ _ _

theorem storeTx_get {ref : ThreadRef} {attention : Attention}
    (hstor : (storeTx ctx ref attention rows).1 = some record) :
    (storeTx ctx ref attention rows).2.inbox.get (obligationIdOf ctx ref attention) = some record := by
  simp only [storeTx] at hstor ⊢
  split_ifs at hstor ⊢
  · exact hstor
  · cases hstor
    exact get_put_self _ _ _

/-! ## One step of the handling -/

/-- What is taken for open was taken for open before, or is the row that was just read. -/
def HeldOver (rows : InboundRows) (work next : Work) : Prop :=
  next.holds ⊆ work.holds ∨
    ∃ arrival, next = .arrived arrival ∧ rows.inbox.get arrival.obligationId = some arrival.record

theorem HandsOn.carries {rows' : InboundRows} {next : Work} (h : HandsOn next work.names work.entries work.holds) :
    Carries ctx rows rows' work next ∧ HeldOver rows' work next :=
  ⟨.on h.toGoesOn, .inl h.holds⟩

theorem workStep_carries {next : Work} {worked : Worked}
    (hstep : workStep ctx outbound rows awaiting work input = some worked) (hflow : worked.flow = .next next) :
    Carries ctx rows worked.rows work next ∧ HeldOver worked.rows work next := by
  unfold workStep at hstep
  split at hstep <;> cases hstep
  case h_1 =>
    cases hflow
    exact ⟨.received _ _ _, .inr ⟨_, rfl, receiveTx_get _ _ _ _⟩⟩
  case h_2 =>
    simp only [pulled] at hflow
    split at hflow
    · cases hflow
    · next record hrec =>
      cases hflow
      exact ⟨.stored hrec, .inr ⟨_, rfl, storeTx_get hrec⟩⟩
  case h_7 =>
    obtain ⟨⟨hbegun, hnm, hentries⟩, hhld⟩ := land_carries hflow
    exact HandsOn.carries ⟨⟨hbegun, List.Subset.trans hnm (subset_cons_self _ _), hentries⟩, hhld⟩
  case h_12 => exact absurd hflow afterSettle_next
  case h_14 => exact (route_carries hflow).carries
  case h_15 =>
    cases hflow
    refine HandsOn.carries ⟨⟨rfl, List.Subset.refl _, List.Subset.refl _⟩, ?_⟩
    simp only [Work.holds]
    split_ifs
    · exact nil_subset _
    · exact List.Subset.refl _
  case h_19 =>
    obtain ⟨context, rfl⟩ := afterConfirm_next hflow
    exact HandsOn.carries ⟨⟨rfl, nil_subset _, nil_subset _⟩, nil_subset _⟩
  -- The others hand on what they carry, or let it go.
  all_goals
    try simp only [arrive, onward, described, undescribed, present] at hflow
    repeat' split at hflow
    all_goals first
      | (cases hflow; done)
      | exact (consider_carries hflow).carries
      | (cases hflow
         refine HandsOn.carries ⟨⟨rfl, ?_, ?_⟩, ?_⟩ <;> first | exact List.Subset.refl _ | exact nil_subset _)

/-! ## One step of a call -/

inductive Stands (ctx : Context) (rows : InboundRows) : Task → InboundRows → Task → Prop where
  | bare {task next rows'} (bare : Task.bare next = true) : Stands ctx rows task rows' next
  -- A replay begins.
  | queued {task rows' failures} : Stands ctx rows task rows' (.inbox rows'.queued failures)
  -- The handling of an entry goes on.
  | worked {work next after rows'} (carries : Carries ctx rows rows' work next) (held : HeldOver rows' work next) :
      Stands ctx rows (.work work after) rows' (.work next after)
  -- A replay comes back to its queue.
  | back {work rest failures failures' rows'} :
      Stands ctx rows (.work work (.inbox rest failures)) rows' (.inbox rest failures')
  -- It is done with the first record.
  | passed {record rest failures failures'} :
      Stands ctx rows (.inbox (record :: rest) failures) rows (.inbox rest failures')
  -- It consumes the first record.
  | consumed {record entry work rest failures} (body : record.attention.entry = some entry)
      (hands : HandsOn work [record.attention.obligationId] [entry] ([record].filter fun record => !record.injected)) :
      Stands ctx rows (.inbox (record :: rest) failures) rows (.work work (.inbox rest failures))

theorem follow_next {after : After} {next : Task} (hnext : (after.follow ctx flow).1 = some next) :
    (∃ work, flow = .next work ∧ next = .work work after) ∨ next.bare = true ∨
      ∃ rest failures failures', after = .inbox rest failures ∧ next = .inbox rest failures' := by
  cases flow with
  | next work =>
    cases hnext
    exact .inl ⟨work, rfl, rfl⟩
  | back =>
    right
    cases after <;> cases hnext
    · exact .inl rfl
    · exact .inr ⟨_, _, _, rfl, rfl⟩
    · exact .inl rfl
  | raise thrown =>
    right
    cases after with
    | items _ _ pull =>
      have hbare : bareAt (pull.fails ctx thrown).1 = true := bareAt_pullFails pull thrown
      rw [show (pull.fails ctx thrown).1 = some next from hnext] at hbare
      exact .inl hbare
    | caller => cases hnext
    | todos =>
      cases hnext
      exact .inl rfl
    | inbox =>
      cases hnext
      exact .inr ⟨_, _, _, rfl, rfl⟩

theorem resume_stands {task next : Task} {outcome : Outcome}
    (hres : resume ctx outbound rows awaiting task input = some outcome) (hnext : outcome.task = some next) :
    Stands ctx rows task outcome.rows next := by
  unfold resume at hres
  split at hres
  case h_2 =>
    obtain ⟨worked, hwk, rfl⟩ := map_eq_some_iff.mp hres
    rcases follow_next hnext with ⟨work', hflow, rfl⟩ | hbare | ⟨_, _, _, rfl, rfl⟩
    · obtain ⟨hcar, hheld⟩ := workStep_carries hwk hflow
      exact .worked hcar hheld
    · exact .bare hbare
    · exact .back
  case h_4 =>
    cases hres
    simp only [comeInbox] at hnext
    split at hnext
    · cases hnext
      exact .passed
    · next entry hbody =>
      split_ifs at hnext
      · cases hnext
        exact .passed
      · rcases follow_next hnext with ⟨work', hflow, rfl⟩ | hbare | ⟨_, _, _, ⟨⟩, rfl⟩
        · exact .consumed hbody (consume_carries hflow)
        · exact .bare hbare
        · exact .passed
  case h_10 =>
    obtain ⟨found, hloop, rfl⟩ := map_eq_some_iff.mp hres
    rcases loopStep_bare hloop with hbare | ⟨failures, hqueue⟩
    · rw [show found.1 = some next from hnext] at hbare
      exact .bare hbare
    · cases hqueue.symm.trans hnext
      exact .queued
  all_goals
    cases hres
    cases hnext <;> exact .bare rfl

theorem bodies_cons (record : LocalAttention) (rest : List LocalAttention) :
    bodies (record :: rest) = record.attention.entry.toList ++ bodies rest := by
  unfold bodies
  cases hent : record.attention.entry <;> simp [hent]

/-- An entry that a call carries after a step was carried before, or is the body of a row. -/
theorem resume_entries {task next : Task} {outcome : Outcome}
    (hres : resume ctx outbound rows awaiting task input = some outcome) (hnext : outcome.task = some next)
    (hmem : entry ∈ next.entries) : entry ∈ task.entries ∨
      ∃ id row, outcome.rows.inbox.get id = some row ∧ row.attention.entry = some entry := by
  have hst := resume_stands hres hnext
  generalize outcome.rows = rows' at hst ⊢
  cases hst with
  | bare hbare =>
    rw [Task.entries_of_bare hbare] at hmem
    cases hmem
  | queued =>
    obtain ⟨record, hque, hbody⟩ := mem_filterMap.mp hmem
    obtain ⟨id, hrow⟩ := mem_queued.mp hque
    exact .inr ⟨id, record, hrow, hbody⟩
  | worked hcar =>
    rcases mem_append.mp hmem with hin | hin
    · cases hcar with
      | on hon => exact .inl (mem_append_left _ (hon.entries hin))
      | received => exact .inl (mem_append_left _ hin)
      | stored hrec => exact .inr ⟨_, _, storeTx_get hrec, mem_toList.mp hin⟩
    · exact .inl (mem_append_right _ hin)
  | back => exact .inl (mem_append_right _ hmem)
  | passed =>
    left
    rw [Task.entries, bodies_cons]
    exact mem_append_right _ hmem
  | consumed hbody hhands =>
    left
    rw [Task.entries, bodies_cons, hbody]
    exact mem_append.mpr ((mem_append.mp hmem).imp_left fun hin => hhands.entries hin)

end Steps

/-! ## Sound rows -/

/-- An obligation that carries a body is the obligation of that body. -/
def soundAttention (attention : Attention) : Bool :=
  attention.entry.all fun entry => entry.threadRef = attention.threadRef && entry.seq = attention.seq

def Sound (rows : InboundRows) : Prop :=
  ∀ id row, rows.inbox.get id = some row → soundAttention row.attention = true

/-- The message service of the node writes the obligations of its entries. -/
def Act.sound : Act → Bool
  | .admitted attention _ | .revised attention => soundAttention attention
  | _ => true

theorem soundAttention_iff {attention : Attention} :
    soundAttention attention = true ↔ ∀ entry, attention.entry = some entry →
      entry.threadRef = attention.threadRef ∧ entry.seq = attention.seq := by
  unfold soundAttention
  cases attention.entry <;> simp

section Sound

variable {ctx : Context}

theorem merged_sound {attention : Attention} {owner : NodeId} {previous : Option LocalAttention} (id : String)
    (hatt : attest ctx attention owner (previous.bind fun row => row.attention.entry) = true) :
    soundAttention (merged previous id attention).attention = true := by
  rw [soundAttention_iff]
  intro entry hent
  have hbody : attention.entry.or (previous.bind fun row => row.attention.entry) = some entry := hent
  simp only [attest, hbody, Bool.and_eq_true, decide_eq_true_eq] at hatt
  obtain ⟨-, ⟨⟨⟨⟨hthr, hseq⟩, -⟩, -⟩, -⟩, -⟩ := hatt
  exact ⟨hthr, hseq⟩

theorem RowWrites.sound {work : Work} {id : String} {row : Option LocalAttention} {row' : LocalAttention}
    (hwr : RowWrites ctx work id row (some row')) (hsnd : ∀ old, row = some old → soundAttention old.attention = true) :
    soundAttention row'.attention = true := by
  cases hwr with
  | kept => exact hsnd row' rfl
  | received => simp [soundAttention, attentionOf]
  | stored ref attention previous hatt => exact merged_sound _ hatt
  | acked _ row | checkFailed _ _ row | settled _ _ _ row => exact hsnd row rfl
  | confirmed entry context _ _ _ row =>
    unfold LocalAttention.confirmed
    split_ifs <;> exact hsnd row rfl

theorem Sound.kept {s s' : OnlyneClient} {a : Act} (h : Sound s.rows) (hstep : clientStep ctx s a = some s')
    (hact : a.sound = true) : Sound s'.rows := by
  intro id row' hrow'
  have hrow := clientStep_row hstep id
  rw [hrow'] at hrow
  have hold := h id
  generalize s.rows.inbox.get id = row at hrow hold
  cases hrow with
  | kept => exact hold row' rfl
  | handled _ hwr => exact hwr.sound hold
  | admitted | revised => exact hact

end Sound

end Onlyne.Client
