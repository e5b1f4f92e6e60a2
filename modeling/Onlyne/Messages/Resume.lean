import Onlyne.Messages.EventList

/-!
# Messages: a snapshot and the events after it

`snapshot` of `messages.ts` hands out a thread with its first messages and a cursor at its last event; a
reader goes on with `events` from there.  The two are ordered differently: a snapshot covers the messages
below the next sequence number, the cursor stands after the event counter.

`Aligned` says that both orders agree: of two message events of a thread the later one has the larger
number.  So the events after the cursor announce exactly the messages from the next number on
(`announcements_eq`), and a reader of a growing listing is given them one after the other.
-/

namespace Onlyne.Messages

open Foundation Table List

/-! ## The orders of a thread -/

section Aligned

variable {D : Type} {ctx : Context D}

/-- Message events are in the order of their numbers, and an entry found by its reference is stored
under its number. -/
structure Aligned (log : Log D) : Prop where
  ordered : ∀ ref i i' m m' n n', Announces log (ref, i) m n → Announces log (ref, i') m' n' →
    i < i' → n < n'
  indexed : ∀ m entry, log.entryRef.get m = some entry →
    entry.message.ref = m ∧ log.entry.get (entry.threadRef, entry.seq) = some entry

theorem aligned_empty : Aligned ({} : Store D).log where
  ordered ref i i' m m' n n' h := by
    obtain ⟨event, hrow, -⟩ := h
    cases hrow
  indexed m entry hrow := by cases hrow

variable {log log' : Log D} {slot : ThreadRef × Nat} {m : MessageRef} {n : Nat}

theorem Landed.eventSeq_eq {staged : Staged} (h : Landed log staged) :
    eventSeq log staged.threadRef = staged.thread.eventSeq := by
  unfold Landed at h
  split at h
  · exact eventSeq_of_row h
  · obtain ⟨hfree, title, createdAt, hthr⟩ := h
    simp [eventSeq, hfree, hthr, freshThread]

theorem buried_event (h : Relation.ReflTransGen Buries log log') : log'.event = log.event := by
  induction h with
  | refl => rfl
  | tail _ hbury ih =>
    cases hbury
    exact ih

@[simp] theorem refuse_event (log : Log D) (identity : MessageRef) (digest : D) (retryUntil : String)
    (failure : Failure) : (log.refuse identity digest retryUntil failure).event = log.event := by
  unfold Log.refuse
  split_ifs <;> rfl

theorem announces_of_put {slot' : ThreadRef × Nat} {event : Event}
    (hev : log'.event = log.event.put slot event) (h : Announces log' slot' m n) :
    Announces log slot' m n ∨ slot' = slot ∧ event.body = .message m n := by
  obtain ⟨event', hrow, hbody⟩ := h
  rw [hev] at hrow
  rcases get_put_cases hrow with ⟨rfl, rfl⟩ | ⟨-, hold⟩
  · exact .inr ⟨rfl, hbody⟩
  · exact .inl ⟨event', hold, hbody⟩

theorem announces_of_same (hev : log'.event = log.event) (h : Announces log' slot m n) : Announces log slot m n := by
  unfold Announces at h ⊢
  rwa [hev] at h

/-- A message is announced above the event counter, and under the next number. -/
theorem Change.announces (hchg : Change ctx log log') (h : Announces log' slot m n) :
    Announces log slot m n ∨ eventSeq log slot.1 < slot.2 ∧ n = nextSeq log slot.1 := by
  cases hchg with
  | upkeep hkeep =>
    left
    cases hkeep with
    | kept => exact h
    | opened | retitled => exact announces_of_same rfl h
    | recorded row sameRef sameNext sameEvent other =>
      rcases announces_of_put rfl h with hold | ⟨-, hbody⟩
      · exact hold
      · exact absurd hbody (other m n)
    | buried rows => exact announces_of_same (buried_event rows) h
  | refused => exact .inl (announces_of_same (refuse_event ..) h)
  | @admitted staged auth request input fresh landed =>
    rcases announces_of_put rfl h with hold | ⟨rfl, hbody⟩
    · left
      unfold Log.contact at hold
      split_ifs at hold
      · rcases announces_of_put rfl hold with hold | ⟨-, hbody⟩
        · exact hold
        · cases hbody
      · exact hold
    · right
      cases hbody
      change eventSeq log staged.threadRef < staged.contactThread.eventSeq + 1 ∧
        staged.contactThread.nextSeq = nextSeq log staged.threadRef
      rw [contactThread_nextSeq, landed.nextSeq_eq, landed.eventSeq_eq]
      refine ⟨?_, rfl⟩
      unfold Staged.contactThread
      split_ifs
      · dsimp only
        omega
      · exact Nat.lt_succ_self _

theorem Consistent.id_le (h : Consistent log) {ref : ThreadRef} {i : Nat} (hann : Announces log (ref, i) m n) :
    i ≤ eventSeq log ref := by
  obtain ⟨event, hrow, -⟩ := hann
  exact ((h.events ref i).mp (by simp [hrow])).2

theorem Aligned.buries (h : Aligned log) (hbury : Buries log log') : Aligned log' := by
  cases hbury with
  | @bury slot entry record row remembered =>
    refine ⟨h.ordered, ?_⟩
    intro m entry' hrow
    obtain ⟨hne, hold⟩ := get_of_delete hrow
    obtain ⟨hm, hstor⟩ := h.indexed m entry' hold
    refine ⟨hm, (get_delete_ne _ ?_).trans hstor⟩
    -- The entry in the slot is the deleted one, whose reference is gone.
    rintro rfl
    cases hstor.symm.trans row
    exact hne hm.symm

theorem Aligned.change (h : Aligned log) (hlog : Consistent log) (hchg : Change ctx log log') : Aligned log' := by
  have hlog' := hlog.change hchg
  constructor
  case ordered =>
    intro ref i i' m m' n n' hi hi' hlt
    rcases hchg.announces hi with hold | ⟨habove, hn⟩ <;> rcases hchg.announces hi' with hold' | ⟨habove', hn'⟩
    · exact h.ordered ref i i' m m' n n' hold hold' hlt
    · rw [hn']
      exact hlog.numbers (ref, i) m n hold
    · exact absurd (hlog.id_le hold') (by dsimp only at habove; omega)
    · subst hn hn'
      exact absurd (hlog'.bySeq ref i i' m m' _ hi hi') hlt.ne
  case indexed =>
    cases hchg with
    | upkeep hkeep =>
      cases hkeep with
      | kept | opened | retitled | recorded => exact h.indexed
      | buried rows =>
        clear hlog'
        suffices haligned : Aligned log' from haligned.indexed
        induction rows with
        | refl => exact h
        | tail _ hbury ih => exact ih.buries hbury
    | refused =>
      unfold Log.refuse
      split_ifs <;> exact h.indexed
    | @admitted staged auth request input fresh landed =>
      intro m entry hrow
      rw [admit_entryRef] at hrow
      rw [admit_entry]
      rcases get_put_cases hrow with ⟨rfl, rfl⟩ | ⟨-, hold⟩
      · exact ⟨rfl, get_put_self ..⟩
      · obtain ⟨hm, hstor⟩ := h.indexed m entry hold
        refine ⟨hm, (get_put_ne _ _ ?_).trans hstor⟩
        -- The numbers given out before are below the one of the new entry.
        intro hslot
        have hbelow := (hlog.entries _ entry hstor).2.1
        rw [hslot] at hbelow
        rw [landed.nextSeq_eq] at hbelow
        exact lt_irrefl _ hbelow

end Aligned

/-! ## What the events after a cursor announce -/

def Event.announces (event : Event) : Option (MessageRef × Nat) :=
  match event.body with
  | .message m n => some (m, n)
  | .membership _ | .threadClosed => none

def announcements (events : List Event) : List (MessageRef × Nat) := events.filterMap Event.announces

theorem announces_eq_some {event : Event} {m : MessageRef} {n : Nat} :
    event.announces = some (m, n) ↔ event.body = .message m n := by
  unfold Event.announces
  split <;> simp_all

section Announced

variable {D : Type} [DecidableEq D]

/-- The messages of a thread the caller may read, from a number on, in the order of their numbers. -/
def messagesFrom (tx : Store D) (actor : NodeId) (ref : ThreadRef) (number : Nat) : List (MessageRef × Nat) :=
  ((sortedByNumber Entry.seq (readable tx actor ref)).filter fun entry => number ≤ entry.seq).map
    fun entry => (entry.message.ref, entry.seq)

/-- The events after `last` announce the messages from `number` on. -/
def Seam (log : Log D) (ref : ThreadRef) (last number : Nat) : Prop :=
  ∀ i m n, Announces log (ref, i) m n → (last < i ↔ number ≤ n)

variable {ctx : Context D} {s : Store D} {actor : NodeId} {ref : ThreadRef} {last number : Nat}

omit [DecidableEq D]

theorem mem_readable {entry : Entry} : entry ∈ readable s actor ref ↔
    (∃ n, s.entry.get (ref, n) = some entry) ∧ canRead s actor ref (some entry) = true := by
  rw [readable, entryRows, mem_filter, mem_part]

/-- The messages of a thread are listed in the order of their numbers, each of them once. -/
theorem rising_messagesFrom (hlog : Consistent s.log) (actor : NodeId) (ref : ThreadRef)
    (number : Nat) : Rising Prod.snd (messagesFrom s actor ref number) := by
  have hparts := part_pairwise Entry.seq (fun _ _ hrow => (Prod.mk.inj (hlog.entries _ _ hrow).1).2) ref
  have hrise : Rising Entry.seq (sortedByNumber Entry.seq (readable s actor ref)) :=
    rising_insertionSort (hparts.filter _)
  exact pairwise_map.mpr (List.Pairwise.filter _ hrise)

theorem Consistent.listed {log : Log D} (h : Consistent log) : Listed log where
  threads := h.threads
  rows := h.eventRows
  counted slot event hrow := (h.events slot.1 slot.2).mp (by simp [hrow])
  known slot m n hann := by
    obtain ⟨record, hrec, -⟩ := h.known slot m n hann
    simp [hrec]
  standing := h.standing

theorem rising_announcements (hlog : Consistent s.log) (halign : Aligned s.log) (ctx : Context D)
    (actor : NodeId) (ref : ThreadRef) (start : Option Nat) :
    Rising Prod.snd (announcements (itemsAfter Event.id (visible ctx s actor ref) start)) := by
  have hann {event : Event} (hmem : event ∈ itemsAfter Event.id (visible ctx s actor ref) start)
      {p : MessageRef × Nat} (hp : event.announces = some p) :
      Announces s.log (ref, event.id) p.1 p.2 := by
    obtain ⟨⟨id, hrow⟩, -⟩ := mem_visible.mp (mem_itemsAfter.mp hmem).1
    obtain ⟨-, rfl⟩ := hlog.listed.row hrow
    exact ⟨event, hrow, announces_eq_some.mp hp⟩
  unfold Rising announcements
  rw [pairwise_filterMap]
  refine List.Pairwise.imp_of_mem ?_ ((hlog.listed.rising ctx actor ref).after start)
  intro a b ha hb hlt p hp q hq
  exact halign.ordered ref a.id b.id p.1 q.1 p.2 q.2 (hann ha hp) (hann hb hq) hlt

theorem mem_announcements (hlog : Consistent s.log) {m : MessageRef} {n : Nat} :
    (m, n) ∈ announcements (itemsAfter Event.id (visible ctx s actor ref) (some last)) ↔
      ∃ i entry, last < i ∧ Announces s.log (ref, i) m n ∧ s.entryRef.get m = some entry ∧
        canRead s actor ref (some entry) = true := by
  simp only [announcements, mem_filterMap, mem_itemsAfter, mem_visible]
  constructor
  · rintro ⟨event, ⟨⟨⟨id, hrow⟩, hann⟩, haft⟩, hannounces⟩
    obtain ⟨-, rfl⟩ := hlog.listed.row hrow
    have hbody := announces_eq_some.mp hannounces
    unfold announced at hann
    rw [hbody, Option.any_eq_true] at hann
    obtain ⟨entry, hent, hread⟩ := hann
    exact ⟨event.id, entry, haft last rfl, ⟨event, hrow, hbody⟩, hent, hread⟩
  · rintro ⟨i, entry, hlt, ⟨event, hrow, hbody⟩, hent, hread⟩
    obtain ⟨-, rfl⟩ := hlog.listed.row hrow
    refine ⟨event, ⟨⟨⟨event.id, hrow⟩, ?_⟩, ?_⟩, announces_eq_some.mpr hbody⟩
    · unfold announced
      rw [hbody, Option.any_eq_true]
      exact ⟨entry, hent, hread⟩
    · rintro p ⟨rfl⟩
      exact hlt

/-- The events after the cursor announce exactly the messages from the next number on. -/
theorem announcements_eq (ctx : Context D) (actor : NodeId) (hlog : Consistent s.log)
    (halign : Aligned s.log) (hseam : Seam s.log ref last number) :
    announcements (itemsAfter Event.id (visible ctx s actor ref) (some last)) = messagesFrom s actor ref number := by
  apply (rising_announcements hlog halign ctx actor ref (some last)).eq_of_mem_iff
    (rising_messagesFrom hlog actor ref number)
  rintro ⟨m, n⟩
  rw [mem_announcements hlog]
  simp only [messagesFrom, mem_map, mem_filter, mem_sortedByNumber, mem_readable, decide_eq_true_eq, Prod.mk.injEq]
  constructor
  · rintro ⟨i, entry, hlt, hann, hent, hread⟩
    -- The entry that the message is found by is the one its event announces.
    obtain ⟨hm, hstor⟩ := halign.indexed m entry hent
    subst hm
    obtain ⟨i', hann'⟩ := hlog.announced _ entry hstor
    have hslot := hlog.byRef _ _ _ _ _ hann hann'
    obtain ⟨rfl, rfl⟩ := Prod.mk.inj hslot
    obtain ⟨event, hrow, hbody⟩ := hann
    obtain ⟨event', hrow', hbody'⟩ := hann'
    cases hrow.symm.trans hrow'
    cases hbody.symm.trans hbody'
    exact ⟨entry, ⟨⟨⟨_, hstor⟩, hread⟩, (hseam _ _ _ ⟨event, hrow, hbody⟩).mp hlt⟩, rfl, rfl⟩
  · rintro ⟨entry, ⟨⟨⟨n', hrow⟩, hread⟩, hnum⟩, rfl, rfl⟩
    obtain ⟨hkey, -, hent⟩ := hlog.entries _ entry hrow
    obtain ⟨-, rfl⟩ := Prod.mk.inj hkey
    obtain ⟨i, hann⟩ := hlog.announced _ entry hrow
    exact ⟨i, entry, (hseam i _ _ hann).mpr hnum, hann, hent, hread⟩

end Announced

/-! ## A reader that resumes -/

section Reader

variable {D : Type} [DecidableEq D]

/-- The node, and a reader that pages through the events of a thread. -/
structure Resuming (D : Type) where
  store : Store D
  -- Where the next page begins; the last one has no next.
  cursor : Option (Cursor Scope)
  collected : List Event := []

inductive ResumeAct where
  | call (call : Call)
  | page (size : Option Int)

/-- The node serves a call, or the reader asks for its next page. -/
def resumeStep (ctx : Context D) (auth : Auth) (ref : ThreadRef) (state : Resuming D) :
    ResumeAct → Option (Resuming D)
  | .call call => (step ctx state.store call).map fun store => { state with store := store }
  | .page size =>
    match state.cursor with
    | none => none
    | some cursor =>
      match events ctx state.store auth ref { cursor := some cursor, pageSize := size } with
      | .ok page => some { state with
          cursor := page.nextCursor
          collected := state.collected ++ page.items }
      | .error _ => some state

/-- Nothing expires, and the membership of the reader stays as it is. -/
def undisturbed (auth : Auth) (ref : ThreadRef) (t : Transition (Resuming D) ResumeAct) : Bool :=
  (match t.act with
    | .call call => !call.expires
    | .page _ => true) &&
  t.after.store.member.get (ref, auth.actor) = t.before.store.member.get (ref, auth.actor)

/-- No trace hook throws an `OnlyneError` into an admission. -/
def ResumeAct.traceSafe : ResumeAct → Bool
  | .call served => Messages.traceSafe served
  | .page _ => true

variable {ctx : Context D} {auth : Auth} {ref : ThreadRef} {state state' : Resuming D}
  {last number : Nat}

/-- The reader has been given the beginning of what the snapshot does not cover. -/
structure Resumes (ctx : Context D) (auth : Auth) (ref : ThreadRef) (last number : Nat)
    (state : Resuming D) : Prop where
  log : Consistent state.store.log
  aligned : Aligned state.store.log
  reads : ∃ thread, loadThread ctx state.store ref = .ok thread ∧
    canRead state.store auth.actor ref = true
  -- The counters have not gone back since the snapshot, so both orders agree on what came before it.
  counters : last ≤ eventSeq state.store.log ref ∧ number ≤ nextSeq state.store.log ref
  seam : Seam state.store.log ref last number
  follows : Follows Event.id (visible ctx state.store auth.actor ref) (some last) state.collected
  cursor : ∀ cursor, state.cursor = some cursor →
    Points (.events ref auth.actor) (some cursor) (reached Event.id (some last) state.collected)

omit [DecidableEq D] in
/-- A snapshot covers what is below its next number, and its cursor stands at the last event. -/
theorem resumes_snapshot {store : Store D} {snap : Snapshot} (hlog : Consistent store.log)
    (halign : Aligned store.log) (hsnap : snapshot ctx store auth ref = .ok snap) :
    Resumes ctx auth ref snap.thread.eventSeq snap.thread.nextSeq ⟨store, some snap.resumeCursor, []⟩ := by
  simp only [snapshot, bind_eq_ok, failIf_eq_ok, Except.ok.injEq] at hsnap
  obtain ⟨thread, hthr, -, hread, rfl⟩ := hsnap
  have hrow : store.log.thread.get ref = some thread := loadThread_ok hthr
  constructor
  case log => exact hlog
  case aligned => exact halign
  case reads => exact ⟨thread, hthr, by simpa using hread⟩
  case counters =>
    rw [eventSeq_of_row hrow, nextSeq_of_row hrow]
    exact ⟨le_rfl, le_rfl⟩
  case seam =>
    intro i m n hann
    have hid := hlog.id_le hann
    have hnum := hlog.numbers _ m n hann
    rw [eventSeq_of_row hrow] at hid
    rw [nextSeq_of_row hrow] at hnum
    dsimp only
    omega
  case follows => exact Follows.nil
  case cursor =>
    rintro cursor ⟨rfl⟩
    exact points_some _ (decimal_toString thread.eventSeq)

namespace Resumes

variable (h : Resumes ctx auth ref last number state)
include h

theorem call {call : Call} {store : Store D} (hstep : step ctx state.store call = some store)
    (hsafe : traceSafe call = true) (hkp : call.expires = false)
    (hmemb : store.member.get (ref, auth.actor) = state.store.member.get (ref, auth.actor)) :
    Resumes ctx auth ref last number { state with store := store } := by
  have hlist := h.log.listed
  have hchg := step_change h.log.standing hsafe hstep
  obtain ⟨-, hext⟩ := hlist.step hstep
  obtain ⟨new, hnew, hbehind⟩ := visible_grows hlist hstep hkp hmemb
  constructor
  case log => exact h.log.change hchg
  case aligned => exact h.aligned.change h.log hchg
  case reads =>
    obtain ⟨thread, hthr, hread⟩ := h.reads
    have hrow := loadThread_ok hthr
    obtain ⟨thread', hrow', -⟩ := hext.thread ref thread hrow
    refine ⟨thread', ?_, (canRead_step hlist hstep hmemb hrow none).trans hread⟩
    simp only [loadThread, bind_eq_ok, requireValue_eq_ok] at hthr ⊢
    obtain ⟨u, href, u', hown, -⟩ := hthr
    exact ⟨u, href, u', hown, hrow'⟩
  case counters =>
    exact ⟨h.counters.1.trans (hext.counter ref), h.counters.2.trans (nextSeq_mono h.log hchg ref)⟩
  case seam =>
    intro i m n hann
    rcases hchg.announces hann with hold | ⟨habove, hn⟩
    · exact h.seam i m n hold
    · -- A new message comes after both counters.
      have hcounters := h.counters
      dsimp only at habove hn
      omega
  case follows =>
    rw [hnew]
    exact h.follows.grow hbehind
  case cursor => exact h.cursor

omit [DecidableEq D] in
theorem page {cursor : Cursor Scope} {size : Option Int} {shown : Page Event Scope} (hcurs : state.cursor = some cursor)
    (hsh : events ctx state.store auth ref { cursor := some cursor, pageSize := size } = .ok shown) :
    Resumes ctx auth ref last number { state with
      cursor := shown.nextCursor
      collected := state.collected ++ shown.items } ∧
    (shown.nextCursor = none → announcements (state.collected ++ shown.items) =
      messagesFrom state.store auth.actor ref number) := by
  obtain ⟨hfol, hcompl, hnext⟩ := h.log.listed.read_page h.follows (h.cursor cursor hcurs) hsh
  refine ⟨⟨h.log, h.aligned, h.reads, h.counters, h.seam, hfol, hnext⟩, ?_⟩
  intro hend
  rw [← hcompl hend]
  exact announcements_eq ctx auth.actor h.log h.aligned h.seam

theorem step {act : ResumeAct} (hstep : resumeStep ctx auth ref state act = some state')
    (hcalm : undisturbed auth ref ⟨state, act, state'⟩ = true) (hsafe : act.traceSafe = true) :
    Resumes ctx auth ref last number state' ∧
      (state.cursor ≠ none → state'.cursor = none → announcements state'.collected =
        messagesFrom state'.store auth.actor ref number) := by
  cases act with
  | call =>
    obtain ⟨store, hcall, rfl⟩ := Option.map_eq_some_iff.mp hstep
    simp only [undisturbed, Bool.and_eq_true, Bool.not_eq_true', decide_eq_true_eq] at hcalm
    exact ⟨h.call hcall hsafe hcalm.1 hcalm.2, fun hsome hnone => absurd hnone hsome⟩
  | page =>
    simp only [resumeStep] at hstep
    split at hstep
    · cases hstep
    · next cursor hcurs =>
      split at hstep
      · next shown hsh =>
        cases hstep
        obtain ⟨hres, hend⟩ := h.page hcurs hsh
        exact ⟨hres, fun _ => hend⟩
      · cases hstep
        exact ⟨h, fun hsome hnone => absurd hnone hsome⟩

end Resumes

theorem pages_end (h : Resumes ctx auth ref last number state) :
    ∃ h' state', Run (resumeStep ctx auth ref) state h' state' ∧ state'.store = state.store ∧ state'.cursor = none := by
  -- Every page but the last one leaves less to read.
  induction hleft : (itemsAfter Event.id (visible ctx state.store auth.actor ref)
      (reached Event.id (some last) state.collected)).length using Nat.strong_induction_on
      generalizing state with
  | _ left ih =>
    cases hcurs : state.cursor with
    | none => exact ⟨[], state, .nil, rfl, hcurs⟩
    | some cursor =>
      obtain ⟨thread, hthr, hread⟩ := h.reads
      have hsh := events_total hthr hread (h.cursor cursor hcurs)
      obtain ⟨hres, -⟩ := h.page hcurs hsh
      generalize hpage : cutPage (itemsAfter Event.id (visible ctx state.store auth.actor ref)
        (reached Event.id (some last) state.collected)) 50 (Scope.events ref auth.actor)
        (fun event => toString event.id) = page at hsh hres
      have hstep : resumeStep ctx auth ref state (.page none) = some { state with
          cursor := page.nextCursor
          collected := state.collected ++ page.items } := by
        simp only [resumeStep, hcurs, hsh]
      rcases cutPage_cases (itemsAfter Event.id (visible ctx state.store auth.actor ref)
          (reached Event.id (some last) state.collected)) (by decide : 0 < 50)
          (Scope.events ref auth.actor) (fun event => toString event.id) with
        ⟨-, hend⟩ | ⟨item, hitem, -⟩
      · rw [hpage] at hend
        exact ⟨_, _, Run.nil.snoc hstep, rfl, hend⟩
      · rw [hpage] at hitem
        have hshorter : (itemsAfter Event.id (visible ctx state.store auth.actor ref)
            (reached Event.id (some last) (state.collected ++ page.items))).length < left := by
          have hbef := congrArg List.length h.follows
          have haft := congrArg List.length hres.follows
          have hpos : 0 < page.items.length := length_pos_of_mem (mem_of_getLast? hitem)
          simp only [length_append] at hbef haft
          omega
        obtain ⟨h', state', hrun', hst, hend⟩ := ih _ hshorter hres rfl
        exact ⟨_, state', (Run.nil.snoc hstep).append hrun', hst, hend⟩

section Run

variable {past : List (Transition (Store D) Call)} {store : Store D} {snap : Snapshot}
  {h : List (Transition (Resuming D) ResumeAct)}

theorem aligned_of_run (hrun : Run (step ctx) {} past store)
    (hsafe : ∀ t ∈ past, traceSafe t.act = true) : Consistent store.log ∧ Aligned store.log :=
  hrun.invariant_of (I := fun s => Consistent s.log ∧ Aligned s.log)
    (C := fun t => traceSafe t.act = true) hsafe ⟨consistent_empty, aligned_empty⟩
    fun _ _ _ hI hstep hC =>
      have hchg := step_change hI.1.standing hC hstep
      ⟨hI.1.change hchg, hI.2.change hI.1 hchg⟩

theorem resumes_of_run (hpast : Run (step ctx) {} past store)
    (hsafe : ∀ t ∈ past, traceSafe t.act = true) (hsnap : snapshot ctx store auth ref = .ok snap)
    (hrun : Run (resumeStep ctx auth ref) ⟨store, some snap.resumeCursor, []⟩ h state)
    (hcalm : ∀ t ∈ h, undisturbed auth ref t = true) (hsafe' : ∀ t ∈ h, t.act.traceSafe = true) :
    Resumes ctx auth ref snap.thread.eventSeq snap.thread.nextSeq state := by
  obtain ⟨hlog, halign⟩ := aligned_of_run hpast hsafe
  exact hrun.invariant_of (I := Resumes ctx auth ref snap.thread.eventSeq snap.thread.nextSeq)
    (C := fun t => undisturbed auth ref t = true ∧ t.act.traceSafe = true)
    (fun t ht => ⟨hcalm t ht, hsafe' t ht⟩) (resumes_snapshot hlog halign hsnap)
    fun _ _ _ hI hstep hC => (hI.step hstep hC.1 hC.2).1

/-- **A snapshot and the events after it.**  For a reader whose membership stays as it is, with nothing
expiring and no trace hook throwing an `OnlyneError` into an admission, after any interleaving of calls
and page reads of any sizes:

- the messages of the thread are listed under their numbers, in order and each of them once;
- the events that were read announce the first of the readable messages from the next number of the
  snapshot on;
- the last page completes them;
- the reader gets to the last page. -/
theorem snapshot_then_resume (hpast : Run (step ctx) {} past store)
    (hsafe : ∀ t ∈ past, traceSafe t.act = true) (hsnap : snapshot ctx store auth ref = .ok snap)
    (hrun : Run (resumeStep ctx auth ref) ⟨store, some snap.resumeCursor, []⟩ h state)
    (hcalm : ∀ t ∈ h, undisturbed auth ref t = true) (hsafe' : ∀ t ∈ h, t.act.traceSafe = true) :
    Rising Prod.snd (messagesFrom state.store auth.actor ref snap.thread.nextSeq) ∧
    announcements state.collected <+: messagesFrom state.store auth.actor ref snap.thread.nextSeq ∧
    (∀ t ∈ h, t.before.cursor ≠ none → t.after.cursor = none → announcements t.after.collected =
      messagesFrom t.after.store auth.actor ref snap.thread.nextSeq) ∧
    ∃ h' state', Run (resumeStep ctx auth ref) state h' state' ∧ state'.store = state.store ∧ state'.cursor = none := by
  have hres := resumes_of_run hpast hsafe hsnap hrun hcalm hsafe'
  refine ⟨rising_messagesFrom hres.log auth.actor ref _, ?_, ?_, pages_end hres⟩
  · rw [← announcements_eq ctx auth.actor hres.log hres.aligned hres.seam]
    exact hres.follows.initial.filterMap _
  · intro t ht
    obtain ⟨before, after, rfl, hbef, hstep, -⟩ := hrun.of_mem ht
    have hI := resumes_of_run hpast hsafe hsnap hbef (fun t' ht' => hcalm t' (mem_append_left _ ht'))
      fun t' ht' => hsafe' t' (mem_append_left _ ht')
    exact (hI.step hstep (hcalm t ht) (hsafe' t ht)).2

end Run

namespace Scenario

/-- A second message of `b`, with a mention of the owner. -/
def mentioning (input : AdmitInput := welcoming) : Call :=
  sends "k2" { message "m2" "again" with
    routing := some { thread := some contactRef, mentions := some ["n"] } } input

def traceFails : AdmitInput :=
  { welcoming with traceReceived := .error (.onlyne (onlyneError .unavailable "The log is full.")) }

/-- The owner takes a snapshot after a first contact, and what follows is as checked. -/
def resumed (acts : List ResumeAct)
    (check : Snapshot → List (Transition (Resuming Digested) ResumeAct) → Resuming Digested → Bool)
    (store : Store Digested) : Bool :=
  (snapshot context store { actor := "n" } contactRef).toOption.any fun snap =>
    (execute (resumeStep context { actor := "n" } contactRef)
      ⟨store, some snap.resumeCursor, []⟩ acts).any fun r => check snap r.1 r.2

theorem run_of_resumed {acts : List ResumeAct}
    {check : Snapshot → List (Transition (Resuming Digested) ResumeAct) → Resuming Digested → Bool}
    {store : Store Digested} (h : resumed acts check store = true) :
    ∃ snap h state, snapshot context store { actor := "n" } contactRef = .ok snap ∧
      Run (resumeStep context { actor := "n" } contactRef) ⟨store, some snap.resumeCursor, []⟩ h state ∧
      check snap h state = true := by
  rw [resumed, Option.any_eq_true] at h
  obtain ⟨snap, hsnap, hexec⟩ := h
  obtain ⟨h, state, hrun, hcheck⟩ := exists_run _ _ acts (check snap · ·) (by simpa using hexec)
  refine ⟨snap, h, state, ?_, hrun, hcheck⟩
  cases hres : snapshot context store { actor := "n" } contactRef with
  | error =>
    rw [hres] at hsnap
    cases hsnap
  | ok =>
    rw [hres] at hsnap
    cases hsnap
    rfl

end Scenario

open Scenario in
/-- A message that comes in after the snapshot is the one announcement of the last page. -/
theorem snapshot_then_resume_mention : ∃ past store snap h state, Run (step context) {} past store ∧
      snapshot context store { actor := "n" } contactRef = .ok snap ∧
      Run (resumeStep context { actor := "n" } contactRef)
        ⟨store, some snap.resumeCursor, []⟩ h state ∧ state.cursor = none ∧
      announcements state.collected = [((message "m2" "again").ref, 2)] ∧
      announcements state.collected <+:
        messagesFrom state.store "n" contactRef snap.thread.nextSeq := by
  obtain ⟨past, store, hpast, hp⟩ := exists_run (step context) {} [sends "k1" (message "m1" "hello")]
    (fun past store => (∀ t ∈ past, traceSafe t.act = true) ∧ resumed [.call mentioning, .page (some 1)]
      (fun _ h state => h.all (undisturbed { actor := "n" } contactRef) && h.all (fun t => t.act.traceSafe) &&
        decide (state.cursor = none ∧ announcements state.collected = [((message "m2" "again").ref, 2)])) store)
    (by decide +kernel)
  obtain ⟨snap, h, state, hsnap, hrun, hcheck⟩ := run_of_resumed hp.2
  rw [Bool.and_eq_true, Bool.and_eq_true, all_eq_true, all_eq_true, decide_eq_true_eq] at hcheck
  obtain ⟨⟨hcalm, hsafe⟩, hend, hann⟩ := hcheck
  exact ⟨past, store, snap, h, state, hpast, hsnap, hrun, hend, hann,
    (snapshot_then_resume hpast hp.1 hsnap hrun hcalm hsafe).2.1⟩

open Scenario in
/-- A message that a failing trace hook tore out of its admission is readable from the next number on, and
no page announces it. -/
theorem resume_misses_torn_message : ∃ past store snap h state, Run (step context) {} past store ∧
      snapshot context store { actor := "n" } contactRef = .ok snap ∧
      Run (resumeStep context { actor := "n" } contactRef) ⟨store, some snap.resumeCursor, []⟩ h state ∧
      (∀ t ∈ h, undisturbed { actor := "n" } contactRef t = true) ∧
      state.cursor = none ∧ announcements state.collected = [] ∧
      messagesFrom state.store "n" contactRef snap.thread.nextSeq = [((message "m2" "again").ref, 2)] := by
  obtain ⟨past, store, hpast, hp⟩ := exists_run (step context) {} [sends "k1" (message "m1" "hello")]
    (fun _ store => resumed [.call (mentioning traceFails), .page none]
      (fun snap h state => h.all (undisturbed { actor := "n" } contactRef) &&
        decide (state.cursor = none ∧ announcements state.collected = [] ∧
          messagesFrom state.store "n" contactRef snap.thread.nextSeq = [((message "m2" "again").ref, 2)])) store)
    (by decide +kernel)
  obtain ⟨snap, h, state, hsnap, hrun, hcheck⟩ := run_of_resumed hp
  simp only [Bool.and_eq_true, all_eq_true, decide_eq_true_eq] at hcheck
  exact ⟨past, store, snap, h, state, hpast, hsnap, hrun, hcheck⟩

end Reader

end Onlyne.Messages
