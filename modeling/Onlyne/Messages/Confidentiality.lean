import Onlyne.Messages.Obligations

/-!
# Messages: reads do not leak

Two stores that differ only in the bodies of entries a caller may not read give it the same answers,
over any sequence of reads (`converse_indistinct`).  The sequence matters because the obligation list
writes: it strips the rows it may not show, and the stores it leaves are again indistinguishable.

The second half is about what a row of the obligation list can carry at all, in every state a node
reaches: an entry that is still stored, and that the caller may read.
-/

namespace Onlyne.Messages

open Foundation Table List

/-! ## The reads of a caller -/

inductive Read where
  | list (ref : ThreadRef) (query : MessageQuery)
  | attention (ref : ThreadRef) (options : PageOptions Scope)
  | getByRef (ref : MessageRef)
  | events (ref : ThreadRef) (options : PageOptions Scope)
  | snapshot (ref : ThreadRef)

inductive Found where
  | entries (value : Page Entry Scope)
  | obligations (value : Page Attention Scope)
  | entry (value : Entry)
  | events (value : Page Event Scope)
  | snapshot (value : Snapshot)

section Read

variable {D : Type}

def find (ctx : Context D) (auth : Auth) (tx : Store D) : Read → Except Halt (Found × Store D)
  | .list ref query => (list ctx tx auth ref query).map fun found => (.entries found, tx)
  | .attention ref options =>
    (attention ctx tx auth ref options).map fun found => (.obligations found.1, found.2)
  | .getByRef ref => (getByRef tx auth ref).map fun found => (.entry found, tx)
  | .events ref options => (events ctx tx auth ref options).map fun found => (.events found, tx)
  | .snapshot ref => (snapshot ctx tx auth ref).map fun found => (.snapshot found, tx)

/-- A transaction that throws leaves the rows as they were. -/
def committed {α : Type} (tx : Store D) : Except Halt (α × Store D) → Except Halt α × Store D
  | .ok (value, tx') => (.ok value, tx')
  | .error halt => (.error halt, tx)

def look (ctx : Context D) (auth : Auth) (tx : Store D) (read : Read) : Option (Except Halt Found × Store D) :=
  some (committed tx (find ctx auth tx read))

/-! ## Stores a caller cannot tell apart -/

/-- Two entries that are equal, or that the caller may read neither of and that differ in the body of
the message only. -/
def Masked (visible : Entry → Bool) (e e' : Entry) : Prop :=
  e' = e ∨ visible e = false ∧ visible e' = false ∧ e' = { e with message := e'.message } ∧
    e'.message.ref = e.message.ref

/-- Two obligations that are equal, or carry such entries.  An expired obligation carries none. -/
def MaskedCopy (visible : Entry → Bool) (row row' : Attention) : Prop :=
  row' = row ∨ row.expired = false ∧ ∃ e e', row.entry = some e ∧
    row' = { row with entry := some e' } ∧ visible e = false ∧ visible e' = false ∧
    e' = { e with message := e'.message } ∧ e'.message.ref = e.message.ref

/-- Two stores that differ only in the bodies of entries the caller may not read: where the entry is
stored, where it is found by its reference, and in its obligations.  The rows that no read looks at
may differ in any way. -/
structure Indistinct (actor : NodeId) (s s' : Store D) : Prop where
  thread : s'.thread = s.thread
  member : s'.member = s.member
  event : s'.event = s.event
  entry : List.Forall₂ (fun r r' => r'.1 = r.1 ∧
    Masked (fun e => canRead s actor r.1.1 (some e)) r.2 r'.2) s.entry.rows s'.entry.rows
  entryRef : ∀ ref, Option.Rel (Masked fun e => canRead s actor e.threadRef (some e))
    (s.entryRef.get ref) (s'.entryRef.get ref)
  attention : List.Forall₂ (fun r r' => r'.1 = r.1 ∧
    MaskedCopy (fun e => canRead s actor r.1.1 (some e)) r.2 r'.2) s.attention.rows s'.attention.rows

variable {auth : Auth} {actor : NodeId} {s s' : Store D}

theorem Indistinct.canRead (h : Indistinct actor s s') (ref : ThreadRef) (entry : Option Entry) :
    Messages.canRead s' actor ref entry = Messages.canRead s actor ref entry := by
  unfold Messages.canRead
  rw [h.thread, h.member]

theorem Indistinct.loadThread (h : Indistinct actor s s') (ctx : Context D) (ref : ThreadRef) :
    Messages.loadThread ctx s' ref = Messages.loadThread ctx s ref := by
  unfold Messages.loadThread
  rw [h.thread]

variable {visible : Entry → Bool} {row row' : Attention} {ref : ThreadRef}

theorem filter_masked {entries entries' : List Entry} (h : List.Forall₂ (Masked visible) entries entries') :
    entries'.filter visible = entries.filter visible := by
  induction h with
  | nil => rfl
  | cons hmask _ ih =>
    rcases hmask with rfl | ⟨hidden, hidden', -, -⟩
    · rw [filter_cons, filter_cons, ih]
    · rw [filter_cons_of_neg (by simp [hidden']), filter_cons_of_neg (by simp [hidden]), ih]

theorem forall₂_filter_thread {ι ν : Type} {R : ThreadRef → ν → ν → Prop} {rows rows' : List ((ThreadRef × ι) × ν)}
    (h : List.Forall₂ (fun r r' => r'.1 = r.1 ∧ R r.1.1 r.2 r'.2) rows rows') (ref : ThreadRef) :
    List.Forall₂ (R ref) ((rows.filter fun r => r.1.1 = ref).map Prod.snd)
      ((rows'.filter fun r => r.1.1 = ref).map Prod.snd) := by
  induction h with
  | nil => exact .nil
  | @cons r r' rest rest' hrow _ ih =>
    obtain ⟨hkey, hval⟩ := hrow
    rw [filter_cons, filter_cons, hkey]
    by_cases href : r.1.1 = ref
    · rw [if_pos (by simpa using href), if_pos (by simpa using href)]
      exact .cons (href ▸ hval) ih
    · rw [if_neg (by simpa using href), if_neg (by simpa using href)]
      exact ih

theorem Indistinct.readable (h : Indistinct actor s s') (ref : ThreadRef) :
    Messages.readable s' actor ref = Messages.readable s actor ref := by
  have hrows := forall₂_filter_thread
    (R := fun ref e e' => Masked (fun x => Messages.canRead s actor ref (some x)) e e') h.entry ref
  have hvisible := filter_masked hrows
  unfold Messages.readable
  rw [funext fun entry => h.canRead ref (some entry)]
  exact hvisible

theorem Indistinct.copies (h : Indistinct actor s s') (ref : ThreadRef) :
    List.Forall₂ (MaskedCopy fun e => Messages.canRead s actor ref (some e))
      ((attentionRows s ref).map Prod.snd) ((attentionRows s' ref).map Prod.snd) :=
  forall₂_filter_thread (R := fun ref row row' => MaskedCopy (fun x => Messages.canRead s actor ref (some x)) row row')
    h.attention ref

theorem MaskedCopy.stripped (h : MaskedCopy visible row row') : row'.stripped = row.stripped := by
  rcases h with rfl | ⟨-, e, e', -, rfl, -⟩ <;> rfl

theorem MaskedCopy.fields (h : MaskedCopy visible row row') : row'.obligationId = row.obligationId ∧
      row'.recipient = row.recipient ∧ row'.messageRef = row.messageRef ∧ row'.acked = row.acked := by
  rcases h with rfl | ⟨-, e, e', -, rfl, -⟩ <;> exact ⟨rfl, rfl, rfl, rfl⟩

section

variable (h : Indistinct actor s s')
include h

section

variable (hcopy : MaskedCopy (fun e => Messages.canRead s actor ref (some e)) row row')
include hcopy

/-- The caller sees a masked copy as it is only when there is nothing to mask. -/
theorem Indistinct.intact : Messages.intact s' actor ref row' = Messages.intact s actor ref row ∧
      (Messages.intact s actor ref row = true → row' = row) := by
  unfold Messages.intact
  simp only [h.canRead]
  rcases hcopy with rfl | ⟨hlive, e, e', hent, rfl, hidden, hidden', -⟩
  · exact ⟨rfl, fun _ => rfl⟩
  · simp [hlive, hent, hidden, hidden']

theorem Indistinct.shown : Messages.shown s' actor ref row' = Messages.shown s actor ref row := by
  obtain ⟨hintact, hsame⟩ := h.intact hcopy
  unfold Messages.shown
  rw [hintact]
  split_ifs with hrow
  · exact hsame hrow
  · exact hcopy.stripped

end

theorem Indistinct.obligations (ref : ThreadRef) :
    List.Forall₂ (MaskedCopy fun e => Messages.canRead s actor ref (some e))
      (Messages.obligations s actor ref) (Messages.obligations s' actor ref) := by
  refine rel_filter ?_ (h.copies ref)
  intro row row' hcopy
  obtain ⟨-, hrcp, -, hacked⟩ := hcopy.fields
  dsimp only
  rw [hrcp, hacked]

theorem Indistinct.obliges (ref : ThreadRef) (entry : Entry) :
    Messages.obliges s' actor ref entry = Messages.obliges s actor ref entry := by
  have hany {rows rows' : List Attention} {visible : Entry → Bool}
      (hrows : List.Forall₂ (MaskedCopy visible) rows rows') :
      (rows'.any fun row => row.recipient = actor && row.messageRef = entry.message.ref) =
        rows.any fun row => row.recipient = actor && row.messageRef = entry.message.ref := by
    induction hrows with
    | nil => rfl
    | @cons row row' _ _ hcopy _ ih =>
      obtain ⟨-, hrcp, hmsg, -⟩ := hcopy.fields
      rw [any_cons, any_cons, ih, hrcp, hmsg]
  have hrows := hany (h.copies ref)
  rw [any_map, any_map] at hrows
  exact hrows

end

/-! ## Each read answers alike -/

theorem Indistinct.list (h : Indistinct auth.actor s s') (ctx : Context D) (ref : ThreadRef)
    (query : MessageQuery) : Messages.list ctx s' auth ref query = Messages.list ctx s auth ref query := by
  have hselected : selected s' auth.actor ref query = selected s auth.actor ref query := by
    funext entry
    unfold selected
    rw [h.obliges]
  unfold Messages.list
  rw [h.loadThread, h.canRead, h.readable, hselected]

theorem Indistinct.getByRef (h : Indistinct auth.actor s s') (ref : MessageRef) :
    Messages.getByRef s' auth ref = Messages.getByRef s auth ref := by
  have hrow := h.entryRef ref
  unfold Messages.getByRef
  generalize s.entryRef.get ref = found at hrow ⊢
  generalize s'.entryRef.get ref = found' at hrow ⊢
  cases hrow with
  | none => rfl
  | @some e e' hmask =>
    simp only [requireValue, h.canRead]
    rcases hmask with rfl | ⟨hidden, hidden', -, -⟩
    · rfl
    · have hnotFound {x : Entry} (hx : Messages.canRead s auth.actor x.threadRef (some x) = false) :
          failIf (!Messages.canRead s auth.actor x.threadRef (some x)) .notFound
            "This message is not readable." = fail .notFound "This message is not readable." := by
        rw [hx]
        rfl
      change (failIf _ _ _ >>= fun _ => .ok e') = (failIf _ _ _ >>= fun _ => .ok e)
      rw [hnotFound hidden, hnotFound hidden']
      rfl

/-- An entry found by its reference is readable in a thread in both stores or in neither. -/
theorem Masked.canRead_eq {e e' : Entry}
    (h : Masked (fun e => canRead s actor e.threadRef (some e)) e e') (ref : ThreadRef) :
    canRead s actor ref (some e') = canRead s actor ref (some e) := by
  rcases h with rfl | ⟨hidden, hidden', hrow, -⟩
  · rfl
  · have hthr : e'.threadRef = e.threadRef := by rw [hrow]
    by_cases href : e.threadRef = ref
    · dsimp only at hidden hidden'
      rw [← href, hidden, ← hthr, hidden']
    · -- In another thread neither is read, except by its owner, who reads both.
      unfold canRead
      simp [hthr, href]

theorem Indistinct.events (h : Indistinct auth.actor s s') (ctx : Context D) (ref : ThreadRef)
    (options : PageOptions Scope) :
    Messages.events ctx s' auth ref options = Messages.events ctx s auth ref options := by
  have hann : announced ctx s' auth.actor ref = announced ctx s auth.actor ref := by
    funext event
    unfold announced
    cases event.body with
    | membership => rfl
    | threadClosed => rfl
    | message message =>
      have hrow := h.entryRef message
      dsimp only
      generalize s.entryRef.get message = found at hrow ⊢
      generalize s'.entryRef.get message = found' at hrow ⊢
      cases hrow with
      | none => rfl
      | some hmask =>
        rw [Option.any_some, Option.any_some, h.canRead]
        exact hmask.canRead_eq ref
  unfold Messages.events
  rw [h.loadThread, h.canRead, h.event, hann]

theorem Indistinct.snapshot (h : Indistinct auth.actor s s') (ctx : Context D) (ref : ThreadRef) :
    Messages.snapshot ctx s' auth ref = Messages.snapshot ctx s auth ref := by
  unfold Messages.snapshot
  rw [h.loadThread, h.canRead, h.readable]

theorem Indistinct.foldl_storeShown (h : Indistinct actor s s') {rows rows' : List Attention}
    (hrows : List.Forall₂ (MaskedCopy fun e => Messages.canRead s actor ref (some e)) rows rows')
    {t t' : Store D} (ht : List.Forall₂ (fun r r' => r'.1 = r.1 ∧
      MaskedCopy (fun e => Messages.canRead s actor r.1.1 (some e)) r.2 r'.2) t.attention.rows t'.attention.rows) :
    List.Forall₂ (fun r r' => r'.1 = r.1 ∧ MaskedCopy (fun e => Messages.canRead s actor r.1.1 (some e)) r.2 r'.2)
      (rows.foldl (storeShown s actor ref) t).attention.rows
      (rows'.foldl (storeShown s' actor ref) t').attention.rows := by
  induction hrows generalizing t t' with
  | nil => exact ht
  | @cons row row' _ _ hcopy _ ih =>
    apply ih
    unfold storeShown
    rw [(h.intact hcopy).1, hcopy.stripped, hcopy.fields.1]
    split_ifs
    · exact ht
    · exact forall₂_rows_put (fun _ _ hr => hr.1) ht ⟨rfl, .inl rfl⟩

section

variable (ctx : Context D) (h : Indistinct auth.actor s s')
include ctx h

/-- The obligation list answers alike, and leaves stores that are again indistinguishable. -/
theorem attention_indistinct (ref : ThreadRef) (options : PageOptions Scope) :
    (committed s (attention ctx s auth ref options)).1 = (committed s' (attention ctx s' auth ref options)).1 ∧
      Indistinct auth.actor (committed s (attention ctx s auth ref options)).2
        (committed s' (attention ctx s' auth ref options)).2 := by
  have hsh {rows rows' : List Attention}
      (hrows : List.Forall₂ (MaskedCopy fun e => canRead s auth.actor ref (some e)) rows rows') :
      rows'.map (shown s' auth.actor ref) = rows.map (shown s auth.actor ref) := by
    induction hrows with
    | nil => rfl
    | cons hcopy _ ih => rw [map_cons, map_cons, h.shown hcopy, ih]
  have hrows := h.obligations ref
  have hstor := h.foldl_storeShown hrows h.attention
  obtain ⟨rows, hleft⟩ := foldl_storeShown s auth.actor ref (obligations s auth.actor ref) s
  obtain ⟨rows', hleft'⟩ := foldl_storeShown s' auth.actor ref (obligations s' auth.actor ref) s'
  rw [hleft, hleft'] at hstor
  unfold attention
  dsimp only
  rw [h.loadThread, hsh hrows, hleft, hleft']
  cases loadThread ctx s ref with
  | error => exact ⟨rfl, h⟩
  | ok =>
    cases checked (page (sortedByNumber Attention.seq ((obligations s auth.actor ref).map
      (shown s auth.actor ref))) options (.attention ref auth.actor) (fun row => toString row.seq)
      ordinalFollows) with
    | error halt => exact ⟨rfl, h⟩
    | ok visible => exact ⟨rfl, h.thread, h.member, h.event, h.entry, h.entryRef, hstor⟩

/-- A caller cannot tell the two stores apart by a read, nor the stores the read leaves. -/
theorem look_indistinct (read : Read) :
    Option.Rel (fun x y => x.1 = y.1 ∧ Indistinct auth.actor x.2 y.2) (look ctx auth s read)
      (look ctx auth s' read) := by
  have hsame {α : Type} (answer : α → Found) (outcome : Except Halt α) :
      Option.Rel (fun x y => x.1 = y.1 ∧ Indistinct auth.actor x.2 y.2)
        (some (committed s (outcome.map fun found => (answer found, s))))
        (some (committed s' (outcome.map fun found => (answer found, s')))) := by
    cases outcome with
    | error | ok => exact .some ⟨rfl, h⟩
  unfold look find
  cases read with
  | list =>
    dsimp only
    rw [h.list]
    exact hsame .entries _
  | getByRef =>
    dsimp only
    rw [h.getByRef]
    exact hsame .entry _
  | events =>
    dsimp only
    rw [h.events]
    exact hsame .events _
  | snapshot =>
    dsimp only
    rw [h.snapshot]
    exact hsame .snapshot _
  | attention ref options =>
    obtain ⟨hans, hrows⟩ := attention_indistinct ctx h ref options
    dsimp only
    generalize Messages.attention ctx s auth ref options = outcome at hans hrows ⊢
    generalize Messages.attention ctx s' auth ref options = outcome' at hans hrows ⊢
    rcases outcome with halt | ⟨visible, t⟩ <;> rcases outcome' with halt' | ⟨visible', t'⟩ <;>
      cases hans <;> exact .some ⟨rfl, hrows⟩

theorem converse_indistinct (reads : List Read) :
    converse (look ctx auth) s reads = converse (look ctx auth) s' reads :=
  converse_eq_of_simulation (R := Indistinct auth.actor) (C := fun _ => True)
    (fun _ _ read _ hrel => look_indistinct ctx hrel read) (fun _ _ => trivial) h

end

/-! ## What an obligation shows -/

/-- A row of the obligation list carries an entry only if it is still stored and the caller may read
it. -/
theorem Attested.attention_entry {ctx : Context D} {options : PageOptions Scope}
    {visible : Page Attention Scope} (h : Attested s)
    (hread : attention ctx s auth ref options = .ok (visible, s')) (hrow : row ∈ visible.items) {entry : Entry}
    (hent : row.entry = some entry) : canRead s auth.actor ref (some entry) = true ∧
      s.entry.get (ref, entry.seq) = some entry := by
  simp only [attention, bind_eq_ok, checked_eq_ok] at hread
  obtain ⟨_, -, _, hpage, hread⟩ := hread
  cases hread
  have hitem := mem_of_page hpage hrow
  rw [sortedByNumber, (perm_insertionSort _ _).mem_iff, mem_map] at hitem
  obtain ⟨stored, hstor, rfl⟩ := hitem
  -- The row is one of this thread, and vouches for its entry.
  have hvouch : Vouched s.entry ref stored := by
    obtain ⟨hmem, -⟩ := mem_filter.mp hstor
    obtain ⟨⟨slot, stored'⟩, hrows, rfl⟩ := mem_map.mp hmem
    obtain ⟨hlist, href⟩ := mem_filter.mp hrows
    have hvouch := h.vouched slot stored' (mem_rows.mp hlist)
    rwa [of_decide_eq_true href] at hvouch
  unfold shown at hent
  split_ifs at hent with hintact
  · refine ⟨?_, (hvouch.stored entry hent).2⟩
    unfold intact at hintact
    rw [Bool.or_eq_true, Bool.and_eq_true, hent] at hintact
    rcases hintact with hexp | ⟨-, hreads⟩
    · rw [hvouch.expired hexp] at hent
      cases hent
    · simpa using hreads
  · cases hent

end Read

section Run

variable {D : Type} [DecidableEq D]

/-- Reads do not leak.  Two stores that differ only in the bodies of entries a caller may not read give
it the same answers, over any sequence of reads; and in every reachable state a row of the obligation
list carries an entry only if the caller may read it and it has not expired. -/
theorem reads_confidential (ctx : Context D) (auth : Auth) : (∀ s s' : Store D, Indistinct auth.actor s s' → ∀ reads,
      converse (look ctx auth) s reads = converse (look ctx auth) s' reads) ∧
    ∀ h s, Run (step ctx) {} h s → ∀ ref options visible s',
      attention ctx s auth ref options = .ok (visible, s') → ∀ row ∈ visible.items,
      ∀ entry, row.entry = some entry → canRead s auth.actor ref (some entry) = true ∧
        s.entry.get (ref, entry.seq) = some entry := by
  refine ⟨fun s s' hsame reads => converse_indistinct ctx hsame reads, ?_⟩
  intro h s hrun ref options visible s' hread row hrow entry hent
  exact (attested_of_run hrun).attention_entry hread hrow hent

end Run

namespace Scenario

/-- An entry of the thread `u` that says `msg`. -/
def saying (msg : String) : Entry where
  threadRef := contactRef
  seq := 1
  message := message "m" msg
  authenticatedAuthor := "b"
  replyAuthority := "b"
  stampedAt := "1970-01-01T00:00:00.000Z"

/-- The thread `u` with one entry, which only its owner may read. -/
def told (msg : String) : Store Digested where
  thread := (∅ : Table ThreadRef Thread).put contactRef (freshThread contactRef "u" "")
  entry := (∅ : Table (ThreadRef × Nat) Entry).put (contactRef, 1) (saying msg)
  entryRef := (∅ : Table MessageRef Entry).put ⟨"b", "m"⟩ (saying msg)

/-- `c` cannot tell what was said. -/
theorem told_indistinct (msg msg' : String) : Indistinct "c" (told msg) (told msg') where
  thread := rfl
  member := rfl
  event := rfl
  entry := .cons ⟨rfl, .inr ⟨rfl, rfl, rfl, rfl⟩⟩ .nil
  entryRef ref := by
    unfold told
    rw [get_put, get_put]
    split_ifs
    · exact .some (.inr ⟨rfl, rfl, rfl, rfl⟩)
    · exact .none
  attention := .nil

def showsEntry (store : Store Digested) : Bool :=
  match attention context store { actor := "n" } contactRef {} with
  | .ok (visible, _) => visible.items.any fun row => row.entry.isSome
  | .error _ => false

end Scenario

open Scenario in
/-- `c` reads the same whether the secret is one word or another, and the owner of a thread is shown
the entry of a first contact while it is stored. -/
theorem reads_confidential_secret : (told "yes").entry.get (contactRef, 1) ≠ (told "no").entry.get (contactRef, 1) ∧
    (∀ reads, converse (look context { actor := "c" }) (told "yes") reads =
      converse (look context { actor := "c" }) (told "no") reads) ∧
    ∃ h s, Run (step context) {} h s ∧ showsEntry s = true ∧
      ∀ ref options visible s', attention context s { actor := "n" } ref options =
        .ok (visible, s') → ∀ row ∈ visible.items, ∀ entry, row.entry = some entry →
        s.entry.get (ref, entry.seq) = some entry := by
  refine ⟨by decide, ?_, ?_⟩
  · exact (reads_confidential context { actor := "c" }).1 _ _ (told_indistinct "yes" "no")
  · obtain ⟨h, s, hrun, hshows⟩ := exists_run (step context) {} [sends "k" (message "m" "hello")]
      (fun _ s => showsEntry s) (by decide)
    refine ⟨h, s, hrun, hshows, ?_⟩
    intro ref options visible s' hread row hrow entry hent
    exact ((reads_confidential context { actor := "n" }).2 h s hrun ref options visible s' hread row hrow entry hent).2

end Onlyne.Messages
