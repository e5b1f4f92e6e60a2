import Onlyne.Foundation.Numbered
import Onlyne.Messages.Changes

/-!
# Messages: the log of a thread

`Consistent` is the invariant of the five tables of the log: the events of every thread carry exactly
the numbers up to its counter, every entry is below the next sequence number, is found by its
reference, by its record and by exactly one message event, and no message is announced twice.

Every call keeps it (`Consistent.change`), as long as the trace hook does not throw an `OnlyneError`
into an admission: `append` is not undone then, and `admit` records a refusal beside its writes.
-/

namespace Onlyne.Messages

open Foundation Table

section Invariant

variable {D : Type} {staged : Staged}

/-! ## Counters and announcements -/

/-- The next sequence number of a thread; a thread starts with `1`. -/
def nextSeq (log : Log D) (ref : ThreadRef) : Nat := ((log.thread.get ref).map Thread.nextSeq).getD 1

/-- The last event id of a thread; a thread starts with `0`. -/
def eventSeq (log : Log D) (ref : ThreadRef) : Nat :=
  ((log.thread.get ref).map Thread.eventSeq).getD 0

/-- The event in this slot announces the message `m` under the number `n`. -/
def Announces (log : Log D) (slot : ThreadRef × Nat) (m : MessageRef) (n : Nat) : Prop :=
  ∃ event, log.event.get slot = some event ∧ event.body = .message m n

variable {log log' : Log D} {ref : ThreadRef} {thread : Thread} {m : MessageRef}

theorem nextSeq_of_row (h : log.thread.get ref = some thread) : nextSeq log ref = thread.nextSeq := by
  simp [nextSeq, h]

theorem eventSeq_of_row (h : log.thread.get ref = some thread) : eventSeq log ref = thread.eventSeq := by
  simp [eventSeq, h]

theorem nextSeq_put (log : Log D) (h : log'.thread = log.thread.put ref thread) (ref' : ThreadRef) :
    nextSeq log' ref' = if ref' = ref then thread.nextSeq else nextSeq log ref' := by
  unfold nextSeq
  rw [h, get_put]
  split_ifs <;> rfl

theorem eventSeq_put (log : Log D) (h : log'.thread = log.thread.put ref thread) (ref' : ThreadRef) :
    eventSeq log' ref' = if ref' = ref then thread.eventSeq else eventSeq log ref' := by
  unfold eventSeq
  rw [h, get_put]
  split_ifs <;> rfl

theorem announces_put (log : Log D) {slot slot' : ThreadRef × Nat} {event : Event} {n : Nat}
    (h : log'.event = log.event.put slot event) (hfree : log.event.get slot = none) :
    Announces log' slot' m n ↔ Announces log slot' m n ∨ slot' = slot ∧ event.body = .message m n := by
  unfold Announces
  rw [h, get_put]
  by_cases hslot : slot' = slot
  · subst hslot
    simp [hfree]
  · simp [hslot]

/-! ## The invariant -/

structure Consistent (log : Log D) : Prop where
  threads : ∀ ref thread, log.thread.get ref = some thread → thread.threadRef = ref
  -- Event ids are exactly `1` to the event counter.
  events : Numbered log.event (eventSeq log)
  eventRows : ∀ slot event, log.event.get slot = some event → (event.threadRef, event.id) = slot
  -- An entry is stored under its number, which has been given out, and under its reference.
  entries : ∀ slot entry, log.entry.get slot = some entry → (entry.threadRef, entry.seq) = slot ∧
    slot.2 < nextSeq log slot.1 ∧ log.entryRef.get entry.message.ref = some entry
  receipts : ∀ slot entry, log.entry.get slot = some entry → ∃ record receipt,
    log.message.get entry.message.ref = some record ∧ record.verdict = .admitted receipt ∧
      receipt.messageRef = entry.message.ref ∧ (receipt.threadRef, receipt.seq) = slot
  announced : ∀ slot entry, log.entry.get slot = some entry →
    ∃ i, Announces log (slot.1, i) entry.message.ref slot.2
  -- A message event has a number that has been given out, and its message was admitted.
  numbers : ∀ slot m n, Announces log slot m n → n < nextSeq log slot.1
  known : ∀ slot m n, Announces log slot m n →
    ∃ record, log.message.get m = some record ∧ ∀ failure, record.verdict ≠ .refused failure
  bySeq : ∀ ref i i' m m' n, Announces log (ref, i) m n → Announces log (ref, i') m' n → i = i'
  byRef : ∀ slot slot' m n n', Announces log slot m n → Announces log slot' m n' → slot = slot'
  standing : Standing log

theorem consistent_empty : Consistent ({} : Store D).log := by
  have hev : ∀ slot, ({} : Store D).log.event.get slot = none := fun _ => rfl
  have hent : ∀ slot, ({} : Store D).log.entry.get slot = none := fun _ => rfl
  constructor
  case threads =>
    intro ref thread hrow
    cases hrow
  case events => exact Numbered.empty
  case eventRows =>
    intro slot event hrow
    cases (hev slot).symm.trans hrow
  case entries | receipts | announced =>
    intro slot entry hrow
    cases (hent slot).symm.trans hrow
  case numbers | known | bySeq | byRef =>
    simp [Announces, hev]
  case standing =>
    intro identity record failure hrec
    cases hrec

/-! ## One change keeps it -/

namespace Consistent

variable {log log' : Log D} {slot : ThreadRef × Nat}

theorem rethread (h : Consistent log) {ref : ThreadRef} {thread : Thread}
    (href : thread.threadRef = ref) (hnext : thread.nextSeq = nextSeq log ref)
    (hev : thread.eventSeq = eventSeq log ref) : Consistent { log with thread := log.thread.put ref thread } := by
  have hnext' : ∀ ref', nextSeq { log with thread := log.thread.put ref thread } ref' = nextSeq log ref' := by
    intro ref'
    rw [nextSeq_put log rfl]
    split_ifs with heq
    · rw [hnext, heq]
    · rfl
  have hev' : ∀ ref', eventSeq { log with thread := log.thread.put ref thread } ref' = eventSeq log ref' := by
    intro ref'
    rw [eventSeq_put log rfl]
    split_ifs with heq
    · rw [hev, heq]
    · rfl
  refine { h with threads := ?threads, events := ?events, entries := ?entries, numbers := ?numbers }
  case threads =>
    intro ref' thread' hrow
    exact of_put h.threads hrow href
  case events =>
    intro ref' i
    rw [hev']
    exact h.events ref' i
  case entries =>
    intro slot entry hrow
    rw [hnext']
    exact h.entries slot entry hrow
  case numbers =>
    intro slot m n hann
    rw [hnext']
    exact h.numbers slot m n hann

theorem record (h : Consistent log) {ref : ThreadRef} {thread next : Thread} {body : EventBody}
    (hrow : log.thread.get ref = some thread) (href : next.threadRef = ref)
    (hnext : next.nextSeq = thread.nextSeq) (hev : next.eventSeq = thread.eventSeq)
    (hbody : ∀ m n, body ≠ .message m n) : Consistent { log with
      thread := log.thread.put ref { next with eventSeq := next.eventSeq + 1 }
      event := log.event.put (ref, next.eventSeq + 1) ⟨next.eventSeq + 1, ref, body⟩ } := by
  have hcnt : next.eventSeq = eventSeq log ref := by rw [eventSeq_of_row hrow, hev]
  rw [hcnt]
  have hfree := h.events.get_next ref
  set log' : Log D := { log with
    thread := log.thread.put ref { next with eventSeq := eventSeq log ref + 1 }
    event := log.event.put (ref, eventSeq log ref + 1) ⟨eventSeq log ref + 1, ref, body⟩ }
  have hnext' : ∀ ref', nextSeq log' ref' = nextSeq log ref' := by
    intro ref'
    rw [nextSeq_put log rfl]
    split_ifs with heq
    · rw [heq, nextSeq_of_row hrow, ← hnext]
    · rfl
  have hann : ∀ slot m n, Announces log' slot m n ↔ Announces log slot m n := by
    intro slot m n
    rw [announces_put log rfl hfree]
    simp [hbody]
  constructor
  case threads =>
    intro ref' thread' hrow'
    exact of_put h.threads hrow' href
  case events =>
    apply h.events.append ref
    intro ref'
    rw [eventSeq_put log rfl]
  case eventRows =>
    intro slot event hslot
    exact of_put h.eventRows hslot rfl
  case entries =>
    intro slot entry hslot
    rw [hnext']
    exact h.entries slot entry hslot
  case receipts => exact h.receipts
  case announced =>
    intro slot entry hslot
    obtain ⟨i, hi⟩ := h.announced slot entry hslot
    exact ⟨i, (hann _ _ _).mpr hi⟩
  case numbers =>
    intro slot m n hslot
    rw [hnext']
    exact h.numbers slot m n ((hann _ _ _).mp hslot)
  case known =>
    intro slot m n hslot
    exact h.known slot m n ((hann _ _ _).mp hslot)
  case bySeq =>
    intro ref' i i' m m' n hi hi'
    exact h.bySeq ref' i i' m m' n ((hann _ _ _).mp hi) ((hann _ _ _).mp hi')
  case byRef =>
    intro slot slot' m n n' hslot hslot'
    exact h.byRef slot slot' m n n' ((hann _ _ _).mp hslot) ((hann _ _ _).mp hslot')
  case standing => exact h.standing

/-! ### Posting an entry -/

section Post

variable {thread : Thread} {entry : Entry} (record : Remembered D)

theorem nextSeq_post (ref : ThreadRef) : nextSeq (log.post thread entry record) ref =
    if ref = entry.threadRef then thread.nextSeq + 1 else nextSeq log ref := by
  rw [nextSeq_put log rfl]

variable (h : Consistent log) (hrow : log.thread.get entry.threadRef = some thread)
include hrow

theorem nextSeq_le_post (ref : ThreadRef) : nextSeq log ref ≤ nextSeq (log.post thread entry record) ref := by
  rw [nextSeq_post]
  split_ifs with heq
  · rw [heq, nextSeq_of_row hrow]
    exact Nat.le_succ _
  · exact le_rfl

include h

theorem announces_post (slot : ThreadRef × Nat) (m : MessageRef) (n : Nat) :
    Announces (log.post thread entry record) slot m n ↔ Announces log slot m n ∨
      slot = (entry.threadRef, thread.eventSeq + 1) ∧ m = entry.message.ref ∧ n = thread.nextSeq := by
  have hfree : log.event.get (entry.threadRef, thread.eventSeq + 1) = none := by
    rw [← eventSeq_of_row hrow]
    exact h.events.get_next _
  rw [announces_put log rfl hfree]
  simp [eq_comm]

theorem not_announces_next (i : Nat) (m : MessageRef) : ¬ Announces log (entry.threadRef, i) m thread.nextSeq := by
  intro hann
  have hlt := h.numbers _ m _ hann
  rw [nextSeq_of_row hrow] at hlt
  exact lt_irrefl _ hlt

theorem post_bySeq (ref : ThreadRef) (i i' : Nat) (m m' : MessageRef) (n : Nat)
    (hi : Announces (log.post thread entry record) (ref, i) m n)
    (hi' : Announces (log.post thread entry record) (ref, i') m' n) : i = i' := by
  rw [h.announces_post record hrow] at hi hi'
  rcases hi with hold | ⟨heq, -, rfl⟩ <;> rcases hi' with hold' | ⟨heq', -, hn⟩
  · exact h.bySeq ref i i' m m' n hold hold'
  · cases heq'
    rw [hn] at hold
    exact absurd hold (h.not_announces_next hrow i m)
  · cases heq
    exact absurd hold' (h.not_announces_next hrow i' m')
  · cases heq
    cases heq'
    rfl

variable (hfr : log.message.get entry.message.ref = none)
include hfr

omit hrow in
/-- A message that was announced before has a record, and the posted one had none. -/
theorem not_announces_fresh (slot : ThreadRef × Nat) (n : Nat) : ¬ Announces log slot entry.message.ref n := by
  intro hann
  obtain ⟨r, hr, -⟩ := h.known slot _ n hann
  cases hfr.symm.trans hr

omit hrow in
theorem ref_ne_fresh {entry' : Entry}
    (hslot : log.entry.get slot = some entry') : entry'.message.ref ≠ entry.message.ref := by
  intro hsame
  obtain ⟨r, -, hr, -⟩ := h.receipts slot entry' hslot
  rw [hsame, hfr] at hr
  cases hr

theorem post_byRef (slot slot' : ThreadRef × Nat) (m : MessageRef) (n n' : Nat)
    (hslot : Announces (log.post thread entry record) slot m n)
    (hslot' : Announces (log.post thread entry record) slot' m n') : slot = slot' := by
  rw [h.announces_post record hrow] at hslot hslot'
  rcases hslot with hold | ⟨heq, rfl, -⟩ <;> rcases hslot' with hold' | ⟨heq', hm', -⟩
  · exact h.byRef slot slot' m n n' hold hold'
  · rw [hm'] at hold
    exact absurd hold (h.not_announces_fresh hfr slot n)
  · exact absurd hold' (h.not_announces_fresh hfr slot' n')
  · rw [heq, heq']

variable {record}

theorem post {receipt : Receipt} (hseq : entry.seq = thread.nextSeq) (hverd : record.verdict = .admitted receipt)
    (hrcpt : receipt.messageRef = entry.message.ref ∧ receipt.threadRef = entry.threadRef ∧
      receipt.seq = thread.nextSeq) : Consistent (log.post thread entry record) := by
  have hgrows := nextSeq_le_post record hrow
  have hann := h.announces_post record hrow
  have hlast : thread.nextSeq < nextSeq (log.post thread entry record) entry.threadRef := by
    rw [nextSeq_post, if_pos rfl]
    exact Nat.lt_succ_self _
  constructor
  case threads =>
    intro ref' thread' hrow'
    exact of_put h.threads hrow' (h.threads _ thread hrow)
  case events =>
    rw [Log.post, ← eventSeq_of_row hrow]
    apply h.events.append
    intro ref'
    rw [eventSeq_put log rfl]
  case eventRows =>
    intro slot event hslot
    exact of_put h.eventRows hslot rfl
  case entries =>
    intro slot entry' hslot
    rcases get_put_cases hslot with ⟨rfl, rfl⟩ | ⟨-, hold⟩
    · exact ⟨by rw [hseq], hlast, get_put_self ..⟩
    · obtain ⟨hkey, hlt, href⟩ := h.entries slot entry' hold
      refine ⟨hkey, lt_of_lt_of_le hlt (hgrows _), ?_⟩
      rw [← href]
      exact get_put_ne _ _ (h.ref_ne_fresh hfr hold)
  case receipts =>
    intro slot entry' hslot
    rcases get_put_cases hslot with ⟨rfl, rfl⟩ | ⟨-, hold⟩
    · obtain ⟨hmsg, hthr, hnum⟩ := hrcpt
      exact ⟨record, receipt, get_put_self .., hverd, hmsg, by rw [hthr, hnum]⟩
    · obtain ⟨r, receipt', hr, hrest⟩ := h.receipts slot entry' hold
      refine ⟨r, receipt', ?_, hrest⟩
      rw [← hr]
      exact get_put_ne _ _ (h.ref_ne_fresh hfr hold)
  case announced =>
    intro slot entry' hslot
    rcases get_put_cases hslot with ⟨rfl, rfl⟩ | ⟨-, hold⟩
    · exact ⟨thread.eventSeq + 1, (hann _ _ _).mpr (.inr ⟨rfl, rfl, rfl⟩)⟩
    · obtain ⟨i, hi⟩ := h.announced slot entry' hold
      exact ⟨i, (hann _ _ _).mpr (.inl hi)⟩
  case numbers =>
    intro slot m n hslot
    rcases (hann _ _ _).mp hslot with hold | ⟨rfl, -, rfl⟩
    · exact lt_of_lt_of_le (h.numbers slot m n hold) (hgrows _)
    · exact hlast
  case known =>
    intro slot m n hslot
    rcases (hann _ _ _).mp hslot with hold | ⟨-, rfl, -⟩
    · obtain ⟨r, hr, hverd'⟩ := h.known slot m n hold
      refine ⟨r, ?_, hverd'⟩
      rw [← hr]
      apply get_put_ne
      rintro rfl
      exact h.not_announces_fresh hfr slot n hold
    · exact ⟨record, get_put_self .., by simp [hverd]⟩
  case bySeq => exact h.post_bySeq record hrow
  case byRef => exact h.post_byRef record hrow hfr
  case standing =>
    intro identity r failure hr hrfs
    rcases get_put_cases hr with ⟨rfl, rfl⟩ | ⟨-, hold⟩
    · cases hverd.symm.trans hrfs
    · exact h.standing identity r failure hold hrfs

end Post

/-! ### Records and expiry -/

section

variable (h : Consistent log)
include h

/-- Rewriting a record without taking anything back: a fresh identity is refused, or the one entry of
an admitted identity is dropped with its receipt. -/
theorem remember {identity : MessageRef} {record : Remembered D}
    (hstd : ∀ failure, record.verdict = .refused failure → recordedRefusal failure.code = true)
    (hkn : (∃ r, log.message.get identity = some r) → ∀ failure, record.verdict ≠ .refused failure)
    (hent : ∀ slot entry, log.entry.get slot = some entry → entry.message.ref ≠ identity) :
    Consistent { log with message := log.message.put identity record } := by
  refine { h with receipts := ?receipts, known := ?known, standing := ?standing }
  case receipts =>
    intro slot entry hslot
    obtain ⟨r, receipt, hr, hrest⟩ := h.receipts slot entry hslot
    refine ⟨r, receipt, ?_, hrest⟩
    rw [← hr]
    exact get_put_ne _ _ (hent slot entry hslot)
  case known =>
    intro slot m n hann
    obtain ⟨r, hr, hverd⟩ := h.known slot m n hann
    by_cases hm : m = identity
    · subst hm
      exact ⟨record, get_put_self .., hkn ⟨r, hr⟩⟩
    · refine ⟨r, ?_, hverd⟩
      rw [← hr]
      exact get_put_ne _ _ hm
  case standing =>
    intro m r failure hr hrfs
    rcases get_put_cases hr with ⟨rfl, rfl⟩ | ⟨-, hold⟩
    · exact hstd failure hrfs
    · exact h.standing m r failure hold hrfs

theorem refuse {identity : MessageRef} (digest : D) (retryUntil : String)
    (failure : Failure) (hfr : log.message.get identity = none) :
    Consistent (log.refuse identity digest retryUntil failure) := by
  unfold Log.refuse
  split_ifs with hrec
  · apply h.remember
    · intro failure' heq
      cases heq
      exact hrec
    · rintro ⟨r, hr⟩
      cases hfr.symm.trans hr
    · rintro slot entry hslot rfl
      obtain ⟨r, -, hr, -⟩ := h.receipts slot entry hslot
      cases hfr.symm.trans hr
  · exact h

theorem forget {entry : Entry} (hrow : log.entry.get slot = some entry) : Consistent { log with
      entry := log.entry.delete slot
      entryRef := log.entryRef.delete entry.message.ref } := by
  refine { h with entries := ?entries, receipts := ?receipts, announced := ?announced }
  case entries =>
    intro slot' entry' hslot
    obtain ⟨hne, hold⟩ := get_of_delete hslot
    obtain ⟨hkey, hlt, href⟩ := h.entries slot' entry' hold
    refine ⟨hkey, hlt, ?_⟩
    rw [← href]
    apply get_delete_ne
    -- Two entries of one message would be the same entry, in the same slot.
    intro hsame
    obtain ⟨hkey₀, -, href₀⟩ := h.entries slot entry hrow
    rw [hsame, href₀] at href
    cases href
    exact hne (hkey.symm.trans hkey₀)
  case receipts =>
    exact fun slot' entry' hslot => h.receipts slot' entry' (get_of_delete hslot).2
  case announced =>
    exact fun slot' entry' hslot => h.announced slot' entry' (get_of_delete hslot).2

theorem buries (hbury : Buries log log') : Consistent log' := by
  cases hbury with
  | @bury slot entry record row remembered =>
    apply (h.forget row).remember
    · simp
    · simp
    · intro slot' entry' hslot' hsame
      obtain ⟨-, -, href'⟩ := (h.forget row).entries slot' entry' hslot'
      rw [hsame] at href'
      cases (get_delete_self log.entryRef entry.message.ref).symm.trans href'

theorem contact (member : Member) (hland : Landed log staged) : Consistent (log.contact staged member) ∧
      (log.contact staged member).thread.get staged.threadRef = some staged.contactThread := by
  unfold Landed at hland
  unfold Log.contact Staged.contactThread
  cases hfst : staged.firstContact with
  | false =>
    rw [hfst] at hland
    exact ⟨h, hland⟩
  | true =>
    rw [hfst] at hland
    obtain ⟨hfree, title, createdAt, hthr⟩ := hland
    -- Opening the thread and recording the membership are the changes of two calls.
    have hopen : Consistent { log with thread := log.thread.put staged.threadRef staged.thread } := by
      apply h.rethread <;> simp [hthr, freshThread, nextSeq, eventSeq, hfree]
    have hoth : ∀ m n, EventBody.membership member ≠ .message m n := by simp
    have hrec := hopen.record (get_put_self ..) (by simp [hthr, freshThread]) rfl rfl hoth
    simp only [put_put] at hrec
    exact ⟨hrec, get_put_self ..⟩

theorem upkeep (hkeep : Upkeep log log') : Consistent log' := by
  cases hkeep with
  | kept => exact h
  | @opened ref title createdAt free =>
    apply h.rethread <;> simp [freshThread, nextSeq, eventSeq, free]
  | @retitled ref thread title row =>
    apply h.rethread
    · exact h.threads ref thread row
    · exact (nextSeq_of_row row).symm
    · exact (eventSeq_of_row row).symm
  | @recorded ref thread next body row sameRef sameNext sameEvent other =>
    have href : next.threadRef = ref := sameRef.trans (h.threads ref thread row)
    subst href
    exact h.record row rfl sameNext sameEvent other
  | buried rows =>
    induction rows with
    | refl => exact h
    | tail _ hbury ih => exact ih.buries hbury

theorem change {ctx : Context D} (hchg : Change ctx log log') : Consistent log' := by
  cases hchg with
  | upkeep hkeep => exact h.upkeep hkeep
  | refused digest retryUntil failure fresh => exact h.refuse digest retryUntil failure fresh
  | @admitted staged auth request input fresh landed =>
    obtain ⟨hcont, hrow⟩ := h.contact (contactMember request.message.sender input.revision) landed
    refine hcont.post hrow ?_ ?_ rfl ⟨rfl, rfl, ?_⟩
    · rw [contact_message]
      exact fresh
    · simp [Staged.entry]
    · simp [Staged.receipt]

end

end Consistent

/-! ## Numbers -/

/-- The step from `log` to `log'` admits the message `m` with this receipt. -/
def Admits (log log' : Log D) (m : MessageRef) (receipt : Receipt) : Prop :=
  log.message.get m = none ∧
    ∃ record, log'.message.get m = some record ∧ record.verdict = .admitted receipt

theorem Upkeep.fresh (h : Upkeep log log') (hnone : log.message.get m = none) : log'.message.get m = none := by
  rcases h.rows with ⟨hmsg, -⟩ | rows
  · rw [hmsg, hnone]
  · induction rows with
    | refl => exact hnone
    | tail rows hbury ih =>
      have hmid := ih (.buried rows)
      cases hbury with
      | @bury slot entry record row remembered =>
        refine (get_put_ne _ _ ?_).trans hmid
        rintro rfl
        cases hmid.symm.trans remembered

theorem admits_put {identity : MessageRef} {record : Remembered D} {receipt : Receipt}
    (hmsg : log'.message = log.message.put identity record) (h : Admits log log' m receipt) :
    m = identity ∧ record.verdict = .admitted receipt := by
  obtain ⟨hnone, record', hrec, hverd⟩ := h
  rw [hmsg] at hrec
  rcases get_put_cases hrec with ⟨rfl, rfl⟩ | ⟨-, hold⟩
  · exact ⟨rfl, hverd⟩
  · cases hnone.symm.trans hold

theorem Landed.nextSeq_eq (h : Landed log staged) : nextSeq log staged.threadRef = staged.thread.nextSeq := by
  unfold Landed at h
  split at h
  · exact nextSeq_of_row h
  · obtain ⟨hfree, title, createdAt, hthr⟩ := h
    simp [nextSeq, hfree, hthr, freshThread]

theorem Upkeep.not_admits (h : Upkeep log log') (m : MessageRef) (receipt : Receipt) : ¬ Admits log log' m receipt := by
  rintro ⟨hnone, record, hrec, -⟩
  cases (h.fresh hnone).symm.trans hrec

theorem Upkeep.nextSeq_eq (h : Upkeep log log')
    (hthrs : ∀ ref thread, log.thread.get ref = some thread → thread.threadRef = ref) (ref : ThreadRef) :
    nextSeq log' ref = nextSeq log ref := by
  cases h with
  | kept => rfl
  | @opened ref' title createdAt free =>
    rw [nextSeq_put log rfl]
    split_ifs with heq
    · simp [freshThread, nextSeq, heq, free]
    · rfl
  | @retitled ref' thread title row =>
    rw [nextSeq_put log rfl]
    split_ifs with heq
    · rw [heq, nextSeq_of_row row]
    · rfl
  | @recorded ref' thread next body row sameRef sameNext sameEvent other =>
    rw [nextSeq_put log rfl]
    split_ifs with heq
    · rw [heq, sameRef, hthrs ref' thread row, nextSeq_of_row row, sameNext]
    · rfl
  | buried rows =>
    unfold nextSeq
    rw [buried_thread rows]

/-- A change admits one message and uses up the next number of its thread, or admits none and leaves
every next number as it is. -/
theorem Consistent.numbers_cases {ctx : Context D} (h : Consistent log) (hchg : Change ctx log log') :
    (∃ m receipt, Admits log log' m receipt ∧
      (∀ m' receipt', Admits log log' m' receipt' → m' = m ∧ receipt' = receipt) ∧
      receipt.seq = nextSeq log receipt.threadRef ∧
      ∀ ref, nextSeq log' ref = if ref = receipt.threadRef then receipt.seq + 1 else nextSeq log ref) ∨
    (∀ m receipt, ¬ Admits log log' m receipt) ∧ ∀ ref, nextSeq log' ref = nextSeq log ref := by
  cases hchg with
  | upkeep hkeep => exact .inr ⟨hkeep.not_admits, hkeep.nextSeq_eq h.threads⟩
  | @refused identity digest retryUntil failure fresh =>
    refine .inr ⟨?_, ?_⟩
    · intro m receipt hadm
      unfold Log.refuse at hadm
      split_ifs at hadm
      · cases (admits_put rfl hadm).2
      · exact Upkeep.kept.not_admits m receipt hadm
    · intro ref
      unfold Log.refuse
      split_ifs <;> rfl
  | @admitted staged auth request input fresh landed =>
    have hseq := landed.nextSeq_eq
    have hmsg := admit_message log ctx auth request input staged
    refine .inl ⟨request.message.ref, staged.receipt ctx request input, ?_, ?_, hseq.symm, ?_⟩
    · exact ⟨fresh, _, by rw [hmsg]; exact get_put_self .., rfl⟩
    · intro m receipt hadm
      obtain ⟨hm, hverd⟩ := admits_put hmsg hadm
      cases hverd
      exact ⟨hm, rfl⟩
    · intro ref
      rw [nextSeq_put log (contact_thread_put ..), contactThread_nextSeq]
      rfl

section Numbers

variable {ctx : Context D} {log log' : Log D} (hlog : Consistent log) (hchg : Change ctx log log')
  {receipt : Receipt}
include hlog hchg

theorem admits_number {m : MessageRef} (hadm : Admits log log' m receipt) :
    receipt.seq = nextSeq log receipt.threadRef ∧ nextSeq log' receipt.threadRef = receipt.seq + 1 := by
  rcases hlog.numbers_cases hchg with ⟨m₀, receipt₀, -, honly, hseq, hnext⟩ | ⟨hnone, -⟩
  · obtain ⟨-, rfl⟩ := honly m receipt hadm
    exact ⟨hseq, by rw [hnext, if_pos rfl]⟩
  · exact absurd hadm (hnone m receipt)

theorem admits_unique {m m' : MessageRef} {receipt' : Receipt}
    (hadm : Admits log log' m receipt) (hadm' : Admits log log' m' receipt') : m = m' ∧ receipt = receipt' := by
  rcases hlog.numbers_cases hchg with ⟨m₀, receipt₀, -, honly, -, -⟩ | ⟨hnone, -⟩
  · obtain ⟨rfl, rfl⟩ := honly m receipt hadm
    obtain ⟨rfl, rfl⟩ := honly m' receipt' hadm'
    exact ⟨rfl, rfl⟩
  · exact absurd hadm (hnone m receipt)

theorem admits_of_moved {ref : ThreadRef} (hmv : nextSeq log' ref ≠ nextSeq log ref) :
    ∃ m receipt, Admits log log' m receipt ∧ receipt.threadRef = ref := by
  rcases hlog.numbers_cases hchg with ⟨m, receipt, hadm, -, -, hnext⟩ | ⟨-, hsame⟩
  · refine ⟨m, receipt, hadm, ?_⟩
    by_contra hne
    rw [hnext, if_neg fun heq => hne heq.symm] at hmv
    exact hmv rfl
  · exact absurd (hsame ref) hmv

theorem nextSeq_mono (ref : ThreadRef) : nextSeq log ref ≤ nextSeq log' ref := by
  by_cases hmv : nextSeq log' ref = nextSeq log ref
  · exact le_of_eq hmv.symm
  · obtain ⟨m, receipt, hadm, rfl⟩ := admits_of_moved hlog hchg hmv
    obtain ⟨hseq, hnext⟩ := admits_number hlog hchg hadm
    omega

end Numbers

end Invariant

/-! ## Runs -/

section Runs

variable {D : Type} [DecidableEq D] {ctx : Context D} {h : List (Transition (Store D) Call)}
  {s : Store D}

theorem consistent_step {s s' : Store D} {call : Call} (hlog : Consistent s.log)
    (hstep : step ctx s call = some s') (hsafe : traceSafe call = true) : Consistent s'.log :=
  hlog.change (step_change hlog.standing hsafe hstep)

section

variable (hrun : Run (step ctx) {} h s) (hsafe : ∀ t ∈ h, traceSafe t.act = true)
include hrun hsafe

theorem consistent_of_run : Consistent s.log :=
  hrun.invariant_of (I := fun s => Consistent s.log) (C := fun t => traceSafe t.act = true) hsafe
    consistent_empty fun _ _ _ => consistent_step

theorem change_of_mem {t : Transition (Store D) Call} (ht : t ∈ h) :
    Consistent t.before.log ∧ Change ctx t.before.log t.after.log := by
  have hI : Consistent t.before.log :=
    hrun.before_of (I := fun s => Consistent s.log) hsafe consistent_empty (fun _ _ _ => consistent_step) ht
  exact ⟨hI, step_change hI.standing (hsafe t ht) (hrun.step_of_mem ht)⟩

end

/-- Where a live entry is found: under its own number, below the next one; by its reference; by the
receipt of its message; and by one event, the only one of its message and of its number. -/
structure Filed (log : Log D) (ref : ThreadRef) (n : Nat) (entry : Entry) : Prop where
  number : entry.threadRef = ref ∧ entry.seq = n ∧ n < nextSeq log ref
  reference : log.entryRef.get entry.message.ref = some entry
  receipt : ∃ record receipt, log.message.get entry.message.ref = some record ∧
    record.verdict = .admitted receipt ∧ receipt.threadRef = ref ∧ receipt.seq = n
  event : ∃ i, Announces log (ref, i) entry.message.ref n ∧
    ∀ slot m' n', Announces log slot m' n' → m' = entry.message.ref ∨ slot.1 = ref ∧ n' = n →
      slot = (ref, i)

omit [DecidableEq D] in
theorem Consistent.filed {log : Log D} (hlog : Consistent log) {ref : ThreadRef} {n : Nat}
    {entry : Entry} (hrow : log.entry.get (ref, n) = some entry) : Filed log ref n entry := by
  obtain ⟨hkey, hlt, href⟩ := hlog.entries _ entry hrow
  obtain ⟨rfl, rfl⟩ := Prod.mk.inj hkey
  obtain ⟨record, receipt, hrec, hverd, -, hslot⟩ := hlog.receipts _ entry hrow
  obtain ⟨hthr, hseq⟩ := Prod.mk.inj hslot
  obtain ⟨i, hi⟩ := hlog.announced _ entry hrow
  refine ⟨⟨rfl, rfl, hlt⟩, href, ⟨record, receipt, hrec, hverd, hthr, hseq⟩, i, hi, ?_⟩
  rintro ⟨ref', i'⟩ m' n' hann (rfl | ⟨rfl, rfl⟩)
  · exact hlog.byRef _ _ _ _ _ hann hi
  · rw [hlog.bySeq _ _ _ _ _ _ hann hi]

/-- **The thread log.**  In every run of the message and thread services in which no trace hook throws
an `OnlyneError` into an admission:

- every live entry is filed under a number of its own, below the next one;
- event ids are exactly `1` to the event counter;
- a call moves a next number only by admitting a message under it, and then by one;
- of two admissions to one thread the later has the larger number. -/
theorem thread_log_kept (hrun : Run (step ctx) {} h s) (hsafe : ∀ t ∈ h, traceSafe t.act = true) :
    (∀ ref n entry, s.entry.get (ref, n) = some entry → Filed s.log ref n entry) ∧
    (∀ ref i, (s.event.get (ref, i)).isSome = true ↔ 1 ≤ i ∧ i ≤ eventSeq s.log ref) ∧
    (∀ ref i event, s.event.get (ref, i) = some event → event.threadRef = ref ∧ event.id = i) ∧ (∀ t ∈ h,
      (∀ m receipt, Admits t.before.log t.after.log m receipt → receipt.seq = nextSeq t.before.log receipt.threadRef ∧
          nextSeq t.after.log receipt.threadRef = receipt.seq + 1) ∧
      (∀ m m' receipt receipt', Admits t.before.log t.after.log m receipt →
        Admits t.before.log t.after.log m' receipt' → m = m' ∧ receipt = receipt') ∧
      ∀ ref, nextSeq t.after.log ref ≠ nextSeq t.before.log ref →
        ∃ m receipt, Admits t.before.log t.after.log m receipt ∧ receipt.threadRef = ref) ∧
    h.Pairwise fun t t' => ∀ m m' receipt receipt', Admits t.before.log t.after.log m receipt →
      Admits t'.before.log t'.after.log m' receipt' → receipt.threadRef = receipt'.threadRef →
      receipt.seq < receipt'.seq := by
  have hlog := consistent_of_run hrun hsafe
  refine ⟨fun ref n entry => hlog.filed, hlog.events, ?_, ?_, ?_⟩
  · intro ref i event hrow
    exact Prod.mk.inj (hlog.eventRows _ event hrow)
  · intro t ht
    obtain ⟨hbef, hchg⟩ := change_of_mem hrun hsafe ht
    refine ⟨fun m receipt => admits_number hbef hchg, ?_, ?_⟩
    · exact fun m m' receipt receipt' => admits_unique hbef hchg
    · exact fun ref => admits_of_moved hbef hchg
  -- An admission leaves the next number above its own, and next numbers never go back.
  · refine hrun.pairwise_of (I := fun s => Consistent s.log) (C := fun t => traceSafe t.act = true)
      (P := fun t s => ∀ m receipt, Admits t.before.log t.after.log m receipt →
        receipt.seq < nextSeq s.log receipt.threadRef)
      hsafe consistent_empty (fun _ _ _ => consistent_step) ?_ ?_ ?_
    · intro s a s' hI hstep hC m receipt hadm
      have hnum := admits_number hI (step_change hI.standing hC hstep) hadm
      rw [hnum.2]
      exact Nat.lt_succ_self _
    · intro t s a s' hI hP hstep hC m receipt hadm
      exact lt_of_lt_of_le (hP m receipt hadm) (nextSeq_mono hI (step_change hI.standing hC hstep) _)
    · intro t s a s' hI hP hstep hC m m' receipt receipt' hadm hadm' hthr
      have hnum := admits_number hI (step_change hI.standing hC hstep) hadm'
      rw [hnum.1, ← hthr]
      exact hP m receipt hadm

namespace Scenario

def firstExpired : List Call :=
  [sends "k1" (message "m1" "hello"), sends "k2" (message "m2" "again" (some contactRef)),
    .expire { actor := "n" } contactRef "2" fun _ => 200]

/-- A first contact whose trace hook fails with an error of the library. -/
def tornContact : List Call :=
  [sends "k1" (message "m1" "hello")
    { welcoming with traceReceived := .error (.onlyne (onlyneError .unavailable "The log is full.")) }]

end Scenario

open Scenario in
/-- After an expiry the second message is still filed under its own number. -/
theorem thread_log_kept_firstExpired : ∃ h s entry, Run (step context) {} h s ∧ s.entry.get (contactRef, 1) = none ∧
      s.entry.get (contactRef, 2) = some entry ∧ nextSeq s.log contactRef = 3 ∧ Filed s.log contactRef 2 entry := by
  obtain ⟨h, s, hrun, hsafe, hgone, hlive, hnext⟩ := exists_run (step context) {} firstExpired
    (fun h s => (∀ t ∈ h, traceSafe t.act = true) ∧ s.entry.get (contactRef, 1) = none ∧
      (s.entry.get (contactRef, 2)).isSome = true ∧
      nextSeq s.log contactRef = 3) (by decide)
  obtain ⟨entry, hent⟩ := Option.isSome_iff_exists.mp hlive
  exact ⟨h, s, entry, hrun, hgone, hent, hnext, (thread_log_kept hrun hsafe).1 _ _ _ hent⟩

open Scenario in
/-- A trace hook that fails tears the log: the entry stays, the event counter is at `2`, and the event
of the message is missing. -/
theorem trace_error_tears_log : ∃ h s, Run (step context) {} h s ∧ (s.entry.get (contactRef, 1)).isSome = true ∧
      eventSeq s.log contactRef = 2 ∧ s.event.get (contactRef, 2) = none ∧
      ∀ row ∈ s.event.rows, ∀ m n, row.2.body ≠ .message m n := by
  obtain ⟨h, s, hrun, hlive, hcnt, hgap, hbodies⟩ := exists_run (step context) {} tornContact
    (fun _ s => (s.entry.get (contactRef, 1)).isSome = true ∧
      eventSeq s.log contactRef = 2 ∧ s.event.get (contactRef, 2) = none ∧
      ∀ row ∈ s.event.rows, row.2.body matches .membership _) (by decide)
  refine ⟨h, s, hrun, hlive, hcnt, hgap, ?_⟩
  intro row hmem m n hbody
  have hmemb := hbodies row hmem
  rw [hbody] at hmemb
  cases hmemb

end Runs

end Onlyne.Messages
