import Onlyne.Messages.ThreadLog

/-!
# Messages: the events a caller sees

`events` of `messages.ts` lists the events of a thread in the order of their ids and leaves out what the
caller may not see.  While nothing expires and the membership of the caller stays as it is, that listing
grows at its end only (`visible_grows`), whatever calls the node serves: an event takes an id above every
id given out before, and what an event announces stays readable.

This holds of torn admissions as well: they use up an id without an event, and `Listed` asks for no more
than that no event has an id above the counter.
-/

namespace Onlyne.Messages

open Foundation Table List

section Log

variable {D : Type} {identity : MessageRef}

/-! ## The rows of the events -/

structure Listed (log : Log D) : Prop where
  threads : ∀ ref thread, log.thread.get ref = some thread → thread.threadRef = ref
  rows : ∀ slot event, log.event.get slot = some event → (event.threadRef, event.id) = slot
  -- Ids are given out from `1` on, and the counter is the last one.
  counted : ∀ slot event, log.event.get slot = some event → 1 ≤ slot.2 ∧ slot.2 ≤ eventSeq log slot.1
  known : ∀ slot m n, Announces log slot m n → log.message.get m ≠ none
  standing : Standing log

/-- Threads and events stay, and a new event has an id above the counter. -/
structure Extends (log log' : Log D) : Prop where
  counter : ∀ ref, eventSeq log ref ≤ eventSeq log' ref
  thread : ∀ ref thread, log.thread.get ref = some thread →
    ∃ thread', log'.thread.get ref = some thread' ∧ thread'.threadRef = thread.threadRef
  event : ∀ slot event, log.event.get slot = some event → log'.event.get slot = some event
  new : ∀ slot event, log'.event.get slot = some event →
    log.event.get slot = some event ∨ eventSeq log slot.1 < slot.2

theorem listed_empty : Listed ({} : Store D).log := by
  have hev : ∀ slot, ({} : Store D).log.event.get slot = none := fun _ => rfl
  constructor
  case threads =>
    intro ref thread hrow
    cases hrow
  case rows | counted =>
    intro slot event hrow
    cases (hev slot).symm.trans hrow
  case known => simp [Announces, hev]
  case standing =>
    intro identity record failure hrec
    cases hrec

theorem Extends.refl (log : Log D) : Extends log log where
  counter _ := le_rfl
  thread _ thread hrow := ⟨thread, hrow, rfl⟩
  event _ _ hrow := hrow
  new _ _ hrow := .inl hrow

theorem Extends.trans {log₁ log₂ log₃ : Log D} (h : Extends log₁ log₂) (h' : Extends log₂ log₃) :
    Extends log₁ log₃ where
  counter ref := (h.counter ref).trans (h'.counter ref)
  thread ref thread hrow := by
    obtain ⟨thread₂, hrow₂, href₂⟩ := h.thread ref thread hrow
    obtain ⟨thread₃, hrow₃, href₃⟩ := h'.thread ref thread₂ hrow₂
    exact ⟨thread₃, hrow₃, href₃.trans href₂⟩
  event slot event hrow := h'.event slot event (h.event slot event hrow)
  new slot event hrow := by
    rcases h'.new slot event hrow with hrow₂ | hlt
    · exact h.new slot event hrow₂
    · exact .inr (lt_of_le_of_lt (h.counter slot.1) hlt)

namespace Listed

variable {log log' : Log D}

theorem put_ne_none {records : Table MessageRef (Remembered D)} {m : MessageRef}
    (record : Remembered D) (h : records.get m ≠ none ∨ m = identity) : (records.put identity record).get m ≠ none := by
  rw [get_put]
  split_ifs with heq
  · exact Option.some_ne_none _
  · exact h.resolve_right heq

theorem remember (h : Listed log) (log' : Log D) {record : Remembered D}
    (hthr : log'.thread = log.thread) (hev : log'.event = log.event)
    (hmsg : log'.message = log.message.put identity record)
    (hstd : ∀ failure, record.verdict = .refused failure → recordedRefusal failure.code = true) :
    Listed log' ∧ Extends log log' := by
  have hseq : eventSeq log' = eventSeq log := by
    unfold eventSeq
    rw [hthr]
  refine ⟨?_, ?_⟩
  · constructor
    case threads =>
      rw [hthr]
      exact h.threads
    case rows =>
      rw [hev]
      exact h.rows
    case counted =>
      rw [hev, hseq]
      exact h.counted
    case known =>
      intro slot m n hann
      unfold Announces at hann
      rw [hev] at hann
      rw [hmsg]
      exact put_ne_none record (.inl (h.known slot m n hann))
    case standing =>
      intro m record' failure hrec hrfs
      rw [hmsg] at hrec
      rcases get_put_cases hrec with ⟨rfl, rfl⟩ | ⟨-, hold⟩
      · exact hstd failure hrfs
      · exact h.standing m record' failure hold hrfs
  · constructor
    case counter =>
      rw [hseq]
      exact fun _ => le_rfl
    case thread =>
      rw [hthr]
      exact fun ref thread hrow => ⟨thread, hrow, rfl⟩
    case event =>
      rw [hev]
      exact fun _ _ hrow => hrow
    case new =>
      rw [hev]
      exact fun _ _ hrow => .inl hrow

theorem advance (h : Listed log) (log' : Log D) {ref : ThreadRef} {thread : Thread}
    (hthr : log'.thread = log.thread.put ref thread) (href : thread.threadRef = ref)
    (hcnt : eventSeq log ref ≤ thread.eventSeq)
    (hev : log'.event = log.event ∨ ∃ id body, eventSeq log ref < id ∧ id ≤ thread.eventSeq ∧
      log'.event = log.event.put (ref, id) ⟨id, ref, body⟩ ∧ ∀ m n, body = .message m n → log'.message.get m ≠ none)
    (hrecs : ∀ m, log.message.get m ≠ none → log'.message.get m ≠ none)
    (hstd : Standing log') : Listed log' ∧ Extends log log' := by
  have hseq : ∀ ref', eventSeq log ref' ≤ eventSeq log' ref' := by
    intro ref'
    rw [eventSeq_put log hthr]
    split_ifs with heq
    · rw [heq]
      exact hcnt
    · exact le_rfl
  -- An event is an old one, or the one written under the next id.
  have hcases : ∀ slot event, log'.event.get slot = some event → log.event.get slot = some event ∨
      slot.1 = ref ∧ eventSeq log ref < slot.2 ∧ slot.2 ≤ thread.eventSeq ∧ (event.threadRef, event.id) = slot ∧
        ∀ m n, event.body = .message m n → log'.message.get m ≠ none := by
    intro slot event hrow
    rcases hev with hsame | ⟨id, body, hlow, hhigh, hput, hbody⟩
    · rw [hsame] at hrow
      exact .inl hrow
    · rw [hput] at hrow
      rcases get_put_cases hrow with ⟨rfl, rfl⟩ | ⟨-, hold⟩
      · exact .inr ⟨rfl, hlow, hhigh, rfl, hbody⟩
      · exact .inl hold
  refine ⟨?_, ?_⟩
  · constructor
    case threads =>
      intro ref' thread' hrow
      rw [hthr] at hrow
      exact of_put h.threads hrow href
    case rows =>
      intro slot event hrow
      rcases hcases slot event hrow with hold | ⟨-, -, -, hslot, -⟩
      · exact h.rows slot event hold
      · exact hslot
    case counted =>
      intro slot event hrow
      rcases hcases slot event hrow with hold | ⟨hslot, hlow, hhigh, -, -⟩
      · exact ⟨(h.counted slot event hold).1, (h.counted slot event hold).2.trans (hseq _)⟩
      · rw [hslot, eventSeq_put log hthr, if_pos rfl]
        exact ⟨by omega, hhigh⟩
    case known =>
      rintro slot m n ⟨event, hrow, hbody⟩
      rcases hcases slot event hrow with hold | ⟨-, -, -, -, hkn⟩
      · exact hrecs m (h.known slot m n ⟨event, hold, hbody⟩)
      · exact hkn m n hbody
    case standing => exact hstd
  · constructor
    case counter => exact hseq
    case thread =>
      intro ref' thread' hrow
      rw [hthr, get_put]
      split_ifs with heq
      · refine ⟨thread, rfl, ?_⟩
        rw [href, h.threads ref' thread' hrow, heq]
      · exact ⟨thread', hrow, rfl⟩
    case event =>
      intro slot event hrow
      rcases hev with hsame | ⟨id, body, hlow, -, hput, -⟩
      · rw [hsame]
        exact hrow
      · rw [hput]
        refine (get_put_ne _ _ ?_).trans hrow
        rintro rfl
        exact absurd (h.counted _ event hrow).2 hlow.not_ge
    case new =>
      intro slot event hrow
      rcases hcases slot event hrow with hold | ⟨hslot, hlow, -⟩
      · exact .inl hold
      · rw [hslot]
        exact .inr hlow

/-! ## Calls -/

section

variable (h : Listed log)
include h

/-- The thread of a first contact is opened, with the event of its membership. -/
theorem contact {staged : Staged} (member : Member) (hland : Landed log staged) :
    (Listed (log.contact staged member) ∧ Extends log (log.contact staged member)) ∧
      (log.contact staged member).thread.get staged.threadRef = some staged.contactThread := by
  unfold Landed at hland
  unfold Log.contact Staged.contactThread
  cases hfst : staged.firstContact with
  | false =>
    rw [hfst] at hland
    exact ⟨⟨h, .refl log⟩, hland⟩
  | true =>
    rw [hfst] at hland
    obtain ⟨hfree, title, createdAt, hthr⟩ := hland
    have hcnt : eventSeq log staged.threadRef = 0 := by simp [eventSeq, hfree]
    refine ⟨?_, get_put_self ..⟩
    apply h.advance _ rfl
    · simp [hthr, freshThread]
    · simp [hcnt]
    · refine .inr ⟨staged.thread.eventSeq + 1, .membership member, ?_, le_rfl, rfl, by simp⟩
      simp [hcnt]
    · exact fun _ hkn => hkn
    · exact h.standing

/-- An admission posts its event under the next id of its thread, or is cut short and uses it up. -/
theorem post {thread : Thread} (entry : Entry) {receipt : Receipt}
    (record : Remembered D) (hrow : log.thread.get entry.threadRef = some thread)
    (hverd : record.verdict = .admitted receipt) {event : Table (ThreadRef × Nat) Event}
    (hev : event = log.event ∨ event = (log.post thread entry record).event) :
    Listed { log.post thread entry record with event := event } ∧
      Extends log { log.post thread entry record with event := event } := by
  have hcnt : eventSeq log entry.threadRef = thread.eventSeq := eventSeq_of_row hrow
  apply h.advance { log.post thread entry record with event := event } rfl
  · exact h.threads _ thread hrow
  · simp [hcnt]
  · rcases hev with rfl | rfl
    · exact .inl rfl
    · refine .inr ⟨thread.eventSeq + 1, _, by omega, le_rfl, rfl, ?_⟩
      rintro m n ⟨⟩
      exact put_ne_none record (.inr rfl)
  · exact fun m hm => put_ne_none record (.inl hm)
  · intro identity record' failure hrec hrfs
    rcases get_put_cases hrec with ⟨rfl, rfl⟩ | ⟨-, hold⟩
    · cases hverd.symm.trans hrfs
    · exact h.standing identity record' failure hold hrfs

theorem refuse (identity : MessageRef) (digest : D) (retryUntil : String) (failure : Failure) :
    Listed (log.refuse identity digest retryUntil failure) ∧
      Extends log (log.refuse identity digest retryUntil failure) := by
  unfold Log.refuse
  split_ifs with hrec
  · refine h.remember { log with message := log.message.put identity _ } rfl rfl rfl ?_
    rintro failure ⟨⟩
    exact hrec
  · exact ⟨h, .refl log⟩

theorem buries (hbury : Buries log log') : Listed log' ∧ Extends log log' := by
  cases hbury with
  | bury =>
    refine h.remember (Log.mk _ _ _ (log.message.put _ _) _) rfl rfl rfl ?_
    exact nofun

theorem upkeep (hkeep : Upkeep log log') : Listed log' ∧ Extends log log' := by
  cases hkeep with
  | kept => exact ⟨h, .refl log⟩
  | @opened ref title createdAt free =>
    exact h.advance { log with thread := log.thread.put ref (freshThread ref title createdAt) } rfl
      rfl (by simp [eventSeq, free]) (.inl rfl) (fun _ hm => hm) h.standing
  | @retitled ref thread title row =>
    exact h.advance { log with thread := log.thread.put ref { thread with title := title } } rfl
      (h.threads ref thread row) (by rw [eventSeq_of_row row]) (.inl rfl) (fun _ hm => hm) h.standing
  | @recorded ref thread next body row sameRef sameNext sameEvent other =>
    have href : next.threadRef = ref := sameRef.trans (h.threads ref thread row)
    subst href
    have hcnt : eventSeq log next.threadRef = next.eventSeq := by
      rw [eventSeq_of_row row, sameEvent]
    apply h.advance _ rfl
    · rfl
    · simp [hcnt]
    · refine .inr ⟨next.eventSeq + 1, body, by omega, le_rfl, rfl, ?_⟩
      exact fun m n heq => absurd heq (other m n)
    · exact fun _ hm => hm
    · exact h.standing
  | buried rows =>
    induction rows with
    | refl => exact ⟨h, .refl log⟩
    | tail _ hbury ih =>
      obtain ⟨hlist, hext⟩ := ih
      obtain ⟨hlist', hext'⟩ := hlist.buries hbury
      exact ⟨hlist', hext.trans hext'⟩

/-- What a call does to the log, torn or not, keeps the events and numbers the new ones behind them. -/
theorem change (ctx : Context D) (hchg : Change ctx log log' ∨ ∃ auth request input outcome,
      Torn ctx log auth request input outcome log') : Listed log' ∧ Extends log log' := by
  -- Both an admission and a torn one open the thread of a first contact, and then post to it.
  have hposts (auth : Auth) (request : SendRequest) (input : AdmitInput) {staged : Staged}
      (landed : Landed log staged) {event : Table (ThreadRef × Nat) Event}
      (hev : event = (log.contact staged (contactMember request.message.sender input.revision)).event ∨
        event = (log.admitEntry ctx auth request input staged).event) :
      Listed { log.admitEntry ctx auth request input staged with event := event } ∧
        Extends log { log.admitEntry ctx auth request input staged with event := event } := by
    obtain ⟨⟨hlist, hext⟩, hrow⟩ := h.contact (contactMember request.message.sender input.revision) landed
    obtain ⟨hlist', hext'⟩ := hlist.post (staged.entry auth request.message)
      ⟨contentDigest ctx request, .admitted (staged.receipt ctx request input), request.retryUntil⟩
      hrow rfl hev
    exact ⟨hlist', hext.trans hext'⟩
  rcases hchg with hchg | ⟨auth, request, input, outcome, htorn⟩
  · cases hchg with
    | upkeep hkeep => exact h.upkeep hkeep
    | refused digest retryUntil failure => exact h.refuse _ digest retryUntil failure
    | admitted auth request input fresh landed => exact hposts auth request input landed (.inr rfl)
  · cases htorn with
    | @torn staged failure fresh landed trace =>
      obtain ⟨hlist, hext⟩ := hposts auth request input landed (.inl rfl)
      obtain ⟨hlist', hext'⟩ := hlist.refuse request.message.ref (contentDigest ctx request) request.retryUntil failure
      exact ⟨hlist', hext.trans hext'⟩

end

end Listed

/-! ## Entries by reference -/

theorem admit_entryRef (log : Log D) (ctx : Context D) (auth : Auth) (request : SendRequest)
    (input : AdmitInput) (staged : Staged) : (log.admitEntry ctx auth request input staged).entryRef =
      log.entryRef.put request.message.ref (staged.entry auth request.message) := by
  unfold Log.admitEntry Log.post Log.contact
  split_ifs <;> rfl

@[simp] theorem refuse_entryRef (log : Log D) (identity : MessageRef) (digest : D)
    (retryUntil : String) (failure : Failure) :
    (log.refuse identity digest retryUntil failure).entryRef = log.entryRef := by
  unfold Log.refuse
  split_ifs <;> rfl

section Known

variable {ctx : Context D} {log log' : Log D} {auth : Auth} {request : SendRequest}
  {input : AdmitInput} {outcome : Except Failure Receipt} {m : MessageRef}

theorem put_entryRef (hfr : log.message.get request.message.ref = none)
    (hkn : log.message.get m ≠ none) (entry : Entry) :
    (log.entryRef.put request.message.ref entry).get m = log.entryRef.get m := by
  apply get_put_ne
  rintro rfl
  exact hkn hfr

theorem Decision.entryRef (h : Decision ctx log auth request input outcome log')
    (hkn : log.message.get m ≠ none) : log'.entryRef.get m = log.entryRef.get m := by
  cases h with
  | differs => rfl
  | replayed => rfl
  | tombstone => rfl
  | repeated => rfl
  | refused => rw [refuse_entryRef]
  | admitted fresh =>
    rw [admit_entryRef]
    exact put_entryRef fresh hkn _

theorem Torn.entryRef (h : Torn ctx log auth request input outcome log')
    (hkn : log.message.get m ≠ none) : log'.entryRef.get m = log.entryRef.get m := by
  cases h with
  | torn fresh =>
    unfold Log.tear
    rw [refuse_entryRef]
    rw [admit_entryRef]
    exact put_entryRef fresh hkn _

end Known

end Log

/-! ## Runs -/

section Runs

variable {D : Type} [DecidableEq D] {ctx : Context D} {s s' : Store D} {call : Call} {event : Event}
  {id : Nat}

theorem Listed.step (h : Listed s.log) (hstep : step ctx s call = some s') : Listed s'.log ∧ Extends s.log s'.log := by
  apply h.change ctx
  rcases step_change_or_torn h.standing hstep with
    hchg | ⟨auth, request, input, outcome, -, htorn⟩
  · exact .inl hchg
  · exact .inr ⟨auth, request, input, outcome, htorn⟩

theorem listed_of_run {h : List (Transition (Store D) Call)} (hrun : Run (Messages.step ctx) {} h s) : Listed s.log :=
  hrun.invariant (I := fun s => Listed s.log) listed_empty fun _ _ _ hlist hstep =>
    (hlist.step hstep).1

def Call.expires : Call → Bool
  | .expire _ _ _ _ => true
  | _ => false

omit [DecidableEq D] in
theorem Works.entryRef {result : Result} {tx : Store D} (h : Works ctx s call result tx) :
    tx.entryRef = s.entryRef := by
  cases h with
  | create run =>
    obtain ⟨_, _, rfl⟩ := createWork_rows run
    rfl
  | close run =>
    obtain ⟨_, _, rfl⟩ := closeWork_rows run
    rfl
  | member _ run =>
    obtain ⟨_, _, _, _, -, -, rfl⟩ := memberWork_rows run
    rfl
  | permits _ run =>
    rw [permitsWork_rows run]
  | ackGrant run =>
    rcases ackGrantWork_rows run with rfl | ⟨_, -, rfl⟩ <;> rfl
  | ack run =>
    obtain ⟨_, _, -, rfl⟩ := ackWork_rows run
    rfl

/-- Until something expires, the entry of a message that has a record stays as it is. -/
theorem step_entryRef (hstd : Standing s.log) (hstep : Messages.step ctx s call = some s')
    (hkp : call.expires = false) {m : MessageRef} (hkn : s.message.get m ≠ none) :
    s'.entryRef.get m = s.entryRef.get m := by
  have heff := step_effect hstep
  cases heff with
  | kept => rfl
  | remembered => rfl
  | appended =>
    obtain ⟨result, hadm⟩ := admit_of_step hstep
    rcases admit_cases hstd hadm with hsame | ⟨outcome, hdec | htorn, -⟩
    · exact congrArg (fun log : Log D => log.entryRef.get m) hsame
    · exact hdec.entryRef hkn
    · exact htorn.entryRef hkn
  | worked digest named free works =>
    rw [works.entryRef]
  | listed run =>
    obtain ⟨_, rfl⟩ := attention_ok run
    rfl
  | expired => cases hkp
  | sent => rfl

/-! ## The listing -/

/-- The events of a thread a caller may see, in the order of their ids. -/
def visible (ctx : Context D) (tx : Store D) (actor : NodeId) (ref : ThreadRef) : List Event :=
  sortedByNumber Event.id (((tx.event.rows.filter fun row => row.1.1 = ref).map Prod.snd).filter
    (announced ctx tx actor ref))

omit [DecidableEq D] in
theorem mem_visible {actor : NodeId} {ref : ThreadRef} : event ∈ visible ctx s actor ref ↔
      (∃ id, s.event.get (ref, id) = some event) ∧ announced ctx s actor ref event = true := by
  rw [visible, mem_sortedByNumber, mem_filter, mem_part]

omit [DecidableEq D] in
theorem Listed.row (h : Listed s.log) {ref : ThreadRef}
    (hrow : s.event.get (ref, id) = some event) : event.threadRef = ref ∧ event.id = id :=
  Prod.mk.inj (h.rows _ event hrow)

omit [DecidableEq D] in
theorem Listed.rising (h : Listed s.log) (ctx : Context D) (actor : NodeId) (ref : ThreadRef) :
    Rising Event.id (visible ctx s actor ref) := by
  have hparts := part_pairwise Event.id (fun _ _ hrow => (h.row hrow).2) ref
  exact rising_insertionSort (hparts.filter _)

section Grow

variable {auth : Auth} {ref : ThreadRef} {actor : NodeId} (hlist : Listed s.log)
  (hstep : Messages.step ctx s call = some s') (hkp : call.expires = false)
  (hmemb : s'.member.get (ref, actor) = s.member.get (ref, actor))
include hlist hstep hmemb

theorem canRead_step {thread : Thread} (hrow : s.thread.get ref = some thread)
    (entry : Option Entry) : canRead s' actor ref entry = canRead s actor ref entry := by
  obtain ⟨thread', hrow', href⟩ := (hlist.step hstep).2.thread ref thread hrow
  change s'.thread.get ref = some thread' at hrow'
  unfold canRead
  rw [hrow, hrow', hmemb]
  simp [href]

include hkp

theorem announced_step (hrow : s.event.get (ref, id) = some event) :
    announced ctx s' actor ref event = announced ctx s actor ref event := by
  unfold announced
  split
  · next m n hbody =>
    have hkn := hlist.known (ref, id) m n ⟨event, hrow, hbody⟩
    rw [step_entryRef hlist.standing hstep hkp hkn]
    -- The thread of an event is stored: its counter is not `0`.
    have hcnt := hlist.counted _ event hrow
    cases hthr : s.thread.get ref with
    | none =>
      have hzero : eventSeq s.log ref = 0 := by
        unfold eventSeq
        rw [show s.log.thread.get ref = none from hthr]
        rfl
      dsimp only at hcnt
      omega
    | some => simp only [canRead_step hlist hstep hmemb hthr]
  · rfl
  · rfl

/-- While nothing expires and the membership of the caller stays as it is, the listing grows at its
end. -/
theorem visible_grows : ∃ new, visible ctx s' actor ref = visible ctx s actor ref ++ new ∧
    ∀ old ∈ visible ctx s actor ref, ∀ event ∈ new, old.id < event.id := by
  obtain ⟨hlist', hext⟩ := hlist.step hstep
  apply (hlist.rising ctx actor ref).exists_append (hlist'.rising ctx actor ref)
  · intro event hev
    obtain ⟨⟨id, hrow⟩, hann⟩ := mem_visible.mp hev
    rw [mem_visible, announced_step hlist hstep hkp hmemb hrow]
    exact ⟨⟨id, hext.event _ event hrow⟩, hann⟩
  · intro event hev hnew old hold
    obtain ⟨⟨id, hrow⟩, hann⟩ := mem_visible.mp hev
    obtain ⟨⟨oldId, holdRow⟩, -⟩ := mem_visible.mp hold
    rcases hext.new _ event hrow with hkept | hlt
    · rw [announced_step hlist hstep hkp hmemb hkept] at hann
      exact absurd (mem_visible.mpr ⟨⟨id, hkept⟩, hann⟩) hnew
    · rw [(hlist.row holdRow).2, (hlist'.row hrow).2]
      exact lt_of_le_of_lt (hlist.counted _ old holdRow).2 hlt

end Grow

/-! ## Pages -/

/-- A cursor of this query points to a place in the listing. -/
def Points (scope : Scope) (cursor : Option (Cursor Scope)) (place : Option Nat) : Prop :=
  ∃ after, PageOptions.after { cursor := cursor } scope = .ok after ∧
    after.map decimal = place.map .ok

theorem points_none (scope : Scope) : Points scope none none := ⟨none, rfl, rfl⟩

theorem points_some (scope : Scope) {text : String} {place : Nat} (h : decimal text = .ok place) :
    Points scope (some (.decoded scope text)) (some place) :=
  ⟨some text, if_pos rfl, congrArg some h⟩

section Page

variable {auth : Auth} {ref : ThreadRef} {shown : Page Event Scope} {start place : Option Nat}
  {seen : List Event} {options : PageOptions Scope}

omit [DecidableEq D] in
theorem events_ok (h : events ctx s auth ref options = .ok shown)
    (hcurs : Points (.events ref auth.actor) options.cursor place) :
    ∃ size, 0 < size ∧ shown = cutPage (itemsAfter Event.id (visible ctx s auth.actor ref) place) size
      (.events ref auth.actor) fun event => toString event.id := by
  obtain ⟨after, haft, hplace⟩ := hcurs
  simp only [events, bind_eq_ok, checked_eq_ok] at h
  obtain ⟨-, -, -, -, hpage⟩ := h
  cases hsize : options.size with
  | error =>
    unfold page at hpage
    rw [hsize] at hpage
    cases hpage
  | ok size =>
    refine ⟨size, PageOptions.size_pos hsize, ?_⟩
    have haft : options.after (.events ref auth.actor) = .ok after := haft
    have hcut := page_ordinal (visible ctx s auth.actor ref) (.events ref auth.actor) Event.id hsize haft hplace
    exact Except.ok.inj (hpage.symm.trans hcut)

omit [DecidableEq D] in
theorem events_total {thread : Thread} {cursor : Option (Cursor Scope)}
    (hthr : loadThread ctx s ref = .ok thread) (hread : canRead s auth.actor ref = true)
    (hcurs : Points (.events ref auth.actor) cursor place) : events ctx s auth ref { cursor := cursor } =
      .ok (cutPage (itemsAfter Event.id (visible ctx s auth.actor ref) place) 50
        (.events ref auth.actor) fun event => toString event.id) := by
  obtain ⟨after, haft, hplace⟩ := hcurs
  have hpage := page_ordinal (visible ctx s auth.actor ref) (Scope.events ref auth.actor) Event.id rfl haft hplace
  unfold events
  rw [hthr, hread]
  exact congrArg checked hpage

omit [DecidableEq D] in
/-- A reader that goes on from where it stands is given what comes next, and the rest of the listing
with the last page. -/
theorem Listed.read_page (hlist : Listed s.log) (hfol : Follows Event.id (visible ctx s auth.actor ref) start seen)
    (hcurs : Points (.events ref auth.actor) options.cursor (reached Event.id start seen))
    (h : events ctx s auth ref options = .ok shown) :
    Follows Event.id (visible ctx s auth.actor ref) start (seen ++ shown.items) ∧ (shown.nextCursor = none →
        itemsAfter Event.id (visible ctx s auth.actor ref) start = seen ++ shown.items) ∧
      ∀ next, shown.nextCursor = some next →
        Points (.events ref auth.actor) (some next) (reached Event.id start (seen ++ shown.items)) := by
  obtain ⟨size, hsize, rfl⟩ := events_ok h hcurs
  refine ⟨hfol.read (hlist.rising ctx auth.actor ref) size, ?_⟩
  rcases cutPage_cases (itemsAfter Event.id (visible ctx s auth.actor ref)
      (reached Event.id start seen)) hsize (Scope.events ref auth.actor)
      (fun event => toString event.id) with
    ⟨hitems, hend⟩ | ⟨last, hlast, hnext⟩
  · refine ⟨fun _ => ?_, ?_⟩
    · rw [hitems]
      exact hfol
    · intro next hnext
      cases hend.symm.trans hnext
  · refine ⟨fun hend => ?_, ?_⟩
    · cases hend.symm.trans hnext
    · intro next hsome
      cases hnext.symm.trans hsome
      rw [reached_append, reached_of_last hlast]
      exact points_some _ (decimal_toString last.id)

end Page

end Runs

end Onlyne.Messages
