import Onlyne.Messages.EventList

/-!
# Messages: the event stream

`eventStream` of `stream.ts`: the first page is read before the response exists, and a timer then polls.
A poll checks the credential and drains the listing a page at a time, each page read in a transaction of
its own; what it writes carries the cursor after the event it shows.

The state is the store and the stream; an act is a call the node serves, one step of the stream with what
it is given from outside (the answer of the credential check, a storage that fails, a consumer that has
closed), or the end of the request.  So a schedule of polls among the calls is a run.
-/

namespace Onlyne.Messages

open Foundation List Option

/-! ## The stream -/

inductive Frame where
  | event (id : Cursor Scope) (value : Event)
  | idle
  | error (failure : Failure)
  deriving DecidableEq, Repr

def Frame.shown : Frame → Option Event
  | .event _ value => some value
  | .idle | .error _ => none

inductive Stage where
  -- The first page is being read, before there is a response.
  | opening
  -- It has been read; the response begins with it.
  | starting (first : Page Event Scope)
  -- No poll is running.
  | waiting
  -- A poll waits for the credential.
  | checking
  -- A drain waits for a page; this many pages came before it.
  | reading (pages : Nat)
  -- The page has been read.
  | writing (pages : Nat) (page : Page Event Scope)
  -- The first page was refused: there is no stream.
  | refused
  deriving DecidableEq, Repr

def Stage.page : Stage → Option (Page Event Scope)
  | .starting page | .writing _ page => some page
  | .opening | .waiting | .checking | .reading _ | .refused => none

structure Stream where
  cursor : Option (Cursor Scope)
  frames : List Frame := []
  stage : Stage := .opening
  done : Bool := false
  deriving DecidableEq, Repr

def Stream.sent (stream : Stream) : List Event := stream.frames.filterMap Frame.shown

/-- The events that have been read and not been written yet. -/
def Stream.due (stream : Stream) : List Event := (stream.stage.page.map Page.items).getD []

/-- The cursor a request resumes from; an absent header and an empty one are `none`. -/
def resumeCursor (scope : Scope) : Option (Cursor Scope) → Except Failure (Option (Cursor Scope))
  | none => .ok none
  | some .malformed =>
    .error (onlyneError .invalidRequest "Last-Event-ID is not a cursor this binding issues.")
  | some .foreign =>
    .error (onlyneError .invalidRequest "Last-Event-ID belongs to another node, actor or thread.")
  | some (.decoded issued after) =>
    if (decimal after).toOption.isSome && issued = scope then .ok (some (.decoded issued after))
    else .error (onlyneError .invalidRequest "Last-Event-ID belongs to another node, actor or thread.")

def placeOf : Option (Cursor Scope) → Option Nat
  | some (.decoded _ after) => (decimal after).toOption
  | some .malformed | some .foreign | none => none

/-- `STREAM_MAX_PAGES`. -/
def maxPages : Nat := 1000

namespace Stream

/-- Write a frame; a consumer that has closed ends the stream. -/
def write (stream : Stream) (accepts : Bool) (frame : Frame) : Stream :=
  if stream.done then stream
  else if accepts then { stream with frames := stream.frames ++ [frame] }
  else { stream with done := true }

def stop (stream : Stream) : Stream := { stream with done := true }

section

variable (scope : Scope) (accepts : Nat → Bool)

def emit (stream : Stream) (event : Event) : Stream :=
  let cursor := Cursor.decoded scope (toString event.id)
  { stream with cursor := some cursor }.write (accepts event.id) (.event cursor event)

/-- Write the events of a page, or a comment when it has none. -/
def emitPage (stream : Stream) (page : Page Event Scope) : Stream :=
  if page.items.isEmpty then stream.write (accepts 0) .idle
  else page.items.foldl (emit scope accepts) stream

def failure : Thrown → Failure
  | .onlyne error => error
  | .other _ => onlyneError .internal "The event stream failed."

def failWith (stream : Stream) (accepts : Bool) (thrown : Thrown) : Stream :=
  ({ stream with stage := .waiting }.write accepts (.error (failure thrown))).stop

def poll (stream : Stream) : Stream :=
  if stream.done then stream else { stream with stage := .checking }

/-- The loop of a drain: another page, unless there were enough or the stream has ended. -/
def nextPage (stream : Stream) (pages : Nat) : Stream :=
  { stream with stage := if pages < maxPages && !stream.done then .reading pages else .waiting }

/-- The response begins: the first page is written, and the rest is polled for at once. -/
def start (aborted : Bool) (stream : Stream) (first : Page Event Scope) : Stream :=
  let written := { emitPage scope accepts stream first with stage := .waiting }
  if aborted then written.stop
  else if first.nextCursor.isSome then written.poll
  else written

def drained (stream : Stream) (pages : Nat) (page : Page Event Scope) : Stream :=
  let written := emitPage scope accepts stream page
  if page.items.isEmpty || page.nextCursor.isNone then { written with stage := .waiting }
  else written.nextPage (pages + 1)

end

end Stream

/-! ## The system -/

section System

variable {D : Type} [DecidableEq D]

structure Streaming (D : Type) where
  store : Store D
  stream : Stream

/-- What happens next; `accepts` says which frames the consumer takes, by the id of their event, and
under `0` whether it takes a comment. -/
inductive StreamAct where
  | call (call : Call)
  -- A page is read, or the storage fails.
  | read (storage : Except Thrown Unit) (accepts : Bool)
  | write (aborted : Bool) (accepts : Nat → Bool)
  | tick
  -- The credential is still the one of the caller, or it is not, or the check fails.
  | credential (answer : Except Thrown Bool) (accepts : Bool)
  -- The consumer cancels, or the request is aborted.
  | close

section

variable (ctx : Context D) (scope : Scope) (auth : Auth) (ref : ThreadRef) (state : Streaming D)

def readPage (storage : Except Thrown Unit) : Except Thrown (Page Event Scope) :=
  match storage, events ctx state.store auth ref { cursor := state.stream.cursor } with
  | .error thrown, _ => .error thrown
  | .ok _, .ok page => .ok page
  | .ok _, .error (.threw thrown) => .error thrown
  -- A read has no loop.
  | .ok _, .error .looping => .error (.other "looping")

def streamStep : StreamAct → Option (Streaming D)
  | .call call => (step ctx state.store call).map fun store => { state with store := store }
  | .read storage accepts =>
    match state.stream.stage, readPage ctx auth ref state storage with
    | .opening, .ok page => some { state with stream := { state.stream with stage := .starting page } }
    | .opening, .error _ => some { state with stream := { state.stream with stage := .refused } }
    | .reading pages, .ok page =>
      some { state with stream := { state.stream with stage := .writing pages page } }
    | .reading _, .error thrown =>
      some { state with stream := state.stream.failWith accepts thrown }
    | _, _ => none
  | .write aborted accepts =>
    match state.stream.stage with
    | .starting first =>
      some { state with
        stream := state.stream.start (.events ref auth.actor) accepts aborted first }
    | .writing pages page =>
      some { state with stream := state.stream.drained (.events ref auth.actor) accepts pages page }
    | _ => none
  | .tick =>
    match state.stream.stage with
    | .opening | .starting _ | .refused => none
    | .waiting => some { state with stream := state.stream.poll }
    -- A poll is running.
    | .checking | .reading _ | .writing _ _ => some state
  | .credential answer accepts =>
    match state.stream.stage, answer with
    | .checking, .ok true => some { state with stream := state.stream.nextPage 0 }
    | .checking, .ok false =>
      some { state with
        stream := state.stream.failWith accepts (.onlyne (onlyneError .forbidden
          "The credential is no longer valid for this stream.")) }
    | .checking, .error thrown => some { state with stream := state.stream.failWith accepts thrown }
    | _, _ => none
  | .close =>
    match state.stream.stage with
    | .opening | .starting _ | .refused => none
    | _ => some { state with stream := state.stream.stop }

/-! ## What a step of the stream does -/

def Marked (frames : List Frame) : Prop :=
  ∀ id event, .event id event ∈ frames → id = .decoded scope (toString event.id)

/-- The frames of these events are sent, and an ended stream stays ended. -/
structure Advances (scope : Scope) (stream stream' : Stream) (written : List Event) : Prop where
  frames : ∃ extra, stream'.frames = stream.frames ++ extra ∧
    extra.filterMap Frame.shown = written ∧ Marked scope extra
  ended : stream'.done = false → stream.done = false

def cursorPast (cursor : Option (Cursor Scope)) (events : List Event) : Option (Cursor Scope) :=
  (events.getLast?.map fun event => .decoded scope (toString event.id)).or cursor

end

inductive Moves (ctx : Context D) (auth : Auth) (ref : ThreadRef) (state : Streaming D) :
    Stream → Prop where
  | quiet {stream : Stream} (advances : Advances (.events ref auth.actor) state.stream stream [])
      (page : stream.stage.page = state.stream.stage.page)
      (cursor : stream.cursor = state.stream.cursor) : Moves ctx auth ref state stream
  | read {stage : Stage} {page} (idle : state.stream.stage.page = none)
      (read : events ctx state.store auth ref { cursor := state.stream.cursor } = .ok page)
      (holds : stage.page = some page) : Moves ctx auth ref state { state.stream with stage := stage }
  -- What was read is written, as far as the consumer takes it.
  | wrote {stream : Stream} (written : List Event)
      (advances : Advances (.events ref auth.actor) state.stream stream written)
      (initial : written <+: state.stream.due) (page : stream.stage.page = none)
      (ended : state.stream.done = true → written = [])
      (whole : stream.done = false → written = state.stream.due ∧
        stream.cursor = cursorPast (.events ref auth.actor) state.stream.cursor written) :
      Moves ctx auth ref state stream

variable {scope : Scope} {stream : Stream} {written : List Event} {ctx : Context D} {auth : Auth}
  {ref : ThreadRef} {state : Streaming D} {page : Page Event Scope}

theorem Advances.sent {stream' : Stream} (h : Advances scope stream stream' written) :
    stream'.sent = stream.sent ++ written := by
  obtain ⟨extra, hfr, rfl, -⟩ := h.frames
  unfold Stream.sent
  rw [hfr, filterMap_append]

theorem Advances.refl (scope : Scope) (stream : Stream) : Advances scope stream stream [] :=
  ⟨⟨[], by simp, rfl, by simp [Marked]⟩, id⟩

theorem Advances.trans {stream₁ stream₂ stream₃ : Stream} {written' : List Event}
    (h : Advances scope stream₁ stream₂ written) (h' : Advances scope stream₂ stream₃ written') :
    Advances scope stream₁ stream₃ (written ++ written') := by
  obtain ⟨extra, hfr, hsh, hmark⟩ := h.frames
  obtain ⟨extra', hfr', hsh', hmark'⟩ := h'.frames
  refine ⟨⟨extra ++ extra', ?_, ?_, ?_⟩, fun hopen => h.ended (h'.ended hopen)⟩
  · rw [hfr', hfr, append_assoc]
  · rw [filterMap_append, hsh, hsh']
  · intro id event hmem
    rcases mem_append.mp hmem with hmem | hmem
    · exact hmark id event hmem
    · exact hmark' id event hmem

theorem advances_write (stream : Stream) (accepts : Bool) {frame : Frame} (hframe : frame.shown = none) :
    Advances scope stream (stream.write accepts frame) [] := by
  unfold Stream.write
  split_ifs with hdone hacc
  · exact .refl scope stream
  · refine ⟨⟨[frame], rfl, by simp [hframe], ?_⟩, id⟩
    rintro id event hmem
    rw [mem_singleton] at hmem
    subst hmem
    cases hframe
  · exact ⟨⟨[], by simp, rfl, by simp [Marked]⟩, nofun⟩

theorem advances_failWith (stream : Stream) (accepts : Bool) (thrown : Thrown) :
    Advances scope stream (stream.failWith accepts thrown) [] := by
  have hwrite : Advances scope { stream with stage := .waiting }
      (Stream.write { stream with stage := .waiting } accepts (.error (Stream.failure thrown))) [] :=
    advances_write _ accepts rfl
  exact ⟨hwrite.frames, nofun⟩

@[simp] theorem write_stage (stream : Stream) (accepts : Bool) (frame : Frame) :
    (stream.write accepts frame).stage = stream.stage := by
  unfold Stream.write
  split_ifs <;> rfl

@[simp] theorem write_cursor (stream : Stream) (accepts : Bool) (frame : Frame) :
    (stream.write accepts frame).cursor = stream.cursor := by
  unfold Stream.write
  split_ifs <;> rfl

theorem failWith_page (stream : Stream) (accepts : Bool) (thrown : Thrown) :
    (stream.failWith accepts thrown).stage.page = none :=
  congrArg Stage.page (write_stage { stream with stage := .waiting } accepts _)

theorem failWith_cursor (stream : Stream) (accepts : Bool) (thrown : Thrown) :
    (stream.failWith accepts thrown).cursor = stream.cursor :=
  write_cursor { stream with stage := .waiting } accepts _

theorem advances_emit (scope : Scope) (accepts : Nat → Bool) (stream : Stream) (event : Event) :
    (stream.emit scope accepts event).done = true ∧ Advances scope stream (stream.emit scope accepts event) [] ∨
      stream.done = false ∧ (stream.emit scope accepts event).done = false ∧
        Advances scope stream (stream.emit scope accepts event) [event] := by
  unfold Stream.emit Stream.write
  dsimp only
  split_ifs with hdone hacc
  · exact .inl ⟨hdone, ⟨⟨[], by simp, rfl, by simp [Marked]⟩, id⟩⟩
  · rw [Bool.not_eq_true] at hdone
    refine .inr ⟨hdone, hdone, ⟨⟨[_], rfl, rfl, ?_⟩, id⟩⟩
    intro id event' hmem
    rw [mem_singleton] at hmem
    cases hmem
    rfl
  · exact .inl ⟨rfl, ⟨⟨[], by simp, rfl, by simp [Marked]⟩, nofun⟩⟩

/-- The events of a page are written up to the first one the consumer does not take. -/
theorem advances_emits (scope : Scope) (accepts : Nat → Bool) (events : List Event) (stream : Stream) :
    ∃ written, Advances scope stream (events.foldl (Stream.emit scope accepts) stream) written ∧
      written <+: events ∧ (stream.done = true → written = []) ∧
      ((events.foldl (Stream.emit scope accepts) stream).done = false → written = events) ∧
      (events.foldl (Stream.emit scope accepts) stream).cursor = cursorPast scope stream.cursor events := by
  induction events generalizing stream with
  | nil => exact ⟨[], .refl scope stream, nil_prefix, fun _ => rfl, fun _ => rfl, rfl⟩
  | cons event rest ih =>
    obtain ⟨written, hadv, hinit, hend, hwhole, hcurs⟩ := ih (stream.emit scope accepts event)
    have hpast : cursorPast scope (stream.emit scope accepts event).cursor rest =
        cursorPast scope stream.cursor (event :: rest) := by
      have hlast : (stream.emit scope accepts event).cursor =
          some (.decoded scope (toString event.id)) := write_cursor ..
      unfold cursorPast
      rw [hlast, getLast?_cons]
      cases rest.getLast? <;> rfl
    rw [hpast] at hcurs
    rcases advances_emit scope accepts stream event with ⟨hdone, hfst⟩ | ⟨hopen, hopen', hfst⟩
    · -- The stream has ended: nothing more is written.
      have hnone := hend hdone
      subst hnone
      refine ⟨[], hfst.trans hadv, nil_prefix, fun _ => rfl, ?_, hcurs⟩
      intro hstill
      rw [hadv.ended hstill] at hdone
      cases hdone
    · refine ⟨event :: written, hfst.trans hadv, ?_, ?_, ?_, hcurs⟩
      · exact cons_prefix_cons.mpr ⟨rfl, hinit⟩
      · intro hdone
        rw [hopen] at hdone
        cases hdone
      · intro hstill
        rw [hwhole hstill]

theorem advances_emitPage (scope : Scope) (accepts : Nat → Bool) (stream : Stream) (page : Page Event Scope) :
    ∃ written, Advances scope stream (stream.emitPage scope accepts page) written ∧
      written <+: page.items ∧ (stream.done = true → written = []) ∧
      ((stream.emitPage scope accepts page).done = false → written = page.items ∧
        (stream.emitPage scope accepts page).cursor = cursorPast scope stream.cursor written) := by
  unfold Stream.emitPage
  split_ifs with hemp
  · rw [List.isEmpty_iff] at hemp
    rw [hemp]
    exact ⟨[], advances_write stream _ rfl, nil_prefix, fun _ => rfl, fun _ => ⟨rfl, write_cursor ..⟩⟩
  · obtain ⟨written, hadv, hinit, hend, hwhole, hcurs⟩ := advances_emits scope accepts page.items stream
    refine ⟨written, hadv, hinit, hend, fun hopen => ⟨hwhole hopen, ?_⟩⟩
    rw [hcurs, hwhole hopen]

omit [DecidableEq D] in
theorem moves_wrote (accepts : Nat → Bool)
    (hpage : state.stream.stage.page = some page) (hnone : stream.stage.page = none)
    (hfr : stream.frames = (state.stream.emitPage (.events ref auth.actor) accepts page).frames)
    (hcurs : stream.cursor = (state.stream.emitPage (.events ref auth.actor) accepts page).cursor)
    (hdone : stream.done = false → (state.stream.emitPage (.events ref auth.actor) accepts page).done = false) :
    Moves ctx auth ref state stream := by
  obtain ⟨written, hadv, hinit, hend, hwhole⟩ := advances_emitPage (.events ref auth.actor) accepts state.stream page
  have hdue : state.stream.due = page.items := by simp [Stream.due, hpage]
  refine .wrote written ⟨?_, fun hopen => hadv.ended (hdone hopen)⟩ ?_ hnone hend ?_
  · rw [hfr]
    exact hadv.frames
  · rw [hdue]
    exact hinit
  · intro hopen
    rw [hdue, hcurs]
    exact hwhole (hdone hopen)

theorem nextPage_page (stream : Stream) (pages : Nat) : (stream.nextPage pages).stage.page = none := by
  unfold Stream.nextPage
  split_ifs <;> rfl

omit [DecidableEq D] in
theorem readPage_ok {storage : Except Thrown Unit} (h : readPage ctx auth ref state storage = .ok page) :
    events ctx state.store auth ref { cursor := state.stream.cursor } = .ok page := by
  unfold readPage at h
  split at h <;> cases h
  assumption

omit [DecidableEq D] in
theorem moves_failWith (hnone : state.stream.stage.page = none) (accepts : Bool) (thrown : Thrown) :
    Moves ctx auth ref state (state.stream.failWith accepts thrown) :=
  .quiet (advances_failWith ..) ((failWith_page ..).trans hnone.symm) (failWith_cursor ..)

theorem streamStep_cases {state' : Streaming D} {act : StreamAct}
    (h : streamStep ctx auth ref state act = some state') :
    (∃ call, act = .call call ∧ step ctx state.store call = some state'.store ∧ state'.stream = state.stream) ∨
    state'.store = state.store ∧ Moves ctx auth ref state state'.stream := by
  cases act with
  | call call =>
    obtain ⟨store, hstep, rfl⟩ := map_eq_some_iff.mp h
    exact .inl ⟨call, rfl, hstep, rfl⟩
  | write aborted accepts =>
    right
    simp only [streamStep] at h
    split at h
    · next first hstg =>
      cases h
      have hpage : state.stream.stage.page = some first := by rw [hstg]; rfl
      refine ⟨rfl, moves_wrote accepts hpage ?_ ?_ ?_ ?_⟩
      all_goals
        unfold Stream.start Stream.stop Stream.poll
        dsimp only
        split_ifs
      all_goals first | rfl | exact id | exact False.elim
    · next pages page hstg =>
      cases h
      have hpage : state.stream.stage.page = some page := by rw [hstg]; rfl
      refine ⟨rfl, moves_wrote accepts hpage ?_ ?_ ?_ ?_⟩
      all_goals
        unfold Stream.drained
        split_ifs
      all_goals first | rfl | exact nextPage_page .. | exact id
    · cases h
  | read | tick | credential | close =>
    right
    simp only [streamStep, Stream.poll] at h
    repeat' split at h
    all_goals cases h
    all_goals
      refine ⟨rfl, ?_⟩
      first
      | exact moves_failWith (by simp only [‹state.stream.stage = _›, Stage.page]) _ _
      | exact .read (by simp only [‹state.stream.stage = _›, Stage.page]) (readPage_ok ‹_›) rfl
      | exact .quiet ⟨(Advances.refl _ _).frames, by first | exact id | nofun⟩
          (by first | rfl | (simp only [‹state.stream.stage = _›]; first | rfl | exact nextPage_page ..)) rfl

end System

/-! ## Exactness -/

section Exact

variable {D : Type} [DecidableEq D] {ctx : Context D} {auth : Auth} {ref : ThreadRef}
  {state state' : Streaming D} {act : StreamAct} {scope : Scope}

def eventsAfter (ctx : Context D) (auth : Auth) (ref : ThreadRef) (store : Store D)
    (cursor : Option (Cursor Scope)) : List Event :=
  itemsAfter Event.id (visible ctx store auth.actor ref) (placeOf cursor)

def steady (auth : Auth) (ref : ThreadRef) (t : Transition (Streaming D) StreamAct) : Bool :=
  (match t.act with
    | .call call => !call.expires
    | _ => true) &&
  t.after.store.member.get (ref, auth.actor) = t.before.store.member.get (ref, auth.actor)

def readsLast (t : Transition (Streaming D) StreamAct) : Bool :=
  t.before.stream.stage.page.isNone &&
    t.after.stream.stage.page.any fun page => page.nextCursor.isNone

/-- What was sent, and what is about to be, is the beginning of what comes after the start. -/
structure Exact (ctx : Context D) (auth : Auth) (ref : ThreadRef) (start : Option Nat)
    (state : Streaming D) : Prop where
  listed : Listed state.store.log
  marked : Marked (.events ref auth.actor) state.stream.frames
  follows : Follows Event.id (visible ctx state.store auth.actor ref) start state.stream.sent
  -- Until the stream ends, the page that was read comes next, and the cursor stands after what was sent.
  pending : state.stream.done = false →
    Follows Event.id (visible ctx state.store auth.actor ref) start
      (state.stream.sent ++ state.stream.due)
  cursor : state.stream.done = false → Points (.events ref auth.actor) state.stream.cursor
    (reached Event.id start state.stream.sent)

theorem due_of_none {stream : Stream} (h : stream.stage.page = none) : stream.due = [] := by
  simp [Stream.due, h]

theorem due_of_page {stream : Stream} {page : Page Event Scope} (h : stream.stage.page = some page) :
    stream.due = page.items := by
  simp [Stream.due, h]

theorem points_past {start : Option Nat} {cursor : Option (Cursor Scope)} {seen : List Event}
    (h : Points scope cursor (reached Event.id start seen)) (written : List Event) :
    Points scope (cursorPast scope cursor written) (reached Event.id start (seen ++ written)) := by
  rw [reached_append]
  unfold cursorPast
  cases hlast : written.getLast? with
  | none =>
    rw [getLast?_eq_none_iff.mp hlast]
    exact h
  | some last =>
    rw [reached_of_last hlast]
    exact points_some scope (decimal_toString last.id)

namespace Exact

variable {start : Option Nat} (h : Exact ctx auth ref start state)
include h

theorem call {call : Call} {store : Store D} (hstep : step ctx state.store call = some store)
    (hkp : call.expires = false)
    (hmemb : store.member.get (ref, auth.actor) = state.store.member.get (ref, auth.actor)) :
    Exact ctx auth ref start { state with store := store } := by
  obtain ⟨new, hnew, hbehind⟩ := visible_grows h.listed hstep hkp hmemb
  refine { h with listed := (h.listed.step hstep).1, follows := ?_, pending := fun hopen => ?_ }
  all_goals rw [hnew]
  · exact h.follows.grow hbehind
  · exact (h.pending hopen).grow hbehind

omit [DecidableEq D] in
theorem moves {stream : Stream} (hmoves : Moves ctx auth ref state stream) :
    Exact ctx auth ref start { state with stream := stream } := by
  have hrise := h.listed.rising ctx auth.actor ref
  have hmark {written : List Event} (hadv : Advances (.events ref auth.actor) state.stream stream written) :
      Marked (.events ref auth.actor) stream.frames := by
    obtain ⟨extra, hfr, -, hextra⟩ := hadv.frames
    rw [hfr]
    intro id event hmem
    rcases mem_append.mp hmem with hmem | hmem
    · exact h.marked id event hmem
    · exact hextra id event hmem
  cases hmoves with
  | quiet advances page cursor =>
    have hsent : stream.sent = state.stream.sent := by simpa using advances.sent
    have hdue : stream.due = state.stream.due := by
      unfold Stream.due
      rw [page]
    constructor
    case listed => exact h.listed
    case marked => exact hmark advances
    case follows => simpa only [hsent] using h.follows
    case pending =>
      intro hopen
      simpa only [hsent, hdue] using h.pending (advances.ended hopen)
    case cursor =>
      intro hopen
      simpa only [hsent, cursor] using h.cursor (advances.ended hopen)
  | @read stage page idle read holds =>
    refine { h with pending := fun hopen => ?_ }
    rw [due_of_page holds]
    exact (h.listed.read_page h.follows (h.cursor hopen) read).1
  | wrote written advances initial page ended whole =>
    have hsent := advances.sent
    constructor
    case listed => exact h.listed
    case marked => exact hmark advances
    case follows =>
      rw [hsent]
      cases hdone : state.stream.done with
      | false =>
        apply (h.pending hdone).shorten hrise
        exact (prefix_append_right_inj _).mpr initial
      | true =>
        rw [ended hdone, append_nil]
        exact h.follows
    case pending =>
      intro hopen
      rw [due_of_none page, append_nil, hsent, (whole hopen).1]
      exact h.pending (advances.ended hopen)
    case cursor =>
      intro hopen
      rw [hsent, (whole hopen).2]
      exact points_past (h.cursor (advances.ended hopen)) written

section

variable (hstep : streamStep ctx auth ref state act = some state')
include hstep

theorem step (hstd : steady auth ref ⟨state, act, state'⟩ = true) : Exact ctx auth ref start state' := by
  obtain ⟨store', stream'⟩ := state'
  rcases streamStep_cases hstep with ⟨call, rfl, hcall, rfl⟩ | ⟨rfl, hmoves⟩
  · simp only [steady, Bool.and_eq_true, Bool.not_eq_true', decide_eq_true_eq] at hstd
    exact h.call hcall hstd.1 hstd.2
  · exact h.moves hmoves

theorem caught_up (hlast : readsLast ⟨state, act, state'⟩ = true) (hopen : state'.stream.done = false) :
    itemsAfter Event.id (visible ctx state.store auth.actor ref) start = state'.stream.sent ++ state'.stream.due := by
  obtain ⟨store', stream'⟩ := state'
  simp only [readsLast, Bool.and_eq_true, isNone_iff_eq_none] at hlast
  obtain ⟨hnone, hlast⟩ := hlast
  rcases streamStep_cases hstep with ⟨call, rfl, -, rfl⟩ | ⟨-, hmoves⟩
  · rw [hnone] at hlast
    cases hlast
  · cases hmoves with
    | quiet advances page =>
      rw [page, hnone] at hlast
      cases hlast
    | @read stage page idle read holds =>
      rw [holds, any_some, isNone_iff_eq_none] at hlast
      rw [due_of_page holds]
      exact (h.listed.read_page h.follows (h.cursor hopen) read).2.1 hlast
    | wrote written advances initial page =>
      rw [page] at hlast
      cases hlast

end

end Exact

theorem sent_due_step (hstep : streamStep ctx auth ref state act = some state')
    (hopen : state'.stream.done = false) : state.stream.done = false ∧
      state.stream.sent ++ state.stream.due <+: state'.stream.sent ++ state'.stream.due := by
  obtain ⟨store', stream'⟩ := state'
  rcases streamStep_cases hstep with ⟨call, rfl, -, rfl⟩ | ⟨-, hmoves⟩
  · exact ⟨hopen, prefix_rfl⟩
  · cases hmoves with
    | quiet advances page =>
      have hsent : stream'.sent = state.stream.sent := by simpa using advances.sent
      have hdue : stream'.due = state.stream.due := by
        unfold Stream.due
        rw [page]
      rw [hsent, hdue]
      exact ⟨advances.ended hopen, prefix_rfl⟩
    | @read stage page idle read holds =>
      refine ⟨hopen, ?_⟩
      rw [due_of_none idle, append_nil]
      exact prefix_append _ _
    | wrote written advances initial page ended whole =>
      have hall : stream'.sent ++ stream'.due = state.stream.sent ++ state.stream.due := by
        rw [advances.sent, (whole hopen).1, due_of_none page, append_nil]
      exact ⟨advances.ended hopen, hall ▸ prefix_rfl⟩

/-! ## Runs -/

theorem points_resume {header cursor : Option (Cursor Scope)}
    (h : resumeCursor scope header = .ok cursor) : Points scope cursor (placeOf cursor) := by
  unfold resumeCursor at h
  split at h
  · cases h
    exact points_none scope
  · cases h
  · cases h
  · next issued after =>
    split_ifs at h with hvalid
    cases h
    simp only [Bool.and_eq_true, decide_eq_true_eq] at hvalid
    obtain ⟨hdec, rfl⟩ := hvalid
    unfold placeOf
    dsimp only
    cases hnum : decimal after with
    | error =>
      rw [hnum] at hdec
      cases hdec
    | ok => exact points_some issued hnum

/-- A frame's id is a cursor the stream resumes from, and it points to the event of the frame. -/
theorem resume_frame (scope : Scope) (event : Event) : resumeCursor scope (some (.decoded scope (toString event.id))) =
        .ok (some (.decoded scope (toString event.id))) ∧
      placeOf (some (.decoded scope (toString event.id))) = some event.id := by
  have hnum := decimal_toString event.id
  unfold resumeCursor placeOf
  dsimp only
  rw [hnum]
  exact ⟨if_pos (by simp [Except.toOption]), rfl⟩

section Run

variable {past : List (Transition (Store D) Call)} {store : Store D}
  {header cursor : Option (Cursor Scope)} {h : List (Transition (Streaming D) StreamAct)}

theorem exact_of_listed (hlist : Listed store.log)
    (hres : resumeCursor (.events ref auth.actor) header = .ok cursor)
    (hrun : Run (streamStep ctx auth ref) ⟨store, { cursor := cursor }⟩ h state)
    (hstd : ∀ t ∈ h, steady auth ref t = true) : Exact ctx auth ref (placeOf cursor) state := by
  refine hrun.invariant_of (I := Exact ctx auth ref (placeOf cursor))
    (C := fun t => steady auth ref t = true) hstd ?_ fun _ _ _ hex => hex.step
  constructor
  case listed => exact hlist
  case marked => simp [Marked]
  case follows => exact Follows.nil
  case pending => exact fun _ => Follows.nil
  case cursor => exact fun _ => points_resume hres

theorem exact_of_run (hpast : Run (step ctx) {} past store)
    (hres : resumeCursor (.events ref auth.actor) header = .ok cursor)
    (hrun : Run (streamStep ctx auth ref) ⟨store, { cursor := cursor }⟩ h state)
    (hstd : ∀ t ∈ h, steady auth ref t = true) : Exact ctx auth ref (placeOf cursor) state :=
  exact_of_listed (listed_of_run hpast) hres hrun hstd

variable {thread : Thread}

theorem emitPage_open (scope : Scope) {stream : Stream} (hopen : stream.done = false)
    (page : Page Event Scope) : (stream.emitPage scope (fun _ => true) page).done = false := by
  unfold Stream.emitPage
  split_ifs
  · simp [Stream.write, hopen]
  · generalize page.items = events
    induction events generalizing stream with
    | nil => exact hopen
    | cons event rest ih =>
      apply ih
      simp [Stream.emit, Stream.write, hopen]

/-- A page that the consumer takes is sent, and the drain goes on unless it was the last one. -/
theorem drained_open (scope : Scope) {stream : Stream} (hopen : stream.done = false) (pages : Nat)
    (rest : List Event) (position : Event → String) :
    (stream.drained scope (fun _ => true) pages (cutPage rest 50 scope position)).done = false ∧
    (stream.drained scope (fun _ => true) pages (cutPage rest 50 scope position)).sent = stream.sent ++ rest.take 50 ∧
    (stream.drained scope (fun _ => true) pages (cutPage rest 50 scope position)).stage =
      if rest.length ≤ 50 then .waiting else if pages + 1 < maxPages then .reading (pages + 1) else .waiting := by
  have hstill := emitPage_open scope hopen (cutPage rest 50 scope position)
  obtain ⟨written, hadv, -, -, hwhole⟩ :=
    advances_emitPage scope (fun _ => true) stream (cutPage rest 50 scope position)
  have hsent := hadv.sent
  rw [(hwhole hstill).1] at hsent
  have hend : ((cutPage rest 50 scope position).items.isEmpty ||
      (cutPage rest 50 scope position).nextCursor.isNone) = decide (rest.length ≤ 50) := by
    by_cases hlong : rest.length ≤ 50
    · simp [cutPage, hlong, Nat.not_lt.mpr hlong]
    · have hne : rest ≠ [] := by
        rintro rfl
        exact hlong (Nat.zero_le _)
      simp [cutPage, hlong, Nat.lt_of_not_le hlong, hne]
  unfold Stream.drained
  rw [hend]
  by_cases hlong : rest.length ≤ 50
  · rw [if_pos (decide_eq_true hlong), if_pos hlong]
    exact ⟨hstill, hsent, rfl⟩
  · rw [if_neg (by simpa using hlong), if_neg hlong]
    refine ⟨hstill, hsent, ?_⟩
    unfold Stream.nextPage
    rw [hstill]
    simp

def remaining (ctx : Context D) (auth : Auth) (ref : ThreadRef) (start : Option Nat) (state : Streaming D) : List Event :=
  itemsAfter Event.id (visible ctx state.store auth.actor ref) (reached Event.id start state.stream.sent)

variable {start : Option Nat} (hex : Exact ctx auth ref start state) (hopen : state.stream.done = false)
  (hthr : loadThread ctx state.store ref = .ok thread) (hread : canRead state.store auth.actor ref = true)
include hex hopen hthr hread

theorem drain_page {pages : Nat} (hstg : state.stream.stage = .reading pages) :
    ∃ h state', Run (streamStep ctx auth ref) state h state' ∧ Exact ctx auth ref start state' ∧
      state'.store = state.store ∧ state'.stream.done = false ∧
      state'.stream.sent = state.stream.sent ++ (remaining ctx auth ref start state).take 50 ∧
      state'.stream.stage = if (remaining ctx auth ref start state).length ≤ 50 then .waiting
        else if pages + 1 < maxPages then .reading (pages + 1) else .waiting := by
  have hpage := events_total hthr hread (hex.cursor hopen)
  change _ = Except.ok (cutPage (remaining ctx auth ref start state) _ _ _) at hpage
  generalize remaining ctx auth ref start state = rest at hpage ⊢
  generalize hcut : cutPage rest 50 (Scope.events ref auth.actor) (fun event => toString event.id) = page at hpage
  have hfst : streamStep ctx auth ref state (.read (.ok ()) true) =
      some ⟨state.store, { state.stream with stage := .writing pages page }⟩ := by
    simp only [streamStep, hstg, readPage, hpage]
  have hex' := hex.step hfst (by simp [steady])
  generalize hstream : { state.stream with stage := Stage.writing pages page } = stream at hfst hex'
  have hsnd : streamStep ctx auth ref ⟨state.store, stream⟩ (.write false fun _ => true) = some
      ⟨state.store, stream.drained (.events ref auth.actor) (fun _ => true) pages page⟩ := by
    rw [← hstream]
    rfl
  have hopen' : stream.done = false := by
    rw [← hstream]
    exact hopen
  obtain ⟨hstill, hsent, hgoes⟩ := drained_open (.events ref auth.actor) hopen' pages rest
    fun event => toString event.id
  rw [hcut] at hstill hsent hgoes
  refine ⟨_, _, (Run.nil.snoc hfst).snoc hsnd, ?_, rfl, hstill, ?_, hgoes⟩
  · exact hex'.step hsnd (by simp [steady])
  · rw [hsent, ← hstream]
    rfl

/-- A drain whose reads and writes succeed sends everything, when what is left fits into its pages. -/
theorem drain_complete {left pages : Nat} (hstg : state.stream.stage = .reading pages)
    (hpages : pages + (left + 1) = maxPages) (hcnt : (remaining ctx auth ref start state).length ≤ 50 * (left + 1)) :
    ∃ h state', Run (streamStep ctx auth ref) state h state' ∧ state'.store = state.store ∧
      state'.stream.done = false ∧ state'.stream.stage = .waiting ∧
      state'.stream.sent = itemsAfter Event.id (visible ctx state.store auth.actor ref) start := by
  induction left generalizing state pages with
  | zero =>
    obtain ⟨h, state', hrun, -, hst, hopen', hsent, hstg'⟩ := drain_page hex hopen hthr hread hstg
    rw [if_pos hcnt] at hstg'
    rw [take_of_length_le hcnt, remaining, ← hex.follows] at hsent
    exact ⟨h, state', hrun, hst, hopen', hstg', hsent⟩
  | succ left ih =>
    obtain ⟨h, state', hrun, hex', hst, hopen', hsent, hstg'⟩ := drain_page hex hopen hthr hread hstg
    split_ifs at hstg' with hlast hmore
    · rw [take_of_length_le hlast, remaining, ← hex.follows] at hsent
      exact ⟨h, state', hrun, hst, hopen', hstg', hsent⟩
    · -- A full page was sent, and the rest fits into the pages that are left.
      have hrest : (remaining ctx auth ref start state').length ≤ 50 * (left + 1) := by
        unfold remaining at hcnt hsent ⊢
        have hbef := congrArg List.length hex.follows
        have haft := congrArg List.length hex'.follows
        rw [hst] at haft ⊢
        rw [hbef, hsent] at haft
        simp only [length_append, length_take] at haft
        rw [hsent]
        omega
      obtain ⟨h', state'', hrun', hst', hdone⟩ := ih hex' hopen'
        (by rw [hst]; exact hthr) (by rw [hst]; exact hread) hstg' (by omega) hrest
      rw [hst] at hst' hdone
      exact ⟨h ++ h', state'', hrun.append hrun', hst', hdone⟩
    · omega

/-- A poll of an open stream sends everything there is, up to the most a poll may send, when the
credential is valid, the reads succeed and the consumer takes what it is given. -/
theorem poll_complete (hstg : state.stream.stage = .waiting)
    (hcnt : (remaining ctx auth ref start state).length ≤ 50 * maxPages) :
    ∃ h state', Run (streamStep ctx auth ref) state h state' ∧ state'.store = state.store ∧
      state'.stream.done = false ∧ state'.stream.stage = .waiting ∧
      state'.stream.sent = itemsAfter Event.id (visible ctx state.store auth.actor ref) start := by
  have hfst : streamStep ctx auth ref state .tick =
      some { state with stream := { state.stream with stage := .checking } } := by
    simp only [streamStep, hstg, Stream.poll, hopen]
    rfl
  have hsnd : streamStep ctx auth ref { state with stream := { state.stream with stage := .checking } }
      (.credential (.ok true) true) =
      some { state with stream := { state.stream with stage := .reading 0 } } := by
    simp only [streamStep, Stream.nextPage, hopen]
    rfl
  have hex' := (hex.step hfst (by simp [steady])).step hsnd (by simp [steady])
  have hpages : 0 + (999 + 1) = maxPages := rfl
  obtain ⟨h, state', hrun, hrest⟩ := drain_complete hex' hopen hthr hread rfl hpages hcnt
  exact ⟨_, state', ((Run.nil.snoc hfst).snoc hsnd).append hrun, hrest⟩

omit hex hopen hthr hread

/-- **The event stream.**  For a caller whose membership stays as it is, and with nothing expiring, after
every schedule of polls among the calls of the node:

- what was sent is the beginning of the events the caller may see after the cursor of its request, in
  the order of their ids and each of them once;
- everything that could be seen when a last page was read has been sent once the page is written,
  unless the stream has ended;
- from an open stream at rest, a poll that nothing fails sends everything there is, up to the most a
  poll may send;
- a request with the id of a frame that was sent is accepted, and what it resumes with is exactly what
  comes after that frame. -/
theorem stream_exact (hpast : Run (step ctx) {} past store)
    (hresume : resumeCursor (.events ref auth.actor) header = .ok cursor)
    (hrun : Run (streamStep ctx auth ref) ⟨store, { cursor := cursor }⟩ h state)
    (hsteady : ∀ t ∈ h, steady auth ref t = true) :
    Rising Event.id (eventsAfter ctx auth ref state.store cursor) ∧
    state.stream.sent <+: eventsAfter ctx auth ref state.store cursor ∧
    (∀ t ∈ h, readsLast t = true → state.stream.done = false → state.stream.due = [] →
      eventsAfter ctx auth ref t.before.store cursor <+: state.stream.sent) ∧
    (∀ thread, state.stream.stage = .waiting → state.stream.done = false →
      loadThread ctx state.store ref = .ok thread → canRead state.store auth.actor ref = true →
      (eventsAfter ctx auth ref state.store cursor).length ≤ state.stream.sent.length + 50 * maxPages →
      ∃ h' state', Run (streamStep ctx auth ref) state h' state' ∧ state'.store = state.store ∧
        state'.stream.sent = eventsAfter ctx auth ref state.store cursor) ∧
    ∀ id event, .event id event ∈ state.stream.frames →
      resumeCursor (.events ref auth.actor) (some id) = .ok (some id) ∧
      ∃ earlier later, state.stream.sent = earlier ++ event :: later ∧ eventsAfter ctx auth ref state.store cursor =
          earlier ++ event :: eventsAfter ctx auth ref state.store (some id) := by
  have hex := exact_of_run hpast hresume hrun hsteady
  have hrise := hex.listed.rising ctx auth.actor ref
  refine ⟨hrise.after _, hex.follows.initial, ?_, ?_, ?_⟩
  · intro t ht hlast hopen hdue
    -- What a last page completes is sent or about to be, and stays so until the stream ends.
    obtain ⟨before, after, rfl, hbef, hstep, haft⟩ := hrun.of_mem ht
    have hex' := exact_of_run hpast hresume hbef fun t' ht' =>
      hsteady t' (mem_append_left _ ht')
    have hkept : state.stream.done = false → t.after.stream.done = false ∧
        t.after.stream.sent ++ t.after.stream.due <+: state.stream.sent ++ state.stream.due := by
      refine haft.invariant (I := fun s => s.stream.done = false → t.after.stream.done = false ∧
        t.after.stream.sent ++ t.after.stream.due <+: s.stream.sent ++ s.stream.due) ?_ ?_
      · exact fun hstill => ⟨hstill, prefix_rfl⟩
      · intro s a s' hI hstep' hstill
        obtain ⟨hmid, hgrown⟩ := sent_due_step hstep' hstill
        exact ⟨(hI hmid).1, (hI hmid).2.trans hgrown⟩
    obtain ⟨hstill, hgrown⟩ := hkept hopen
    rw [hdue, append_nil] at hgrown
    unfold eventsAfter
    rw [hex'.caught_up hstep hlast hstill]
    exact hgrown
  · intro thread hstg hopen hthr hread hcnt
    have hleft := congrArg List.length hex.follows
    rw [length_append] at hleft
    unfold eventsAfter at hcnt
    obtain ⟨h', state', hrun', hst, -, -, hsent⟩ := poll_complete hex hopen hthr hread hstg (by unfold remaining; omega)
    exact ⟨h', state', hrun', hst, hsent⟩
  · intro id event hframe
    have hid := hex.marked id event hframe
    subst hid
    obtain ⟨hacc, hplace⟩ := resume_frame (.events ref auth.actor) event
    refine ⟨hacc, ?_⟩
    have hsent : event ∈ state.stream.sent := mem_filterMap.mpr ⟨_, hframe, rfl⟩
    obtain ⟨earlier, later, hspl⟩ := append_of_mem hsent
    refine ⟨earlier, later, hspl, ?_⟩
    have hinit : earlier ++ [event] <+: state.stream.sent := ⟨later, by simp [hspl]⟩
    have hlast : (earlier ++ [event]).getLast? = some event := getLast?_concat
    have hfol := hex.follows.shorten hrise hinit
    unfold Follows at hfol
    rw [reached_of_last hlast, append_assoc, singleton_append] at hfol
    unfold eventsAfter
    rw [hplace]
    exact hfol

end Run

namespace Scenario

/-- The owner opens a stream, a second message comes in, and a poll follows. -/
def watched : List StreamAct :=
  [.read (.ok ()) true, .write false fun _ => true,
    .call (sends "k2" (message "m2" "again" (some contactRef))), .tick, .credential (.ok true) true,
    .read (.ok ()) true, .write false fun _ => true]

/-- All three events were sent, and the membership of the owner stayed as it was. -/
def sentAll (h : List (Transition (Streaming Digested) StreamAct)) (state : Streaming Digested) : Bool :=
  h.all (steady { actor := "n" } contactRef) &&
    decide (state.stream.sent.map Event.id = [1, 2, 3])

end Scenario

open Scenario in
/-- The owner is sent the membership and the message of a first contact, and the second message. -/
theorem stream_exact_watched : ∃ past store h state, Run (step context) {} past store ∧
      Run (streamStep context { actor := "n" } contactRef) ⟨store, { cursor := none }⟩ h state ∧
      state.stream.sent.map Event.id = [1, 2, 3] ∧
      state.stream.sent <+:
        eventsAfter context { actor := "n" } contactRef state.store none := by
  obtain ⟨past, store, hpast, hp⟩ := exists_run (step context) {} [sends "k1" (message "m1" "hello")]
    (fun _ store => (execute (streamStep context { actor := "n" } contactRef)
      ⟨store, { cursor := none }⟩ watched).any fun r => sentAll r.1 r.2)
    (by decide +kernel)
  obtain ⟨h, state, hrun, hq⟩ := exists_run _ _ watched (sentAll · ·) (by simpa using hp)
  rw [sentAll, Bool.and_eq_true, List.all_eq_true, decide_eq_true_eq] at hq
  have hres : resumeCursor (.events contactRef "n") none = .ok none := rfl
  exact ⟨past, store, h, state, hpast, hrun, hq.2, (stream_exact hpast hres hrun hq.1).2.1⟩

/-! ## One stream after another -/

def Frame.id : Frame → Option (Cursor Scope)
  | .event id _ => some id
  | .idle | .error _ => none

/-- What a caller was given by the streams it opened one after another, and the cursor of its next
request: the id of the last frame that arrived.  A stream may break off before its last frames arrive. -/
inductive Session (ctx : Context D) (auth : Auth) (ref : ThreadRef) (start : Option (Cursor Scope)) :
    Store D → List Event → Option (Cursor Scope) → Prop where
  | begins {past store} (run : Run (Messages.step ctx) {} past store) : Session ctx auth ref start store [] start
  -- The node serves a call while no stream is open.
  | serves {store seen cursor call store'} (before : Session ctx auth ref start store seen cursor)
      (run : Messages.step ctx store call = some store') (kept : call.expires = false)
      (member : store'.member.get (ref, auth.actor) = store.member.get (ref, auth.actor)) :
      Session ctx auth ref start store' seen cursor
  | streams {store seen header cursor h} {state : Streaming D} {frames : List Frame}
      (before : Session ctx auth ref start store seen header)
      (resumes : resumeCursor (.events ref auth.actor) header = .ok cursor)
      (run : Run (streamStep ctx auth ref) ⟨store, { cursor := cursor }⟩ h state)
      (kept : ∀ t ∈ h, steady auth ref t = true) (arrived : frames <+: state.stream.frames) :
      Session ctx auth ref start state.store (seen ++ frames.filterMap Frame.shown)
        ((frames.filterMap Frame.id).getLast?.or header)

/-- The next request is accepted, and stands behind what the caller was given. -/
structure Resumable (ctx : Context D) (auth : Auth) (ref : ThreadRef) (start : Option Nat) (store : Store D)
    (seen : List Event) (cursor : Option (Cursor Scope)) : Prop where
  listed : Listed store.log
  accepted : resumeCursor (.events ref auth.actor) cursor = .ok cursor
  place : placeOf cursor = reached Event.id start seen
  follows : Follows Event.id (visible ctx store auth.actor ref) start seen

namespace Resumable

variable {start : Option Nat} {store store' : Store D} {seen : List Event} {cursor : Option (Cursor Scope)}
  (h : Resumable ctx auth ref start store seen cursor)
include h

theorem call {call : Call} (hstep : Messages.step ctx store call = some store') (hkp : call.expires = false)
    (hmemb : store'.member.get (ref, auth.actor) = store.member.get (ref, auth.actor)) :
    Resumable ctx auth ref start store' seen cursor := by
  obtain ⟨new, hnew, hbehind⟩ := visible_grows h.listed hstep hkp hmemb
  refine { h with listed := (h.listed.step hstep).1, follows := ?_ }
  rw [hnew]
  exact h.follows.grow hbehind

theorem stream {h' : List (Transition (Streaming D) StreamAct)} {stream : Stream}
    (hrun : Run (streamStep ctx auth ref) ⟨store, stream⟩ h' state) (hstd : ∀ t ∈ h', steady auth ref t = true) :
    Resumable ctx auth ref start state.store seen cursor := by
  refine hrun.invariant_of (I := fun s => Resumable ctx auth ref start s.store seen cursor) hstd h ?_
  intro s a s' hI hstep hkept
  rcases streamStep_cases hstep with ⟨call, rfl, hcall, -⟩ | ⟨hsame, -⟩
  · simp only [steady, Bool.and_eq_true, Bool.not_eq_true', decide_eq_true_eq] at hkept
    exact hI.call hcall hkept.1 hkept.2
  · rw [hsame]
    exact hI

omit [DecidableEq D] in
/-- The frames that arrived are the next ones, and the cursor moves behind them. -/
theorem arrive {frames : List Frame} (hmark : Marked (.events ref auth.actor) frames)
    (hfol : Follows Event.id (visible ctx store auth.actor ref) (placeOf cursor) (frames.filterMap Frame.shown)) :
    Resumable ctx auth ref start store (seen ++ frames.filterMap Frame.shown)
      ((frames.filterMap Frame.id).getLast?.or cursor) := by
  have hids : frames.filterMap Frame.id = (frames.filterMap Frame.shown).map fun event =>
      .decoded (.events ref auth.actor) (toString event.id) := by
    rw [map_filterMap]
    apply filterMap_congr
    intro frame hframe
    cases frame with
    | event id value => exact congrArg some (hmark id value hframe)
    | idle | error => rfl
  rw [hids, getLast?_map]
  have hfol' := h.follows.trans (h.place ▸ hfol)
  cases hlast : (frames.filterMap Frame.shown).getLast? with
  | none =>
    rw [getLast?_eq_none_iff.mp hlast, append_nil]
    exact h
  | some last =>
    obtain ⟨hacc, hplace⟩ := resume_frame (.events ref auth.actor) last
    refine { h with accepted := hacc, place := hplace.trans ?_, follows := hfol' }
    rw [reached_append, reached_of_last hlast]

end Resumable

/-- **Streams one after another.**  A caller that opens a stream again whenever one breaks off, each time with the
id of the last frame that arrived, is given every event it may see after its first cursor, in the order of their
ids and each of them once: its next request is accepted, and what it was given so far, followed by what this
request asks for, is everything there is. -/
theorem sessions_exact {start cursor : Option (Cursor Scope)} {store : Store D} {seen : List Event}
    (hsession : Session ctx auth ref start store seen cursor)
    (hstart : resumeCursor (.events ref auth.actor) start = .ok start) :
    resumeCursor (.events ref auth.actor) cursor = .ok cursor ∧ Rising Event.id seen ∧
      eventsAfter ctx auth ref store start = seen ++ eventsAfter ctx auth ref store cursor := by
  have hall : Resumable ctx auth ref (placeOf start) store seen cursor := by
    induction hsession with
    | begins run => exact ⟨listed_of_run run, hstart, rfl, Follows.nil⟩
    | serves _ run kept member ih => exact ih.call run kept member
    | streams _ resumes run kept arrived ih =>
      cases ih.accepted.symm.trans resumes
      have hex := exact_of_listed ih.listed resumes run kept
      have hrise := hex.listed.rising ctx auth.actor ref
      refine (ih.stream run kept).arrive ?_ (hex.follows.shorten hrise (arrived.filterMap _))
      exact fun id value hframe => hex.marked id value (arrived.subset hframe)
  have hrise := (hall.listed.rising ctx auth.actor ref).after (placeOf start)
  refine ⟨hall.accepted, hrise.sublist hall.follows.initial.sublist, ?_⟩
  unfold eventsAfter
  rw [hall.place]
  exact hall.follows

open Scenario in
/-- The stream of the owner breaks off after one of its two frames; a request with the id of that frame asks for the
other one. -/
theorem sessions_exact_broken : ∃ store seen cursor,
    Session context { actor := "n" } contactRef none store seen cursor ∧ seen.map Event.id = [1] ∧
      resumeCursor (.events contactRef "n") cursor = .ok cursor ∧
      eventsAfter context { actor := "n" } contactRef store none =
        seen ++ eventsAfter context { actor := "n" } contactRef store cursor := by
  let stream := streamStep context { actor := "n" } contactRef
  let breaks (h : List (Transition (Streaming Digested) StreamAct)) (state : Streaming Digested) : Bool :=
    h.all (steady { actor := "n" } contactRef) &&
      ((state.stream.frames.take 1).filterMap Frame.shown).map Event.id = [1]
  obtain ⟨past, store, hpast, hp⟩ := exists_run (step context) {} [sends "k1" (message "m1" "hello")]
    (fun _ store => (execute stream ⟨store, { cursor := none }⟩ (watched.take 2)).any fun r => breaks r.1 r.2)
    (by decide +kernel)
  obtain ⟨h, state, hrun, hq⟩ := exists_run stream _ (watched.take 2) (breaks · ·) (by simpa using hp)
  simp only [breaks, Bool.and_eq_true, List.all_eq_true, decide_eq_true_eq] at hq
  have hsession : Session context { actor := "n" } contactRef none _ _ _ :=
    .streams (.begins hpast) rfl hrun hq.1 ( take_prefix 1 _)
  obtain ⟨hacc, -, hall⟩ := sessions_exact hsession rfl
  exact ⟨_, _, _, hsession, hq.2, hacc, hall⟩

end Exact

end Onlyne.Messages
