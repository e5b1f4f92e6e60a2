import Onlyne.Messages.Stream

/-!
# Messages: the event stream and revocation

A poll of the stream checks the credential once and then drains the listing, up to `maxPages` pages, each read in
a transaction of its own.  So only the first page of a poll is read after a check that came after the page before
it.  As long as polls write one page each, a caller that loses its trust is sent at most one page more.
-/

namespace Onlyne.Messages

open Foundation List

/-! ## The stream under trust changes -/

def StreamAct.answers : StreamAct → Option Bool
  | .credential (.ok answer) _ => some answer
  | _ => none

def StreamAct.writes : StreamAct → Bool
  | .write _ _ => true
  | _ => false

section Revocation

variable {D : Type}

/-- The stream, and what a check of the caller's credential answers now. -/
structure Guarded (D : Type) where
  streaming : Streaming D
  trusted : Bool

def Guarded.stream (s : Guarded D) : Stream := s.streaming.stream

inductive GuardedAct where
  -- The caller is confirmed or revoked.
  | trust (trusted : Bool)
  | stream (act : StreamAct)

def GuardedAct.passes : GuardedAct → Bool
  | .stream act => act.answers = some true
  | .trust _ => false

def GuardedAct.writes : GuardedAct → Bool
  | .stream act => act.writes
  | .trust _ => false

/-- One step; a check of the credential that answers reads the trust there is. -/
def guardedStep [DecidableEq D] (ctx : Context D) (auth : Auth) (ref : ThreadRef) (s : Guarded D) :
    GuardedAct → Option (Guarded D)
  | .trust trusted => some { s with trusted := trusted }
  | .stream act =>
    if act.answers.all (· = s.trusted) then
      (streamStep ctx auth ref s.streaming act).map fun streaming => ⟨streaming, s.trusted⟩
    else none

def writesPage (t : Transition (Guarded D) GuardedAct) : Bool :=
  t.act.writes && !t.before.stream.done && !t.before.stream.due.isEmpty

def readsPage (t : Transition (Guarded D) GuardedAct) : Bool :=
  t.before.stream.stage.page.isNone && t.after.stream.stage.page.isSome

/-- Whether the credential was found valid since the last page was read, and whether it had been when that page was
read. -/
def checks (h : List (Transition (Guarded D) GuardedAct)) : Bool × Bool :=
  h.foldl (fun seen t => if readsPage t then (false, seen.1) else if t.act.passes then (true, seen.2) else seen)
    (false, false)

def Stage.polled : Stage → Bool
  | .writing _ _ => true
  | _ => false

def Stage.further : Stage → Bool
  | .writing (_ + 1) _ => true
  | _ => false

/-! ## What a step does to the stage -/

def Stage.idle : Stage → Bool
  | .waiting | .checking | .refused => true
  | _ => false

inductive Turns : Stage → Stage → Bool → Bool → Prop where
  | rests (stage : Stage) : Turns stage stage false false
  | idles {stage stage' : Stage} {passed wrote} (idle : stage'.idle = true)
      (written : stage.page ≠ none → wrote = true) : Turns stage stage' passed wrote
  | opens (page : Page Event Scope) : Turns .opening (.starting page) false false
  | passes : Turns .checking (.reading 0) true false
  | reads (pages : Nat) (page : Page Event Scope) : Turns (.reading pages) (.writing pages page) false false
  | goesOn (pages : Nat) (page : Page Event Scope) : Turns (.writing pages page) (.reading (pages + 1)) false true

section Stages

variable {stage stage' : Stage} {passed wrote : Bool}

/-- The pages of events that may be written from here without a check, when polls write one page each. -/
def Stage.owed : Stage → Nat
  | .opening | .starting _ | .reading 0 | .writing 0 _ => 1
  | _ => 0

theorem Stage.idle.owed (h : stage.idle = true) : stage.owed = 0 := by
  cases stage <;> simp_all [Stage.idle, Stage.owed]

theorem Turns.owed (h : Turns stage stage' false wrote) : stage'.owed ≤ stage.owed := by
  cases h with
  | idles idle => simp [Stage.idle.owed idle]
  | reads pages => cases pages <;> simp [Stage.owed]
  | _ => simp [Stage.owed]

theorem Turns.spent (h : Turns stage stage' passed true) (hpage : stage.page ≠ none)
    (hfst : stage.further = false) : stage'.owed < stage.owed := by
  have howed : stage.owed = 1 := by
    cases stage with
    | writing pages page => cases pages <;> simp_all [Stage.further, Stage.owed]
    | _ => simp_all [Stage.page, Stage.owed]
  cases h with
  | idles idle => simp [Stage.idle.owed idle, howed]
  | goesOn =>
    rw [howed]
    exact Nat.one_pos

theorem Turns.written (h : Turns stage stage' passed wrote) (hpage : stage.page ≠ none)
    (hnone : stage'.page = none) : wrote = true := by
  cases h with
  | rests => exact absurd hnone hpage
  | idles idle written => exact written hpage
  | goesOn => rfl
  | _ => exact absurd rfl hpage

def Stage.Checked (seen : Bool × Bool) : Stage → Prop
  | .reading pages => seen.1 = decide (pages = 0)
  | .writing pages _ => seen.1 = false ∧ seen.2 = decide (pages = 0)
  | _ => True

theorem Turns.checked {seen : Bool × Bool} (h : Turns stage stage' passed wrote) (hseen : stage.Checked seen) :
    stage'.Checked (if stage.page.isNone && stage'.page.isSome then (false, seen.1)
      else if passed then (true, seen.2) else seen) := by
  cases h with
  | rests => cases stage <;> exact hseen
  | idles idle => cases stage' <;> simp_all [Stage.idle, Stage.Checked]
  | reads => exact ⟨rfl, hseen⟩
  | goesOn => exact hseen.1
  | _ => simp [Stage.Checked, Stage.page]

theorem failWith_idle (stream : Stream) (accepts : Bool) (thrown : Thrown) :
    (stream.failWith accepts thrown).stage.idle = true :=
  congrArg Stage.idle (write_stage { stream with stage := .waiting } accepts _)

theorem poll_idle {stream : Stream} (h : stream.stage = .waiting) : stream.poll.stage.idle = true := by
  unfold Stream.poll
  split_ifs <;> simp [h, Stage.idle]

theorem turns_nextPage (stream : Stream) (pages : Nat) (h : Turns stage (.reading pages) passed wrote)
    (hwr : stage.page ≠ none → wrote = true) : Turns stage (stream.nextPage pages).stage passed wrote := by
  unfold Stream.nextPage
  split_ifs
  · exact h
  · exact .idles rfl hwr

end Stages

variable [DecidableEq D] {ctx : Context D} {auth : Auth} {ref : ThreadRef} {s s' : Guarded D} {act : GuardedAct}

theorem streamStep_turns {state state' : Streaming D} {act : StreamAct}
    (hstep : streamStep ctx auth ref state act = some state') :
    Turns state.stream.stage state'.stream.stage (act.answers = some true) act.writes := by
  cases act with
  | call =>
    obtain ⟨store, -, rfl⟩ := Option.map_eq_some_iff.mp hstep
    exact .rests _
  | write =>
    simp only [streamStep] at hstep
    split at hstep <;> cases hstep
    · refine .idles ?_ fun _ => rfl
      unfold Stream.start
      split_ifs
      · rfl
      · exact poll_idle rfl
      · rfl
    · next pages page hstg =>
      rw [hstg]
      unfold Stream.drained
      split_ifs
      · exact .idles rfl fun _ => rfl
      · exact turns_nextPage _ _ (.goesOn pages page) fun _ => rfl
  | read | tick | credential | close =>
    simp only [streamStep] at hstep
    split at hstep <;> cases hstep
    all_goals first
      | exact .rests _
      | exact ‹state.stream.stage = _› ▸ .opens _
      | exact ‹state.stream.stage = _› ▸ .reads _ _
      | exact ‹state.stream.stage = _› ▸ turns_nextPage _ _ .passes fun hpage => absurd rfl hpage
      | exact .idles (by first | rfl | exact failWith_idle .. | exact poll_idle ‹_›)
          fun hpage => absurd (by rw [‹state.stream.stage = _›]; rfl) hpage

/-- A step is a trust change, or one of the stream in which a check passes only for a trusted caller. -/
theorem guardedStep_cases (hstep : guardedStep ctx auth ref s act = some s') :
    (∃ trusted, act = .trust trusted ∧ s' = { s with trusted := trusted }) ∨
    ∃ streamAct, act = .stream streamAct ∧ streamStep ctx auth ref s.streaming streamAct = some s'.streaming ∧
      s'.trusted = s.trusted ∧ (act.passes = true → s.trusted = true) := by
  cases act with
  | trust trusted =>
    cases hstep
    exact .inl ⟨trusted, rfl, rfl⟩
  | stream streamAct =>
    simp only [guardedStep] at hstep
    split_ifs at hstep with hans
    obtain ⟨streaming, hmv, rfl⟩ := Option.map_eq_some_iff.mp hstep
    refine .inr ⟨streamAct, rfl, hmv, rfl, fun hpass => ?_⟩
    have hyes : streamAct.answers = some true := of_decide_eq_true hpass
    rw [hyes] at hans
    exact (of_decide_eq_true hans).symm

theorem guardedStep_turns (hstep : guardedStep ctx auth ref s act = some s') :
    Turns s.stream.stage s'.stream.stage act.passes act.writes := by
  rcases guardedStep_cases hstep with ⟨trusted, rfl, rfl⟩ | ⟨streamAct, rfl, hmv, -⟩
  · exact .rests _
  · exact streamStep_turns hmv

omit [DecidableEq D] in
theorem page_of_writes {t : Transition (Guarded D) GuardedAct} (h : writesPage t = true) :
    t.act.writes = true ∧ t.before.stream.stage.page ≠ none := by
  simp only [writesPage, Bool.and_eq_true, Bool.not_eq_true'] at h
  refine ⟨h.1.1, fun hnone => ?_⟩
  rw [due_of_none hnone] at h
  cases h.2

theorem writesPage_of_sent (hstep : guardedStep ctx auth ref s act = some s')
    (hsent : s'.stream.sent ≠ s.stream.sent) : writesPage ⟨s, act, s'⟩ = true := by
  have hturns := guardedStep_turns hstep
  rcases guardedStep_cases hstep with ⟨trusted, rfl, rfl⟩ | ⟨streamAct, rfl, hmv, -⟩
  · exact absurd rfl hsent
  rcases streamStep_cases hmv with ⟨call, -, -, hstream⟩ | ⟨-, hmoves⟩
  · exact absurd (congrArg Stream.sent hstream) hsent
  unfold Guarded.stream at hturns hsent
  generalize s'.streaming.stream = stream at hturns hsent hmoves
  cases hmoves with
  | quiet advances => exact absurd (advances.sent.trans (append_nil _)) hsent
  | read => exact absurd rfl hsent
  | wrote written advances initial page ended =>
    have hsome : written ≠ [] := fun hnil => hsent (by rw [advances.sent, hnil, append_nil])
    have hdue : s.streaming.stream.due ≠ [] := fun hnil => hsome (prefix_nil.mp (hnil ▸ initial))
    have hpage : s.streaming.stream.stage.page ≠ none := fun hnone => hdue (due_of_none hnone)
    have hwrote : streamAct.writes = true := hturns.written hpage page
    have hopen : s.streaming.stream.done = false := Bool.eq_false_iff.mpr fun hdone => hsome (ended hdone)
    simp [writesPage, GuardedAct.writes, Guarded.stream, hwrote, hopen, hdue]

/-! ## Runs -/

variable {h : List (Transition (Guarded D) GuardedAct)}

/-- While the caller is not trusted, each page that is written is one of those owed at the start. -/
theorem written_after_revocation (hrun : Run (guardedStep ctx auth ref) s h s') (hrev : s.trusted = false) :
    (∀ t ∈ h, t.act ≠ .trust true ∧ (writesPage t = true → t.before.stream.stage.further = false)) →
      (h.filter writesPage).length + s'.stream.stage.owed ≤ s.stream.stage.owed ∧ s'.trusted = false := by
  induction hrun with
  | nil => exact fun _ => ⟨by simp, hrev⟩
  | @snoc h m m' act _ hstep ih =>
    intro hall
    obtain ⟨hpast, hnow⟩ := forall_mem_append.mp hall
    obtain ⟨hstays, hfst⟩ := hnow _ (mem_singleton_self _)
    obtain ⟨hcnt, htr⟩ := ih hpast
    have hturns := guardedStep_turns hstep
    have hkept : act.passes = false ∧ m'.trusted = false := by
      rcases guardedStep_cases hstep with ⟨trusted, rfl, rfl⟩ | ⟨streamAct, rfl, -, htrusted, hpass⟩
      · cases trusted with
        | false => exact ⟨rfl, rfl⟩
        | true => exact absurd rfl hstays
      · exact ⟨Bool.eq_false_iff.mpr fun h => by simp [hpass h] at htr, htrusted.trans htr⟩
    refine ⟨?_, hkept.2⟩
    rw [filter_append, length_append]
    by_cases hwr : writesPage ⟨m, act, m'⟩ = true
    · obtain ⟨hwrote, hpage⟩ := page_of_writes hwr
      rw [show act.writes = true from hwrote] at hturns
      have hsp := hturns.spent hpage (hfst hwr)
      rw [filter_cons_of_pos hwr, filter_nil, length_singleton]
      omega
    · rw [hkept.1] at hturns
      have howed := hturns.owed
      rw [filter_cons_of_neg hwr, filter_nil, length_nil]
      omega

/-- **The stream and revocation.**  Under every interleaving of pages, calls and trust changes, every page of events
that is written after the first was read after a check of the credential that came after the page before it exactly
if no poll writes more than one page.  Then a caller that is revoked, and not confirmed again, is sent at most one
page more: events are sent only in writes of a page. -/
theorem pages_rechecked_iff {store : Store D} {cursor : Option (Cursor Scope)} {trusted : Bool}
    (hrun : Run (guardedStep ctx auth ref) ⟨⟨store, { cursor := cursor }⟩, trusted⟩ h s) :
    (EveryStep (fun past t => t.before.stream.stage.polled = true → writesPage t = true → (checks past).2 = true) h ↔
      ∀ t ∈ h, writesPage t = true → t.before.stream.stage.further = false) ∧
    (∀ t ∈ h, t.after.stream.sent ≠ t.before.stream.sent → writesPage t = true) ∧
    ((∀ t ∈ h, writesPage t = true → t.before.stream.stage.further = false) →
      ∀ past t future, h = past ++ t :: future → t.act = .trust false → (∀ u ∈ future, u.act ≠ .trust true) →
        (future.filter writesPage).length ≤ 1) := by
  refine ⟨?_, fun t ht => writesPage_of_sent (hrun.step_of_mem ht), ?_⟩
  · -- Carried along: what the stage says about the checks there were.
    have hchk {h : List (Transition (Guarded D) GuardedAct)} {s : Guarded D}
        (hrun : Run (guardedStep ctx auth ref) ⟨⟨store, { cursor := cursor }⟩, trusted⟩ h s) :
        s.stream.stage.Checked (checks h) := by
      refine hrun.induction_on (I := fun h s => s.stream.stage.Checked (checks h)) trivial ?_
      intro h m act m' _ ih hstep
      rw [checks, foldl_append]
      exact (guardedStep_turns hstep).checked ih
    induction hrun with
    | nil => exact iff_of_true (fun i hi => absurd hi (by simp)) (by simp)
    | @snoc h m m' act hpast hstep ih =>
      rw [everyStep_snoc, forall_mem_append, forall_mem_singleton]
      refine and_congr ih ?_
      have hnow := hchk hpast
      cases hstg : m.stream.stage with
      | writing pages =>
        rw [hstg] at hnow
        rw [hnow.2]
        cases pages <;> simp [Stage.further, Stage.polled]
      | _ => simp [Stage.further, Stage.polled]
  · rintro hfst past t future rfl hact hstays
    obtain ⟨-, hstep, haft⟩ := hrun.split_at
    have hrev : t.after.trusted = false := by
      rw [hact] at hstep
      rw [← Option.some.inj hstep]
    have hcnt := (written_after_revocation haft hrev fun u hu =>
      ⟨hstays u hu, hfst u (by simp [hu])⟩).1
    have hone : t.after.stream.stage.owed ≤ 1 := by
      unfold Stage.owed
      split <;> omega
    omega

end Revocation

namespace Scenario

def notConfirms : GuardedAct → Bool
  | .trust true => false
  | _ => true

/-- A message of `b` comes in; the first one opens the thread. -/
def arrives (n : Nat) : GuardedAct :=
  .stream (.call (sends ("k" ++ toString n) (message ("m" ++ toString n) "hi"
    (if n = 0 then none else some contactRef))))

def reads : GuardedAct := .stream (.read (.ok ()) true)

def writes : GuardedAct := .stream (.write false fun _ => true)

/-- `b` opens a stream, these many messages come in, and a poll reads its first page. -/
def watches (count : Nat) : List GuardedAct :=
  [arrives 0, reads, writes] ++ (List.range count).map (fun n => arrives (n + 1)) ++
    [.stream .tick, .stream (.credential (.ok true) true), reads]

def watched₀ : Guarded Digested := ⟨⟨{}, { cursor := none }⟩, true⟩

/-- The step of the stream of `b`. -/
def watchStep : Guarded Digested → GuardedAct → Option (Guarded Digested) :=
  guardedStep context { actor := "b" } contactRef

/-- A scenario in which `b` is revoked between these acts and those. -/
theorem revoked_between (acts rest : List GuardedAct)
    (p : List (Transition (Guarded Digested) GuardedAct) → List (Transition (Guarded Digested) GuardedAct) → Prop)
    [∀ past future, Decidable (p past future)] (hexec : (execute watchStep watched₀ acts).any (fun r =>
      (execute watchStep { r.2 with trusted := false } rest).any fun r' => p r.1 r'.1) = true) :
    ∃ past m future s, Run watchStep watched₀
      (past ++ ⟨m, .trust false, { m with trusted := false }⟩ :: future) s ∧ p past future := by
  obtain ⟨past, m, hpast, hrest⟩ := exists_run watchStep watched₀ acts (fun h m =>
    (execute watchStep { m with trusted := false } rest).any fun r' => p h r'.1) (by simpa using hexec)
  obtain ⟨future, s, hfuture, hp⟩ := exists_run _ _ rest (fun h _ => p past h) hrest
  have hrev : watchStep m (.trust false) = some { m with trusted := false } := rfl
  refine ⟨past, m, future, s, ?_, hp⟩
  rw [append_cons]
  exact (hpast.snoc hrev).append hfuture

theorem not_confirms {h : List (Transition (Guarded Digested) GuardedAct)}
    (hall : ∀ t ∈ h, notConfirms t.act = true) : ∀ t ∈ h, t.act ≠ .trust true := by
  intro t ht hact
  have hnot := hall t ht
  rw [hact] at hnot
  cases hnot

end Scenario

open Scenario in
/-- With one message to poll for, `b` is sent it after its revocation and nothing more. -/
theorem pages_rechecked_iff_revoked :
    ∃ past t future s, Run watchStep watched₀ (past ++ t :: future) s ∧ t.act = .trust false ∧
      (future.filter writesPage).length ≤ 1 := by
  obtain ⟨past, m, future, s, hrun, hp⟩ := revoked_between (watches 1) [writes, .stream .tick] (fun past future =>
    (∀ t ∈ future, notConfirms t.act = true) ∧ ∀ t ∈ past ++ future, t.before.stream.stage.further = false)
    (by decide +kernel)
  refine ⟨past, _, future, s, hrun, rfl,
    (pages_rechecked_iff hrun).2.2 (fun t ht hwr => ?_) past _ future rfl rfl (not_confirms hp.1)⟩
  rcases mem_append.mp ht with hold | hnew
  · exact hp.2 t (mem_append_left _ hold)
  · rcases mem_cons.mp hnew with rfl | hnew
    · cases hwr
    · exact hp.2 t (mem_append_right _ hnew)

open Scenario in
/-- `b` is revoked while the first page of a poll waits to be written; that page and the next one are sent. -/
theorem revoked_caller_sent_two_pages :
    ∃ past t future s, Run watchStep watched₀ (past ++ t :: future) s ∧ t.act = .trust false ∧
      (∀ u ∈ future, u.act ≠ .trust true) ∧ (future.filter writesPage).length = 2 := by
  obtain ⟨past, m, future, s, hrun, hp⟩ := revoked_between (watches 51) [writes, reads, writes] (fun _ future =>
    (∀ t ∈ future, notConfirms t.act = true) ∧ (future.filter writesPage).length = 2) (by decide +kernel)
  exact ⟨past, _, future, s, hrun, rfl, not_confirms hp.1, hp.2⟩

end Onlyne.Messages
