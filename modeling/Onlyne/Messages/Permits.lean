import Onlyne.Messages.Rights

/-!
# Messages: the account of a reply permit

A reply permit lets its grantee answer one message without being a member, a bounded number of times.
The permit is issued by `permits` and used up in the middle of an admission that a membership may
allow just as well.  The account kept here is over whole runs: between two writes of a permit, no more
admissions rest on it alone than it had replies left.
-/

namespace Onlyne.Messages

open Foundation Table Option

section Account

variable {D : Type}

/-! ## What is counted -/

section

variable (t : Transition (Store D) Call) (slot : MessageRef × NodeId)

/-- The entry the call has put into a thread: the row of its message, once its thread has moved on. -/
def entered : Option Entry :=
  match t.act with
  | .admitRequest _ request _ =>
    (t.after.entryRef.get request.message.ref).filter fun entry =>
      t.after.thread.get entry.threadRef ≠ t.before.thread.get entry.threadRef
  | _ => none

/-- The call has admitted a message of `slot.2` that answers `slot.1`, and whose sender was neither the
owner nor an active post member nor opening the thread: the permit alone allowed it. -/
def allowedOnlyBy : Bool :=
  match entered t with
  | none => false
  | some entry =>
    entry.message.inReplyTo = some slot.1 && entry.message.sender = slot.2 &&
      !mayPost t.before entry.threadRef (t.before.thread.get entry.threadRef).isNone
        entry.message.sender

/-- The call has written the permit of `slot`: it is a `permits` call that ran its work. -/
def writesPermit : Bool :=
  match t.act with
  | .permits _ permit _ _ =>
    (permit.messageRef, permit.grantee) = slot && ran t
  | _ => false

end

def repliesLeft (store : Store D) (slot : MessageRef × NodeId) : Int :=
  ((store.permit.get slot).map ReplyPermit.remaining).getD 0

/-! ## One call -/

variable {ctx : Context D} {staged : Staged} {s : Store D} {auth : Auth} {request : SendRequest}
  {input : AdmitInput} {slot : MessageRef × NodeId}

theorem permitAllows_eq_true {permit : ReplyPermit} {message : Message} {now : Int} :
    permitAllows ctx permit message now = true ↔ permit.revoked = false ∧ 0 < permit.remaining ∧
      after ctx permit.expiresAt now = true ∧ (message.relation = some .followup → permit.followup = true) := by
  simp only [permitAllows, Bool.and_eq_true, Bool.not_eq_true', decide_eq_true_eq, Bool.or_eq_true,
    gt_iff_lt, ne_eq, and_assoc]
  constructor
  · rintro ⟨hrev, hleft, haft, hfollowup⟩
    refine ⟨hrev, hleft, haft, ?_⟩
    intro hrel
    rcases hfollowup with hoth | hgranted
    · exact absurd hrel hoth
    · exact hgranted
  · rintro ⟨hrev, hleft, haft, hfollowup⟩
    refine ⟨hrev, hleft, haft, ?_⟩
    by_cases hrel : message.relation = some .followup
    · exact .inr (hfollowup hrel)
    · exact .inl hrel

/-- A thread is opened by a first contact exactly when it does not exist yet. -/
theorem Landed.firstContact_eq {log : Log D} (h : Landed log staged) :
    (log.thread.get staged.threadRef).isNone = staged.firstContact := by
  unfold Landed at h
  cases hcont : staged.firstContact with
  | false =>
    rw [hcont] at h
    rw [h]
    rfl
  | true =>
    rw [hcont] at h
    rw [h.1]
    rfl

variable (message : Table MessageRef (Remembered D))

theorem entered_append (hstg : stage ctx s request.message input = .ok staged) :
    entered ⟨s, .admitRequest auth request input, (appended ctx s auth request input staged).withMessage message⟩ =
      some (staged.entry auth request.message) := by
  obtain ⟨-, hland, -, -, -⟩ := stage_admissible hstg
  obtain ⟨_, _, _, _, _, hrows⟩ := append_rows ctx s auth request input staged
  -- The landing thread was missing or had the number of the entry as its next one.
  have hmv (row : Thread) (hnext : row.nextSeq = staged.thread.nextSeq + 1) :
      some row ≠ s.thread.get staged.threadRef := by
    intro hsame
    unfold Landed at hland
    cases hcont : staged.firstContact with
    | false =>
      rw [hcont] at hland
      cases hsame.trans hland
      omega
    | true =>
      rw [hcont] at hland
      cases hsame.trans hland.1
  unfold entered
  rw [hrows]
  dsimp only
  rw [get_put_self, filter_some, if_pos]
  rw [decide_eq_true_eq]
  change (s.thread.put staged.threadRef _).get staged.threadRef ≠ s.thread.get staged.threadRef
  rw [get_put_self]
  exact hmv _ rfl

theorem entered_of_thread_eq {t : Transition (Store D) Call} (h : t.after.thread = t.before.thread) :
    entered t = none := by
  unfold entered
  split
  · simp [h]
  · rfl

/-- What lets an admission rest on the permit of `slot`, and what becomes of the permit. -/
structure Rests (ctx : Context D) (s s' : Store D) (slot : MessageRef × NodeId)
    (message : Message) (input : AdmitInput) (entry : Entry) (permit : ReplyPermit) : Prop where
  held : s.permit.get slot = some permit
  standing : permit.revoked = false
  left : 0 < permit.remaining
  unexpired : after ctx permit.expiresAt input.permitNow = true
  landing : permit.landing = entry.threadRef
  followup : message.relation = some .followup → permit.followup = true
  spent : s'.permit.get slot = some { permit with remaining := permit.remaining - 1 }

theorem append_rests {message : Table MessageRef (Remembered D)} (hstg : stage ctx s request.message input = .ok staged)
    (hans : request.message.inReplyTo = some slot.1) (hsend : request.message.sender = slot.2)
    (hmay : mayPost s staged.threadRef staged.firstContact request.message.sender = false) :
    ∃ permit, Rests ctx s ((appended ctx s auth request input staged).withMessage message) slot request.message input
      (staged.entry auth request.message) permit := by
  obtain ⟨-, -, hsp, -, -⟩ := stage_admissible hstg
  obtain ⟨hal, hsome⟩ := hsp hmay
  obtain ⟨permit, hperm⟩ := ne_none_iff_exists'.mp hsome
  rw [hperm] at hal
  obtain ⟨original, horig, hheld, hallows, hland⟩ := allowedPermit_some hal.symm
  rw [hans] at horig
  cases horig
  rw [hsend] at hheld
  obtain ⟨hstd, hleft, hunexpired, hfollowup⟩ := permitAllows_eq_true.mp hallows
  obtain ⟨_, _, _, _, _, hrows⟩ := append_rows ctx s auth request input staged
  refine ⟨permit, hheld, hstd, hleft, hunexpired, hland, hfollowup, ?_⟩
  rw [hrows, hperm]
  dsimp only [spendPermit]
  rw [hans, hsend]
  exact get_put_self ..

theorem repliesLeft_of_row {store : Store D} {permit : ReplyPermit} (h : store.permit.get slot = some permit) :
    repliesLeft store slot = permit.remaining := by
  simp [repliesLeft, h]

/-- Whether an append rests on the permit of `slot` alone is decided by its sender's rights. -/
theorem allowedOnlyBy_append (slot : MessageRef × NodeId) (hstg : stage ctx s request.message input = .ok staged) :
    allowedOnlyBy ⟨s, .admitRequest auth request input,
      (appended ctx s auth request input staged).withMessage message⟩ slot =
      (decide (request.message.inReplyTo = some slot.1) && decide (request.message.sender = slot.2) &&
        !mayPost s staged.threadRef staged.firstContact request.message.sender) := by
  obtain ⟨-, hland, -, -, -⟩ := stage_admissible hstg
  unfold allowedOnlyBy
  rw [entered_append message hstg, ← hland.firstContact_eq]
  rfl

/-- An append that does not rest on the permit of `slot` alone leaves it as it was. -/
theorem append_permit_get (hstg : stage ctx s request.message input = .ok staged)
    (hoth : allowedOnlyBy ⟨s, .admitRequest auth request input,
      (appended ctx s auth request input staged).withMessage message⟩ slot = false) :
    (appended ctx s auth request input staged).permit.get slot = s.permit.get slot := by
  obtain ⟨-, -, -, hunspent, -⟩ := stage_admissible hstg
  obtain ⟨_, _, _, _, _, hrows⟩ := append_rows ctx s auth request input staged
  rw [allowedOnlyBy_append message slot hstg] at hoth
  rw [hrows]
  cases hsp : staged.spent with
  | none => rfl
  | some =>
    cases hans : request.message.inReplyTo with
    | none =>
      unfold spendPermit
      rw [hans]
    | some original =>
      have hmay : mayPost s staged.threadRef staged.firstContact request.message.sender = false := by
        cases hmay : mayPost s staged.threadRef staged.firstContact request.message.sender with
        | false => rfl
        | true =>
          rw [hunspent hmay] at hsp
          cases hsp
      have hne : slot ≠ (original, request.message.sender) := by
        rintro rfl
        rw [hans, hmay] at hoth
        simp at hoth
      unfold spendPermit
      rw [hans]
      exact get_put_ne _ _ hne

end Account

section Run

variable {D : Type} [DecidableEq D] {ctx : Context D} {t : Transition (Store D) Call} {slot : MessageRef × NodeId}
  {h : List (Transition (Store D) Call)} {s : Store D}

section

variable (hstep : step ctx t.before t.act = some t.after)
include hstep

/-- An admission that the permit of `slot` alone allowed rests on it. -/
theorem rests_of_allowedOnlyBy (h : allowedOnlyBy t slot = true) :
    ∃ auth request input entry permit, t.act = .admitRequest auth request input ∧ entered t = some entry ∧
      Rests ctx t.before t.after slot request.message input entry permit := by
  obtain ⟨before, act, after'⟩ := t
  dsimp only at hstep ⊢
  have hsome : entered (⟨before, act, after'⟩ : Transition (Store D) Call) ≠ none := by
    intro hnone
    unfold allowedOnlyBy at h
    rw [hnone] at h
    cases h
  cases step_effect hstep with
  | kept | remembered => exact absurd (entered_of_thread_eq rfl) hsome
  | worked _ named =>
    cases act with
    | admitRequest => cases named
    | _ => exact absurd rfl hsome
  | listed | expired | sent => exact absurd rfl hsome
  | appended message staging =>
    rw [allowedOnlyBy_append message slot staging] at h
    simp only [Bool.and_eq_true, decide_eq_true_eq, Bool.not_eq_true'] at h
    obtain ⟨⟨hans, hsend⟩, hmay⟩ := h
    obtain ⟨permit, hrests⟩ := append_rests staging hans hsend hmay
    exact ⟨_, _, _, _, permit, rfl, entered_append message staging, hrests⟩

/-- Unless it writes the permit, a call takes one reply of it when it rests on it alone, and leaves
it as it was otherwise. -/
theorem repliesLeft_step (hwr : writesPermit t slot = false) :
    repliesLeft t.after slot + (if allowedOnlyBy t slot then 1 else 0) = repliesLeft t.before slot := by
  split_ifs with hal
  · obtain ⟨_, _, _, _, permit, -, -, hrests⟩ := rests_of_allowedOnlyBy hstep hal
    rw [repliesLeft_of_row hrests.held, repliesLeft_of_row hrests.spent]
    dsimp only
    omega
  · rw [Int.add_zero]
    obtain ⟨before, act, after'⟩ := t
    dsimp only at hstep ⊢
    unfold repliesLeft
    cases step_permits hstep with
    | kept hperm => rw [hperm]
    | @written auth permit mutation input row named free answered positive hpermits =>
      have hne : slot ≠ (permit.messageRef, permit.grantee) := by
        intro heq
        have hran := ran_of_row (t := ⟨before, _, after'⟩) named free answered
        simp [writesPermit, heq, hran] at hwr
      rw [hpermits, get_put_ne _ _ hne]
    | spent =>
      -- The row that is spent is the one of `slot` only when the admission rests on it.
      cases step_effect hstep with
      | kept => rfl
      | remembered => rfl
      | worked _ named => cases named
      | appended message staging =>
        have hrow := append_permit_get message staging (Bool.not_eq_true _ ▸ hal)
        rw [hrow]

end

theorem remaining_nonneg (hrun : Run (step ctx) {} h s) :
    ∀ slot permit, s.permit.get slot = some permit → 0 ≤ permit.remaining := by
  refine hrun.invariant (I := fun s => ∀ slot permit, s.permit.get slot = some permit → 0 ≤ permit.remaining) ?_ ?_
  · intro slot permit hrow
    cases hrow
  · intro s call s' ih hstep slot permit hrow
    cases step_permits hstep with
    | kept hperm =>
      rw [hperm] at hrow
      exact ih slot permit hrow
    | written named free answered positive hpermits =>
      rw [hpermits] at hrow
      exact of_put ih hrow (by omega)
    | spent answers allowed hpermits =>
      rw [hpermits] at hrow
      obtain ⟨_, -, -, hal, -⟩ := allowedPermit_some allowed
      have hleft := (permitAllows_eq_true.mp hal).2.1
      refine of_put ih hrow ?_
      dsimp only
      omega

theorem repliesLeft_nonneg (hrun : Run (step ctx) {} h s) (slot : MessageRef × NodeId) : 0 ≤ repliesLeft s slot := by
  cases hrow : s.permit.get slot with
  | none => simp [repliesLeft, hrow]
  | some permit =>
    rw [repliesLeft_of_row hrow]
    exact remaining_nonneg hrun slot permit hrow

/-- While the permit is not written, its replies are used up by the admissions that rest on it alone,
one each. -/
theorem repliesLeft_count {start : Store D} (hrun : Run (step ctx) start h s)
    (hunwr : ∀ t ∈ h, writesPermit t slot = false) :
    repliesLeft s slot + h.countP (allowedOnlyBy · slot) = repliesLeft start slot := by
  induction hrun with
  | nil => simp
  | @snoc h s s' call hprev hstep ih =>
    have hbef := ih fun t ht => hunwr t (List.mem_append_left _ ht)
    have hlast := repliesLeft_step (t := ⟨s, call, s'⟩) hstep (hunwr _ (by simp))
    rw [List.countP_append, List.countP_singleton]
    dsimp only at hlast
    split_ifs at hlast ⊢ <;> push_cast <;> omega

/-! ## Whole runs -/

theorem repliesLeft_of_writesPermit {auth : Auth} {permit : ReplyPermit} {mutation : Mutation}
    {input : MutateInput} (hstep : step ctx t.before t.act = some t.after)
    (hact : t.act = .permits auth permit mutation input) (hwr : writesPermit t slot = true) :
    repliesLeft t.after slot = permit.remaining := by
  obtain ⟨before, act, after'⟩ := t
  cases hact
  unfold writesPermit at hwr
  simp only [ran, Bool.and_eq_true, decide_eq_true_eq, Option.any_eq_true] at hwr
  obtain ⟨rfl, row, -, hfree, hans⟩ := hwr
  cases step_effect hstep with
  | kept =>
    rw [isNone_iff_eq_none.mp hfree] at hans
    cases hans
  | worked digest named free works =>
    cases works with
    | permits positive run =>
      rw [permitsWork_rows run]
      exact repliesLeft_of_row (get_put_self ..)

/-- The account of a reply permit.  Between two writes, no more admissions rest on it alone than the
earlier write granted; its count is never negative; and an admission rests on it only while it is
neither revoked nor expired, in the thread it lands in, and as a follow-up only if it grants them. -/
theorem permit_accounting {ctx : Context D} {h : List (Transition (Store D) Call)} {s : Store D}
    (hrun : Run (step ctx) {} h s) (slot : MessageRef × NodeId) :
    (∀ h₁ t h₂ h₃ auth permit mutation input, h = h₁ ++ t :: (h₂ ++ h₃) →
      t.act = .permits auth permit mutation input → writesPermit t slot = true →
      (∀ t' ∈ h₂, writesPermit t' slot = false) → (h₂.countP (allowedOnlyBy · slot) : Int) ≤ permit.remaining) ∧
    (∀ permit, s.permit.get slot = some permit → 0 ≤ permit.remaining) ∧ ∀ t ∈ h, allowedOnlyBy t slot = true →
      ∃ auth request input entry permit, t.act = .admitRequest auth request input ∧
        entered t = some entry ∧ t.before.permit.get slot = some permit ∧
        permit.revoked = false ∧ after ctx permit.expiresAt input.permitNow = true ∧ permit.landing = entry.threadRef ∧
        (request.message.relation = some .followup → permit.followup = true) := by
  refine ⟨?_, fun permit hrow => remaining_nonneg hrun slot permit hrow, ?_⟩
  · rintro h₁ t h₂ h₃ auth permit mutation input rfl hact hwr hunwr
    obtain ⟨hbef, hstep, hrest⟩ := hrun.split_at
    obtain ⟨m, hbtw, -⟩ := hrest.split
    have hcnt := repliesLeft_count hbtw hunwr
    rw [repliesLeft_of_writesPermit hstep hact hwr] at hcnt
    have hnonneg := repliesLeft_nonneg ((hbef.snoc hstep).append hbtw) slot
    omega
  · intro t ht hal
    obtain ⟨auth, request, input, entry, permit, hact, hentered, hrests⟩ :=
      rests_of_allowedOnlyBy (hrun.step_of_mem ht) hal
    exact ⟨auth, request, input, entry, permit, hact, hentered, hrests.held, hrests.standing,
      hrests.unexpired, hrests.landing, hrests.followup⟩

end Run

namespace Scenario

/-- The greeting of `b`, which `c` may answer once. -/
def greetingRef : MessageRef := ⟨"b", "m"⟩

/-- The permit of `c`. -/
def oneReply : ReplyPermit where
  messageRef := greetingRef
  grantee := "c"
  landing := contactRef
  expiresAt := "2030-01-01T00:00:00Z"
  remaining := 1
  revoked := false
  followup := false

/-- `b` opens a thread and permits a reply, and `c` replies. -/
def permittedReply : List Call :=
  [sends "k" (message "m" "hello"),
   .permits { actor := "b" } oneReply ⟨"p", "2030-01-01T00:00:00Z"⟩
     { windowStart := 0, windowEnd := 0, now := 0 },
   .admitRequest { actor := "c" }
     (request "r" { message "r" "hi" with
       sender := "c"
       routing := some { inReplyTo := some greetingRef } }) welcoming]

end Scenario

open Scenario in
/-- The reply of `c` is the one admission its permit grants. -/
theorem permit_accounting_reply : ∃ h s, Run (step context) {} h s ∧
    h.map (allowedOnlyBy · (greetingRef, "c")) = [false, false, true] ∧
    ∀ permit, s.permit.get (greetingRef, "c") = some permit → 0 ≤ permit.remaining := by
  obtain ⟨h, s, hrun, hp⟩ := exists_run (step context) {} permittedReply
    (fun h _ => h.map (allowedOnlyBy · (greetingRef, "c")) = [false, false, true]) (by decide)
  exact ⟨h, s, hrun, hp, (permit_accounting hrun (greetingRef, "c")).2.1⟩

end Onlyne.Messages
