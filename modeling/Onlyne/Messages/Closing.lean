import Onlyne.Messages.Obligations

/-!
# Messages: closed threads

`close` is final.  A message that would land in a closed thread is refused before it is written.  Memberships may
change and the default thread may be retitled, and nothing else happens to the row of a closed thread; its entries
can only expire.
-/

namespace Onlyne.Messages

open Foundation Table Option

variable {D : Type} {ctx : Context D} {s s' tx : Store D} {ref : ThreadRef} {thread : Thread} {call : Call}

/-- What later calls leave of a thread that was closed in `s`. -/
structure Shut (s : Store D) (ref : ThreadRef) (thread : Thread) (s' : Store D) : Prop where
  row : ∃ title eventSeq, s'.thread.get ref = some { thread with title := title, eventSeq := eventSeq }
  entries : ∀ seq entry, s'.entry.get (ref, seq) = some entry → s.entry.get (ref, seq) = some entry

theorem createWork_kept {owner : NodeId} {title : String} {id : Option String} {wantsDefault : Bool}
    {input : MutateInput} {result : Result} (h : createWork ctx owner title id wantsDefault input s = .ok (result, tx))
    (hrow : s.thread.get ref = some thread) : ∃ title, tx.thread.get ref = some { thread with title := title } := by
  have hother {ref' : ThreadRef} (hfree : s.thread.get ref' = none) (new : Thread) :
      (s.thread.put ref' new).get ref = some thread := by
    rw [get_put_ne, hrow]
    rintro rfl
    cases hfree.symm.trans hrow
  obtain ⟨createdAt, -, h⟩ := bind_eq_ok.mp h
  split_ifs at h
  · dsimp only at h
    split at h
    · next existing hold =>
      split_ifs at h
      · cases h
        exact ⟨_, hrow⟩
      · cases h
        by_cases heq : ref = ⟨owner, defaultThread⟩
        · subst heq
          cases hold.symm.trans hrow
          exact ⟨title, get_put_self ..⟩
        · exact ⟨_, (get_put_ne _ _ heq).trans hrow⟩
    · next hfree =>
      cases h
      exact ⟨_, hother hfree _⟩
  · obtain ⟨ref', hfree, h⟩ := bind_eq_ok.mp h
    cases h
    exact ⟨_, hother (allocate_free hfree) _⟩

/-- An event of a closed thread is recorded for a change of its members only. -/
theorem Works.kept {result : Result} (h : Works ctx s call result tx)
    (hthrs : ∀ ref thread, s.thread.get ref = some thread → thread.threadRef = ref)
    (hrow : s.thread.get ref = some thread) (hclosed : thread.state = .closed) :
    ∃ title eventSeq, tx.thread.get ref = some { thread with title := title, eventSeq := eventSeq } := by
  cases h with
  | create run =>
    obtain ⟨title, hkept⟩ := createWork_kept run hrow
    exact ⟨title, thread.eventSeq, hkept⟩
  | close run =>
    simp only [closeWork, bind_eq_ok, failIf_eq_ok, decide_eq_false_iff_not] at run
    obtain ⟨found, hfnd, -, hopen, _, -, run⟩ := run
    cases run
    have hfnd := loadThread_ok hfnd
    refine ⟨_, _, (get_put_ne _ _ ?_).trans hrow⟩
    rintro rfl
    cases (hthrs _ _ hfnd ▸ hfnd).symm.trans hrow
    exact hopen hclosed
  | member _ run =>
    simp only [memberWork, bind_eq_ok] at run
    obtain ⟨found, hfnd, next, -, run⟩ := run
    cases run
    have hfnd := loadThread_ok hfnd
    rw [← hthrs _ _ hfnd] at hfnd
    -- Neither the membership row nor the notice is a thread row.
    have hput : ∀ granted : Store D, granted.thread = s.thread → ∃ title eventSeq,
        (recordEvent granted found (.membership next)).2.thread.get ref =
          some { thread with title := title, eventSeq := eventSeq } := by
      intro granted hgr
      simp only [recordEvent, hgr]
      by_cases heq : ref = found.threadRef
      · subst heq
        cases hfnd.symm.trans hrow
        exact ⟨_, _, get_put_self ..⟩
      · exact ⟨_, _, (get_put_ne _ _ heq).trans hrow⟩
    apply hput
    split_ifs <;> rfl
  | permits _ run =>
    rw [permitsWork_rows run]
    exact ⟨_, _, hrow⟩
  | ackGrant run => rcases ackGrantWork_rows run with rfl | ⟨_, -, rfl⟩ <;> exact ⟨_, _, hrow⟩
  | ack run =>
    obtain ⟨_, _, -, rfl⟩ := ackWork_rows run
    exact ⟨_, _, hrow⟩

theorem stage_elsewhere {message : Message} {input : AdmitInput} {staged : Staged}
    (h : stage ctx s message input = .ok staged) (hrow : s.thread.get ref = some thread)
    (hclosed : thread.state = .closed) : ref ≠ staged.threadRef := by
  have hland := stage_landed h
  simp only [stage, bind_eq_ok, failIf_eq_ok, decide_eq_false_iff_not, Except.ok.injEq] at h
  obtain ⟨_, -, found, -, -, -, -, hopen, -, -, _, -, _, -, rfl⟩ := h
  rintro rfl
  unfold Landed at hland
  split at hland
  · cases (hland :).symm.trans hrow
    exact hopen hclosed
  · cases (hland.1 :).symm.trans hrow

section Step

variable [DecidableEq D]

theorem Shut.step (hshut : Shut s ref thread s') (hatt : Attested s') {s'' : Store D}
    (hstep : Messages.step ctx s' call = some s'') (hclosed : thread.state = .closed) : Shut s ref thread s'' := by
  obtain ⟨⟨title, eventSeq, hrow⟩, hent⟩ := hshut
  cases step_effect hstep with
  | kept | remembered | sent => exact ⟨⟨_, _, hrow⟩, hent⟩
  | listed run =>
    obtain ⟨_, rfl⟩ := attention_ok run
    exact ⟨⟨_, _, hrow⟩, hent⟩
  | @appended auth request input staged message staging =>
    have hne := stage_elsewhere staging hrow hclosed
    obtain ⟨_, _, _, _, _, hrows⟩ := append_rows ctx s' auth request input staged
    unfold appended at hrows
    rw [hrows]
    refine ⟨⟨_, _, (get_put_ne _ _ hne).trans hrow⟩, fun seq entry hrow' => hent seq entry ?_⟩
    rwa [← get_put_ne]
    exact fun heq => hne (congrArg Prod.fst heq)
  | expired run =>
    have hupk := expire_upkeep run
    refine ⟨?_, fun seq entry hrow' => hent seq entry (hupk.entry hrow')⟩
    obtain ⟨_, _, _, _, _, rfl⟩ := expire_rows run
    exact ⟨_, _, hrow⟩
  | worked digest named free works =>
    obtain ⟨title', eventSeq', hkept⟩ := works.kept hatt.threads hrow hclosed
    exact ⟨⟨title', eventSeq', hkept⟩, fun seq entry hrow' => hent seq entry (works.upkeep.entry hrow')⟩

/-- **Closing is final.**  From every reachable state on, whatever calls follow and whoever makes them: a thread
that is closed stays closed as of the same time, gives out no further number and gets no entry; only its title and
its event counter change. -/
theorem closed_final {past later : List (Transition (Store D) Call)} (hpast : Run (Messages.step ctx) {} past s)
    (hrow : s.thread.get ref = some thread) (hclosed : thread.state = .closed)
    (hrun : Run (Messages.step ctx) s later s') : Shut s ref thread s' := by
  have hstart : Attested s ∧ Shut s ref thread s :=
    ⟨attested_of_run hpast, ⟨_, _, hrow⟩, fun _ _ hent => hent⟩
  exact (hrun.invariant (I := fun s' => Attested s' ∧ Shut s ref thread s') hstart
    fun _ _ _ hI hstep => ⟨hI.1.step hstep, hI.2.step hI.1 hstep hclosed⟩).2

open Scenario in
/-- The owner closes the thread of a first contact, and a second message to it is refused. -/
theorem closed_final_refused : ∃ past s thread later s', Run (step context) {} past s ∧
    s.thread.get contactRef = some thread ∧ thread.state = .closed ∧ Run (step context) s later s' ∧
      (s'.message.get ⟨"b", "m2"⟩).isSome ∧ Shut s contactRef thread s' := by
  let closes : Call := .close { actor := "n" } contactRef ⟨"c", "2030-01-01T00:00:00Z"⟩
    { windowStart := 0, windowEnd := 0, now := 0 }
  let late := [sends "k2" (message "m2" "again" (some contactRef))]
  obtain ⟨past, s, hpast, ⟨thread, hrow, hclosed⟩, hlate⟩ := exists_run (step context) {}
    [sends "k1" (message "m1" "hello"), closes]
    (fun _ s => (∃ thread ∈ s.thread.get contactRef, thread.state = .closed) ∧
      (execute (step context) s late).any (fun r => (r.2.message.get ⟨"b", "m2"⟩).isSome) = true) (by decide +kernel)
  obtain ⟨later, s', hrun, hmsg⟩ := exists_run (step context) s late
    (fun _ s' => (s'.message.get ⟨"b", "m2"⟩).isSome) (by simpa using hlate)
  exact ⟨past, s, thread, later, s', hpast, hrow, hclosed, hrun, hmsg, closed_final hpast hrow hclosed hrun⟩

end Step

end Onlyne.Messages
