import Onlyne.Client.Isolation

/-!
# Client: parked threads

A thread of another owner that could not be reconciled is asked again after a delay, and parked when its series of
attempts reaches the limit.  What an attempt came to is read off the history: its last step before the report says
whether the list could not be read or something behind the list failed.
-/

namespace Onlyne.Client

open Foundation Table Option
open Messages (Message MessageRef ThreadRef Entry Attention)

/-! ## Attempts

A history is read from its newest transition on. -/

section

variable (ref : ThreadRef) (past : List (Transition OnlyneClient Act)) (call : Nat) (t : Transition OnlyneClient Act)

def stepOf : Bool :=
  match t.act with
  | .advance moved _ => moved = call
  | _ => false

def lastStand : Option Task :=
  (past.find? (stepOf call)).bind fun t => t.before.calls.get call

/-- `#reconcileThread` waits for a page of the list, or goes on to the next page. -/
def Task.reads : Task → Bool
  | .pulling _ _ | .items _ _ _ => true
  | _ => false

/-- A call that is about to reset the series of a thread: its list was read, or its owner answered elsewhere. -/
def Task.resets : Task → Bool
  | .clearing pull => pull.ref = ref
  | .answering peer _ _ => peer = ref.owner
  | _ => false

def Task.resetting : Task → Bool
  | .clearing _ | .answering _ _ _ => true
  | _ => false

/-- `#peerAnswered` is about to be recorded for the owner of a thread. -/
def Task.heardOf : Task → Bool
  | .answering peer _ _ => peer = ref.owner
  | _ => false

inductive Ending where
  -- The list of the owner could not be read.
  | unread
  -- It was read, and something behind it failed.
  | spoiled
  -- It was read through, or the owner answered on another path.
  | answered
  deriving DecidableEq, Repr

/-- The attempt for a thread that ends with a transition, or the answer of its owner that arrives with it. -/
def endingOf : Option Ending :=
  match t.act with
  | .advance call input =>
    match t.before.calls.get call, input with
    | some (.reporting pull _), .go _ _ =>
      if pull.ref = ref then some (if (lastStand past call).any Task.reads then .unread else .spoiled) else none
    | some (.items [] none pull), .go _ _ => if pull.ref = ref then some .answered else none
    | _, _ => if (t.after.calls.get call).any (Task.heardOf ref) then some .answered else none
  | _ => none

/-- The attempts for a thread that could not read its list, back to the first that could or to the last answer of
its owner. -/
def failedReads (ref : ThreadRef) : List (Transition OnlyneClient Act) → Nat
  | [] => 0
  | t :: past =>
    match endingOf ref past t with
    | some .unread => failedReads ref past + 1
    | some .spoiled | some .answered => 0
    | none => failedReads ref past

def parks (ref : ThreadRef) : Bool :=
  (!(t.before.rows.backoff.get ref).any fun row => row.dead) &&
    (t.after.rows.backoff.get ref).any fun row => row.dead

/-- Only failed reads are counted, and an answer resets what is counted: a reported failure is one of the read of
the list, and no reset is under way for the thread; an attempt that read the list through has a series to reset or
there is none; and a reset is made. -/
def countsReads : Bool :=
  match t.act with
  | .advance call input =>
    match t.before.calls.get call, input with
    | some (.reporting pull _), .go _ _ =>
      (lastStand past call).any Task.reads && t.before.calls.rows.all fun other => !other.2.resets pull.ref
    | some (.items [] none pull), .go _ _ => pull.series || (t.before.rows.backoff.get pull.ref).isNone
    | some (.clearing _), .go _ _ | some (.answering _ _ _), .go _ _ => true
    | some (.clearing _), _ | some (.answering _ _ _), _ => false
    | _, _ => true
  | .crash => t.before.calls.rows.all fun other => !other.2.resetting
  | _ => true

end

/-! ## Series -/

def InboundRows.attempts (rows : InboundRows) (ref : ThreadRef) : Nat :=
  ((rows.backoff.get ref).map fun row => row.attempt).getD 0

def seriesAfter (rows : InboundRows) : Task → Input → Table ThreadRef ReconcileBackoff
  | .answering peer _ _, .go now _ => (peerAnsweredTx peer now rows).backoff
  | .clearing pull, .go _ _ => rows.backoff.delete pull.ref
  | .reporting pull thrown, .go now _ => (reportTx pull.ref (failureOf thrown) now rows).backoff
  | _, _ => rows.backoff

section Steps

variable {ctx : Context} {outbound : OutboundRows} {rows rows' : InboundRows} {awaiting : AwaitedReplies}

theorem WorkWrites.backoff {work : Work} (hwr : WorkWrites ctx rows work rows') : rows'.backoff = rows.backoff := by
  rcases hwr.frame with ⟨inbox, rfl⟩ | ⟨entry, context, via, begun, -, rfl⟩ | ⟨entry, context, -, rfl⟩
  · rfl
  · unfold confirmTx
    split <;> rfl
  · unfold todoDoneTx
    split <;> rfl

theorem resume_series {task : Task} {input : Input} {outcome : Outcome}
    (hres : resume ctx outbound rows awaiting task input = some outcome) :
    outcome.rows.backoff = seriesAfter rows task input := by
  unfold resume at hres
  split at hres
  case h_2 =>
    obtain ⟨worked, hwk, rfl⟩ := map_eq_some_iff.mp hres
    rcases workStep_writes hwk with hkept | ⟨-, hwr⟩
    · exact congrArg InboundRows.backoff hkept
    · exact hwr.backoff
  case h_3 | h_5 | h_6 =>
    cases hres
    rfl
  case h_10 hanswering _ hclearing hreporting _ _ _ =>
    obtain ⟨next, -, rfl⟩ := map_eq_some_iff.mp hres
    unfold seriesAfter
    split
    · exact absurd rfl (hanswering _ _ _ _ _ rfl)
    · exact absurd rfl (hclearing _ _ _ rfl)
    · exact absurd rfl (hreporting _ _ _ _ rfl)
    · rfl
  case h_1 =>
    cases hres
    cases task <;> rfl
  all_goals
    cases hres
    rfl

end Steps

/-! ## What a series has counted -/

def Counted (ref : ThreadRef) (past : List (Transition OnlyneClient Act)) (s : OnlyneClient) : Prop :=
  (∃ call task, s.calls.get call = some task ∧ task.resets ref = true) ∨
    s.rows.attempts ref ≤ failedReads ref past

section Runs

variable {ctx : Context} {s s' : OnlyneClient} {a : Act} {past : List (Transition OnlyneClient Act)}

theorem stands_of_waits (records : List StoredOutbound) {s : OnlyneClient} (hnum : Numbered s) {call : Nat}
    {task : Task} (htask : s.calls.get call = some task) :
    (records.foldl (fun s record => s.spawn (.registering record)) s).calls.get call = some task := by
  induction records generalizing s with
  | nil => exact htask
  | cons record rest ih =>
    have hne : call ≠ s.next := by
      have hlt := hnum call (by rw [htask]; simp)
      omega
    exact ih (hnum.spawn _) ((get_put_ne _ _ hne).trans htask)

theorem stands_of_other (hnum : Numbered s) (hstep : clientStep ctx s a = some s') {call : Nat} {task : Task}
    (htask : s.calls.get call = some task) (hoth : ∀ input, a ≠ .advance call input) (hcrash : a ≠ .crash) :
    s'.calls.get call = some task := by
  have hne : call ≠ s.next := by
    have hlt := hnum call (by rw [htask]; simp)
    omega
  cases a with
  | crash => exact absurd rfl hcrash
  | out =>
    obtain ⟨next, -, rfl⟩ := outAct_of_out hstep
    exact stands_of_waits _ (by exact hnum) htask
  | receive =>
    simp only [clientStep, clientAct] at hstep
    split_ifs at hstep <;> cases hstep
    · exact (get_put_ne _ _ hne).trans htask
    · exact htask
  | confirm | reconcile | maintain =>
    cases hstep
    exact (get_put_ne _ _ hne).trans htask
  | admitted | revised =>
    cases hstep
    exact htask
  | advance moved input =>
    obtain ⟨old, outcome, -, -, rfl⟩ := resume_of_advance hstep
    have hmv : call ≠ moved := by
      rintro rfl
      exact hoth input rfl
    exact (s.move_get_ne outcome hmv).trans htask

variable {ref : ThreadRef} {call : Nat} {input : Input} {task : Task} {outcome : Outcome}

theorem counted_of_reset (hnone : s.rows.backoff.get ref = none) : Counted ref past s := by
  right
  rw [InboundRows.attempts, hnone]
  exact Nat.zero_le _

theorem Counted.idle (hcnt : Counted ref past s) (hnum : Numbered s) (hstep : clientStep ctx s a = some s')
    (hend : endingOf ref past ⟨s, a, s'⟩ = none) (hser : s'.rows.backoff.get ref = s.rows.backoff.get ref)
    (hreset : ∀ call task, s.calls.get call = some task → task.resets ref = true →
      (∀ input, a ≠ .advance call input) ∧ a ≠ .crash) : Counted ref (⟨s, a, s'⟩ :: past) s' := by
  rcases hcnt with ⟨call, task, htask, hresetting⟩ | hle
  · obtain ⟨hoth, hcrash⟩ := hreset call task htask hresetting
    exact .inl ⟨call, task, stands_of_other hnum hstep htask hoth hcrash, hresetting⟩
  · right
    rw [failedReads, hend, InboundRows.attempts, hser]
    exact hle

theorem Counted.pass (hcnt : Counted ref past s) (hnum : Numbered s)
    (hstep : clientStep ctx s (.advance call input) = some s') (htask : s.calls.get call = some task)
    (hstays : task.resets ref = false) (hend : endingOf ref past ⟨s, .advance call input, s'⟩ = none)
    (hser : s'.rows.backoff.get ref = s.rows.backoff.get ref) :
    Counted ref (⟨s, .advance call input, s'⟩ :: past) s' := by
  refine hcnt.idle hnum hstep hend hser fun call' task' htask' hreset => ?_
  refine ⟨fun input' heq => ?_, fun heq => (by cases heq)⟩
  cases heq
  rw [htask] at htask'
  cases htask'
  rw [hstays] at hreset
  cases hreset

theorem Counted.reported {pull : Pull} {thrown : Thrown} {now : Int} {notify : Option Thrown}
    (hcnt : Counted pull.ref past s) (htask : s.calls.get call = some (.reporting pull thrown))
    (hser : s'.rows.backoff = seriesAfter s.rows (.reporting pull thrown) (.go now notify))
    (hread : (lastStand past call).any Task.reads = true)
    (hq : (s.calls.rows.all fun other => !other.2.resets pull.ref) = true) :
    s'.rows.attempts pull.ref ≤ failedReads pull.ref (⟨s, .advance call (.go now notify), s'⟩ :: past) := by
  have hle : s.rows.attempts pull.ref ≤ failedReads pull.ref past := by
    rcases hcnt with ⟨call', task', htask', hreset⟩ | hle
    · have hstill := List.all_eq_true.mp hq (call', task') (mem_rows.mpr htask')
      simp [hreset] at hstill
    · exact hle
  have hend : endingOf pull.ref past ⟨s, .advance call (.go now notify), s'⟩ = some .unread := by
    simp [endingOf, htask, hread]
  have hattempts : s'.rows.attempts pull.ref = s.rows.attempts pull.ref + 1 := by
    rw [InboundRows.attempts, hser]
    simp [seriesAfter, reportTx, InboundRows.attempts]
  simp only [failedReads, hend, hattempts]
  omega

theorem Counted.advance (hcnt : Counted ref past s) (hnum : Numbered s)
    (hstep : clientStep ctx s (.advance call input) = some s')
    (hreads : countsReads past ⟨s, .advance call input, s'⟩ = true) :
    Counted ref (⟨s, .advance call input, s'⟩ :: past) s' := by
  obtain ⟨task, outcome, htask, hres, rfl⟩ := resume_of_advance hstep
  have hser : (s.move call outcome).rows.backoff = seriesAfter s.rows task input := resume_series hres
  simp only [countsReads, htask] at hreads
  split at hreads
  · next pull thrown now notify heq =>
    cases heq
    by_cases href : pull.ref = ref
    · subst href
      obtain ⟨hread, hq⟩ := Bool.and_eq_true_iff.mp hreads
      exact .inr (hcnt.reported htask hser hread hq)
    · refine hcnt.pass hnum hstep htask rfl ?_ ?_
      · simp [endingOf, htask, href]
      · rw [hser]
        exact get_put_ne _ _ (Ne.symm href)
  · next pull now notify heq =>
    cases heq
    by_cases href : pull.ref = ref
    · subst href
      cases hpulled : pull.series with
      | true =>
        cases hres
        refine .inl ⟨call, .clearing pull, ?_, by simp [Task.resets]⟩
        rw [OnlyneClient.move_get]
        simp [Pull.come, Pull.over, hpulled]
      | false =>
        apply counted_of_reset
        rw [hpulled, Bool.false_or, isNone_iff_eq_none] at hreads
        rw [hser]
        exact hreads
    · refine hcnt.pass hnum hstep htask rfl ?_ ?_
      · simp [endingOf, htask, href]
      · rw [hser]
        rfl
  · next pull now notify heq =>
    cases heq
    by_cases href : pull.ref = ref
    · apply counted_of_reset
      rw [hser, seriesAfter, href]
      exact get_delete_self _ _
    · cases hres
      refine hcnt.pass hnum hstep htask (by simp [Task.resets, href]) ?_ ?_
      · simp [endingOf, htask, OnlyneClient.move_get, Task.heardOf]
      · exact get_delete_ne _ (Ne.symm href)
  · next peer caught rest now notify heq =>
    cases heq
    have hkept : (s.move call outcome).rows.backoff.get ref =
        (s.rows.backoff.get ref).filter fun _ => !decide (ref.owner = peer) := by
      rw [hser]
      exact get_deleteWhere _ _ _
    by_cases href : ref.owner = peer
    · apply counted_of_reset
      rw [hkept]
      simp [href]
    · cases hres
      refine hcnt.pass hnum hstep htask (by simp [Task.resets, Ne.symm href]) ?_ ?_
      · simp [endingOf, htask, OnlyneClient.move_get, Task.heardOf]
      · rw [hkept]
        cases s.rows.backoff.get ref <;> simp [href]
  · cases hreads
  · cases hreads
  · next input _ _ hclearing hanswering hreporting hitems _ _ =>
    have hstays : task.resets ref = false := by
      cases task with
      | clearing pull => exact absurd rfl (hclearing pull)
      | answering peer caught rest => exact absurd rfl (hanswering peer caught rest)
      | _ => rfl
    have hsame : seriesAfter s.rows task input = s.rows.backoff := by
      unfold seriesAfter
      split
      · exact absurd rfl (hanswering _ _ _)
      · exact absurd rfl (hclearing _)
      · exact (hreporting _ _ _ _ rfl rfl).elim
      · rfl
    have hend : endingOf ref past ⟨s, .advance call input, s.move call outcome⟩ =
        if outcome.task.any (Task.heardOf ref) then some .answered else none := by
      simp only [endingOf, htask, OnlyneClient.move_get]
    by_cases hheard : outcome.task.any (Task.heardOf ref) = true
    · obtain ⟨next, hnext, hown⟩ := (Option.any_eq_true _ _).mp hheard
      refine .inl ⟨call, next, ?_, ?_⟩
      · rw [OnlyneClient.move_get, hnext]
      · cases next with
        | answering => exact hown
        | _ => cases hown
    · refine hcnt.pass hnum hstep htask hstays ?_ ?_
      · rw [hend, if_neg hheard]
      · rw [hser, hsame]

theorem series_of_other (hstep : clientStep ctx s a = some s') (hact : ∀ call input, a ≠ .advance call input) :
    s'.rows.backoff = s.rows.backoff := by
  have hwr := clientStep_writes hstep
  generalize s'.rows = rows' at hwr ⊢
  cases hwr with
  | kept => rfl
  | advanced => exact absurd rfl (hact _ _)
  | admitted =>
    unfold admittedTx
    split_ifs <;> rfl
  | revised =>
    unfold revisedTx
    split <;> rfl

theorem Counted.kept (hcnt : Counted ref past s) (hnum : Numbered s) (hstep : clientStep ctx s a = some s')
    (hreads : countsReads past ⟨s, a, s'⟩ = true) : Counted ref (⟨s, a, s'⟩ :: past) s' := by
  cases a with
  | advance => exact hcnt.advance hnum hstep hreads
  | crash =>
    refine hcnt.idle hnum hstep rfl (by rw [series_of_other hstep (by simp)]) fun call task htask hreset => ?_
    -- No reset is under way when the process ends.
    have hq := List.all_eq_true.mp hreads (call, task) (mem_rows.mpr htask)
    cases task with
    | clearing | answering => cases hq
    | _ => cases hreset
  | out | receive | confirm | reconcile | maintain | admitted | revised =>
    refine hcnt.idle hnum hstep rfl (by rw [series_of_other hstep (by simp)]) fun call task htask hreset => ?_
    exact ⟨by simp, by simp⟩

theorem reported_of_parks (hstep : clientStep ctx s a = some s') (hparks : parks ⟨s, a, s'⟩ ref = true) :
    ∃ call now notify pull thrown, a = .advance call (.go now notify) ∧
      s.calls.get call = some (.reporting pull thrown) ∧ pull.ref = ref ∧
      s'.rows.backoff = seriesAfter s.rows (.reporting pull thrown) (.go now notify) ∧
      maxAttempts ≤ s'.rows.attempts ref := by
  obtain ⟨hbef, haft⟩ := Bool.and_eq_true_iff.mp hparks
  have hnew {row : ReconcileBackoff} (hrow : s.rows.backoff.get ref = some row) : row.dead = false := by
    simpa [hrow] using hbef
  obtain ⟨row, hrow, hdead⟩ := (Option.any_eq_true _ _).mp haft
  -- A series that was there before is not the one that is parked.
  have hold (hsame : s.rows.backoff.get ref = some row) : False := by
    rw [hnew hsame] at hdead
    cases hdead
  by_cases hact : ∃ call input, a = .advance call input
  · obtain ⟨call, input, rfl⟩ := hact
    obtain ⟨task, outcome, htask, hres, rfl⟩ := resume_of_advance hstep
    have hser : (s.move call outcome).rows.backoff = seriesAfter s.rows task input := resume_series hres
    have hget : (seriesAfter s.rows task input).get ref = some row := by
      rw [← hser]
      exact hrow
    unfold seriesAfter at hget
    split at hget
    · rw [peerAnsweredTx, get_deleteWhere, filter_eq_some_iff] at hget
      exact (hold hget.1).elim
    · exact (hold (get_of_delete hget).2).elim
    · next pull thrown now notify =>
      rcases get_put_cases hget with ⟨rfl, rfl⟩ | ⟨-, hsame⟩
      · refine ⟨call, now, notify, pull, thrown, rfl, htask, rfl, hser, ?_⟩
        rw [InboundRows.attempts, hrow]
        exact of_decide_eq_true hdead
      · exact (hold hsame).elim
    · exact (hold hget).elim
  · have hsame := series_of_other hstep fun call input heq => hact ⟨call, input, heq⟩
    simp only [hsame] at hrow
    exact (hold hrow).elim

end Runs

/-- Take any run of a client that starts with an empty store, in which only failed reads are counted and every
answer resets what is counted.  A thread is parked only when the last attempts for it, as many as the limit and
none of them before the last answer of its owner, all failed to read the list of the owner. -/
theorem parked_for_failed_reads (ctx : Context) {s : OnlyneClient} {h : List (Transition OnlyneClient Act)}
    (hrun : Run (clientStep ctx) {} h s) (hreads : EveryStep (fun past t => countsReads past.reverse t = true) h) :
    EveryStep (fun past t => ∀ ref, parks t ref = true → maxAttempts ≤ failedReads ref (t :: past.reverse)) h := by
  suffices hall : EveryStep (fun past t => ∀ ref, parks t ref = true →
      maxAttempts ≤ failedReads ref (t :: past.reverse)) h ∧ Numbered s ∧ ∀ ref, Counted ref h.reverse s from hall.1
  refine hrun.induction_on (I := fun h s => EveryStep (fun past t => countsReads past.reverse t = true) h →
    EveryStep (fun past t => ∀ ref, parks t ref = true → maxAttempts ≤ failedReads ref (t :: past.reverse)) h ∧
      Numbered s ∧ ∀ ref, Counted ref h.reverse s) ?_ ?_ hreads
  · intro _
    refine ⟨fun i hi => absurd hi (by simp), fun call hcall => absurd rfl hcall, fun ref => counted_of_reset rfl⟩
  · intro past s a s' hprev ih hstep hC
    obtain ⟨hCpast, hCnow⟩ := everyStep_snoc.mp hC
    obtain ⟨hpast, hnum, hcnt⟩ := ih hCpast
    refine ⟨everyStep_snoc.mpr ⟨hpast, fun ref hparks => ?_⟩, hnum.kept hstep, fun ref => ?_⟩
    · obtain ⟨call, now, notify, pull, thrown, rfl, htask, rfl, hser, hlimit⟩ := reported_of_parks hstep hparks
      simp only [countsReads, htask, Bool.and_eq_true] at hCnow
      exact hlimit.trans ((hcnt pull.ref).reported htask hser hCnow.1 hCnow.2)
    · rw [List.reverse_append]
      exact (hcnt ref).kept hnum hstep hCnow

namespace Scenario

/-- A maintenance pass that has nothing to do but to reconcile the thread of bob, and what its attempt meets. -/
def pass (attempt : List Input) (number : Nat) : List Act :=
  let now : Int := 1000000 * number
  .maintain :: ([.grants [] none, go, .grants [] none, go, .peers [] now, go, go, go, go, .go now none,
    .refs [⟨"bob", "t"⟩] none, .refs [] none, go] ++ attempt ++ [.go now none, go, .done]).map (.advance number)

def unreachable : List Input := [.failed (.other "")]

/-- Bob lists an entry, and the store of this node fails to take it. -/
def storeFails : List Input := [.attention [owed "m" 0] none, go, .failed (.other "")]

end Scenario

open Scenario in
/-- Ten passes in which bob cannot be reached. -/
theorem parked_for_failed_reads_unreachable :
    ∃ h s, Run (clientStep ann) {} h s ∧ (h.any fun t => parks t ⟨"bob", "t"⟩) = true ∧
      EveryStep (fun past t => ∀ ref, parks t ref = true → maxAttempts ≤ failedReads ref (t :: past.reverse)) h := by
  obtain ⟨h, s, hrun, hfacts⟩ := exists_run (clientStep ann) {} ((List.range 10).flatMap (pass unreachable))
    (fun h _ => (h.any fun t => parks t ⟨"bob", "t"⟩) = true ∧
      EveryStep (fun past t => countsReads past.reverse t = true) h)
    (by decide +kernel)
  exact ⟨h, s, hrun, hfacts.1, parked_for_failed_reads ann hrun hfacts.2⟩

open Scenario in
/-- Ten passes in which bob answers and the local store fails: the thread is parked without a single failed read. -/
theorem parked_for_store_failures : ∃ h s, Run (clientStep ann) {} h s ∧
      ¬ EveryStep (fun past t => ∀ ref, parks t ref = true → maxAttempts ≤ failedReads ref (t :: past.reverse)) h := by
  obtain ⟨h, s, hrun, hfacts⟩ := exists_run (clientStep ann) {} ((List.range 10).flatMap (pass storeFails))
    (fun h _ => ¬EveryStep (fun past t => parks t ⟨"bob", "t"⟩ = true →
      maxAttempts ≤ failedReads ⟨"bob", "t"⟩ (t :: past.reverse)) h)
    (by decide +kernel)
  exact ⟨h, s, hrun, fun hall => hfacts fun i hi hparks => hall i hi ⟨"bob", "t"⟩ hparks⟩

end Onlyne.Client
