import Onlyne.Client.InboxChanges

/-!
# Client: what a maintenance pass comes to

A maintenance pass lists what is owed part by part and comes to each of it in turn.  Every step of a call is
accounted for: what it finds owed, what it attempts, which threads it excuses because their series says so, and
what it leaves behind because a failure takes it out of a loop.  What is found is attempted, excused, left
behind or still to come, so a pass attempts everything exactly if no step of it leaves anything behind.
-/

namespace Onlyne.Client

open Foundation Table List Option
open Messages (Message MessageRef ThreadRef Entry Attention Grant)

/-! ## Duties -/

/-- The parts of a maintenance pass, each with a listing of its own. -/
inductive Phase where
  | notices
  | grants
  | owners
  | todos
  | inbox
  | threads
  -- The statements the trust service owes.
  | statements
  deriving DecidableEq, Repr

inductive Duty where
  | phase (phase : Phase)
  -- A notice to deliver, or a grant to confirm.
  | grant (loop : GrantLoop) (grant : Grant)
  -- A trusted owner to ask for its memberships.
  | owner (peer : NodeId)
  | todo (row : PendingTodo)
  -- A record of the inbox to inject, with the check of its resource.
  | row (record : LocalAttention)
  -- A thread to reconcile, a further page of its list, and a row of that list.
  | thread (ref : ThreadRef)
  | page (ref : ThreadRef) (number : Nat)
  | entry (ref : ThreadRef) (attention : Attention)
  deriving DecidableEq, Repr

def Phase.ahead : Phase → List Duty
  | .notices => [.phase .notices, .phase .grants, .phase .owners, .phase .todos, .phase .inbox, .phase .threads,
    .phase .statements]
  | .grants => [.phase .grants, .phase .owners, .phase .todos, .phase .inbox, .phase .threads, .phase .statements]
  | .owners => [.phase .owners, .phase .todos, .phase .inbox, .phase .threads, .phase .statements]
  | .todos => [.phase .todos, .phase .inbox, .phase .threads, .phase .statements]
  | .inbox => [.phase .inbox, .phase .threads, .phase .statements]
  | .threads => [.phase .threads, .phase .statements]
  | .statements => [.phase .statements]

def GrantLoop.phase : GrantLoop → Phase
  | .deliver => .notices
  | .confirm => .grants

def GrantLoop.ahead : GrantLoop → List Duty
  | .deliver => Phase.grants.ahead
  | .confirm => Phase.owners.ahead

/-- The grants a loop comes to: a grant that is acknowledged needs no confirmation. -/
def GrantLoop.owed (loop : GrantLoop) (grants : List Grant) : List Duty :=
  (grants.filter fun grant => !(loop = .confirm && grant.acked)).map (.grant loop)

def owedRows (records : List LocalAttention) : List Duty :=
  (records.filter fun record =>
    record.attention.entry.isSome && !record.injected && !record.attention.expired).map .row

def owedEntries (ref : ThreadRef) (rows : List Attention) : List Duty :=
  (rows.filter fun attention => attention.threadRef.id = ref.id).map (.entry ref)

def Pull.page (pull : Pull) (cursor : Option String) : List Duty :=
  if cursor.isNone then [] else [.page pull.ref pull.fetched]

/-- What follows a reconciliation: a maintenance pass goes on with the trust service. -/
def closing (failures : Option (List Thrown)) : List Duty :=
  if failures.isSome then Phase.statements.ahead else []

def Round.pending (round : Round) : List Duty := round.rest.map .thread ++ closing round.failures

def After.pending : After → List Duty
  | .caller => []
  | .todos rest _ => rest.map .todo ++ Phase.inbox.ahead
  | .inbox rest _ => owedRows rest ++ Phase.threads.ahead
  | .items rest cursor pull => owedEntries pull.ref rest ++ pull.page cursor ++ pull.round.pending

def Task.pending : Task → List Duty
  | .work _ after => after.pending
  | .listing loop found _ => .phase loop.phase :: (loop.owed found ++ loop.ahead)
  | .offers loop rest | .offering loop rest => loop.owed rest ++ loop.ahead
  | .peers => Phase.owners.ahead
  | .owners rest | .asking _ _ rest | .repairing _ rest | .answering _ _ rest =>
    rest.map .owner ++ Phase.todos.ahead
  | .listTodos => Phase.todos.ahead
  | .todos rest _ => rest.map .todo ++ Phase.inbox.ahead
  | .listInbox _ => Phase.inbox.ahead
  | .inbox rest _ => owedRows rest ++ Phase.threads.ahead
  | .known _ failures => .phase .threads :: closing failures
  | .owning _ granted owned _ failures =>
    .phase .threads :: ((knownRefs granted owned).map .thread ++ closing failures)
  | .threads round => round.pending
  | .clearing pull | .reporting pull _ | .pulling pull _ => pull.round.pending
  | .items rest cursor pull => owedEntries pull.ref rest ++ pull.page cursor ++ pull.round.pending
  | .redriving _ => Phase.statements.ahead
  | .registering _ | .watching _ _ | .returning _ _ _ | .holding _ _ _ _ | .releasing _ => []

/-! ## Accounts -/

/-- What a step finds owed, attempts, excuses and leaves behind. -/
structure Account where
  found : List Duty := []
  attempted : List Duty := []
  excused : List Duty := []
  left : List Duty := []

/-- `#reconcile` throws, with `extra` still to come in the thread it stands at. -/
def Round.abandon (round : Round) (extra : List Duty) : Account := { left := extra ++ round.rest.map .thread }

/-- `#reconcileThread` throws: only a thread of this node takes the other threads with it. -/
def Pull.abandon (ctx : Context) (pull : Pull) (extra : List Duty) : Account :=
  if pull.ref.owner = ctx.node then pull.round.abandon extra else { left := extra }

def After.abandon (ctx : Context) : After → Account
  | .items rest cursor pull => pull.abandon ctx (owedEntries pull.ref rest ++ pull.page cursor)
  | .caller | .todos _ _ | .inbox _ _ => {}

/-- A page of a listing was read; a listing that does not terminate leaves `behind`. -/
def paged (cursor : Option String) (fetched : Nat) (phase : Phase) (found behind : List Duty) : Account :=
  if cursor.isNone then { found := found, attempted := [.phase phase] }
  else if fetched + 1 < maxCursorPages then { found := found }
  else { found := found, left := behind }

/-- A thread is excused while its series is dead, or not due for a scheduled pass. -/
def Round.comeTo (round : Round) (rows : InboundRows) : Account :=
  match round.rest with
  | [] => {}
  | ref :: _ =>
    if (rows.backoff.get ref).any fun backoff =>
        backoff.dead || (round.failures.isSome && decide (round.begun < backoff.nextAttempt)) then
      { excused := [.thread ref] }
    else { attempted := [.thread ref] }

def Pull.comeTo (ctx : Context) (pull : Pull) (cursor : Option String) : List Attention → Account
  | attention :: _ => { attempted := owedEntries pull.ref [attention] }
  | [] =>
    if cursor.isNone then {}
    else if pull.fetched < maxCursorPages then { attempted := pull.page cursor }
    else pull.abandon ctx (pull.page cursor)

section Accounts

variable (ctx : Context) (outbound : OutboundRows) (rows : InboundRows) (awaiting : AwaitedReplies)

def account : Task → Input → Account
  | .work work after, input =>
    match (workStep ctx outbound rows awaiting work input).map fun worked => worked.flow with
    | some (Flow.raise _) => after.abandon ctx
    | _ => {}
  | .listing loop found fetched, .grants items cursor =>
    paged cursor fetched loop.phase (loop.owed items)
      (.phase loop.phase :: (loop.owed (found ++ items) ++ loop.ahead))
  | .offers loop (grant :: _), .go _ _ => { attempted := loop.owed [grant] }
  | .peers, .peers nodes now =>
    { found := (duePeers nodes now rows).map .owner, attempted := [.phase .owners] }
  | .owners (peer :: _), .go _ _ => { attempted := [.owner peer] }
  | .answering peer caught rest, .failed _ =>
    if caught then { left := Task.pending (.answering peer caught rest) } else {}
  | .listTodos, .go _ _ => { found := rows.owedTodos.map .todo, attempted := [.phase .todos] }
  | .todos (row :: _) _, .go _ _ => { attempted := [.todo row] }
  | .listInbox _, .go _ _ => { found := owedRows rows.queued, attempted := [.phase .inbox] }
  | .inbox (record :: _) _, .go _ _ => { attempted := owedRows [record] }
  | .known _ _, .refs granted _ => { found := (knownRefs granted []).map .thread }
  | .known _ _, .failed _ => { left := [.phase .threads] }
  | .owning _ granted owned fetched _, .refs items cursor =>
    paged cursor fetched .threads ((items.removeAll (granted ++ owned)).eraseDups.map .thread)
      (.phase .threads :: (knownRefs granted (owned ++ items)).map .thread)
  | .owning _ granted owned _ _, .failed _ =>
    { left := .phase .threads :: (knownRefs granted owned).map .thread }
  | .threads round, .go _ _ => round.comeTo rows
  | .threads round, .failed _ => round.abandon []
  | .pulling pull _, .attention items cursor =>
    { found := owedEntries pull.ref items ++ Pull.page { pull with fetched := pull.fetched + 1 } cursor }
  | .items rest cursor pull, .go _ _ => pull.comeTo ctx cursor rest
  | .pulling pull _, .failed _ | .clearing pull, .failed _ => pull.abandon ctx []
  | .reporting pull _, .failed _ => pull.round.abandon []
  | .redriving _, .done | .redriving _, .failed _ => { attempted := [.phase .statements] }
  -- A listing that fails ends the pass.
  | .listing loop found fetched, .failed _ => { left := Task.pending (.listing loop found fetched) }
  | .peers, .failed _ => { left := Task.pending .peers }
  | .listTodos, .failed _ => { left := Task.pending .listTodos }
  | .listInbox failures, .failed _ => { left := Task.pending (.listInbox failures) }
  | _, _ => {}

end Accounts

/-! ## Every duty is accounted for -/

def pendingOf : Option Task → List Duty
  | none => []
  | some task => task.pending

/-- The account of a step balances what was and what is still to come. -/
def Account.Balances (a : Account) (before after : List Duty) : Prop :=
  (before ++ a.found).Perm (a.attempted ++ a.excused ++ a.left ++ after)

theorem Account.balances_iff {a : Account} {before after : List Duty} :
    a.Balances before after ↔ ∀ duty, before.count duty + a.found.count duty =
      a.attempted.count duty + a.excused.count duty + a.left.count duty + after.count duty := by
  unfold Account.Balances
  rw [perm_iff_count]
  simp only [count_append]

section Steps

variable {ctx : Context} {outbound : OutboundRows} {rows : InboundRows} {awaiting : AwaitedReplies}
  {input : Input} {task : Task} (loop : GrantLoop) (round : Round) (record : LocalAttention)
  (rest : List LocalAttention) (duties extra : List Duty) (peer : NodeId) (pull : Pull) (thrown : Thrown)

theorem balances_refl : Account.Balances {} duties duties := by
  rw [Account.balances_iff]
  intro duty
  simp

theorem GrantLoop.owed_append (grants grants' : List Grant) :
    loop.owed (grants ++ grants') = loop.owed grants ++ loop.owed grants' := by
  simp [GrantLoop.owed]

theorem owedRows_cons : owedRows (record :: rest) = owedRows [record] ++ owedRows rest := by
  rw [owedRows, ← singleton_append, filter_append, map_append]
  rfl

theorem owedEntries_cons (ref : ThreadRef) (attention : Attention) (rest : List Attention) :
    owedEntries ref (attention :: rest) = owedEntries ref [attention] ++ owedEntries ref rest := by
  rw [owedEntries, ← singleton_append, filter_append, map_append]
  rfl

theorem GrantLoop.owed_cons (grant : Grant) (rest : List Grant) :
    loop.owed (grant :: rest) = loop.owed [grant] ++ loop.owed rest :=
  loop.owed_append [grant] rest

/-- A round that throws leaves its threads and goes on with the trust service. -/
theorem Round.abandon_balances :
    (round.abandon extra).Balances (extra ++ round.pending) (pendingOf (round.fails thrown).1) := by
  rw [Account.balances_iff]
  intro duty
  unfold Round.abandon Round.pending Round.fails closing
  cases round.failures <;> simp [pendingOf, Task.pending]
  omega

theorem Pull.abandon_balances :
    (pull.abandon ctx extra).Balances (extra ++ pull.round.pending) (pendingOf (pull.fails ctx thrown).1) := by
  unfold Pull.abandon Pull.fails
  split_ifs
  · exact pull.round.abandon_balances extra thrown
  · rw [Account.balances_iff]
    intro duty
    simp [pendingOf, Task.pending]

theorem After.abandon_balances (after : After) (thrown : Thrown) :
    (after.abandon ctx).Balances after.pending (pendingOf (after.throws ctx thrown).1) := by
  cases after with
  | items rest cursor pull => exact pull.abandon_balances _ thrown
  | caller | todos | inbox => exact balances_refl _

theorem follow_pending {after : After} {flow : Flow} (hflow : ∀ thrown, flow ≠ .raise thrown) :
    pendingOf (after.follow ctx flow).1 = after.pending := by
  cases flow with
  | next => rfl
  | back => cases after <;> rfl
  | raise thrown => exact absurd rfl (hflow thrown)

theorem paged_balances {cursor : Option String} {fetched : Nat} {phase : Phase} {found behind before : List Duty}
    {again complete : Task} {endless : Option Task × List Output} (hagain : (before ++ found).Perm again.pending)
    (hcompl : (before ++ found).Perm (.phase phase :: complete.pending))
    (hendless : (before ++ found).Perm (behind ++ pendingOf endless.1)) :
    (paged cursor fetched phase found behind).Balances before
      (pendingOf (listed cursor fetched again complete endless).1) := by
  unfold paged listed
  split_ifs
  · exact hcompl
  · exact hagain
  · exact hendless

theorem Round.comeTo_balances : (round.comeTo rows).Balances round.pending (pendingOf (round.come rows).1) := by
  rw [Account.balances_iff]
  intro duty
  unfold Round.comeTo Round.come Round.pending
  cases round.rest with
  | nil => cases hfailures : round.failures <;> simp [pendingOf, Task.pending, closing]
  | cons ref rest =>
    simp only
    split_ifs <;> simp only [pendingOf, Task.pending, Round.pending, map_cons, count_append,
      count_cons, count_nil] <;> omega

theorem Pull.comeTo_balances (cursor : Option String) (rest : List Attention) :
    (pull.comeTo ctx cursor rest).Balances (Task.pending (.items rest cursor pull))
      (pendingOf (pull.come ctx cursor rest).1) := by
  cases rest with
  | cons attention rest =>
    rw [Account.balances_iff]
    intro duty
    have hpend : pendingOf (pull.come ctx cursor (attention :: rest)).1 = Task.pending (.items rest cursor pull) := by
      simp only [Pull.come]
      split_ifs <;> rfl
    rw [hpend, Pull.comeTo, Task.pending, Task.pending, owedEntries_cons]
    simp only [count_append, count_nil]
    omega
  | nil =>
    simp only [Pull.comeTo, Pull.come]
    split_ifs with hcurs hpages
    · rw [Account.balances_iff]
      intro duty
      simp only [Pull.over]
      split_ifs <;> simp [pendingOf, Task.pending, owedEntries, Pull.page, hcurs]
    · rw [Account.balances_iff]
      intro duty
      simp [pendingOf, Task.pending, owedEntries]
    · exact pull.abandon_balances _ _

theorem left_balances : Account.Balances { left := duties } duties [] := by
  rw [Account.balances_iff]
  intro duty
  simp

@[simp] theorem askFailed_pending (rest : List NodeId) (thrown : Thrown) :
    (askFailed peer rest thrown).pending = rest.map .owner ++ Phase.todos.ahead := by
  unfold askFailed
  split_ifs <;> rfl

theorem roundFails_pending : pendingOf (round.fails thrown).1 = closing round.failures := by
  unfold Round.fails closing
  split
  · next hnone => simp [pendingOf, hnone]
  · next hsome => simp [pendingOf, hsome, Task.pending]

theorem knownRefs_append (granted owned items : List ThreadRef) : knownRefs granted (owned ++ items) =
      knownRefs granted owned ++ (items.removeAll (granted ++ owned)).eraseDups := by
  rw [knownRefs, knownRefs, ← append_assoc, eraseDups_append]

theorem listing_balances (found items : List Grant) (fetched : Nat) (cursor : Option String) :
    (paged cursor fetched loop.phase (loop.owed items)
      (.phase loop.phase :: (loop.owed (found ++ items) ++ loop.ahead))).Balances
      (Task.pending (.listing loop found fetched))
      (pendingOf (listed cursor fetched (.listing loop (found ++ items) (fetched + 1))
        (.offers loop (found ++ items)) (fails listEndless)).1) := by
  refine paged_balances ?_ ?_ ?_
  all_goals
    rw [perm_iff_count]
    intro duty
    simp only [Task.pending, pendingOf, fails, GrantLoop.owed_append, count_append, count_cons, count_nil]
    omega

theorem owning_balances (begun : Int) (granted owned items : List ThreadRef) (fetched : Nat)
    (failures : Option (List Thrown)) (cursor : Option String) :
    (paged cursor fetched .threads ((items.removeAll (granted ++ owned)).eraseDups.map .thread)
      (.phase .threads :: (knownRefs granted (owned ++ items)).map .thread)).Balances
      (Task.pending (.owning begun granted owned fetched failures))
      (pendingOf (listed cursor fetched (.owning begun granted (owned ++ items) (fetched + 1) failures)
        (.threads ⟨begun, knownRefs granted (owned ++ items), failures⟩)
        (Round.fails ⟨begun, [], failures⟩ listEndless)).1) := by
  refine paged_balances ?_ ?_ ?_
  all_goals
    rw [perm_iff_count]
    intro duty
    simp only [Task.pending, roundFails_pending, Round.pending, knownRefs_append, map_append, count_append, count_cons]
    omega

theorem asking_pending (rest : List NodeId) (fetched : Nat) (cursor : Option String) :
    pendingOf (listed cursor fetched (.asking peer (fetched + 1) rest) (.repairing peer rest)
      (some (askFailed peer rest listEndless), [])).1 = rest.map .owner ++ Phase.todos.ahead := by
  unfold listed
  split_ifs
  · rfl
  · rfl
  · rw [pendingOf, askFailed_pending]

theorem loopStep_balances {next : Option Task × List Output}
    (hstep : loopStep ctx rows awaiting task input = some next) (habort : input ≠ .aborted) :
    (account ctx outbound rows awaiting task input).Balances task.pending (pendingOf next.1) := by
  unfold loopStep at hstep
  split at hstep
  case h_48 =>
    obtain ⟨entry, -, rfl⟩ := map_eq_some_iff.mp hstep
    exact balances_refl _
  case h_53 => cases hstep
  all_goals cases hstep
  -- Aborted.
  case h_37 | h_38 | h_39 | h_40 | h_41 | h_42 | h_43 | h_44 | h_45 | h_46 | h_47 => exact absurd rfl habort
  -- Listings.
  case h_1 loop found fetched items cursor => exact listing_balances loop found items fetched cursor
  case h_26 begun granted owned fetched failures items cursor =>
    exact owning_balances begun granted owned items fetched failures cursor
  case h_12 peer fetched rest items cursor =>
    rw [asking_pending]
    exact balances_refl _
  -- A listing that fails ends the pass.
  case h_2 | h_9 | h_18 | h_22 => exact left_balances _
  case h_16 peer caught rest thrown =>
    cases caught with
    | true => exact left_balances _
    | false =>
      rw [if_neg (by simp), pendingOf, askFailed_pending]
      exact balances_refl _
  case h_13 | h_15 =>
    rw [pendingOf, askFailed_pending]
    exact balances_refl _
  case h_25 begun failures thrown =>
    rw [roundFails_pending, Account.balances_iff]
    intro duty
    simp [account, Task.pending, count_cons]
    omega
  case h_27 begun granted owned fetched failures thrown =>
    rw [roundFails_pending, Account.balances_iff]
    intro duty
    simp only [account, Task.pending, count_append, count_cons, count_nil]
    omega
  -- The loops over what was listed.
  case h_3 loop grant rest now notify =>
    have hpend : pendingOf (some (if (decide (loop = .confirm) && grant.acked) = true then Task.offers loop rest
        else .offering loop rest)) = Task.pending (.offers loop rest) := by
      split_ifs <;> rfl
    rw [hpend, Account.balances_iff]
    intro duty
    simp only [account, Task.pending, loop.owed_cons grant rest, count_append, count_nil]
    omega
  case h_19 row rest failures now notify =>
    rw [follow_pending (fun thrown => by unfold deliverTodo; split_ifs <;> simp), Account.balances_iff]
    intro duty
    simp only [account, Task.pending, After.pending, map_cons, count_append, count_cons, count_nil]
    omega
  case h_28 round now notify => exact round.comeTo_balances
  case h_29 round thrown => exact round.abandon_balances [] thrown
  case h_31 pull cursor thrown => exact pull.abandon_balances [] thrown
  case h_32 rest cursor pull now notify => exact pull.comeTo_balances cursor rest
  case h_33 pull thrown => exact pull.abandon_balances [] thrown
  case h_34 pull thrown thrown' => exact pull.round.abandon_balances [] thrown'
  case h_49 waiter record =>
    have hpend : pendingOf (((evidence record rows).map fun entry => Task.returning waiter record entry).or
        (some (.watching waiter record))) = [] := by
      cases evidence record rows <;> rfl
    rw [hpend]
    exact balances_refl _
  case h_35 | h_36 =>
    rw [Account.balances_iff]
    intro duty
    simp only [account, Task.pending, pendingOf, Phase.ahead, count_cons, count_nil]
  case h_8 | h_10 | h_17 | h_21 | h_24 | h_30 =>
    rw [Account.balances_iff]
    intro duty
    simp only [account, Task.pending, pendingOf, Phase.ahead, map_cons, count_append, count_cons, count_nil]
    omega
  all_goals exact balances_refl _

theorem consume_raise {entry : Entry} {record : LocalAttention} {now : Int} {thrown : Thrown} :
    consume ctx awaiting entry record now ≠ .raise thrown := by
  intro hraise
  unfold consume at hraise
  split_ifs at hraise
  split at hraise
  · cases hraise
  · unfold consider route at hraise
    split_ifs at hraise

theorem comeInbox_pending (failures : List Thrown)
    (now : Int) : pendingOf (comeInbox ctx awaiting record rest failures now).2.1 =
      (After.inbox rest failures).pending := by
  unfold comeInbox
  split
  · rfl
  · split_ifs
    · rfl
    · exact follow_pending fun thrown => consume_raise

/-- The account of a step of a call balances, unless the call is lost or aborted there. -/
theorem resume_balances {outcome : Outcome}
    (hres : resume ctx outbound rows awaiting task input = some outcome) (hlost : input ≠ .lost)
    (habort : input ≠ .aborted) :
    (account ctx outbound rows awaiting task input).Balances task.pending (pendingOf outcome.task) := by
  unfold resume at hres
  split at hres
  case h_1 => exact absurd rfl hlost
  case h_2 _ work after _ =>
    obtain ⟨worked, hwk, rfl⟩ := map_eq_some_iff.mp hres
    simp only [account, hwk, map_some]
    split
    · next thrown hflow =>
      rw [Option.some.injEq] at hflow
      rw [hflow]
      exact after.abandon_balances thrown
    · next hflow =>
      rw [follow_pending fun thrown hraise => hflow thrown (by rw [hraise])]
      exact balances_refl _
  case h_4 record rest failures now notify =>
    cases hres
    rw [comeInbox_pending, Account.balances_iff]
    intro duty
    simp only [account, Task.pending, After.pending, owedRows_cons record rest, count_append, count_nil]
    omega
  case h_10 =>
    obtain ⟨next, hloop, rfl⟩ := map_eq_some_iff.mp hres
    exact loopStep_balances hloop habort
  all_goals
    cases hres
    exact balances_refl _

end Steps

/-! ## One pass in a run of the client -/

def accountOf (ctx : Context) (call : Nat) (t : Transition OnlyneClient Act) : Account :=
  match t.act with
  | .maintain => if t.before.next = call then { found := Phase.notices.ahead } else {}
  | .reconcile _ => if t.before.next = call then { found := [.phase .threads] } else {}
  | .advance call' input =>
    if call' = call then
      ((t.before.calls.get call).map fun task =>
        account ctx t.before.outbox.rows t.before.rows t.before.awaiting task input).getD {}
    else {}
  | _ => {}

/-- The call is neither lost nor aborted, and the process does not end. -/
def unbroken (call : Nat) (t : Transition OnlyneClient Act) : Bool :=
  match t.act with
  | .crash => false
  | .advance call' .lost | .advance call' .aborted => call' ≠ call
  | _ => true

def pendingAt (s : OnlyneClient) (call : Nat) : List Duty := pendingOf (s.calls.get call)

def Numbered (s : OnlyneClient) : Prop := ∀ call, s.calls.get call ≠ none → call < s.next

section Runs

variable {ctx : Context} {s s' : OnlyneClient} {a : Act} {call : Nat} (records : List StoredOutbound)

section

variable (hnum : Numbered s)
include hnum

theorem Numbered.spawn (task : Task) : Numbered (s.spawn task) := by
  intro call' hcall'
  simp only [OnlyneClient.spawn] at hcall' ⊢
  rw [get_put] at hcall'
  split_ifs at hcall' with hnew
  · omega
  · have := hnum call' hcall'
    omega

theorem Numbered.free : s.calls.get s.next = none := by
  by_contra hcall
  exact absurd (hnum s.next hcall) (Nat.lt_irrefl _)

theorem pendingAt_spawn (task : Task) (call : Nat) :
    pendingAt (s.spawn task) call = pendingAt s call ++ if s.next = call then task.pending else [] := by
  unfold pendingAt
  simp only [OnlyneClient.spawn]
  rw [get_put]
  by_cases hcall : call = s.next
  · rw [if_pos hcall, if_pos hcall.symm, hcall, hnum.free]
    rfl
  · rw [if_neg hcall, if_neg (Ne.symm hcall), append_nil]

theorem spawn_balances (task : Task) (call : Nat) :
    Account.Balances { found := if s.next = call then task.pending else [] } (pendingAt s call)
      (pendingAt (s.spawn task) call) := by
  rw [pendingAt_spawn hnum]
  exact List.Perm.refl _

end

theorem pendingAt_waits {s : OnlyneClient} (hnum : Numbered s) (call : Nat) :
    pendingAt (records.foldl (fun s record => s.spawn (.registering record)) s) call = pendingAt s call := by
  induction records generalizing s with
  | nil => rfl
  | cons record rest ih =>
    rw [foldl_cons, ih (hnum.spawn _), pendingAt_spawn hnum, Task.pending, ite_self, append_nil]

theorem Numbered.waits {s : OnlyneClient} (hnum : Numbered s) :
    Numbered (records.foldl (fun s record => s.spawn (.registering record)) s) := by
  induction records generalizing s with
  | nil => exact hnum
  | cons record rest ih => exact ih (hnum.spawn _)

theorem pendingAt_move_ne {call' : Nat} {outcome : Outcome} (hne : call' ≠ call) :
    pendingAt (s.move call' outcome) call = pendingAt s call := by
  rw [pendingAt, s.move_get_ne outcome (Ne.symm hne), pendingAt]

theorem pendingAt_move_self (outcome : Outcome) : pendingAt (s.move call outcome) call = pendingOf outcome.task := by
  rw [pendingAt, OnlyneClient.move_get]

section

variable (hnum : Numbered s) (hstep : clientStep ctx s a = some s')
include hnum hstep

theorem Numbered.kept : Numbered s' := by
  cases a with
  | out =>
    obtain ⟨next, -, rfl⟩ := outAct_of_out hstep
    exact Numbered.waits _ (by exact hnum)
  | receive =>
    simp only [clientStep, clientAct] at hstep
    split_ifs at hstep <;> cases hstep
    · exact hnum.spawn _
    · exact hnum
  | confirm | reconcile | maintain =>
    cases hstep
    exact hnum.spawn _
  | admitted | revised =>
    cases hstep
    exact hnum
  | advance call' =>
    obtain ⟨task, outcome, htask, -, rfl⟩ := resume_of_advance hstep
    intro call'' hcall
    apply hnum
    intro hnone
    refine hcall ?_
    have hne : call'' ≠ call' := by
      rintro rfl
      rw [htask] at hnone
      cases hnone
    exact (s.move_get_ne outcome hne).trans hnone
  | crash =>
    cases hstep
    intro call hcall
    exact absurd rfl hcall

theorem clientStep_balances (hunb : unbroken call ⟨s, a, s'⟩ = true) :
    (accountOf ctx call ⟨s, a, s'⟩).Balances (pendingAt s call) (pendingAt s' call) := by
  cases a with
  | out =>
    obtain ⟨next, -, rfl⟩ := outAct_of_out hstep
    rw [pendingAt_waits _ (by exact hnum)]
    exact balances_refl _
  | receive entry id context =>
    simp only [clientStep, clientAct] at hstep
    split_ifs at hstep <;> cases hstep
    · have hbeg := spawn_balances hnum (.work (.receiving entry id context) .caller) call
      rwa [Task.pending, After.pending, ite_self] at hbeg
    · exact balances_refl _
  | confirm entry context via now =>
    cases hstep
    have hbeg := spawn_balances hnum (.work (.confirming entry context via now) .caller) call
    rwa [Task.pending, After.pending, ite_self] at hbeg
  | reconcile now =>
    cases hstep
    have hbeg := spawn_balances hnum (.known now none) call
    unfold accountOf
    split_ifs at hbeg ⊢
    · exact hbeg
    · exact hbeg
  | maintain =>
    cases hstep
    have hbeg := spawn_balances hnum (.listing .deliver [] 0) call
    unfold accountOf
    split_ifs at hbeg ⊢
    · exact hbeg
    · exact hbeg
  | admitted | revised =>
    cases hstep
    exact balances_refl _
  | advance call' input =>
    obtain ⟨task, outcome, htask, hres, rfl⟩ := resume_of_advance hstep
    by_cases hcall : call' = call
    · subst hcall
      have hlost : input ≠ .lost := by
        rintro rfl
        simp [unbroken] at hunb
      have habort : input ≠ .aborted := by
        rintro rfl
        simp [unbroken] at hunb
      rw [pendingAt_move_self, pendingAt, htask]
      simp only [accountOf, if_pos, htask, map_some, getD_some]
      exact resume_balances hres hlost habort
    · rw [pendingAt_move_ne hcall]
      simp only [accountOf, if_neg hcall]
      exact balances_refl _
  | crash => cases hunb

end

variable {start : OnlyneClient} {h : List (Transition OnlyneClient Act)}

/-- Whatever a call finds owed it attempts, excuses, leaves behind, or has still to come to. -/
theorem duties_accounted (hidle : start.calls = ∅) (hrun : Run (clientStep ctx) start h s)
    (hunb : ∀ t ∈ h, unbroken call t = true) : (h.flatMap fun t => (accountOf ctx call t).found).Perm
      ((h.flatMap fun t => (accountOf ctx call t).attempted ++ (accountOf ctx call t).excused) ++
        (h.flatMap fun t => (accountOf ctx call t).left) ++ pendingAt s call) := by
  have hstart : Numbered start := by
    intro call hcall
    rw [hidle] at hcall
    exact absurd rfl hcall
  induction hrun with
  | nil => simp [pendingAt, hidle, pendingOf]
  | @snoc past s s' a hprev hstep ih =>
    have hpast := ih fun t ht => hunb t (mem_append_left _ ht)
    have hnum : Numbered s := hprev.invariant hstart fun _ _ _ => Numbered.kept
    have hnow := clientStep_balances hnum hstep (hunb _ (by simp))
    rw [Account.balances_iff] at hnow
    rw [perm_iff_count] at hpast ⊢
    intro duty
    have hpast := hpast duty
    have hnow := hnow duty
    simp only [flatMap_append, flatMap_singleton, count_append] at hpast ⊢
    omega

end Runs

/-- Take a call of a client that started with none in flight, in any interleaving with the others, and follow
it to its end: a maintenance pass, or a reconciliation a caller asked for.  It attempts every duty it finds,
each as often as it finds it and apart from the threads whose series excuses them, exactly if no step of it
leaves a duty behind. -/
theorem pass_attempts_all_iff (ctx : Context) {start s : OnlyneClient}
    {h : List (Transition OnlyneClient Act)} (call : Nat) (hidle : start.calls = ∅)
    (hrun : Run (clientStep ctx) start h s) (hunbroken : ∀ t ∈ h, unbroken call t = true)
    (hover : s.calls.get call = none) : (h.flatMap fun t => (accountOf ctx call t).found).Perm
        (h.flatMap fun t => (accountOf ctx call t).attempted ++ (accountOf ctx call t).excused) ↔
      ∀ t ∈ h, (accountOf ctx call t).left = [] := by
  have hall := duties_accounted hidle hrun hunbroken
  have hpend : pendingAt s call = [] := by
    rw [pendingAt, hover]
    rfl
  rw [hpend, append_nil] at hall
  constructor
  · intro hattempted
    have hlen := (hall.symm.trans hattempted).length_eq
    rw [length_append] at hlen
    have hleft : (h.flatMap fun t => (accountOf ctx call t).left) = [] := length_eq_zero_iff.mp (by omega)
    exact flatMap_eq_nil_iff.mp hleft
  · intro hleft
    rwa [flatMap_eq_nil_iff.mpr hleft, append_nil] at hall

namespace Scenario

/-- The obligation of an entry of bob, as its owner lists it. -/
def owed (id : String) (seq : Nat) : Attention where
  obligationId := id
  recipient := "ann"
  threadRef := entry.threadRef
  seq := seq
  messageRef := ⟨"bob", id⟩
  authenticatedAuthor := "bob"
  acked := true
  entry := some { entry with seq := seq, message := { entry.message with id := id } }

/-- A maintenance pass that has nothing to do before it reconciles the threads. -/
def untilThreads (refs : List ThreadRef) : List Act :=
  [.maintain, .advance 0 (.grants [] none), .advance 0 go, .advance 0 (.grants [] none), .advance 0 go,
    .advance 0 (.peers [] 0), .advance 0 go, .advance 0 go, .advance 0 go, .advance 0 go, .advance 0 go,
    .advance 0 (.refs refs none), .advance 0 (.refs [] none)]

/-- The pass comes to a thread of bob, stores the first entry of its list and asks the host, which fails. -/
def failingThread (items : List Attention) : List Act :=
  [.advance 0 go, .advance 0 (.attention items none), .advance 0 go, .advance 0 go, .advance 0 go, .advance 0 go,
    .advance 0 go, .advance 0 go, .advance 0 (.failed (.other "")), .advance 0 go]

end Scenario

open Scenario in
/-- The only entry of one thread fails, and the other thread is reconciled nevertheless. -/
theorem pass_attempts_all_second_thread : ∃ h s, Run (clientStep ann) {} h s ∧ s.calls.get 0 = none ∧
      (h.flatMap fun t => outputs ann t).getLast? = some (.ended []) ∧
      (h.flatMap fun t => (accountOf ann 0 t).found).Perm
        (h.flatMap fun t => (accountOf ann 0 t).attempted ++ (accountOf ann 0 t).excused) := by
  obtain ⟨h, s, hrun, hover, hend, hunb, hleft⟩ := exists_run (clientStep ann) {}
    (untilThreads [⟨"bob", "t"⟩, ⟨"bob", "u"⟩] ++ failingThread [owed "m" 0] ++
      [.advance 0 go, .advance 0 (.attention [] none), .advance 0 go, .advance 0 go, .advance 0 .done])
    (fun h s => s.calls.get 0 = none ∧ (h.flatMap fun t => outputs ann t).getLast? = some (.ended []) ∧
      (∀ t ∈ h, unbroken 0 t = true) ∧ ∀ t ∈ h, (accountOf ann 0 t).left = [])
    (by decide +kernel)
  exact ⟨h, s, hrun, hover, hend, (pass_attempts_all_iff ann 0 rfl hrun hunb hover).mpr hleft⟩

open Scenario in
/-- The first of two entries of a thread fails: the pass ends without an attempt at the second. -/
theorem second_entry_never_attempted :
    ∃ h s, Run (clientStep ann) {} h s ∧ s.calls.get 0 = none ∧ (∀ t ∈ h, unbroken 0 t = true) ∧
      Duty.entry ⟨"bob", "t"⟩ (owed "n" 1) ∈ (h.flatMap fun t => (accountOf ann 0 t).found) ∧
      Duty.entry ⟨"bob", "t"⟩ (owed "n" 1) ∉
        h.flatMap fun t => (accountOf ann 0 t).attempted ++ (accountOf ann 0 t).excused := by
  exact exists_run _ _
    (untilThreads [⟨"bob", "t"⟩] ++ failingThread [owed "m" 0, owed "n" 1] ++ [.advance 0 go, .advance 0 .done]) _
    (by decide +kernel)

end Onlyne.Client
