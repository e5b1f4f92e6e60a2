import Onlyne.Foundation.Run
import Onlyne.Foundation.Table

/-!
# Host: one message starts one subagent

`startSubagent` of `messages.ts` over the `ContextRegistry` of `store.ts`, for one message.  The task tool is executed
between the allocation of the message's record and its binding, and a later pass decides from the record alone whether
to execute it again.  Once it sees the child, the listener of `binding.ts` may bind the record as well.  A stop of the
process ends the call in progress and leaves the registry.
-/

namespace Onlyne.Omp

open Foundation Table

/-- The await at which a call of `startSubagent` stands, once it has listed the records. -/
inductive Stage where
  | allocating
  | executing (context : Nat)
  | binding (context : Nat) (child : String)

structure Host where
  counter : Nat := 0
  -- The records that name the message and its thread, by the number of their alias, with the agent they are bound to.
  contexts : Table Nat (Option String) := ∅
  stage : Option Stage := none
  -- How often the task tool has been executed successfully for the message.
  started : Nat := 0

inductive SpawnAct where
  -- A pass injects the message and lists the records; `tool` says whether the session has the task tool.
  | inject (tool : Bool)
  | allocated (committed : Bool)
  -- The task tool fails, or succeeds with a result that may name the child.
  | executed (result : Except String (Option String))
  | bound (committed : Bool)
  | observed (context : Nat) (agent : String)
  -- A record of another message is allocated.
  | allocatesOther
  | stop

namespace Host

variable (s : Host)

def allocate : Host := { s with counter := s.counter + 1, contexts := s.contexts.put (s.counter + 1) none }

def bind (context : Nat) (agent : String) : Host :=
  match s.contexts.get context with
  | none => s
  | some _ => { s with contexts := s.contexts.put context (some agent) }

/-- The listener leaves a record alone that is bound to another agent. -/
def observe (context : Nat) (agent : String) : Host :=
  if (s.contexts.get context).all fun bound => bound.getD agent = agent then s.bind context agent else s

/-- A bound record is the answer, an unbound one is reused. -/
def inject (tool : Bool) : Host :=
  match s.contexts.rows.head? with
  | some (_, some _) => s
  | some (context, none) => { s with stage := if tool then some (.executing context) else none }
  | none => { s with stage := if tool then some .allocating else none }

def executed (context : Nat) : Except String (Option String) → Host
  | .error _ => { s with stage := none }
  -- `noChildIdentity`
  | .ok none => { s with stage := none, started := s.started + 1 }
  | .ok (some child) => { s with stage := some (.binding context child), started := s.started + 1 }

end Host

def spawnStep (s : Host) (act : SpawnAct) : Option Host :=
  match act, s.stage with
  | .inject tool, none => some (s.inject tool)
  | .allocated true, some .allocating => some { s.allocate with stage := some (.executing (s.counter + 1)) }
  | .executed result, some (.executing context) => some (s.executed context result)
  | .bound true, some (.binding context child) => some { s.bind context child with stage := none }
  | .allocated false, some .allocating | .bound false, some (.binding _ _) | .stop, _ => some { s with stage := none }
  | .observed context agent, _ => some (s.observe context agent)
  | .allocatesOther, _ => some { s with counter := s.counter + 1 }
  | _, _ => none

/-- A call that ends after the tool was executed leaves the record of the message bound: the result names the child and
the binding commits before the process stops, unless the listener has bound the record by then. -/
def bindingKept (t : Transition Host SpawnAct) : Bool :=
  match t.act, t.before.stage with
  | .executed (.ok none), some (.executing context) | .bound false, some (.binding context _)
  | .stop, some (.binding context _) => (t.before.contexts.get context).any Option.isSome
  | _, _ => true

namespace Host

/-- A call that may still execute the tool finds nothing executed; without a call, what was executed is bound. -/
def Accounts (s : Host) : Prop :=
  match s.stage with
  | none => s.started = 0 ∨ s.started = 1 ∧ ∃ context, (s.contexts.get context).any Option.isSome
  | some .allocating => s.started = 0 ∧ ∀ context, s.contexts.get context = none
  | some (.executing context) => s.started = 0 ∧ ∃ agent, s.contexts.get context = some agent
  | some (.binding context _) => s.started = 1 ∧ ∃ agent, s.contexts.get context = some agent

structure Sound (s : Host) : Prop where
  alone : ∀ context context' agent agent', s.contexts.get context = some agent →
    s.contexts.get context' = some agent' → context = context'
  accounts : s.Accounts

variable {s : Host} {context : Nat} {agent : String}

section

variable (h : s.Sound)
include h

theorem Sound.bind (context : Nat) (agent : String) : (s.bind context agent).Sound := by
  unfold Host.bind
  split
  · exact h
  next old hold =>
    have honly {c : Nat} {b : Option String} (hrow : (s.contexts.put context (some agent)).get c = some b) :
        c = context := by
      rcases get_put_cases hrow with ⟨rfl, -⟩ | ⟨-, hrow⟩
      · rfl
      · exact h.alone _ _ _ _ hrow hold
    refine ⟨fun c c' b b' hrow hrow' => (honly hrow).trans (honly hrow').symm, ?_⟩
    obtain ⟨-, hacct⟩ := h
    unfold Accounts at hacct ⊢
    dsimp only
    split at hacct
    · exact hacct.imp id fun hone => ⟨hone.1, context, by simp⟩
    · cases (hacct.2 context).symm.trans hold
    all_goals
      refine ⟨hacct.1, ?_⟩
      rw [get_put]
      split_ifs
      · exact ⟨_, rfl⟩
      · exact hacct.2

theorem Sound.observe (context : Nat) (agent : String) : (s.observe context agent).Sound := by
  unfold Host.observe
  split_ifs
  · exact h.bind context agent
  · exact h

/-- The tool is executed, or a record allocated, only if nothing has been executed so far. -/
theorem Sound.inject (hstg : s.stage = none) (tool : Bool) : (s.inject tool).Sound := by
  have hacct := h.accounts
  simp only [Accounts, hstg] at hacct
  unfold Host.inject
  split
  · exact h
  · next unbound hhead =>
    refine ⟨h.alone, ?_⟩
    have hrow : s.contexts.get unbound = some none := mem_rows.mp (List.mem_of_mem_head? hhead)
    cases tool with
    | false => exact hacct
    | true =>
      refine ⟨hacct.resolve_right ?_, none, hrow⟩
      rintro ⟨-, context, hbd⟩
      obtain ⟨agent, hagent, hsome⟩ := (Option.any_eq_true _ _).mp hbd
      cases h.alone _ _ _ _ hrow hagent
      cases hrow.symm.trans hagent
      cases hsome
  · next hhead =>
    refine ⟨h.alone, ?_⟩
    have hnone (context : Nat) : s.contexts.get context = none := by
      refine Option.eq_none_iff_forall_ne_some.mpr fun agent hagent => ?_
      have hmem := mem_rows.mpr hagent
      rw [List.head?_eq_none_iff.mp hhead] at hmem
      cases hmem
    cases tool with
    | false => exact hacct
    | true =>
      refine ⟨hacct.resolve_right ?_, hnone⟩
      rintro ⟨-, context, hbd⟩
      rw [hnone] at hbd
      cases hbd

theorem Sound.ends (hbd : ∀ context child, s.stage = some (.binding context child) →
    (s.contexts.get context).any Option.isSome = true) : Sound { s with stage := none } := by
  refine ⟨h.alone, ?_⟩
  have hacct := h.accounts
  unfold Accounts at hacct ⊢
  split at hacct
  · exact hacct
  · exact .inl hacct.1
  · exact .inl hacct.1
  · next hstg => exact .inr ⟨hacct.1, _, hbd _ _ hstg⟩

theorem Sound.executed (hstg : s.stage = some (.executing context)) {result : Except String (Option String)}
    (hkept : result = .ok none → (s.contexts.get context).any Option.isSome = true) :
    (s.executed context result).Sound := by
  have hacct := h.accounts
  simp only [Accounts, hstg] at hacct
  obtain ⟨hzero, hrow⟩ := hacct
  rcases result with error | _ | child
  · exact ⟨h.alone, .inl hzero⟩
  · exact ⟨h.alone, .inr ⟨congrArg (· + 1) hzero, context, hkept rfl⟩⟩
  · exact ⟨h.alone, congrArg (· + 1) hzero, hrow⟩

theorem Sound.step {act : SpawnAct} {s' : Host} (hstep : spawnStep s act = some s')
    (hkept : bindingKept ⟨s, act, s'⟩ = true) : s'.Sound := by
  have hacct := h.accounts
  unfold spawnStep at hstep
  unfold bindingKept at hkept
  split at hstep <;> cases hstep
  · next hstg => exact h.inject hstg _
  · next hstg =>
    simp only [Accounts, hstg] at hacct
    refine ⟨fun c c' b b' hrow hrow' => ?_, hacct.1, none, get_put_self ..⟩
    have honly {c : Nat} {b : Option String} (hrow : s.allocate.contexts.get c = some b) : c = s.counter + 1 := by
      rcases get_put_cases hrow with ⟨rfl, -⟩ | ⟨-, hrow⟩
      · rfl
      · cases (hacct.2 c).symm.trans hrow
    exact (honly hrow).trans (honly hrow').symm
  · next hstg =>
    refine h.executed hstg fun hnone => ?_
    simpa only [hnone, hstg] using hkept
  · next context child hstg =>
    simp only [Accounts, hstg] at hacct
    obtain ⟨hone, old, hold⟩ := hacct
    have hbind := (h.bind context child).alone
    simp only [Host.bind, hold] at hbind ⊢
    exact ⟨hbind, .inr ⟨hone, context, by simp⟩⟩
  · next hstg => exact h.ends fun _ _ hbinding => by cases hstg.symm.trans hbinding
  · next hstg =>
    refine h.ends fun _ _ hbinding => ?_
    simpa only [hbinding] using hkept
  · refine h.ends fun _ _ hbinding => ?_
    simpa only [hbinding] using hkept
  · exact h.observe _ _
  · exact ⟨h.alone, hacct⟩

theorem Sound.started_le : s.started ≤ 1 := by
  have hacct := h.accounts
  unfold Accounts at hacct
  split at hacct <;> omega

end

end Host

/-- Over every sequence of passes, failures and stops that leaves what was executed bound, the task tool is executed
successfully at most once for the message. -/
theorem subagent_started_once (counter : Nat) {h : List (Transition Host SpawnAct)} {s : Host}
    (hrun : Run spawnStep { counter } h s) (hkept : ∀ t ∈ h, bindingKept t = true) : s.started ≤ 1 := by
  have hinit : Host.Sound { counter } := ⟨fun _ _ _ _ hrow => (by cases hrow), .inl rfl⟩
  exact (hrun.invariant_of hkept hinit fun _ _ _ hs hstep hkept => hs.step hstep hkept).started_le

/-- The binding of the child fails, the listener has it, and the next pass answers with it. -/
theorem subagent_started_once_observed : ∃ h s, Run spawnStep {} h s ∧ s.started = 1 ∧ s.started ≤ 1 := by
  obtain ⟨h, s, hrun, hkept, hone⟩ := exists_run spawnStep {}
    [.inject true, .allocated true, .executed (.ok (some "child")), .observed 1 "child", .bound false, .inject true]
    (fun h s => (∀ t ∈ h, bindingKept t = true) ∧ s.started = 1) (by decide +kernel)
  exact ⟨h, s, hrun, hone, subagent_started_once 0 hrun hkept⟩

/-- The process stops after the execution and before the binding, and the next pass executes the tool again. -/
theorem subagent_started_twice : ∃ h s, Run spawnStep {} h s ∧ s.started = 2 :=
  exists_run _ _ [.inject true, .allocated true, .executed (.ok (some "first")), .stop, .inject true,
    .executed (.ok (some "second"))] _ (by decide +kernel)

end Onlyne.Omp
