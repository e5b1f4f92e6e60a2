import Onlyne.Foundation.Run
import Onlyne.Messages.Types

/-!
# Host: what the model has read

The provider boundary of `messages.ts`.  A request is searched for the tokens of the agent's deliveries and for the ids
of its tool calls, and the response to it confirms what was found.  What was found is kept by agent and overwritten by
the agent's next request, and a response does not say which request it answers.
-/

namespace Onlyne.Omp

open Foundation Table List
open Messages (Entry)

inductive ObservationKind where
  | fragment
  | toolResult
  deriving DecidableEq

structure PendingObservation where
  entry : Entry
  context : String
  kind : ObservationKind
  deriving DecidableEq

/-- A provider request: the text of its payload, and the entries whose delivery or tool result the payload holds. -/
structure ProviderRequest where
  agent : String
  text : String
  carries : List Entry
  deriving DecidableEq

def ProviderRequest.includes (request : ProviderRequest) (id : String) : Bool :=
  request.text.toList.tails.any id.toList.isPrefixOf

structure Boundary where
  pending : Table String PendingObservation := ∅
  toolResults : Table String PendingObservation := ∅
  observed : Table String (List String) := ∅
  -- The responses being handled: the token whose confirmation is awaited, and those that follow it.
  confirming : List (String × List String) := []
  -- The calls of `confirmConsumption`.
  confirmed : List PendingObservation := []
  -- The requests without a response, the last one of each agent, and those answered with a status below 400.
  sent : List ProviderRequest := []
  latest : Table String ProviderRequest := ∅
  answered : List ProviderRequest := []

inductive BoundaryAct where
  | registerPending (token : String) (record : PendingObservation)
  | observeToolResult (toolCallId : String) (record : PendingObservation)
  -- `before_provider_request`, with the awaited results of the session's branch.
  | request (request : ProviderRequest) (results : List (String × PendingObservation))
  -- `after_provider_response`; `runtime` says whether the host runs.
  | response (request : ProviderRequest) (status : Nat) (runtime : Bool)
  -- `confirmConsumption` returns or throws.
  | settled (task : String × List String) (ok : Bool)

/-- The key of a tool result among the pending observations. -/
def toolToken (toolCallId : String) : String := "tool:" ++ toolCallId

namespace Boundary

variable (b : Boundary) (request : ProviderRequest) (results : List (String × PendingObservation))

def named (rows : Table String PendingObservation) : List (String × PendingObservation) :=
  rows.rows.filter fun row => row.2.context = request.agent && request.includes row.1

def awaited : Table String PendingObservation :=
  results.foldl (fun rows result => if result.2.context = request.agent then rows.put result.1 result.2 else rows)
    b.toolResults

def before : Boundary :=
  let calls := named request (b.awaited request results)
  { b with
    pending := calls.foldl (fun rows call => rows.put (toolToken call.1) call.2) b.pending
    toolResults := calls.foldl (fun rows call => rows.delete call.1) (b.awaited request results)
    observed := b.observed.put request.agent
      ((named request b.pending).map Prod.fst ++ calls.map fun call => toolToken call.1)
    sent := b.sent ++ [request]
    latest := b.latest.put request.agent request }

/-- The loop over the tokens, up to the next one that is pending. -/
def consume : List String → Boundary
  | [] => b
  | token :: rest =>
    match b.pending.get token with
    | none => consume rest
    | some record => { b with confirming := b.confirming ++ [(token, rest)], confirmed := b.confirmed ++ [record] }

def after (status : Nat) (runtime : Bool) : Boundary :=
  let next := { b with observed := b.observed.delete request.agent, sent := b.sent.erase request }
  if 400 ≤ status then next
  else
    let next := { next with answered := b.answered ++ [request] }
    if runtime then next.consume ((b.observed.get request.agent).getD []) else next

def settle (task : String × List String) (ok : Bool) : Boundary :=
  consume { b with
    pending := if ok then b.pending.delete task.1 else b.pending
    confirming := b.confirming.erase task } task.2

end Boundary

def boundaryStep (b : Boundary) : BoundaryAct → Option Boundary
  | .registerPending token record => some { b with pending := b.pending.put token record }
  | .observeToolResult id record => some { b with toolResults := b.toolResults.put id record }
  | .request request results => some (b.before request results)
  | .response request status runtime => if request ∈ b.sent then some (b.after request status runtime) else none
  | .settled task ok => if task ∈ b.confirming then some (b.settle task ok) else none

/-- Every token and every tool call stands for one entry, an id that the text of a request names is that of an entry
the request holds, and a response below 400 that finds observations answers the last request of its agent. -/
def clear (stands : String → Entry) (t : Transition Boundary BoundaryAct) : Bool :=
  match t.act with
  | .registerPending token record => record.entry = stands token
  | .observeToolResult id record => record.entry = stands (toolToken id)
  | .request request results =>
    results.all (fun result => result.2.entry = stands (toolToken result.1)) &&
      (Boundary.named request t.before.pending ++ Boundary.named request (t.before.awaited request results)).all
        fun row => row.2.entry ∈ request.carries
  | .response request status _ =>
    400 ≤ status || (t.before.observed.get request.agent).isNone || t.before.latest.get request.agent = some request
  | .settled _ _ => true

namespace Boundary

/-- A request that held the entry was answered with a status below 400. -/
def Read (b : Boundary) (entry : Entry) : Prop := ∃ request ∈ b.answered, entry ∈ request.carries

def Agrees (stands : String → Entry) (rows : Table String PendingObservation) : Prop :=
  ∀ id record, rows.get id = some record → record.entry = stands id

structure Sound (stands : String → Entry) (b : Boundary) : Prop where
  pending : Agrees stands b.pending
  toolResults : Agrees (stands ∘ toolToken) b.toolResults
  observed : ∀ agent tokens, b.observed.get agent = some tokens →
    ∃ request, b.latest.get agent = some request ∧ ∀ token ∈ tokens, stands token ∈ request.carries
  confirming : ∀ task ∈ b.confirming, ∀ token ∈ task.2, b.Read (stands token)
  confirmed : ∀ record ∈ b.confirmed, b.Read record.entry

variable {stands : String → Entry} {b : Boundary} {request : ProviderRequest}
  {results : List (String × PendingObservation)}

theorem get_of_named {rows : Table String PendingObservation} {row : String × PendingObservation}
    (h : row ∈ named request rows) : rows.get row.1 = some row.2 := mem_rows.mp (mem_filter.mp h).1

section

variable (hs : b.Sound stands)
include hs

section

variable (hres : ∀ result ∈ results, result.2.entry = stands (toolToken result.1))
include hres

theorem Sound.awaited : Agrees (stands ∘ toolToken) (b.awaited request results) := by
  refine List.foldlRecOn (motive := Agrees _) _ _ hs.toolResults fun rows hrows result hmem => ?_
  split_ifs
  · exact fun _ _ hrow => of_put hrows hrow (hres result hmem)
  · exact hrows

theorem Sound.before (hheld : ∀ row ∈ named request b.pending ++ named request (b.awaited request results),
      row.2.entry ∈ request.carries) : (b.before request results).Sound stands where
  pending := List.foldlRecOn (motive := Agrees stands) _ _ hs.pending fun _ hrows _ hcall _ _ hrow =>
    of_put hrows hrow (hs.awaited hres _ _ (get_of_named hcall))
  toolResults := List.foldlRecOn (motive := Agrees _) _ _ (hs.awaited hres) fun _ hrows _ _ _ _ hrow =>
    hrows _ _ (get_of_delete hrow).2
  observed agent tokens hrow := by
    rcases get_put_cases hrow with ⟨rfl, rfl⟩ | ⟨hoth, hrow⟩
    · refine ⟨request, get_put_self .., fun token htoken => ?_⟩
      rcases mem_append.mp htoken with hmem | hmem <;> obtain ⟨row, hrow, rfl⟩ := mem_map.mp hmem
      · rw [← hs.pending _ _ (get_of_named hrow)]
        exact hheld row (mem_append_left _ hrow)
      · have hent : row.2.entry = stands (toolToken row.1) := hs.awaited hres _ _ (get_of_named hrow)
        exact hent ▸ hheld row (mem_append_right _ hrow)
    · obtain ⟨latest, hlast, hheld⟩ := hs.observed agent tokens hrow
      exact ⟨latest, (get_put_ne _ _ hoth).trans hlast, hheld⟩
  confirming := hs.confirming
  confirmed := hs.confirmed

end

/-- The loop confirms what was read if the tokens it is given stand for what was read. -/
theorem Sound.consume {tokens : List String} (hread : ∀ token ∈ tokens, b.Read (stands token)) :
    (b.consume tokens).Sound stands := by
  induction tokens with
  | nil => exact hs
  | cons token rest ih =>
    have hrest : ∀ token ∈ rest, b.Read (stands token) := fun other hmem => hread other (mem_cons_of_mem _ hmem)
    unfold Boundary.consume
    split
    · exact ih hrest
    · next record hrow =>
      refine { hs with confirming := fun task htask => ?_, confirmed := fun confirmed hmem => ?_ }
      · rcases mem_append.mp htask with hold | hnew
        · exact hs.confirming task hold
        · cases mem_singleton.mp hnew
          exact hrest
      · rcases mem_append.mp hmem with hold | hnew
        · exact hs.confirmed confirmed hold
        · cases mem_singleton.mp hnew
          rw [hs.pending token record hrow]
          exact hread token mem_cons_self

theorem Sound.after {status : Nat} (runtime : Bool)
    (hlast : (400 ≤ status ∨ b.observed.get request.agent = none) ∨ b.latest.get request.agent = some request) :
    (b.after request status runtime).Sound stands := by
  have hobserved : ∀ agent tokens, (b.observed.delete request.agent).get agent = some tokens →
      ∃ request, b.latest.get agent = some request ∧ ∀ token ∈ tokens, stands token ∈ request.carries :=
    fun agent tokens hrow => hs.observed agent tokens (get_of_delete hrow).2
  unfold Boundary.after
  split_ifs with hstatus
  · exact { hs with observed := hobserved }
  -- Both ways the request counts as answered.
  all_goals
    have hmore {entry : Entry} (hread : b.Read entry) : ∃ held ∈ b.answered ++ [request], entry ∈ held.carries := by
      obtain ⟨held, hmem, hent⟩ := hread
      exact ⟨held, mem_append_left _ hmem, hent⟩
    have hsnd : Sound stands { b with
        observed := b.observed.delete request.agent
        sent := b.sent.erase request
        answered := b.answered ++ [request] } :=
      ⟨hs.pending, hs.toolResults, hobserved, fun task htask token htoken => hmore (hs.confirming task htask token htoken),
        fun record hmem => hmore (hs.confirmed record hmem)⟩
  · refine hsnd.consume fun token htoken => ?_
    cases hrow : b.observed.get request.agent with
    | none => simp [hrow] at htoken
    | some tokens =>
      obtain ⟨latest, hfnd, hheld⟩ := hs.observed _ _ hrow
      rw [hlast.resolve_left (by simp [hstatus, hrow])] at hfnd
      cases hfnd
      rw [hrow] at htoken
      exact ⟨request, by simp, hheld token htoken⟩
  · exact hsnd

theorem Sound.step {b' : Boundary} {act : BoundaryAct} (hstep : boundaryStep b act = some b')
    (hclear : clear stands ⟨b, act, b'⟩ = true) : b'.Sound stands := by
  cases act with
  | registerPending token record =>
    cases hstep
    exact { hs with pending := fun _ _ hrow => of_put hs.pending hrow (of_decide_eq_true hclear) }
  | observeToolResult id record =>
    cases hstep
    exact { hs with toolResults := fun _ _ hrow => of_put hs.toolResults hrow (of_decide_eq_true hclear) }
  | request request results =>
    cases hstep
    simp only [clear, Bool.and_eq_true, all_eq_true, decide_eq_true_eq] at hclear
    exact hs.before hclear.1 hclear.2
  | response request status runtime =>
    obtain ⟨-, haft⟩ := Option.ite_none_right_eq_some.mp hstep
    cases haft
    simp only [clear, Bool.or_eq_true, decide_eq_true_eq, Option.isNone_iff_eq_none] at hclear
    exact hs.after runtime hclear
  | settled task ok =>
    obtain ⟨htask, hset⟩ := Option.ite_none_right_eq_some.mp hstep
    cases hset
    have hpend : Agrees stands (if ok then b.pending.delete task.1 else b.pending) := by
      split_ifs
      · exact fun _ _ hrow => hs.pending _ _ (get_of_delete hrow).2
      · exact hs.pending
    have hsnd : Sound stands { b with pending := _, confirming := b.confirming.erase task } :=
      ⟨hpend, hs.toolResults, hs.observed, fun other hoth => hs.confirming other (mem_of_mem_erase hoth), hs.confirmed⟩
    exact hsnd.consume (hs.confirming task htask)

end

end Boundary

/-- **What is confirmed was read.**  Over every interleaving of registrations, requests, responses and confirmations
that is clear, the consumption of an entry has been confirmed only if a request that held its delivery or tool result
has been answered with a status below 400. -/
theorem consumption_read {stands : String → Entry} {h : List (Transition Boundary BoundaryAct)} {b : Boundary}
    (hrun : Run boundaryStep {} h b) (hclear : ∀ t ∈ h, clear stands t = true) {r : PendingObservation}
    (hr : r ∈ b.confirmed) : ∃ request ∈ b.answered, r.entry ∈ request.carries := by
  have hsnd : b.Sound stands := hrun.invariant_of hclear
    ⟨fun _ _ h => (by cases h), fun _ _ h => (by cases h), fun _ _ h => (by cases h), fun _ h => (by cases h),
      fun _ h => (by cases h)⟩ fun _ _ _ hs hstep hclear => hs.step hstep hclear
  exact hsnd.confirmed r hr

namespace Scenario

def mail : Entry := ⟨⟨"n", "t"⟩, 1, ⟨"m", "b", "note", "hi", none⟩, "b", "b", ""⟩

def delivery : PendingObservation := ⟨mail, "main", .fragment⟩

def reading : ProviderRequest := ⟨"main", "hi onlyne-1", [mail]⟩

end Scenario

open Scenario in
/-- The first request that holds the mail fails, and the second one confirms it. -/
theorem consumption_read_retried : ∃ h b, Run boundaryStep {} h b ∧ b.confirmed = [delivery] ∧
    ∃ request ∈ b.answered, mail ∈ request.carries := by
  obtain ⟨h, b, hrun, hclear, hone⟩ := exists_run boundaryStep {}
    [.registerPending "onlyne-1" delivery, .request reading [], .response reading 500 true, .request reading [],
      .response reading 200 true, .settled ("onlyne-1", []) true]
    (fun h b => (∀ t ∈ h, clear (fun _ => mail) t = true) ∧ b.confirmed = [delivery]) (by decide +kernel)
  exact ⟨h, b, hrun, hone, consumption_read (r := delivery) hrun hclear (by simp [hone])⟩

open Scenario in
/-- Two requests of an agent overlap: the response to the one without the mail confirms the mail, and the one that
holds it fails. -/
theorem consumption_unread : ∃ h b, Run boundaryStep {} h b ∧ b.confirmed = [delivery] ∧
    ∀ request ∈ b.answered, mail ∉ request.carries :=
  exists_run _ _ [.request ⟨"main", "hello", []⟩ [], .registerPending "onlyne-1" delivery, .request reading [],
    .response ⟨"main", "hello", []⟩ 200 true, .response reading 500 true] _ (by decide +kernel)

end Onlyne.Omp
