import Onlyne.Client.Node
import Onlyne.Client.Records

/-!
# Client: the registry as a set of awaits

`Awaits` runs the registry of `awaited.ts` beside what it stands for: the awaits that have begun and not ended, and the
contexts a body is held in.  The registry has one slot for each original, and an await that begins second takes the
slot of the first one, so the two agree as long as no original is awaited twice at a time.
-/

namespace Onlyne.Client

open Foundation Table List
open Messages (Entry)

inductive AwaitAct where
  | register (record : StoredOutbound)
  | release (waiter : Waiter)
  | settle (entry : Entry)
  | hold (entry : Entry) (context : String)
  | releaseContext (entry : Entry) (context : String)
  | forget (entry : Entry)
  deriving DecidableEq

def AwaitedReplies.act (registry : AwaitedReplies) : AwaitAct → AwaitedReplies
  | .register record => registry.register record
  | .release waiter => registry.release waiter
  | .settle entry => registry.settle entry
  | .hold entry context => registry.hold entry context
  | .releaseContext entry context => registry.releaseContext entry context
  | .forget entry => registry.forget entry

structure Awaits where
  registry : AwaitedReplies := {}
  -- The waiters that were registered and are not released.
  live : List Waiter := []
  held : ContextSlot → Bool := fun _ => false

def awaitStep (s : Awaits) (act : AwaitAct) : Option Awaits := some
  { registry := s.registry.act act
    live := match act with
      | .register record => s.registry.waiterOf record :: s.live
      | .release waiter => s.live.filter (· ≠ waiter)
      | _ => s.live
    held := match act with
      | .hold entry context => fun slot => slot = contextSlot context entry || s.held slot
      | .releaseContext entry context => fun slot => s.held slot && slot ≠ contextSlot context entry
      | .forget entry => fun slot => s.held slot && !(slot.threadRef = entry.threadRef && slot.seq = entry.seq)
      | _ => s.held }

structure Awaits.Kept (s : Awaits) : Prop where
  slots : ∀ slot waiter, s.registry.waiters.get slot = some waiter ↔ waiter ∈ s.live ∧ waiter.original = slot
  holds : ∀ slot, slot ∈ s.registry.held ↔ s.held slot = true

def alone (t : Transition Awaits AwaitAct) : Bool :=
  match t.act with
  | .register record => t.before.live.all fun waiter => waiter.original ≠ record.slot
  | _ => true

variable {s s' : Awaits} {act : AwaitAct} {h : List (Transition Awaits AwaitAct)}

theorem get_resolved (entry : Entry) (tokens : List Nat) (answers : Table Nat Entry) (token : Nat) :
    (tokens.foldl (AwaitedReplies.resolve entry) answers).get token =
      (answers.get token).or (if token ∈ tokens then some entry else none) := by
  induction tokens generalizing answers with
  | nil => simp
  | cons first rest ih =>
    rw [foldl_cons, ih, AwaitedReplies.resolve]
    by_cases htoken : token = first
    · subst htoken
      cases hdone : answers.get token <;> simp [hdone]
    · cases answers.get first <;> simp [get_put, htoken]

theorem Awaits.Kept.step (hkept : s.Kept) (hstep : awaitStep s act = some s') (halone : alone ⟨s, act, s'⟩ = true) :
    s'.Kept := by
  cases hstep
  obtain ⟨hsl, hhld⟩ := hkept
  cases act with
  | register record =>
    simp only [alone, all_eq_true, decide_eq_true_eq] at halone
    refine ⟨fun slot waiter => ?_, hhld⟩
    have horig : (s.registry.waiterOf record).original = record.slot := rfl
    simp only [AwaitedReplies.act, AwaitedReplies.register, get_put, mem_cons]
    grind
  | release waiter =>
    simp only [AwaitedReplies.act, AwaitedReplies.release]
    split_ifs with hstor
    · refine ⟨fun slot waiter' => ?_, hhld⟩
      rw [get_delete]
      grind
    -- A waiter that is not in its slot is not live.
    · refine ⟨fun slot waiter' => ?_, hhld⟩
      have hgone := mt (hsl _ _).mpr hstor
      grind
  | settle entry => exact ⟨hsl, hhld⟩
  | hold | releaseContext | forget =>
    refine ⟨hsl, fun slot => ?_⟩
    simp [AwaitedReplies.act, AwaitedReplies.hold, AwaitedReplies.releaseContext, AwaitedReplies.forget, hhld]

/-- The registry waits for an entry in a context exactly if a live waiter does, or the body is held there. -/
theorem Awaits.Kept.waiting_iff (hkept : s.Kept) (entry : Entry) (context : String) :
    s.registry.waiting entry (some context) = true ↔
      (∃ waiter ∈ s.live, waiter.answeredBy entry = true ∧ waiter.localContext = some context) ∨
        s.held (contextSlot context entry) = true := by
  rw [← hkept.holds]
  simp only [AwaitedReplies.waiting, Bool.or_eq_true, any_eq_true, Prod.exists, mem_rows, hkept.slots,
    Bool.and_eq_true, Option.all_some, decide_eq_true_eq]
  refine or_congr ⟨?_, ?_⟩ ⟨?_, ?_⟩
  · rintro ⟨slot, waiter, ⟨hlive, -⟩, hans⟩
    exact ⟨waiter, hlive, hans⟩
  · rintro ⟨waiter, hlive, hans⟩
    exact ⟨_, waiter, ⟨hlive, rfl⟩, hans⟩
  · rintro ⟨⟨_, _, _⟩, hslot, ⟨rfl, rfl⟩, rfl⟩
    exact hslot
  · intro hslot
    exact ⟨_, hslot, ⟨rfl, rfl⟩, rfl⟩

/-- While no original is awaited twice at a time, a settlement resolves every live await that its entry answers, and
the registry waits for an entry in a context exactly if a live await does or its body is held there. -/
theorem awaits_kept (hrun : Run awaitStep {} h s) (halone : ∀ t ∈ h, alone t = true) :
    (∀ t ∈ h, ∀ entry, t.act = .settle entry → ∀ waiter ∈ t.before.live, waiter.answeredBy entry = true →
      t.after.registry.answers.get waiter.token = (t.before.registry.answers.get waiter.token).or (some entry)) ∧
    ∀ entry context, s.registry.waiting entry (some context) = true ↔
      (∃ waiter ∈ s.live, waiter.answeredBy entry = true ∧ waiter.localContext = some context) ∨
        s.held (contextSlot context entry) = true := by
  have hinit : ({} : Awaits).Kept := by
    refine ⟨fun slot waiter => iff_of_false ?_ ?_, fun slot => iff_of_false ?_ ?_⟩
    · exact fun h => by cases h
    · exact fun h => by cases h.1
    · exact fun h => by cases h
    · exact fun h => by cases h
  have hkeep (s act s') (hkept : s.Kept) (hstep : awaitStep s act = some s') := hkept.step hstep
  refine ⟨?_, (hrun.invariant_of halone hinit hkeep).waiting_iff⟩
  intro t ht entry hact waiter hlive hans
  have hslot := ((hrun.before_of halone hinit hkeep ht).slots _ waiter).mpr ⟨hlive, rfl⟩
  have hstep := hrun.step_of_mem ht
  rw [hact] at hstep
  rw [← Option.some.inj hstep]
  refine (get_resolved ..).trans (congrArg _ (if_pos (mem_flatMap.mpr ⟨waiter, ?_, mem_cons_self⟩)))
  exact mem_filter.mpr ⟨mem_map.mpr ⟨_, mem_rows.mpr hslot, rfl⟩, hans⟩

namespace Scenario

/-- The reply of bob to the message of `delivery`. -/
def reply : Entry := { entry with message := ⟨"r", "bob", "note", "yes", some { inReplyTo := some ⟨"ann", "m"⟩ }⟩ }

end Scenario

open Scenario in
/-- An await in a context gets its reply, which stays held there after the await ends. -/
theorem awaits_kept_held : ∃ h s, Run awaitStep {} h s ∧ s.registry.answers.get 0 = some reply ∧
    s.registry.waiting reply (some "a") = true ∧ s.live = [] := by
  obtain ⟨h, s, hrun, halone, hans, hheld, hlive⟩ := exists_run awaitStep {}
    [.register (sentRecord (some "a")), .settle reply, .hold reply "a", .release ⟨0, ⟨"ann", "m"⟩, "bob", some "a", []⟩]
    (fun h s => (∀ t ∈ h, alone t = true) ∧ s.registry.answers.get 0 = some reply ∧
      s.held (contextSlot "a" reply) = true ∧ s.live = []) (by decide +kernel)
  exact ⟨h, s, hrun, hans, ((awaits_kept hrun halone).2 reply "a").mpr (.inr hheld), hlive⟩

open Scenario in
/-- Two awaits on one message, of which the second ends: the reply finds the first one live and does not resolve it,
and the registry does not wait for it. -/
theorem awaits_lost : ∃ h s, Run awaitStep {} h s ∧ ∃ waiter ∈ s.live, waiter.answeredBy reply = true ∧
    waiter.localContext = some "a" ∧ s.registry.answers.get waiter.token = none ∧
    s.registry.waiting reply (some "a") = false ∧ ∃ t ∈ h, t.act = .settle reply ∧ waiter ∈ t.before.live := by
  exact exists_run awaitStep {} [.register (sentRecord (some "a")), .register (sentRecord (some "b")),
    .release ⟨1, ⟨"ann", "m"⟩, "bob", some "b", [0]⟩, .settle reply] _ (by decide +kernel)

end Onlyne.Client
