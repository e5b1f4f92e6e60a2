import Onlyne.Foundation.Run
import Onlyne.Resources.Types
import Mathlib.Data.List.Sort

/-!
# Messenger gateway: projections of events

`EventPusher` of `pusher.ts`, await by await.  An event is owed from its arrival until its projection was accepted; the
first attempt follows the arrival, and each pass of the ring makes one more.  Attempts overlap.
-/

namespace Onlyne.Im

open Foundation Table List Resources

structure Arrival where
  ref : ResourceRef
  id : Nat
  time : Nat
  deriving DecidableEq

/-- The await at which a call of `deliverOne` stands. -/
inductive PushStage where
  | reading
  | marking (attempts : Nat)
  | resolving
  | sending
  | clearing

structure Pusher where
  received : List Arrival := []
  -- The owed rows, with their attempts.
  owed : Table Arrival Nat := ∅
  ring : List Arrival := []
  calls : Table Nat (Arrival × PushStage) := ∅
  next : Nat := 0
  -- The projections in the threads, in the order in which they entered.
  entered : List Arrival := []

inductive PushAct where
  | receive (event : Arrival)
  | afterReceive (event : Arrival)
  | retryOwed
  -- The pass comes to its next row; that it waits for the attempt before is left out.
  | turn
  -- The await of a call returns or fails.
  | settle (call : Nat) (ok : Bool)
  -- The message of a call enters the thread, whatever the call hears of it.
  | enter (call : Nat)

def Pusher.deliverOne (s : Pusher) (event : Arrival) : Pusher :=
  { s with calls := s.calls.put s.next (event, .reading), next := s.next + 1 }

def pushStep (s : Pusher) : PushAct → Option Pusher
  | .receive event =>
    if ∀ old ∈ s.received, old.ref = event.ref → old.id < event.id then
      some { s with received := event :: s.received }
    else none
  | .afterReceive event =>
    if event ∈ s.received then some ({ s with owed := s.owed.put event 0 }.deliverOne event) else none
  | .retryOwed =>
    some { s with ring := (s.owed.rows.map Prod.fst).insertionSort fun event event' => event.time ≤ event'.time }
  | .turn =>
    match s.ring with
    | [] => none
    | event :: rest => some ({ s with ring := rest }.deliverOne event)
  | .settle call ok =>
    match s.calls.get call with
    | none => none
    | some (event, stage) =>
      let goes stage := s.calls.put call (event, stage)
      match ok, stage with
      | false, _ => some { s with calls := s.calls.delete call }
      | true, .reading => some { s with calls := goes (((s.owed.get event).map .marking).getD .resolving) }
      | true, .marking attempts => some { s with owed := s.owed.put event (attempts + 1), calls := goes .resolving }
      | true, .resolving => some { s with calls := goes .sending }
      | true, .sending => if event ∈ s.entered then some { s with calls := goes .clearing } else none
      | true, .clearing => some { s with owed := s.owed.delete event, calls := s.calls.delete call }
  | .enter call =>
    match s.calls.get call with
    -- An identity that is in the thread is answered with its receipt.
    | some (event, .sending) => some { s with entered := if event ∈ s.entered then s.entered else s.entered ++ [event] }
    | _ => none

/-- The event was received, and the projections of its resource up to it are in the thread. -/
abbrev Pusher.Ready (s : Pusher) (event : Arrival) : Prop :=
  event ∈ s.received ∧ ∀ old ∈ s.received, old.ref = event.ref → old.id ≤ event.id → old = event ∨ old ∈ s.entered

def prompt (t : Transition Pusher PushAct) : Bool :=
  match t.act with
  | .afterReceive event => t.before.Ready event
  | .turn => t.before.ring.head?.all fun event => t.before.Ready event
  | _ => true

structure Pusher.Kept (s : Pusher) : Prop where
  calls : ∀ call row, s.calls.get call = some row → s.Ready row.1
  entered : ∀ event ∈ s.entered, s.Ready event
  rising : s.entered.Pairwise fun event event' => event.ref = event'.ref → event.id < event'.id

variable {s s' : Pusher} {act : PushAct} {event old : Arrival}

theorem Pusher.Kept.put (hkept : s.Kept) (hready : s.Ready event) (call : Nat) (stage : PushStage) :
    { s with calls := s.calls.put call (event, stage) }.Kept :=
  { hkept with calls := fun _ _ hget => of_put hkept.calls hget hready }

theorem Pusher.Kept.delete (hkept : s.Kept) (call : Nat) : { s with calls := s.calls.delete call }.Kept :=
  { hkept with calls := fun _ _ hget => hkept.calls _ _ (get_of_delete hget).2 }

theorem Pusher.Ready.receive (hready : s.Ready old)
    (hlast : ∀ old ∈ s.received, old.ref = event.ref → old.id < event.id) :
    { s with received := event :: s.received }.Ready old := by
  refine ⟨mem_cons_of_mem _ hready.1, forall_mem_cons.mpr ⟨fun href hle => ?_, hready.2⟩⟩
  have := hlast old hready.1 href.symm
  omega

theorem Pusher.Ready.enter (hready : s.Ready old) : { s with entered := s.entered ++ [event] }.Ready old :=
  ⟨hready.1, fun other hmem href hle => (hready.2 other hmem href hle).imp_right (mem_append_left _)⟩

theorem Pusher.Kept.enter (hkept : s.Kept) (hready : s.Ready event) (hnew : event ∉ s.entered) :
    { s with entered := s.entered ++ [event] }.Kept := by
  refine ⟨fun call row hget => Ready.enter (hkept.calls call row hget), ?_, ?_⟩
  · exact forall_mem_append.mpr ⟨fun old hold => Ready.enter (hkept.entered old hold),
      forall_mem_singleton.mpr (Ready.enter hready)⟩
  · refine pairwise_append.mpr ⟨hkept.rising, pairwise_singleton _ _, fun old hold => ?_⟩
    refine forall_mem_singleton.mpr fun href => ?_
    by_contra hle
    -- An event that entered had every event of its resource up to it before it.
    rcases (hkept.entered old hold).2 event hready.1 href.symm (not_lt.mp hle) with rfl | hin
    · exact hnew hold
    · exact hnew hin

theorem Pusher.Kept.step (hkept : s.Kept) (hstep : pushStep s act = some s') (hprompt : prompt ⟨s, act, s'⟩ = true) :
    s'.Kept := by
  cases act with
  | receive event =>
    simp only [pushStep] at hstep
    split_ifs at hstep with hlast
    cases hstep
    exact ⟨fun call row hget => (hkept.calls call row hget).receive hlast,
      fun old hold => (hkept.entered old hold).receive hlast, hkept.rising⟩
  | afterReceive event =>
    simp only [pushStep] at hstep
    split_ifs at hstep
    cases hstep
    exact { hkept.put (of_decide_eq_true hprompt) .. with }
  | retryOwed =>
    cases hstep
    exact { hkept with }
  | turn =>
    simp only [pushStep] at hstep
    split at hstep
    · cases hstep
    · next event rest hring =>
      cases hstep
      simp only [prompt, hring, head?_cons, Option.all_some, decide_eq_true_eq] at hprompt
      exact { hkept.put hprompt .. with }
  | settle call ok =>
    simp only [pushStep] at hstep
    split at hstep
    · cases hstep
    · next event stage hget =>
      have hput := hkept.put (hkept.calls _ _ hget) call
      repeat' split at hstep
      all_goals cases hstep
      · exact hkept.delete call
      · exact hput _
      · exact { hput _ with }
      · exact hput _
      · exact hput _
      · exact { hkept.delete call with }
  | enter call =>
    simp only [pushStep] at hstep
    split at hstep
    · next event hget =>
      cases hstep
      split_ifs with hin
      · exact hkept
      · exact hkept.enter (hkept.calls _ _ hget) hin
    · cases hstep

/-- While attempts are made for ready events only, the projections of a resource enter its thread in arrival order. -/
theorem projections_in_order {h : List (Transition Pusher PushAct)} (hrun : Run pushStep {} h s)
    (hprompt : ∀ t ∈ h, prompt t = true) :
    s.entered.Pairwise fun event event' => event.ref = event'.ref → event.id < event'.id := by
  have hkept : s.Kept := hrun.invariant_of hprompt ⟨by simp, by simp, .nil⟩
    fun _ _ _ hkept hstep hprompt => hkept.step hstep hprompt
  exact hkept.rising

/-- The first attempt fails, and the ring makes it again before the next event. -/
theorem projections_in_order_retried : ∃ s : Pusher, s.entered.map Arrival.id = [1, 2] ∧
    s.entered.Pairwise fun event event' => event.ref = event'.ref → event.id < event'.id := by
  obtain ⟨h, s, hrun, hprompt, hids⟩ := exists_run pushStep {}
    [.receive ⟨⟨"im", "r"⟩, 1, 0⟩, .afterReceive ⟨⟨"im", "r"⟩, 1, 0⟩, .settle 0 true, .settle 0 true,
      .settle 0 false, .retryOwed, .turn, .settle 1 true, .settle 1 true, .settle 1 true, .enter 1, .receive ⟨⟨"im", "r"⟩, 2, 0⟩,
      .afterReceive ⟨⟨"im", "r"⟩, 2, 0⟩, .settle 2 true, .settle 2 true, .settle 2 true, .enter 2]
    (fun h s => (∀ t ∈ h, prompt t = true) ∧ s.entered.map Arrival.id = [1, 2]) (by decide +kernel)
  exact ⟨s, hids, projections_in_order hrun hprompt⟩

/-- The next event arrives between a failed attempt and the one the ring makes. -/
theorem projection_overtaken : ∃ h s, Run pushStep {} h s ∧ s.entered = [⟨⟨"im", "r"⟩, 2, 0⟩, ⟨⟨"im", "r"⟩, 1, 0⟩] := by
  exact exists_run _ _ [.receive ⟨⟨"im", "r"⟩, 1, 0⟩, .afterReceive ⟨⟨"im", "r"⟩, 1, 0⟩, .settle 0 false,
    .receive ⟨⟨"im", "r"⟩, 2, 0⟩, .afterReceive ⟨⟨"im", "r"⟩, 2, 0⟩, .settle 1 true, .settle 1 true, .settle 1 true,
    .enter 1, .settle 1 true, .settle 1 true, .retryOwed, .turn, .settle 2 true, .settle 2 true, .settle 2 true,
    .enter 2] _ (by decide +kernel)

end Onlyne.Im
