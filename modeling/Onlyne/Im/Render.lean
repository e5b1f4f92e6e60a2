import Onlyne.Foundation.Run
import Onlyne.Foundation.Table

/-!
# Messenger gateway: rendering replies

`ThreadRenderer` of `render.ts` over one thread, await by await.  The platform cannot tell a message it gets twice, so
an entry is marked before it is sent, and a pass leaves a marked entry alone.  A stop of the process ends the pass
wherever it stands.
-/

namespace Onlyne.Im

open Foundation Table

inductive SendState where
  | committed
  | unknown
  deriving DecidableEq

structure SendOutcome where
  state : SendState
  error : Option String := none
  messageId : Option String := none
  deriving DecidableEq

inductive Settlement where
  | aborted
  | unknown
  | committed
  deriving DecidableEq

def settleOutcome (outcome : SendOutcome) : Settlement :=
  if outcome.error.isSome && outcome.state = .committed then .aborted
  else if outcome.error.isSome || outcome.state = .unknown then .unknown
  else .committed

inductive RenderRecord where
  | rendering
  | rendered (messageId : Option String)

inductive RenderStage where
  | listing (after : Nat)
  | marking (seq : Nat)
  | calling (seq : Nat)
  | sending (seq : Nat)
  | refused (seq : Nat)
  | sent (seq : Nat) (messageId : Option String)
  | settled (seq : Nat)

structure Renderer where
  cursor : Nat := 0
  records : Table Nat RenderRecord := ∅
  stage : Option RenderStage := none
  -- The calls of `connector.send`, the last one first, each with the outcome it returned.
  calls : List (Nat × Option SendOutcome) := []

inductive RenderAct where
  | pass
  -- The page has an entry, which may be a projection of the gateway itself.
  | entry (seq : Nat) (own : Bool)
  | save
  | send
  | returned (outcome : SendOutcome)
  | threw
  | stop

def renderStep (s : Renderer) (act : RenderAct) : Option Renderer :=
  match act, s.stage with
  | .pass, none => some { s with stage := some (.listing s.cursor) }
  | .entry seq own, some (.listing after) =>
    if seq ≤ after then none
    else if own || (s.records.get seq).isSome then some { s with stage := some (.settled seq) }
    else some { s with stage := some (.marking seq) }
  | .save, some (.marking seq) =>
    some { s with records := s.records.put seq .rendering, stage := some (.calling seq) }
  | .send, some (.calling seq) => some { s with calls := (seq, none) :: s.calls, stage := some (.sending seq) }
  | .returned outcome, some (.sending seq) => some { s with
      calls := (seq, some outcome) :: s.calls.tail
      stage := some (if outcome.error.isSome then .refused seq else .sent seq outcome.messageId) }
  | .threw, some (.sending seq) => some { s with stage := some (.settled seq) }
  -- The mark is dropped, and the pass ends.
  | .save, some (.refused seq) => some { s with records := s.records.delete seq, stage := none }
  | .save, some (.sent seq messageId) =>
    some { s with records := s.records.put seq (.rendered messageId), stage := some (.settled seq) }
  | .save, some (.settled seq) => some { s with cursor := seq, stage := some (.listing seq) }
  | .stop, _ => some { s with stage := none }
  | _, _ => none

def rejected (call : Nat × Option SendOutcome) : Bool := call.2.any fun outcome => settleOutcome outcome = .aborted

/-- The connector gives an error with a settled outcome only. -/
def clear (act : RenderAct) : Bool :=
  match act with
  | .returned outcome => outcome.error.isNone || outcome.state = .committed
  | _ => true

def Renderer.Free (s : Renderer) (seq : Nat) : Prop := ∀ call ∈ s.calls, call.1 = seq → rejected call = true

structure Renderer.Kept (s : Renderer) : Prop where
  once : s.calls.Pairwise fun later earlier => earlier.1 = later.1 → rejected earlier = true
  marked : ∀ seq, s.records.get seq = none → s.Free seq
  stage : match s.stage with
    | some (.marking seq) | some (.refused seq) => s.Free seq
    | some (.calling seq) => s.Free seq ∧ s.records.get seq ≠ none
    | some (.sending seq) => ∃ earlier, s.calls = (seq, none) :: earlier ∧ s.records.get seq ≠ none
    | _ => True

variable {s s' : Renderer} {act : RenderAct}

theorem get_none_of_put {records : Table Nat RenderRecord} {seq other : Nat} {record : RenderRecord}
    (h : (records.put seq record).get other = none) : records.get other = none := by
  rw [get_put] at h
  split_ifs at h
  exact h

theorem Renderer.Kept.step (hkept : s.Kept) (hstep : renderStep s act = some s') (hclear : clear act = true) :
    s'.Kept := by
  obtain ⟨honce, hmark, hstage⟩ := hkept
  unfold renderStep at hstep
  split at hstep
  · cases hstep
    exact ⟨honce, hmark, trivial⟩
  · next seq own after hat =>
    split_ifs at hstep with hlt hdone
    · cases hstep
      exact ⟨honce, hmark, trivial⟩
    · cases hstep
      exact ⟨honce, hmark, hmark seq (by simp_all)⟩
  · next seq hat =>
    cases hstep
    rw [hat] at hstage
    exact ⟨honce, fun other hnone => hmark other (get_none_of_put hnone), hstage, by simp⟩
  · next seq hat =>
    cases hstep
    rw [hat] at hstage
    refine ⟨List.pairwise_cons.mpr ⟨hstage.1, honce⟩, fun other hnone => ?_, s.calls, rfl, hstage.2⟩
    refine List.forall_mem_cons.mpr ⟨?_, hmark other hnone⟩
    rintro rfl
    exact absurd hnone hstage.2
  · next outcome seq hat =>
    cases hstep
    rw [hat] at hstage
    obtain ⟨earlier, hcalls, hrec⟩ := hstage
    rw [hcalls] at honce
    have hfirst := List.pairwise_cons.mp honce
    simp only [hcalls, List.tail_cons]
    refine ⟨List.pairwise_cons.mpr hfirst, fun other hnone => ?_, ?_⟩
    · have hfree := hmark other hnone
      unfold Renderer.Free at hfree ⊢
      rw [hcalls, List.forall_mem_cons] at hfree
      refine List.forall_mem_cons.mpr ⟨?_, hfree.2⟩
      rintro rfl
      exact absurd hnone hrec
    · cases herror : outcome.error with
      | none => trivial
      | some error =>
        refine List.forall_mem_cons.mpr ⟨fun _ => ?_, hfirst.1⟩
        simpa [rejected, settleOutcome, clear, herror] using hclear
  · cases hstep
    exact ⟨honce, hmark, trivial⟩
  · next seq hat =>
    cases hstep
    rw [hat] at hstage
    refine ⟨honce, fun other hnone => ?_, trivial⟩
    rw [get_delete] at hnone
    split_ifs at hnone with hother
    · subst hother
      exact hstage
    · exact hmark other hnone
  · cases hstep
    exact ⟨honce, fun other hnone => hmark other (get_none_of_put hnone), trivial⟩
  · cases hstep
    exact ⟨honce, hmark, trivial⟩
  · cases hstep
    exact ⟨honce, hmark, trivial⟩
  · cases hstep

/-- While the connector gives an error with settled outcomes only, an entry is sent again only if the platform rejected
it each time before. -/
theorem entry_rendered_once {h : List (Transition Renderer RenderAct)} (hrun : Run renderStep {} h s)
    (hclear : ∀ t ∈ h, clear t.act = true) :
    s.calls.Pairwise fun later earlier => earlier.1 = later.1 → rejected earlier = true := by
  have hkept : s.Kept := hrun.invariant_of hclear ⟨.nil, fun _ _ => by simp [Renderer.Free], trivial⟩
    fun _ _ _ hkept hstep hclear => hkept.step hstep hclear
  exact hkept.once

/-- The platform rejects the entry, and takes it on the next pass. -/
theorem entry_rendered_once_retried : ∃ s : Renderer, s.calls.map Prod.fst = [1, 1] ∧
    s.calls.Pairwise fun later earlier => earlier.1 = later.1 → rejected earlier = true := by
  obtain ⟨h, s, hrun, hclear, hcalls⟩ := exists_run renderStep {}
    [.pass, .entry 1 false, .save, .send, .returned ⟨.committed, some "full", none⟩, .save,
      .pass, .entry 1 false, .save, .send, .returned ⟨.committed, none, none⟩]
    (fun h s => (∀ t ∈ h, clear t.act = true) ∧ s.calls.map Prod.fst = [1, 1]) (by decide +kernel)
  exact ⟨s, hcalls, entry_rendered_once hrun hclear⟩

/-- An outcome that is unknown, with an error, is sent again. -/
theorem unknown_sent_again : ∃ h s, Run renderStep {} h s ∧
    s.calls = [(1, none), (1, some ⟨.unknown, some "timeout", none⟩)] ∧
    settleOutcome ⟨.unknown, some "timeout", none⟩ = .unknown := by
  exact exists_run _ _ [.pass, .entry 1 false, .save, .send, .returned ⟨.unknown, some "timeout", none⟩, .save,
    .pass, .entry 1 false, .save, .send] _ (by decide +kernel)

end Onlyne.Im
