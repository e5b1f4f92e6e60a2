import Mathlib.Data.List.Induction

/-!
# Runs of a transition system

A system is a partial step function: `step s a = some s'` when act `a` is enabled in `s` and leads
to `s'`.  A run records every transition it took, so a property of the past (what was written,
accepted or confirmed earlier) is a property of the recorded history and needs no ghost field in
the state.

The rules below are the ones every safety argument over runs reduces to:

- `Run.invariant` and `Run.invariant_of` prove that a predicate holds in every reached state;
- `Run.pairwise_of` proves a law between an earlier and a later transition from what the earlier one
  leaves behind;
- `execute` computes a run, so that a concrete scenario is checked by evaluation.
-/

namespace Onlyne.Foundation

open List

universe u v

structure Transition (σ : Type u) (α : Type v) where
  -- The state the act was taken in.
  before : σ
  -- The act taken.
  act : α
  -- The state it led to.
  after : σ

variable {σ : Type u} {α : Type v}

/-- `Run step start h s`: the transitions `h`, oldest first, lead from `start` to `s`. -/
inductive Run (step : σ → α → Option σ) (start : σ) : List (Transition σ α) → σ → Prop where
  -- No transition taken yet.
  | nil : Run step start [] start
  -- One more transition at the end.
  | snoc {h s s' a} : Run step start h s → step s a = some s' → Run step start (h ++ [⟨s, a, s'⟩]) s'

namespace Run

variable {step : σ → α → Option σ} {start s : σ} {h : List (Transition σ α)}

/-! ## Histories -/

/-- Every recorded transition is a step of the system. -/
theorem step_of_mem (hrun : Run step start h s) {t : Transition σ α} (ht : t ∈ h) :
    step t.before t.act = some t.after := by
  induction hrun with
  | nil => simp at ht
  | snoc _ hstep ih =>
    rcases mem_append.mp ht with hold | hnew
    · exact ih hold
    · rw [mem_singleton] at hnew
      subst hnew
      exact hstep

variable {h₁ h₂ : List (Transition σ α)} {I : σ → Prop} {C : Transition σ α → Prop}

/-- A run over `h₁ ++ h₂` passes through the state reached by `h₁`. -/
theorem split (hrun : Run step start (h₁ ++ h₂) s) : ∃ m, Run step start h₁ m ∧ Run step m h₂ s := by
  induction h₂ using List.reverseRecOn generalizing s with
  | nil =>
    rw [append_nil] at hrun
    exact ⟨s, hrun, .nil⟩
  | append_singleton rest t ih =>
    rw [← append_assoc] at hrun
    generalize hh : h₁ ++ rest ++ [t] = h at hrun
    cases hrun with
    | nil => simp at hh
    | snoc hprev hstep =>
      obtain ⟨hinit, hlast⟩ := append_inj' hh rfl
      subst hinit
      obtain ⟨m, hm₁, hm₂⟩ := ih hprev
      cases hlast
      exact ⟨m, hm₁, hm₂.snoc hstep⟩

/-- A run passes through the states before and after each recorded transition. -/
theorem split_at {t : Transition σ α} (hrun : Run step start (h₁ ++ t :: h₂) s) :
    Run step start h₁ t.before ∧ step t.before t.act = some t.after ∧ Run step t.after h₂ s := by
  rw [append_cons] at hrun
  obtain ⟨m, hfst, hrest⟩ := hrun.split
  generalize hh : h₁ ++ [t] = h at hfst
  cases hfst with
  | nil => simp at hh
  | snoc hprev hstep =>
    obtain ⟨hinit, hlast⟩ := append_inj' hh rfl
    subst hinit
    cases hlast
    exact ⟨hprev, hstep, hrest⟩

theorem of_mem (hrun : Run step start h s) {t : Transition σ α} (ht : t ∈ h) : ∃ past future, h = past ++ t :: future ∧
    Run step start past t.before ∧ step t.before t.act = some t.after ∧ Run step t.after future s := by
  obtain ⟨past, future, rfl⟩ := append_of_mem ht
  exact ⟨past, future, rfl, hrun.split_at⟩

/-- Two runs, the second from where the first ends, are one. -/
theorem append {m : σ} (hfst : Run step start h₁ m) (hrest : Run step m h₂ s) : Run step start (h₁ ++ h₂) s := by
  induction hrest with
  | nil => rwa [append_nil]
  | snoc _ hstep ih =>
    rw [← append_assoc]
    exact ih.snoc hstep

/-! ## Invariants -/

section

variable (hrun : Run step start h s)
include hrun

/-- A predicate on history and state that every step extends holds at the end of every run. -/
theorem induction_on {I : List (Transition σ α) → σ → Prop} (init : I [] start)
    (extend : ∀ h s a s', Run step start h s → I h s → step s a = some s' → I (h ++ [⟨s, a, s'⟩]) s') : I h s := by
  induction hrun with
  | nil => exact init
  | snoc hprev hstep ih => exact extend _ _ _ _ hprev ih hstep

section

variable (hC : ∀ t ∈ h, C t) (init : I start) (keep : ∀ s a s', I s → step s a = some s' → C ⟨s, a, s'⟩ → I s')
include hC init keep

/-- A predicate that every step meeting `C` preserves holds after every run whose steps all
meet `C`. -/
theorem invariant_of : I s := by
  induction hrun with
  | nil => exact init
  | snoc hprev hstep ih =>
    have hprevC := ih fun t ht => hC t (mem_append_left _ ht)
    exact keep _ _ _ hprevC hstep (hC _ (by simp))

theorem before_of {t : Transition σ α} (ht : t ∈ h) : I t.before := by
  obtain ⟨past, future, rfl, hpast, -⟩ := hrun.of_mem ht
  exact hpast.invariant_of (fun t' ht' => hC t' (mem_append_left _ ht')) init keep

end

section

variable (init : I start)
include init

/-- A predicate that every step preserves holds in every reached state. -/
theorem invariant (keep : ∀ s a s', I s → step s a = some s' → I s') : I s :=
  hrun.invariant_of (C := fun _ => True) (fun _ _ => trivial) init fun s a s' hI hstep _ => keep s a s' hI hstep

/-- When a step from a state with `I` has `P` exactly if it meets `C`, and a step that meets `C` keeps `I`,
the transitions of a run all have `P` exactly if they all meet `C`. -/
theorem forall_iff_of {P : Transition σ α → Prop} (keep : ∀ s a s', I s → step s a = some s' → C ⟨s, a, s'⟩ → I s')
    (law_iff : ∀ s a s', I s → step s a = some s' → (P ⟨s, a, s'⟩ ↔ C ⟨s, a, s'⟩)) : (∀ t ∈ h, P t) ↔ ∀ t ∈ h, C t := by
  induction hrun with
  | nil => simp
  | @snoc past s s' a hprev hstep ih =>
    simp only [forall_mem_append, forall_mem_singleton]
    rw [ih]
    apply and_congr_right
    intro hC
    exact law_iff s a s' (hprev.invariant_of hC init keep) hstep

/-- When a step from a state with `I` keeps `I` exactly if it meets `C`, the states after the
transitions of a run all have `I` exactly if its transitions all meet `C`.  What led to the step is at
hand. -/
theorem forall_after_iff_of (keep_iff : ∀ past t future, h = past ++ t :: future → Run step start past t.before →
      step t.before t.act = some t.after → I t.before → (I t.after ↔ C t)) : (∀ t ∈ h, I t.after) ↔ ∀ t ∈ h, C t := by
  -- Carried along: while the left side holds, the current state has `I`.
  suffices hall : ((∀ t ∈ h, I t.after) ↔ ∀ t ∈ h, C t) ∧ ((∀ t ∈ h, I t.after) → I s) from hall.1
  induction hrun with
  | nil => exact ⟨by simp, fun _ => init⟩
  | @snoc past s s' a hprev hstep ih =>
    obtain ⟨hiff, hlast⟩ := ih fun past' t future heq =>
      keep_iff past' t (future ++ [⟨s, a, s'⟩]) (by simp [heq])
    have hnow (hI : I s) : I s' ↔ C ⟨s, a, s'⟩ := keep_iff past _ [] rfl hprev hstep hI
    simp only [forall_mem_append, forall_mem_singleton]
    refine ⟨?_, fun haft => haft.2⟩
    constructor
    · rintro ⟨haft, hI⟩
      exact ⟨hiff.mp haft, (hnow (hlast haft)).mp hI⟩
    · rintro ⟨hC, hCnow⟩
      have haft := hiff.mpr hC
      exact ⟨haft, (hnow (hlast haft)).mpr hCnow⟩

/-- The rule for a step that needs nothing of what led to it. -/
theorem forall_after_iff (keep_iff : ∀ s a s', I s → step s a = some s' → (I s' ↔ C ⟨s, a, s'⟩)) :
    (∀ t ∈ h, I t.after) ↔ ∀ t ∈ h, C t :=
  hrun.forall_after_iff_of init fun _ t _ _ _ hstep hI => keep_iff _ t.act _ hI hstep

end

end

/-! ## Laws between two transitions -/

/-- A law between an earlier and a later transition.  `P t` is what transition `t` leaves behind:
it holds right after `t`, every later step keeps it, and any later step taken while it holds
stands in relation `R` to `t`.  The invariant `I` is available throughout, and every step of the
run meets `C`. -/
theorem pairwise_of {P : Transition σ α → σ → Prop} {R : Transition σ α → Transition σ α → Prop}
    (hrun : Run step start h s) (hC : ∀ t ∈ h, C t) (init : I start)
    (keepI : ∀ s a s', I s → step s a = some s' → C ⟨s, a, s'⟩ → I s')
    (leave : ∀ s a s', I s → step s a = some s' → C ⟨s, a, s'⟩ → P ⟨s, a, s'⟩ s')
    (keep : ∀ t s a s', I s → P t s → step s a = some s' → C ⟨s, a, s'⟩ → P t s')
    (law : ∀ t s a s', I s → P t s → step s a = some s' → C ⟨s, a, s'⟩ → R t ⟨s, a, s'⟩) : h.Pairwise R := by
  suffices hall : (∀ t ∈ h, P t s) ∧ h.Pairwise R from hall.2
  induction hrun with
  | nil => simp
  | snoc hprev hstep ih =>
    have hCprev : ∀ t ∈ _, C t := fun t ht => hC t (mem_append_left _ ht)
    have hCnow := hC _ (mem_append_right _ (mem_singleton_self _))
    have hI := hprev.invariant_of hCprev init keepI
    obtain ⟨hP, hR⟩ := ih hCprev
    refine ⟨?_, ?_⟩
    · intro t ht
      rcases mem_append.mp ht with hold | hnew
      · exact keep t _ _ _ hI (hP t hold) hstep hCnow
      · rw [mem_singleton] at hnew
        subst hnew
        exact leave _ _ _ hI hstep hCnow
    · rw [pairwise_append]
      refine ⟨hR, pairwise_singleton _ _, ?_⟩
      intro t ht t' ht'
      rw [mem_singleton] at ht'
      subst ht'
      exact law t _ _ _ hI (hP t ht) hstep hCnow

end Run

/-! ## Conditions on a step and its past -/

/-- Every element of `h` meets `p` together with the elements before it. -/
def EveryStep {τ : Type v} (p : List τ → τ → Prop) (h : List τ) : Prop :=
  ∀ i (hi : i < h.length), p (h.take i) h[i]

instance {τ : Type v} (p : List τ → τ → Prop) [∀ past t, Decidable (p past t)] (h : List τ) :
    Decidable (EveryStep p h) :=
  inferInstanceAs (Decidable (∀ i (hi : i < h.length), p (h.take i) h[i]))

/-- One more element: its past is everything before it. -/
theorem everyStep_snoc {τ : Type v} {p : List τ → τ → Prop} {h : List τ} {t : τ} :
    EveryStep p (h ++ [t]) ↔ EveryStep p h ∧ p h t := by
  constructor
  · intro hall
    refine ⟨?_, ?_⟩
    · intro i hi
      have hstep := hall i (by rw [length_append]; omega)
      rwa [take_append_of_le_length (by omega), getElem_append_left hi] at hstep
    · have hlast := hall h.length (by simp)
      simpa using hlast
  · rintro ⟨hall, hlast⟩ i hi
    rw [length_append, length_singleton] at hi
    by_cases hlt : i < h.length
    · rw [take_append_of_le_length (by omega), getElem_append_left hlt]
      exact hall i hlt
    · obtain rfl : i = h.length := by omega
      simpa using hlast

variable {s : σ}

/-- When a step from a state that stands to its history in `I` keeps to it exactly if it meets `C`, all states
of a run stand to their histories in `I` exactly if its transitions all meet `C`. -/
theorem Run.everyStep_iff_of {step : σ → α → Option σ} {start : σ} {h : List (Transition σ α)}
    {I : List (Transition σ α) → σ → Prop} {C : Transition σ α → Prop} (hrun : Run step start h s)
    (init : I [] start) (keep_iff : ∀ past s a s', Run step start past s → step s a = some s' → I past s →
      (I (past ++ [⟨s, a, s'⟩]) s' ↔ C ⟨s, a, s'⟩)) :
    EveryStep (fun past t => I (past ++ [t]) t.after) h ↔ ∀ t ∈ h, C t := by
  -- Carried along: while the left side holds, the current state stands to its history in `I`.
  suffices hall : (EveryStep (fun past t => I (past ++ [t]) t.after) h ↔ ∀ t ∈ h, C t) ∧
      (EveryStep (fun past t => I (past ++ [t]) t.after) h → I h s) from hall.1
  induction hrun with
  | nil => exact ⟨iff_of_true (fun i hi => absurd hi (by simp)) (by simp), fun _ => init⟩
  | @snoc past s s' a hprev hstep ih =>
    obtain ⟨hiff, hlast⟩ := ih
    rw [everyStep_snoc, forall_mem_append, forall_mem_singleton, hiff]
    refine ⟨and_congr_right fun hC => ?_, fun hall => hall.2⟩
    exact keep_iff past s a s' hprev hstep (hlast (hiff.mpr hC))

/-! ## Executing a list of acts -/

/-- Take the acts one after another; `none` as soon as one of them is not enabled. -/
def execute (step : σ → α → Option σ) : σ → List α → Option (List (Transition σ α) × σ)
  | s, [] => some ([], s)
  | s, a :: rest =>
    match step s a with
    | none => none
    | some s' => (execute step s' rest).map fun r => (⟨s, a, s'⟩ :: r.1, r.2)

/-- What `execute` computes is a run. -/
theorem run_of_execute {step : σ → α → Option σ} {start m : σ} {h₀ h : List (Transition σ α)} {acts : List α}
    (hrun : Run step start h₀ m) (hexec : execute step m acts = some (h, s)) : Run step start (h₀ ++ h) s := by
  induction acts generalizing h₀ m h with
  | nil =>
    cases hexec
    rwa [append_nil]
  | cons a rest ih =>
    simp only [execute] at hexec
    split at hexec
    · cases hexec
    · next s' hstep =>
      obtain ⟨r, hr, heq⟩ := Option.map_eq_some_iff.mp hexec
      cases heq
      have hrest := ih (hrun.snoc hstep) hr
      simpa using hrest

/-- A scenario that evaluates to a state with the checked property is a run with that property. -/
theorem exists_run (step : σ → α → Option σ) (start : σ) (acts : List α)
    (p : List (Transition σ α) → σ → Prop) [∀ h s, Decidable (p h s)]
    (hexec : (execute step start acts).any (fun r => p r.1 r.2) = true) : ∃ h s, Run step start h s ∧ p h s := by
  obtain ⟨r, hr, hp⟩ := (Option.any_eq_true _ _).mp hexec
  exact ⟨r.1, r.2, run_of_execute .nil hr, of_decide_eq_true hp⟩

/-! ## Two states that answer alike -/

/-- The answers to a list of requests, up to the first one that does not return. -/
def converse {β : Type v} (perform : σ → α → Option (β × σ)) : σ → List α → List (Option β)
  | _, [] => []
  | s, a :: rest =>
    match perform s a with
    | none => [none]
    | some (b, s') => some b :: converse perform s' rest

/-- When related states answer every admissible request alike and stay related, nobody who sends
admissible requests can tell them apart. -/
theorem converse_eq_of_simulation {β : Type v} {perform : σ → α → Option (β × σ)} {R : σ → σ → Prop} {C : α → Prop}
    (simulates : ∀ s s' a, C a → R s s' → Option.Rel (fun x y => x.1 = y.1 ∧ R x.2 y.2) (perform s a) (perform s' a))
    {requests : List α} (hC : ∀ a ∈ requests, C a) {s' : σ} (hR : R s s') :
    converse perform s requests = converse perform s' requests := by
  induction requests generalizing s s' with
  | nil => rfl
  | cons a rest ih =>
    have hhead := simulates s s' a (hC a mem_cons_self) hR
    have hCrest : ∀ a ∈ rest, C a := fun a ha => hC a (mem_cons_of_mem _ ha)
    unfold converse
    cases hs : perform s a with
    | none =>
      rw [hs] at hhead
      cases hs' : perform s' a with
      | none => rfl
      | some =>
        rw [hs'] at hhead
        cases hhead
    | some =>
      rw [hs] at hhead
      cases hs' : perform s' a with
      | none =>
        rw [hs'] at hhead
        cases hhead
      | some =>
        rw [hs'] at hhead
        obtain ⟨hans, hrel⟩ := Option.rel_some_some.mp hhead
        dsimp only
        rw [hans, ih hCrest hrel]

end Onlyne.Foundation
