import Mathlib.Tactic.SplitIfs

/-!
# Work that is done once

A store has slots.  A request names a slot and brings a digest of what it asks for.  A free slot lets the
work run and is then bound to the digest and the result; a bound slot answers with its result, or with a
conflict when the digest is another one.

`once` is that protocol over any store, and the lemmas say what it leaves in the slots: a bound slot stays
as it is, whatever runs afterwards.
-/

namespace Onlyne.Foundation

universe u v w x

/-- The slots of a store: each is free, or bound to a digest and a result. -/
structure Slots (σ : Type u) (κ : Type v) (δ : Type w) (ρ : Type x) where
  get : σ → κ → Option (δ × ρ)
  fill : σ → κ → δ × ρ → σ
  get_fill : ∀ s k row, get (fill s k row) k = some row
  get_fill_ne : ∀ s k k' row, k' ≠ k → get (fill s k row) k' = get s k'

section Once

variable {σ : Type u} {κ : Type v} {δ : Type w} {ρ : Type x} {ε : Type*} {row : δ × ρ}

def Slots.Keeps (S : Slots σ κ δ ρ) (work : σ → Except ε (ρ × σ)) : Prop :=
  ∀ s result s', work s = .ok (result, s') → ∀ k, S.get s' k = S.get s k

variable [DecidableEq δ]

def once (S : Slots σ κ δ ρ) (conflict : ε) (slot : κ) (digest : δ) (window : Except ε Unit)
    (work : σ → Except ε (ρ × σ)) (s : σ) : Except ε (ρ × σ) :=
  match S.get s slot with
  | some row => if row.1 = digest then .ok (row.2, s) else .error conflict
  | none =>
    match window with
    | .error failure => .error failure
    | .ok () =>
      match work s with
      | .error failure => .error failure
      | .ok (result, s') => .ok (result, S.fill s' slot (digest, result))

variable {S : Slots σ κ δ ρ} {conflict : ε} {slot k : κ} {digest : δ} {window : Except ε Unit}
  {work : σ → Except ε (ρ × σ)} {s s' : σ} {result : ρ}

theorem once_bound (h : S.get s slot = some row) : once S conflict slot digest window work s =
      if row.1 = digest then .ok (row.2, s) else .error conflict := by
  unfold once
  rw [h]

section

variable (h : once S conflict slot digest window work s = .ok (result, s'))
include h

/-- A request that gets its result was answered by its slot, or has run its work. -/
theorem once_ok : (S.get s slot = some (digest, result) ∧ s' = s) ∨ S.get s slot = none ∧ window = .ok () ∧
        ∃ tx, work s = .ok (result, tx) ∧ s' = S.fill tx slot (digest, result) := by
  unfold once at h
  split at h
  · next row hrow =>
    split_ifs at h with hdig
    cases h
    subst hdig
    exact .inl ⟨hrow, rfl⟩
  · next hfree =>
    split at h
    · cases h
    · split at h
      · cases h
      · next hwork =>
        cases h
        exact .inr ⟨hfree, rfl, _, hwork, rfl⟩

theorem once_binds : S.get s' slot = some (digest, result) := by
  rcases once_ok h with ⟨hrow, rfl⟩ | ⟨-, -, tx, -, rfl⟩
  · exact hrow
  · exact S.get_fill tx slot _

end

section

variable (hkp : S.Keeps work) (h : once S conflict slot digest window work s = .ok (result, s'))
include hkp h

theorem once_other (hk : k ≠ slot) : S.get s' k = S.get s k := by
  rcases once_ok h with ⟨-, rfl⟩ | ⟨-, -, tx, hwork, rfl⟩
  · rfl
  · rw [S.get_fill_ne tx slot k _ hk]
    exact hkp s result tx hwork k

theorem once_keeps (hrow : S.get s k = some row) : S.get s' k = some row := by
  by_cases hk : k = slot
  · subst hk
    rcases once_ok h with ⟨-, rfl⟩ | ⟨hfree, -⟩
    · exact hrow
    · rw [hfree] at hrow
      cases hrow
  · rw [once_other hkp h hk]
    exact hrow

end

theorem once_fails {failure : ε} (hfails : window = .error failure ∨ work s = .error failure)
    (h : once S conflict slot digest window work s = .ok (result, s')) : s' = s := by
  rcases once_ok h with ⟨-, hsame⟩ | ⟨-, hwin, tx, hwork, -⟩
  · exact hsame
  · rcases hfails with hover | hfail
    · rw [hwin] at hover
      cases hover
    · rw [hwork] at hfail
      cases hfail

end Once

end Onlyne.Foundation
