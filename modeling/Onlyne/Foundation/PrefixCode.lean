import Mathlib.Data.List.Basic

/-!
# Codes that can be read back

A text is often written symbol by symbol, each symbol as a word of its own.  When the word of a symbol
can be split off the front of a text in one way only, the text can be read back.
-/

namespace Onlyne.Foundation

open List

universe u v

variable {α : Type u} {β : Type v}

/-- No word is empty, and the first word of a text is split off in one way only. -/
structure PrefixCode (word : α → List β) : Prop where
  ne_nil : ∀ a, word a ≠ []
  split : ∀ a b xs ys, word a ++ xs = word b ++ ys → a = b ∧ xs = ys

variable {word : α → List β}

/-- A text is read back from its words. -/
theorem PrefixCode.flatMap_injective (h : PrefixCode word) {xs ys : List α}
    (heq : xs.flatMap word = ys.flatMap word) : xs = ys := by
  induction xs generalizing ys with
  | nil =>
    cases ys with
    | nil => rfl
    | cons y =>
      exact absurd (append_eq_nil_iff.mp heq.symm).1 (h.ne_nil y)
  | cons x rest ih =>
    cases ys with
    | nil =>
      exact absurd (append_eq_nil_iff.mp heq).1 (h.ne_nil x)
    | cons y =>
      obtain ⟨rfl, hrest⟩ := h.split x y _ _ heq
      rw [ih hrest]

/-! ## Lists of words -/

/-- A joined list is its first word and the others, each after a separator. -/
theorem intercalate_cons (sep : β) (word : List β) (words : List (List β)) :
    [sep].intercalate (word :: words) = word ++ words.flatMap fun word => sep :: word := by
  induction words generalizing word with
  | nil => simp
  | cons next rest ih =>
    rw [intercalate_cons_cons, ih]
    simp

end Onlyne.Foundation
