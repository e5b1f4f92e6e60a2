import Onlyne.Foundation.Table

/-!
# Numbered rows

A family of logs kept in one table: the rows of log `k` are stored under `(k, 1)`, `(k, 2)` and so on,
and a counter beside the table holds the number of the last one.  `Numbered` says that the table and
the counters agree, with no gap and nothing beyond the counter; `Numbered.append` is the only way a
log grows.
-/

namespace Onlyne.Foundation

universe u v

variable {K : Type u} {V : Type v} [DecidableEq K]

/-- The rows of each log carry exactly the numbers `1` to `last`. -/
def Numbered (rows : Table (K × Nat) V) (last : K → Nat) : Prop :=
  ∀ k i, (rows.get (k, i)).isSome = true ↔ 1 ≤ i ∧ i ≤ last k

namespace Numbered

variable {rows : Table (K × Nat) V} {last last' : K → Nat}

theorem empty : Numbered (∅ : Table (K × Nat) V) fun _ => 0 := by
  intro k i
  simp only [Table.get_empty, Option.isSome_none, Bool.false_eq_true, false_iff]
  omega

theorem get_next (h : Numbered rows last) (k : K) : rows.get (k, last k + 1) = none := by
  rw [← Option.not_isSome_iff_eq_none, h k]
  omega

/-- A row appended under the next number, with its counter advanced. -/
theorem append (h : Numbered rows last) (k : K) (v : V)
    (hlast : ∀ k', last' k' = if k' = k then last k + 1 else last k') :
    Numbered (rows.put (k, last k + 1) v) last' := by
  intro k' i
  rw [Table.get_put, hlast k']
  by_cases hk : k' = k
  · subst hk
    by_cases hi : i = last k' + 1
    · subst hi
      simp
    · -- Every other number of this log is as before, and none of them is the new one.
      have hold := h k' i
      simp only [Prod.mk.injEq, true_and, hi, if_false, if_true]
      rw [hold]
      omega
  · simp only [Prod.mk.injEq, hk, false_and, if_false]
    exact h k' i

end Numbered

end Onlyne.Foundation
