import Mathlib.Data.List.Sort

/-!
# Listings that grow at their end

A listing is ordered by the position of its items, and new items are put behind the ones it has.  A
reader asks for what comes after the last item it was given, a piece at a time.  `Follows` says that it
was given the beginning of what comes after its start, with nothing left out and nothing twice:

- `Follows.read`: one more piece, of any size;
- `Follows.grow`: the listing grew in the meantime.
-/

namespace Onlyne.Foundation

open List

universe u v

variable {α : Type u} {P : Type v} [LinearOrder P] (position : α → P) {item last : α}

section

variable (items : List α) (start : Option P) (seen : List α)

def itemsAfter : List α :=
  items.filter fun item => start.all fun p => p < position item

def Rising : Prop := items.Pairwise fun a b => position a < position b

/-- Where a reader stands that began at `start` and was given `seen`. -/
def reached : Option P := (seen.getLast?.map position).or start

/-- What a reader was given is the beginning of what comes after its start, and the rest is what comes
after the place where it stands. -/
def Follows : Prop :=
  itemsAfter position items start = seen ++ itemsAfter position items (reached position start seen)

end

variable {position} {items items' rest : List α} {start : Option P} {seen : List α}

theorem mem_itemsAfter : item ∈ itemsAfter position items start ↔ item ∈ items ∧ ∀ p ∈ start, p < position item := by
  cases start <;> simp [itemsAfter]

@[simp] theorem itemsAfter_append (new : List α) : itemsAfter position (items ++ new) start =
    itemsAfter position items start ++ itemsAfter position new start :=
  filter_append items new

theorem itemsAfter_eq_self (h : ∀ item ∈ items, ∀ p ∈ start, p < position item) :
    itemsAfter position items start = items := by
  rw [itemsAfter, filter_eq_self]
  intro item hitem
  cases start with
  | none => rfl
  | some p => simpa using h item hitem p rfl

/-! ## Rising listings -/

namespace Rising

section

variable (h : Rising position items)
include h

/-- A rising listing is determined by its items. -/
theorem eq_of_mem_iff (h' : Rising position items') (hmem : ∀ item, item ∈ items ↔ item ∈ items') : items = items' := by
  have hantisymm : Std.Antisymm fun a b : α => position a < position b := ⟨fun a b hab hba => absurd hab hba.not_gt⟩
  exact List.Pairwise.eq_of_mem_iff h h' hmem

theorem after (start : Option P) : Rising position (itemsAfter position items start) :=
  List.Pairwise.filter _ h

/-- A rising listing that keeps its items and puts new ones behind them has grown at its end. -/
theorem exists_append (h' : Rising position items') (hkept : ∀ item ∈ items, item ∈ items')
    (hnew : ∀ item ∈ items', item ∉ items → ∀ old ∈ items, position old < position item) :
    ∃ new, items' = items ++ new ∧ ∀ old ∈ items, ∀ item ∈ new, position old < position item := by
  classical
  let new := items'.filter fun item => item ∉ items
  have hbehind : ∀ old ∈ items, ∀ item ∈ new, position old < position item := by
    intro old hold item hitem
    obtain ⟨hitem, hfr⟩ := mem_filter.mp hitem
    exact hnew item hitem (of_decide_eq_true hfr) old hold
  refine ⟨new, ?_, hbehind⟩
  have hrise : Rising position (items ++ new) := pairwise_append.mpr ⟨h, List.Pairwise.filter _ h', hbehind⟩
  apply h'.eq_of_mem_iff hrise
  intro item
  simp only [mem_append, new, mem_filter, decide_eq_true_eq]
  by_cases hold : item ∈ items
  · simp [hold, hkept item hold]
  · simp [hold]

end

/-- What comes after the items before a place of a rising listing. -/
theorem after_last {seen : List α} (h : Rising position (seen ++ rest)) (hlast : seen.getLast? = some last) :
    itemsAfter position (seen ++ rest) (some (position last)) = rest := by
  obtain ⟨hseen, -, hcr⟩ := pairwise_append.mp h
  have hnone : itemsAfter position seen (some (position last)) = [] := by
    rw [eq_nil_iff_forall_not_mem]
    intro item hitem
    obtain ⟨hitem, hlt⟩ := mem_itemsAfter.mp hitem
    obtain ⟨front, rfl⟩ := getLast?_eq_some_iff.mp hlast
    rcases mem_append.mp hitem with hfront | hself
    · have hbef := (pairwise_append.mp hseen).2.2 item hfront last (mem_singleton_self _)
      exact lt_asymm hbef (hlt _ rfl)
    · rw [mem_singleton.mp hself] at hlt
      exact lt_irrefl _ (hlt _ rfl)
  rw [itemsAfter_append, hnone, nil_append]
  apply itemsAfter_eq_self
  rintro item hitem p ⟨rfl⟩
  exact hcr last (mem_of_getLast? hlast) item hitem

end Rising

theorem pairwise_insertionSort_position (items : List α) :
    (items.insertionSort fun a b => position a ≤ position b).Pairwise fun a b => position a ≤ position b := by
  have htotal : Std.Total fun a b : α => position a ≤ position b := ⟨fun a b => le_total _ _⟩
  have htrans : IsTrans α fun a b => position a ≤ position b := ⟨fun a b c => le_trans⟩
  exact pairwise_insertionSort _ items

/-- A sorted listing is rising when no two of its items have one position. -/
theorem rising_insertionSort (h : items.Pairwise fun a b => position a ≠ position b) :
    Rising position (items.insertionSort fun a b => position a ≤ position b) := by
  have hdist := ((perm_insertionSort (fun a b => position a ≤ position b) items).pairwise_iff
    fun {_ _} hne => hne.symm).mpr h
  exact ((pairwise_insertionSort_position items).and hdist).imp fun hboth => lt_of_le_of_ne hboth.1 hboth.2

/-! ## Readers -/

omit [LinearOrder P] in
@[simp] theorem reached_nil : reached position start [] = start := rfl

omit [LinearOrder P] in
theorem reached_of_last (hlast : seen.getLast? = some last) : reached position start seen = some (position last) := by
  simp [reached, hlast]

omit [LinearOrder P] in
theorem reached_append (more : List α) :
    reached position start (seen ++ more) = reached position (reached position start seen) more := by
  unfold reached
  rw [getLast?_append]
  cases more.getLast? <;> simp

namespace Follows

theorem nil : Follows position items start [] := by
  simp [Follows]

theorem initial (h : Follows position items start seen) : seen <+: itemsAfter position items start :=
  ⟨_, h.symm⟩

theorem mem (h : Follows position items start seen) (hitem : item ∈ seen) :
    item ∈ items ∧ ∀ p ∈ start, p < position item :=
  mem_itemsAfter.mp (h.initial.subset hitem)

/-- What comes after an item of a rising listing is what follows it there. -/
theorem of_append (hrise : Rising position items)
    (h : itemsAfter position items start = seen ++ rest) : Follows position items start seen := by
  cases hlast : seen.getLast? with
  | none =>
    rw [getLast?_eq_none_iff.mp hlast]
    exact nil
  | some last =>
    unfold Follows
    rw [reached_of_last hlast]
    -- The start is before the last item, so it makes no difference to what comes after that one.
    have hstart : itemsAfter position items (some (position last)) =
        itemsAfter position (itemsAfter position items start) (some (position last)) := by
      have hlt := (mem_itemsAfter.mp (h ▸ mem_append_left rest (mem_of_getLast? hlast))).2
      unfold itemsAfter
      rw [filter_filter]
      apply filter_congr
      intro item _
      cases start with
      | none => simp
      | some p =>
        have hp : p < position last := hlt p rfl
        simpa using fun haft => hp.trans haft
    have hrest := hrise.after start
    rw [h] at hrest hstart
    rw [hstart, h, hrest.after_last hlast]

section

variable (h : Follows position items start seen)
include h

theorem shorten (hrise : Rising position items)
    {seen' : List α} (hseen : seen' <+: seen) : Follows position items start seen' := by
  obtain ⟨more, rfl⟩ := hseen
  apply of_append hrise
  rw [h, append_assoc]

/-- A reader goes on where another one stands. -/
theorem trans {more : List α} (h' : Follows position items (reached position start seen) more) :
    Follows position items start (seen ++ more) := by
  unfold Follows at h h' ⊢
  rw [reached_append, append_assoc, ← h']
  exact h

theorem read (hrise : Rising position items) (size : Nat) : Follows position items start
      (seen ++ (itemsAfter position items (reached position start seen)).take size) := by
  apply of_append hrise
  rw [append_assoc, take_append_drop]
  exact h

theorem grow {new : List α} (hnew : ∀ old ∈ items, ∀ item ∈ new, position old < position item) :
    Follows position (items ++ new) start seen := by
  unfold Follows at h ⊢
  rw [itemsAfter_append, itemsAfter_append, h, append_assoc]
  congr 2
  cases hlast : seen.getLast? with
  | none => rw [getLast?_eq_none_iff.mp hlast, reached_nil]
  | some last =>
    -- The last item the reader was given is in the listing, and what is new comes after it.
    obtain ⟨hmem, hstart⟩ := Follows.mem h (mem_of_getLast? hlast)
    rw [reached_of_last hlast, itemsAfter_eq_self, itemsAfter_eq_self]
    · rintro item hitem p ⟨rfl⟩
      exact hnew last hmem item hitem
    · intro item hitem p hp
      exact (hstart p hp).trans (hnew last hmem item hitem)

end

end Follows

end Onlyne.Foundation
