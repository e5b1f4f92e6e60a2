import Mathlib.Data.List.Lex
import Onlyne.Core.Text
import Onlyne.Foundation.Listing
import Onlyne.Foundation.PrefixCode

/-!
# Paged listings

The `page` of `core.ts`, the order of JavaScript strings it pages along, and the sort of a listing.

A cursor is kept as what `JSON.parse(decodeURIComponent(text))` makes of its text: nothing else of the
text is looked at.  Of the scope it was issued for only equality with the scope of the query matters,
so a scope is any type with decidable equality.
-/

namespace Onlyne

open Foundation List

/-! ## The order of strings -/

def charUnits (c : Char) : List Nat :=
  if c.toNat < 0x10000 then [c.toNat]
  else [0xD800 + (c.toNat - 0x10000) / 0x400, 0xDC00 + (c.toNat - 0x10000) % 0x400]

def textUnits (text : String) : List Nat := text.toList.flatMap charUnits

/-- The `<` of JavaScript strings. -/
def textLt (a b : String) : Bool := textUnits a < textUnits b

theorem toNat_lt_or_gt (c : Char) : c.toNat < 0xD800 ∨ 0xDFFF < c.toNat ∧ c.toNat < 0x110000 :=
  c.valid

theorem charUnits_prefixCode : PrefixCode charUnits where
  ne_nil c := by
    unfold charUnits
    split_ifs <;> simp
  split a b xs ys h := by
    have ha := toNat_lt_or_gt a
    have hb := toNat_lt_or_gt b
    unfold charUnits at h
    -- A code unit is a surrogate exactly when it is half of a pair.
    split_ifs at h with hsmall hsmall' hsmall'
    · simp only [singleton_append, List.cons.injEq] at h
      exact ⟨Char.toNat_inj.mp h.1, h.2⟩
    · simp only [cons_append, nil_append, List.cons.injEq] at h
      omega
    · simp only [cons_append, nil_append, List.cons.injEq] at h
      omega
    · simp only [cons_append, nil_append, List.cons.injEq] at h
      obtain ⟨hfst, hsnd, hrest⟩ := h
      refine ⟨Char.toNat_inj.mp ?_, hrest⟩
      omega

theorem textUnits_injective {a b : String} (h : textUnits a = textUnits b) : a = b :=
  String.toList_inj.mp (charUnits_prefixCode.flatMap_injective h)

/-! ## Sorting -/

/-- Ascending by a position, rows of one position in the order they came in. -/
def sortedBy {α : Type} (position : α → String) (items : List α) : List α :=
  items.insertionSort fun a b => textUnits (position a) ≤ textUnits (position b)

def sortedByNumber {α : Type} (number : α → Nat) (items : List α) : List α :=
  items.insertionSort fun a b => number a ≤ number b

/-! ## Filters that may throw -/

/-- The items a test lets through; the first test that throws ends it. -/
def filterChecked {α ε : Type} (test : α → Except ε Bool) : List α → Except ε (List α)
  | [] => .ok []
  | item :: rest => do
    let kept ← test item
    let others ← filterChecked test rest
    .ok (if kept then item :: others else others)

theorem mem_of_filterChecked {α ε : Type} {test : α → Except ε Bool} {items kept : List α}
    (h : filterChecked test items = .ok kept) {item : α} (hitem : item ∈ kept) : item ∈ items := by
  induction items generalizing kept with
  | nil =>
    cases h
    exact hitem
  | cons first rest ih =>
    simp only [filterChecked, bind_eq_ok, Except.ok.injEq] at h
    obtain ⟨passes, -, others, hoth, rfl⟩ := h
    split_ifs at hitem
    · rcases mem_cons.mp hitem with rfl | hitem
      · exact mem_cons_self
      · exact mem_cons_of_mem _ (ih hoth hitem)
    · exact mem_cons_of_mem _ (ih hoth hitem)

theorem filterChecked_ok {α ε : Type} (test : α → Bool) (items : List α) :
    filterChecked (fun item => (.ok (test item) : Except ε Bool)) items = .ok (items.filter test) := by
  induction items with
  | nil => rfl
  | cons first rest ih =>
    rw [filterChecked, ih, filter_cons]
    rfl

/-! ## Pages -/

inductive Cursor (S : Type) where
  -- The text does not decode.
  | malformed
  -- It decodes to something that no query of this node hands out.
  | foreign
  | decoded (scope : S) (after : String)
  deriving DecidableEq, Repr

/-- Where a caller wants to go on, and how many items it wants. -/
structure PageOptions (S : Type) where
  cursor : Option (Cursor S) := none
  pageSize : Option Int := none
  deriving DecidableEq, Repr

structure Page (α S : Type) where
  items : List α
  nextCursor : Option (Cursor S)
  deriving DecidableEq, Repr

section Page

variable {α S : Type} {number : α → Nat}

def PageOptions.size (options : PageOptions S) : Except Failure Nat :=
  let size := options.pageSize.getD 50
  if size < 1 || 100 < size then
    .error (onlyneError .invalidRequest "page_size must be from 1 to 100.")
  else .ok size.toNat

def PageOptions.after [DecidableEq S] (options : PageOptions S) (scope : S) : Except Failure (Option String) :=
  match options.cursor with
  | none => .ok none
  | some .malformed => .error (onlyneError .invalidRequest "Invalid cursor.")
  | some .foreign => .error (onlyneError .invalidRequest "Cursor belongs to another query.")
  | some (.decoded issued after) =>
    if issued = scope then .ok (some after)
    else .error (onlyneError .invalidRequest "Cursor belongs to another query.")

def remaining (items : List α) (position : α → String)
    (follows : String → String → Except Failure Bool) : Option String → Except Failure (List α)
  | none => .ok items
  | some after => filterChecked (fun item => follows (position item) after) items

def cutPage (rest : List α) (size : Nat) (scope : S) (position : α → String) : Page α S where
  items := rest.take size
  nextCursor :=
    if rest.length > size then
      (rest.take size).getLast?.map fun item => .decoded scope (position item)
    else none

/-- A page of a listing in ascending order of position. -/
def page [DecidableEq S] (items : List α) (options : PageOptions S) (scope : S)
    (position : α → String) (follows : String → String → Except Failure Bool) : Except Failure (Page α S) := do
  let size ← options.size
  let after ← options.after scope
  let rest ← remaining items position follows after
  .ok (cutPage rest size scope position)

variable {items : List α} {options : PageOptions S} {scope : S} {position : α → String} {item : α}
  {failure : Failure}

theorem mem_of_page [DecidableEq S] {follows : String → String → Except Failure Bool} {shown : Page α S}
    (h : page items options scope position follows = .ok shown) (hitem : item ∈ shown.items) : item ∈ items := by
  simp only [page, bind_eq_ok, Except.ok.injEq] at h
  obtain ⟨size, -, after, -, rest, hrest, rfl⟩ := h
  have hkept : item ∈ rest := mem_of_mem_take hitem
  cases after with
  | none =>
    cases hrest
    exact hkept
  | some => exact mem_of_filterChecked hrest hkept

def textFollows (position after : String) : Except Failure Bool := .ok (textLt after position)

def textAfter (items : List α) (position : α → String) : Option String → List α
  | none => items
  | some after => items.filter fun item => textLt after (position item)

theorem remaining_text (items : List α) (position : α → String) (after : Option String) :
    remaining items position textFollows after = .ok (textAfter items position after) := by
  cases after with
  | none => rfl
  | some => exact filterChecked_ok _ items

theorem page_text [DecidableEq S] (items : List α) (options : PageOptions S) (scope : S)
    (position : α → String) : page items options scope position textFollows = (do
      let size ← options.size let after ← options.after scope
      .ok (cutPage (textAfter items position after) size scope position)) := by
  unfold page
  simp only [remaining_text]
  rfl

theorem PageOptions.size_error (h : options.size = .error failure) : failure.code = .invalidRequest := by
  unfold PageOptions.size at h
  dsimp only at h
  split_ifs at h
  cases h
  rfl

variable {size : Nat}

theorem PageOptions.size_pos (h : options.size = .ok size) : 0 < size := by
  unfold PageOptions.size at h
  dsimp only at h
  split_ifs at h with hrange
  cases h
  simp only [Bool.or_eq_true, decide_eq_true_eq, not_or] at hrange
  omega

theorem PageOptions.after_error [DecidableEq S] (h : options.after scope = .error failure) :
    failure.code = .invalidRequest := by
  unfold PageOptions.after at h
  split at h
  · cases h
  · cases h
    rfl
  · cases h
    rfl
  · split_ifs at h
    cases h
    rfl

theorem page_text_error [DecidableEq S] (h : page items options scope position textFollows = .error failure) :
    failure.code = .invalidRequest := by
  rw [page_text] at h
  cases hsize : options.size with
  | error =>
    rw [hsize] at h
    cases h
    exact PageOptions.size_error hsize
  | ok =>
    cases haft : options.after scope with
    | error =>
      rw [hsize, haft] at h
      cases h
      exact PageOptions.after_error haft
    | ok =>
      rw [hsize, haft] at h
      cases h

/-! ## The next position -/

theorem lt_append_zero (xs : List Nat) : xs < xs ++ [0] := by
  induction xs with
  | nil => exact nil_lt_cons 0 []
  | cons x rest ih =>
    rw [cons_append, cons_lt_cons_iff]
    exact .inr ⟨rfl, ih⟩

theorem append_zero_le {xs ys : List Nat} (h : xs < ys) : xs ++ [0] ≤ ys := by
  rw [← not_lt]
  intro hbtw
  induction xs generalizing ys with
  | nil =>
    cases ys with
    | nil => exact lt_irrefl _ h
    | cons y rest =>
      rw [nil_append, cons_lt_cons_iff] at hbtw
      rcases hbtw with hlt | ⟨-, hlt⟩
      · exact Nat.not_lt_zero y hlt
      · exact not_lt_nil rest hlt
  | cons x rest ih =>
    cases ys with
    | nil => exact not_lt_nil _ h
    | cons y rest' =>
      rw [cons_append, cons_lt_cons_iff] at hbtw
      rw [cons_lt_cons_iff] at h
      rcases h with hlt | ⟨rfl, hrest⟩
      · rcases hbtw with hgt | ⟨heq, -⟩ <;> omega
      · rcases hbtw with hgt | ⟨-, hrest'⟩
        · exact lt_irrefl _ hgt
        · exact ih hrest hrest'

def nextText : Option String → String
  | none => ""
  | some after => after.push (Char.ofNat 0)

theorem textUnits_push (text : String) : textUnits (text.push (Char.ofNat 0)) = textUnits text ++ [0] := by
  unfold textUnits
  rw [String.toList_push, flatMap_append]
  rfl

theorem textAfter_sortedBy_cons (position : α → String) (after : Option String)
    (hitem : position item = nextText after) (items : List α) :
    textAfter (sortedBy position (item :: items)) position after =
      item :: textAfter (sortedBy position items) position after := by
  unfold sortedBy
  rw [insertionSort_cons]
  generalize items.insertionSort (fun a b => textUnits (position a) ≤ textUnits (position b)) = sorted
  cases after with
  | none =>
    cases sorted with
    | nil => rfl
    | cons first =>
      have hle : textUnits (position item) ≤ textUnits (position first) := by
        rw [hitem]
        exact not_lt.mp (not_lt_nil _)
      rw [orderedInsert_cons, if_pos hle]
      rfl
  | some after =>
    have hunits : textUnits (position item) = textUnits after ++ [0] := by
      rw [hitem]
      exact textUnits_push after
    have haft : textLt after (position item) = true := by
      unfold textLt
      rw [hunits, decide_eq_true_eq]
      exact lt_append_zero _
    dsimp only [textAfter]
    induction sorted with
    | nil => simp [haft]
    | cons first rest ih =>
      rw [orderedInsert_cons]
      split_ifs with hle
      · rw [filter_cons_of_pos (by simpa using haft)]
      · -- What comes before the item is not after the position.
        have hbef : textLt after (position first) = false := by
          unfold textLt
          rw [decide_eq_false_iff_not]
          intro hlt
          rw [hunits] at hle
          exact hle (append_zero_le hlt)
        rw [filter_cons_of_neg (by simp [hbef]), ih, filter_cons_of_neg (by simp [hbef])]

/-! ## All pages -/

/-- The items of all pages, one after the other; `giveUp` when they do not end. -/
def allPages {ε : Type} (load : Option (Cursor S) → Except ε (Page α S)) (giveUp : ε) :
    Nat → Option (Cursor S) → Except ε (List α)
  | 0, _ => .error giveUp
  | fuel + 1, cursor => do
    let shown ← load cursor
    match shown.nextCursor with
    | none => .ok shown.items
    | some next => do
      let others ← allPages load giveUp fuel (some next)
      .ok (shown.items ++ others)

theorem mem_of_allPages {ε : Type} {load : Option (Cursor S) → Except ε (Page α S)} {giveUp : ε}
    (hload : ∀ cursor shown, load cursor = .ok shown → ∀ item ∈ shown.items, item ∈ items) {fuel : Nat}
    {cursor : Option (Cursor S)} {all : List α} (h : allPages load giveUp fuel cursor = .ok all)
    (hitem : item ∈ all) : item ∈ items := by
  induction fuel generalizing cursor all with
  | zero => cases h
  | succ fuel ih =>
    simp only [allPages, bind_eq_ok] at h
    obtain ⟨shown, hsh, h⟩ := h
    split at h
    · cases h
      exact hload _ _ hsh item hitem
    · simp only [bind_eq_ok, Except.ok.injEq] at h
      obtain ⟨others, hoth, rfl⟩ := h
      rcases mem_append.mp hitem with hhere | hlater
      · exact hload _ _ hsh item hhere
      · exact ih hoth hlater

def cursorAfter (scope : S) (after : Option String) : Option (Cursor S) := after.map (.decoded scope)

theorem PageOptions.after_cursorAfter [DecidableEq S] (scope : S) (after : Option String) (size : Option Int) :
    PageOptions.after { cursor := cursorAfter scope after, pageSize := size } scope = .ok after := by
  cases after with
  | none => rfl
  | some => simp [PageOptions.after, cursorAfter]

theorem textAfter_eq (items : List α) (position : α → String) (after : Option String) :
    textAfter items position after =
      itemsAfter (fun item => textUnits (position item)) items (after.map textUnits) := by
  cases after with
  | none => exact (itemsAfter_eq_self (by simp)).symm
  | some => exact filter_congr fun _ _ => decide_eq_decide.mpr Iff.rfl

/-- A page ends the listing, or it shows its size of items and goes on after the last of them. -/
theorem cutPage_cases (rest : List α) (hsize : 0 < size) (scope : S) (position : α → String) :
    (cutPage rest size scope position).items = rest ∧ (cutPage rest size scope position).nextCursor = none ∨
      ∃ last, (cutPage rest size scope position).items.getLast? = some last ∧
        (cutPage rest size scope position).nextCursor = some (.decoded scope (position last)) := by
  unfold cutPage
  split_ifs with hlong
  · right
    have hne : rest.take size ≠ [] := by
      rw [← length_pos_iff, length_take]
      omega
    obtain ⟨last, hlast⟩ := Option.ne_none_iff_exists'.mp (getLast?_eq_none_iff.not.mpr hne)
    exact ⟨last, hlast, by rw [hlast]; rfl⟩
  · exact .inl ⟨take_of_length_le (by omega), rfl⟩

/-- The pages of a rising listing show all of it, and it takes no more of them than the items fill. -/
theorem allPages_text [DecidableEq S] {ε : Type} (scope : S)
    (hitems : Rising (fun item => textUnits (position item)) items) (number : Int)
    (hsize : ∀ cursor, PageOptions.size (S := S) { cursor := cursor, pageSize := some number } = .ok size)
    {load : Option (Cursor S) → Except ε (Page α S)}
    (hload : ∀ cursor shown, page items { cursor := cursor, pageSize := some number } scope position
      textFollows = .ok shown → load cursor = .ok shown) (giveUp : ε) (fuel : Nat)
    (after : Option String) (hfuel : (textAfter items position after).length ≤ (fuel + 1) * size) :
    allPages load giveUp (fuel + 1) (cursorAfter scope after) = .ok (textAfter items position after) := by
  have hpos : 0 < size := PageOptions.size_pos (hsize none)
  have hshown (after : Option String) : load (cursorAfter scope after) =
      .ok (cutPage (textAfter items position after) size scope position) := by
    apply hload
    rw [page_text, hsize, PageOptions.after_cursorAfter]
    rfl
  induction fuel generalizing after with
  | zero =>
    rw [Nat.zero_add, Nat.one_mul] at hfuel
    simp [allPages, hshown, cutPage, take_of_length_le hfuel, Nat.not_lt.mpr hfuel, bind, Except.bind]
  | succ fuel ih =>
    rw [allPages, hshown]
    rcases cutPage_cases (textAfter items position after) hpos scope position with ⟨hall, hnext⟩ | ⟨last, hlast, hnext⟩
    · simp [hall, hnext, bind, Except.bind]
    · -- What is left after the page is what comes after its last item.
      have hpage : textAfter items position after = (cutPage (textAfter items position after) size scope position).items ++
          (textAfter items position after).drop size := (take_append_drop size _).symm
      have hfollows := hpage
      rw [textAfter_eq] at hfollows
      have hdrop := Follows.of_append hitems hfollows
      unfold Follows at hdrop
      rw [← textAfter_eq, reached_of_last hlast] at hdrop
      have hrest : textAfter items position (some (position last)) = (textAfter items position after).drop size :=
        (textAfter_eq ..).trans (append_cancel_left (hdrop.symm.trans hpage))
      have hothers := ih (some (position last)) (by rw [hrest, length_drop]; rw [Nat.succ_mul] at hfuel; omega)
      simp only [cursorAfter, Option.map_some] at hothers
      simp only [hnext, bind, Except.bind, hothers]
      rw [hrest, ← hpage]

def ordinalFollows (position after : String) : Except Failure Bool := do
  let here ← decimal position
  let there ← decimal after
  .ok (there < here)

/-! ## Pages in the order of numbers -/

theorem mem_sortedByNumber : item ∈ sortedByNumber number items ↔ item ∈ items :=
  mem_insertionSort _

/-- A page of a listing in the order of its numbers is cut from the items after the number of the
cursor. -/
theorem page_ordinal [DecidableEq S] (items : List α) (scope : S) (number : α → Nat)
    {after : Option String} {start : Option Nat} (hsize : options.size = .ok size)
    (haft : options.after scope = .ok after) (hstart : after.map decimal = start.map .ok) :
    page items options scope (fun item => toString (number item)) ordinalFollows =
      .ok (cutPage (itemsAfter number items start) size scope fun item => toString (number item)) := by
  have hrest : remaining items (fun item => toString (number item)) ordinalFollows after =
      .ok (itemsAfter number items start) := by
    cases after with
    | none =>
      cases start with
      | none => simp [remaining, itemsAfter]
      | some => cases hstart
    | some text =>
      cases start with
      | none => cases hstart
      | some n =>
        have htext : decimal text = .ok n := Option.some.inj hstart
        have hfol : (fun item => ordinalFollows (toString (number item)) text) =
            fun item => .ok (decide (n < number item)) := by
          funext item
          simp only [ordinalFollows, decimal_toString, htext]
          rfl
        simp only [remaining, hfol, filterChecked_ok]
        rfl
  unfold page
  rw [hsize, haft]
  change (remaining items (fun item => toString (number item)) ordinalFollows after >>= _) = _
  rw [hrest]
  rfl

end Page

end Onlyne
