import Onlyne.Core.Page
import Onlyne.Foundation.Run
import Onlyne.Messages.Types

/-!
# Messages: pages of the local inbox

`inbox` of `messages.ts` sorts the rows with `localeCompare` and takes the rank of a row for its position.  A row that
is added before the rows a reader has seen moves their ranks.
-/

namespace Onlyne.Messages

open Foundation Table List Option

def LocalAttention.id (row : LocalAttention) : String := row.attention.obligationId

-- `le a b` when `localeCompare` does not put `b` before `a`.
variable (le : String → String → Bool) (node : NodeId)

def inboxRows (inbox : Table String LocalAttention) : List LocalAttention :=
  (inbox.rows.map Prod.snd).insertionSort fun a b => le a.id b.id

def inbox (rows : Table String LocalAttention) (auth : Auth) (options : PageOptions NodeId) :
    Except Failure (Page LocalAttention NodeId) :=
  if auth.actor ≠ node then .error (onlyneError .forbidden "The local inbox belongs to this node.")
  else do
    let result ← page ((inboxRows le rows).zipIdx 1) options auth.actor (fun row => toString row.2) ordinalFollows
    .ok ⟨result.items.map Prod.fst, result.nextCursor⟩

/-- A caller that follows the cursors, and the rows it was shown. -/
structure Paging where
  rows : Table String LocalAttention
  cursor : Option (Cursor NodeId) := none
  shown : List LocalAttention := []
  ended : Bool := false

inductive PagingAct where
  | add (row : LocalAttention)
  | read (pageSize : Option Int)

def pagingStep (auth : Auth) (s : Paging) : PagingAct → Option Paging
  | .add row => if s.rows.get row.id = none then some { s with rows := s.rows.put row.id row } else none
  | .read pageSize =>
    if s.ended then none
    else match inbox le node s.rows auth { cursor := s.cursor, pageSize } with
      | .error _ => none
      | .ok page => some { s with
          cursor := page.nextCursor
          shown := s.shown ++ page.items
          ended := page.nextCursor.isNone }

def behind (t : Transition Paging PagingAct) : Bool :=
  match t.act with
  | .add row => t.before.ended || t.before.shown.all fun shown => !le row.id shown.id
  | .read _ => true

def place (shown : List LocalAttention) : Option Nat := if shown = [] then none else some shown.length

/-- The reader was shown the first rows, and its cursor stands after them.  At the end it was shown the rows that were
there when it began. -/
structure Paged (auth : Auth) (rows : Table String LocalAttention) (s : Paging) : Prop where
  keyed : ∀ id row, s.rows.get id = some row → row.id = id
  kept : ∀ id row, rows.get id = some row → s.rows.get id = some row
  nodup : s.shown.Nodup
  all : s.ended = true → ∀ id row, rows.get id = some row → row ∈ s.shown
  shown : s.ended = false → s.shown <+: inboxRows le s.rows
  cursor : s.ended = false → s.cursor = cursorAfter auth.actor ((place s.shown).map toString)

variable {le node} {auth : Auth} {rows : Table String LocalAttention} {row : LocalAttention}

theorem mem_inboxRows {inbox : Table String LocalAttention} :
    row ∈ inboxRows le inbox ↔ ∃ id, inbox.get id = some row := by
  simp [inboxRows, mem_rows]

theorem itemsAfter_place (shown rest : List LocalAttention) :
    itemsAfter Prod.snd ((shown ++ rest).zipIdx 1) (place shown) = rest.zipIdx (shown.length + 1) := by
  unfold place
  split_ifs with hnil
  · simp [hnil, itemsAfter]
  · have hseen : itemsAfter Prod.snd (shown.zipIdx 1) (some shown.length) = [] := by
      refine filter_eq_nil_iff.mpr fun row hrow => ?_
      have hlt := snd_lt_add_of_mem_zipIdx hrow
      simp
      omega
    rw [zipIdx_append, itemsAfter_append, hseen, nil_append, Nat.add_comm, itemsAfter_eq_self]
    rintro row hrow n ⟨rfl⟩
    exact le_snd_of_mem_zipIdx hrow

theorem read_page {s : Paging} (hpaged : Paged le auth rows s) (hopen : s.ended = false) {pageSize : Option Int}
    {shown : Page LocalAttention NodeId} (h : inbox le node s.rows auth { cursor := s.cursor, pageSize } = .ok shown) :
    ∃ rest, inboxRows le s.rows = s.shown ++ shown.items ++ rest ∧ (rest = [] ∧ shown.nextCursor = none ∨
      shown.nextCursor = cursorAfter auth.actor ((place (s.shown ++ shown.items)).map toString) ∧
        shown.nextCursor ≠ none) := by
  unfold inbox at h
  split_ifs at h
  obtain ⟨result, hres, ⟨⟩⟩ := bind_eq_ok.mp h
  obtain ⟨size, hsize, -⟩ := bind_eq_ok.mp hres
  obtain ⟨behind, hrows⟩ := hpaged.shown hopen
  rw [hpaged.cursor hopen] at hsize hres
  have hstart : ((place s.shown).map toString).map decimal = (place s.shown).map .ok := by
    cases place s.shown with
    | none => rfl
    | some n => exact congrArg some (decimal_toString n)
  rw [page_ordinal _ _ Prod.snd hsize (PageOptions.after_cursorAfter ..) hstart, ← hrows, itemsAfter_place] at hres
  cases hres
  rw [← hrows]
  by_cases hmore : behind.length ≤ size
  · refine ⟨[], ?_, .inl ⟨rfl, ?_⟩⟩
    · simp [cutPage, take_of_length_le hmore]
    · simp [cutPage, hmore]
  · obtain ⟨front, rest, rfl, rfl⟩ : ∃ front rest, behind = front ++ rest ∧ front.length = size :=
      ⟨behind.take size, behind.drop size, by simp, by simp; omega⟩
    have hpos : front ≠ [] := length_pos_iff.mp (PageOptions.size_pos hsize)
    have hmore' : rest ≠ [] := by rintro rfl; simp at hmore
    refine ⟨rest, ?_, .inr ⟨?_, ?_⟩⟩
    · simp [cutPage, zipIdx_append]
    · obtain ⟨last, hlast⟩ := ne_none_iff_exists'.mp (mt getLast?_eq_none_iff.mp hpos)
      simp [cutPage, zipIdx_append, hmore', place, hpos, cursorAfter, getLast?_zipIdx, hlast]
    · simp [cutPage, zipIdx_append, hmore', hpos]

theorem shown_add {shown : List LocalAttention} (hnew : rows.get row.id = none)
    (hbehind : ∀ other ∈ shown, le row.id other.id ≠ true) (hsh : shown <+: inboxRows le rows) :
    shown <+: inboxRows le (rows.put row.id row) := by
  obtain ⟨rest, hrest⟩ := hsh
  rw [inboxRows, rows_put_of_get_none hnew, map_cons, insertionSort_cons_eq_take_drop]
  rw [← inboxRows, ← hrest, takeWhile_append_of_pos (by simpa using hbehind), append_assoc]
  exact prefix_append ..

theorem inboxRows_nodup (hkey : ∀ id row, rows.get id = some row → row.id = id) : (inboxRows le rows).Nodup := by
  refine (perm_insertionSort ..).nodup_iff.mpr ((rows.rows_pairwise.imp_of_mem ?_).map _ fun _ _ h => h)
  rintro ⟨id, row⟩ ⟨id', row'⟩ hrow hrow' hne rfl
  exact hne ((hkey id row (mem_rows.mp hrow)).symm.trans (hkey id' row (mem_rows.mp hrow')))

theorem Paged.step {s s' : Paging} {act : PagingAct} (hpaged : Paged le auth rows s)
    (hstep : pagingStep le node auth s act = some s') (hbehind : behind le ⟨s, act, s'⟩ = true) :
    Paged le auth rows s' := by
  cases act with
  | add row =>
    obtain ⟨hnew, ⟨⟩⟩ := ite_none_right_eq_some.mp hstep
    refine { hpaged with keyed := ?_, kept := ?_, shown := fun hopen => shown_add hnew ?_ (hpaged.shown hopen) }
    · exact fun id other hoth => of_put hpaged.keyed hoth rfl
    · intro id other hoth
      have hold := hpaged.kept id other hoth
      rwa [get_put_ne _ _ (by rintro rfl; simp [hnew] at hold)]
    · simpa [behind, show s.ended = false from hopen] using hbehind
  | read pageSize =>
    obtain ⟨hopen, hread⟩ := ite_none_left_eq_some.mp hstep
    split at hread
    · cases hread
    · next shown hsh =>
      cases hread
      obtain ⟨rest, hrows, hcurs⟩ := read_page hpaged (by simpa using hopen) hsh
      have hprefix : s.shown ++ shown.items <+: inboxRows le s.rows := ⟨rest, hrows.symm⟩
      refine { hpaged with
        nodup := (inboxRows_nodup hpaged.keyed).sublist hprefix.sublist
        shown := fun _ => hprefix, cursor := ?_, all := ?_ }
      · rcases hcurs with ⟨rfl, -⟩ | ⟨-, hmore⟩
        · intro _ id row hrow
          rw [← append_nil (_ ++ _), ← hrows]
          exact mem_inboxRows.mpr ⟨id, hpaged.kept id row hrow⟩
        · exact fun hend => absurd (isNone_iff_eq_none.mp hend) hmore
      · rcases hcurs with ⟨-, hend⟩ | ⟨hcurs, -⟩
        · simp [hend]
        · exact fun _ => hcurs

/-- The rows that are there when a caller starts reading are shown once each, in whichever pages, when every row
added on the way sorts behind the rows already shown. -/
theorem inbox_pages_once (hkeyed : ∀ id row, rows.get id = some row → row.id = id)
    {h : List (Transition Paging PagingAct)} {s : Paging} (hrun : Run (pagingStep le node auth) { rows } h s)
    (hbehind : ∀ t ∈ h, behind le t = true) (hended : s.ended = true) (id : String) (row : LocalAttention)
    (hrow : rows.get id = some row) : s.shown.count row = 1 := by
  have hpaged : Paged le auth rows s := hrun.invariant_of hbehind
    { keyed := hkeyed, kept := fun _ _ h => h, nodup := .nil, all := nofun, shown := fun _ => nil_prefix
      cursor := fun _ => rfl }
    fun _ _ _ hpaged hstep hbehind => hpaged.step hstep hbehind
  exact count_eq_one_of_mem hpaged.nodup (hpaged.all hended id row hrow)

private def textOrder (a b : String) : Bool := a ≤ b

private def waiting (id : String) : LocalAttention where
  attention := ⟨id, "a", ⟨"a", "t"⟩, 1, ⟨"b", "m"⟩, "b", false, false, none, none⟩
  context := none
  injected := true

private def twoRows : Table String LocalAttention := (∅ : Table ..).put "b" (waiting "b") |>.put "c" (waiting "c")

/-- A third row comes behind the page shown. -/
theorem inbox_pages_once_three : ∃ s : Paging, twoRows.get "c" = some (waiting "c") ∧
    s.shown.count (waiting "c") = 1 := by
  have hkey (id : String) (row : LocalAttention) : twoRows.get id = some row → row.id = id := by
    simp only [twoRows, get_put, get_empty]
    grind [waiting, LocalAttention.id]
  obtain ⟨h, s, hrun, hbehind, hend⟩ := exists_run (pagingStep textOrder "a" ⟨"a", none, none⟩) { rows := twoRows }
    [.read (some 1), .add (waiting "d"), .read (some 1), .read none]
    (fun h s => (∀ t ∈ h, behind textOrder t = true) ∧ s.ended = true) (by decide +kernel)
  exact ⟨s, rfl, inbox_pages_once hkey hrun hbehind hend "c" _ rfl⟩

/-- A row that sorts before the row shown makes the next page show that row again. -/
theorem inbox_row_twice : ∃ h s, Run (pagingStep textOrder "a" ⟨"a", none, none⟩) { rows := twoRows } h s ∧
    twoRows.get "b" = some (waiting "b") ∧ s.ended = true ∧ s.shown.count (waiting "b") = 2 :=
  exists_run _ _ [.read (some 1), .add (waiting "a"), .read none] _ (by decide +kernel)

end Onlyne.Messages
