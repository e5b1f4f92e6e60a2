import Onlyne.Core.Values

/-!
# Following the cursors of a listing

The texts of the cursors that `page` of `core.ts` hands out, and what a caller is shown who follows them while the
listing changes.
-/

namespace Onlyne

open Foundation List

/-! ## The text of a cursor -/

def cursorText (scope : Value) (after : String) : String :=
  encodeURIComponent (canonicalValue (.object [("scope", scope), ("after", .string after)]))

/-- What a page makes of a text that was handed out; of the scope it compares the canonical text. -/
def readCursor (text : String) : Cursor String :=
  match (decodeURIComponent text).bind parse with
  | none => .malformed
  | some (.object fields) =>
    match fields.lookup "after" with
    | some (.string after) => .decoded (canonical ((fields.lookup "scope").getD .null)) after
    | _ => .foreign
  | some _ => .foreign

theorem parse_canonicalValue (value : Value) : parse (canonicalValue value) = some value.json.normal := by
  rw [canonicalValue_eq, canonical, canonicalText_eq]
  exact parse_stringify (by rw [plain_normal, plain_json])

theorem canonical_normal (value : Json) : canonical value.normal = canonical value := by
  rw [canonical, canonical, canonicalText_eq, canonicalText_eq, normal_normal]

theorem readCursor_cursorText (scope : Value) (after : String) :
    readCursor (cursorText scope after) = .decoded (canonicalValue scope) after := by
  have hsorted (json : Json) : sortedBy Prod.fst [("scope", json), ("after", .string after)] =
      [("after", .string after), ("scope", json)] := by
    have hle : ¬ textUnits "scope" ≤ textUnits "after" := by decide
    simp [sortedBy, hle]
  unfold readCursor cursorText
  rw [decode_encode, Option.bind_some, parse_canonicalValue, canonicalValue_eq, ← canonical_normal scope.json]
  cases scope with
  | undefined => rfl
  | _ =>
    simp only [Value.json, membersJson, Json.normal, normalFields_eq, map_cons, map_nil, hsorted]
    rfl

theorem cursorText_ne_empty (scope : Value) (after : String) : cursorText scope after ≠ "" := by
  intro h
  have hread := readCursor_cursorText scope after
  rw [h] at hread
  cases hread

/-! ## A page by the texts of its cursors -/

section

variable {α P : Type} [LinearOrder P]

def pageText (items : List α) (cursor : Option String) (pageSize : Option Int) (scope : Value) (position : α → String)
    (follows : String → String → Except Failure Bool) : Except Failure (List α × Option String) := do
  let shown ← page items ⟨(cursor.filter (· ≠ "")).map readCursor, pageSize⟩ (canonicalValue scope) position follows
  .ok (shown.items, shown.nextCursor.bind fun
    | .decoded _ after => some (cursorText scope after)
    | _ => none)

variable (rank : String → P) (position : α → String)

/-- A comparison of positions, by the places of an order they have. -/
def rankFollows (position after : String) : Except Failure Bool := .ok (decide (rank after < rank position))

/-- One request of a caller, with the listing as it is then. -/
structure Fetch where
  items : List α
  size : Nat
  ascending : Rising (fun item => rank (position item)) items
  sized : 1 ≤ size ∧ size ≤ 100

/-- What a caller is shown who follows the cursors, and whether the listing came to its end. -/
def follow (scope : Value) : Option String → List (Fetch rank position) → Except Failure (List α × Bool)
  | _, [] => .ok ([], false)
  | cursor, fetch :: rest => do
    let (shown, next) ← pageText fetch.items cursor (some fetch.size) scope position (rankFollows rank)
    match next with
    | none => .ok (shown, true)
    | some next => do
      let (others, ended) ← follow scope (some next) rest
      .ok (shown ++ others, ended)

variable {rank position}

abbrev Fetch.left (fetch : Fetch rank position) (after : Option String) : List α :=
  itemsAfter (fun item => rank (position item)) fetch.items (after.map rank)

theorem remaining_rank (items : List α) (after : Option String) : remaining items position (rankFollows rank) after =
    .ok (itemsAfter (fun item => rank (position item)) items (after.map rank)) := by
  cases after with
  | none => exact congrArg Except.ok (itemsAfter_eq_self (by simp)).symm
  | some => exact filterChecked_ok _ items

theorem Fetch.pageSize_eq (fetch : Fetch rank position) (cursor : Option (Cursor String)) :
    PageOptions.size ⟨cursor, some (fetch.size : Int)⟩ = .ok fetch.size := by
  obtain ⟨hone, hmany⟩ := fetch.sized
  have hlow : ¬ (fetch.size : Int) < 1 := by omega
  have hhigh : ¬ 100 < (fetch.size : Int) := by omega
  simp only [PageOptions.size, Option.getD_some, hlow, hhigh, decide_false, Bool.or_self, Bool.false_eq_true, if_false,
    Int.toNat_natCast]

theorem Fetch.page_cases (fetch : Fetch rank position) (scope : Value) (after : Option String) :
    pageText fetch.items (after.map (cursorText scope)) (some fetch.size) scope position (rankFollows rank) =
        .ok (fetch.left after, none) ∨
      ∃ last, ((fetch.left after).take fetch.size).getLast? = some last ∧
        pageText fetch.items (after.map (cursorText scope)) (some fetch.size) scope position (rankFollows rank) =
          .ok ((fetch.left after).take fetch.size, some (cursorText scope (position last))) := by
  have hafter : ((after.map (cursorText scope)).filter (· ≠ "")).map readCursor =
      cursorAfter (canonicalValue scope) after := by
    cases after with
    | none => rfl
    | some after => simp [cursorAfter, cursorText_ne_empty, readCursor_cursorText]
  have hpage : page fetch.items ⟨cursorAfter (canonicalValue scope) after, some (fetch.size : Int)⟩
      (canonicalValue scope) position (rankFollows rank) =
      .ok (cutPage (fetch.left after) fetch.size (canonicalValue scope) position) := by
    rw [page, fetch.pageSize_eq, PageOptions.after_cursorAfter]
    change (remaining fetch.items position (rankFollows rank) after >>= _) = _
    rw [remaining_rank]
    rfl
  rw [pageText, hafter, hpage]
  rcases cutPage_cases (fetch.left after) fetch.sized.1 (canonicalValue scope) position with
    ⟨hitems, hnext⟩ | ⟨last, hlast, hnext⟩
  · refine .inl ?_
    change Except.ok _ = _
    rw [hitems, hnext]
    rfl
  · refine .inr ⟨last, hlast, ?_⟩
    change Except.ok _ = _
    rw [hnext]
    rfl

structure Paged (after : Option String) (fetches : List (Fetch rank position)) (shown : List α) (ended : Bool) :
    Prop where
  rising : Rising (fun item => rank (position item)) shown
  listed : ∀ item ∈ shown, (∃ fetch ∈ fetches, item ∈ fetch.items) ∧ ∀ p ∈ after.map rank, p < rank (position item)
  complete : ended = true → ∀ item, (∀ fetch ∈ fetches, item ∈ fetch.items) →
    (∀ p ∈ after.map rank, p < rank (position item)) → item ∈ shown
  -- Until the end, every page has at least one item.
  counted : ended = false → ∀ early late, fetches = early ++ late →
    ∃ last, last <:+ shown ∧ late.length ≤ last.length ∧ ∀ item ∈ last, ∃ fetch ∈ late, item ∈ fetch.items

theorem follow_paged (scope : Value) (fetches : List (Fetch rank position)) (after : Option String) :
    ∃ shown ended, follow rank position scope (after.map (cursorText scope)) fetches = .ok (shown, ended) ∧
      Paged after fetches shown ended := by
  induction fetches generalizing after with
  | nil =>
    refine ⟨[], false, rfl, .nil, by simp, by simp, fun _ early late hsplit => ⟨[], suffix_rfl, ?_, by simp⟩⟩
    simp [(append_eq_nil_iff.mp hsplit.symm).2]
  | cons fetch rest ih =>
    have hrising : Rising (fun item => rank (position item)) (fetch.left after) := fetch.ascending.after _
    rcases fetch.page_cases scope after with hpage | ⟨last, hlast, hpage⟩
    · refine ⟨fetch.left after, true, ?_, hrising, ?_, ?_, by simp⟩
      · rw [follow, hpage]
        rfl
      · intro item hitem
        obtain ⟨hmem, hbeyond⟩ := mem_itemsAfter.mp hitem
        exact ⟨⟨fetch, mem_cons_self, hmem⟩, hbeyond⟩
      · exact fun _ item hitem hbeyond => mem_itemsAfter.mpr ⟨hitem fetch mem_cons_self, hbeyond⟩
    · obtain ⟨others, ended, hrest, hpaged⟩ := ih (some (position last))
      have hsplit := take_append_drop fetch.size (fetch.left after)
      have hleft {item : α} : item ∈ fetch.left after ↔
          item ∈ fetch.items ∧ ∀ p ∈ after.map rank, p < rank (position item) := mem_itemsAfter
      generalize (fetch.left after).take fetch.size = shown, (fetch.left after).drop fetch.size = later at *
      rw [← hsplit] at hrising hleft
      obtain ⟨hshown, -, hlater⟩ := pairwise_append.mp hrising
      have hmem : last ∈ shown := mem_of_getLast? hlast
      have hbehind : ∀ item ∈ others, rank (position last) < rank (position item) :=
        fun item hitem => (hpaged.listed item hitem).2 _ rfl
      have hlisted : ∀ item ∈ shown ++ others, (∃ other ∈ fetch :: rest, item ∈ other.items) ∧
          ∀ p ∈ after.map rank, p < rank (position item) := by
        intro item hitem
        rcases mem_append.mp hitem with hhere | hthere
        · obtain ⟨hitems, hbeyond⟩ := hleft.mp (mem_append_left later hhere)
          exact ⟨⟨fetch, mem_cons_self, hitems⟩, hbeyond⟩
        · obtain ⟨⟨other, hother, hitems⟩, -⟩ := hpaged.listed item hthere
          refine ⟨⟨other, mem_cons_of_mem fetch hother, hitems⟩, fun p hp => ?_⟩
          exact ((hleft.mp (mem_append_left later hmem)).2 p hp).trans (hbehind item hthere)
      refine ⟨shown ++ others, ended, ?_, ?_, hlisted, ?_, ?_⟩
      · rw [follow, hpage]
        change (follow rank position scope ((some (position last)).map (cursorText scope)) rest >>= _) = _
        rw [hrest]
        rfl
      · refine pairwise_append.mpr ⟨hshown, hpaged.rising, fun item hitem other hother => ?_⟩
        obtain ⟨front, rfl⟩ := getLast?_eq_some_iff.mp hlast
        rcases mem_append.mp hitem with hfront | hself
        · exact ((pairwise_append.mp hshown).2.2 item hfront last (mem_singleton_self _)).trans (hbehind other hother)
        · rw [mem_singleton.mp hself]
          exact hbehind other hother
      · intro hended item hall hbeyond
        rcases mem_append.mp (hleft.mpr ⟨hall fetch mem_cons_self, hbeyond⟩) with hhere | hthere
        · exact mem_append_left others hhere
        · refine mem_append_right shown (hpaged.complete hended item (fun other hother => ?_) ?_)
          · exact hall other (mem_cons_of_mem fetch hother)
          · rintro p ⟨⟩
            exact hlater last hmem item hthere
      · intro hended early late hsplit
        cases early with
        | nil =>
          rw [nil_append] at hsplit
          subst hsplit
          obtain ⟨last, hlast, hlength, -⟩ := hpaged.counted hended [] rest rfl
          refine ⟨shown ++ others, suffix_rfl, ?_, fun item hitem => (hlisted item hitem).1⟩
          have hpos := length_pos_of_mem hmem
          have hle := hlast.length_le
          rw [length_append, length_cons]
          omega
        | cons first early =>
          obtain ⟨last, hlast, hrest⟩ := hpaged.counted hended early late (cons.inj hsplit).2
          exact ⟨last, hlast.trans (suffix_append shown others), hrest⟩

/-- Following the cursors from the beginning, a caller is shown items in ascending order, none of them twice, and at the
end every item that was there all the time.  The end comes when no new items do.  A query of another scope refuses the
cursors. -/
theorem cursors_followed (scope : Value) (fetches : List (Fetch rank position)) :
    ∃ shown ended, follow rank position scope none fetches = .ok (shown, ended) ∧
      Rising (fun item => rank (position item)) shown ∧
      (∀ item ∈ shown, ∃ fetch ∈ fetches, item ∈ fetch.items) ∧
      (ended = true → ∀ item, (∀ fetch ∈ fetches, item ∈ fetch.items) → item ∈ shown) ∧
      (∀ early late, ∀ settled : List α, fetches = early ++ late →
        (∀ fetch ∈ late, ∀ item ∈ fetch.items, item ∈ settled) → settled.length < late.length → ended = true) ∧
      ∀ (other : Value) (after : String) (fetch : Fetch rank position), scope.json.normal ≠ other.json.normal →
        pageText fetch.items (some (cursorText scope after)) (some fetch.size) other position (rankFollows rank) =
          .error (onlyneError .invalidRequest "Cursor belongs to another query.") := by
  obtain ⟨shown, ended, hfollow, hpaged⟩ := follow_paged scope fetches none
  refine ⟨shown, ended, hfollow, hpaged.rising, fun item hitem => (hpaged.listed item hitem).1, ?_, ?_, ?_⟩
  · exact fun hended item hall => hpaged.complete hended item hall (by simp)
  · intro early late settled hsplit hsettled hlength
    by_contra hended
    obtain ⟨last, hlast, hcount, hitems⟩ := hpaged.counted (Bool.eq_false_iff.mpr hended) early late hsplit
    have hnodup : last.Nodup := (hpaged.rising.imp fun hlt heq => (heq ▸ hlt).false).sublist hlast.sublist
    have hsubset : last ⊆ settled := fun item hitem =>
      have ⟨fetch, hfetch, hmem⟩ := hitems item hitem
      hsettled fetch hfetch item hmem
    have hle := (subperm_of_subset hnodup hsubset).length_le
    omega
  · intro other after fetch hne
    have hscope : canonicalValue scope ≠ canonicalValue other := by
      rw [canonicalValue_eq, canonicalValue_eq, Ne, canonical_eq_iff (plain_json scope) (plain_json other)]
      exact hne
    have hcursor : ((some (cursorText scope after)).filter (· ≠ "")).map readCursor =
        some (.decoded (canonicalValue scope) after) := by
      simp [cursorText_ne_empty, readCursor_cursorText]
    rw [pageText, hcursor, page, fetch.pageSize_eq]
    simp only [PageOptions.after, if_neg hscope]
    rfl

end

end Onlyne
