import Onlyne.Core.Decode
import Onlyne.Resources.Types

/-!
# Resources: the keys of the rows

The key builders of `resources.ts`, and `parseRow`, which tells from its path what a row is.  A scan lists the rows
whose keys begin with a text; the resource namespace is shared by all kinds of rows, and the store by other services.
-/

namespace Onlyne.Resources

open List

inductive RowKind where
  | resource
  | operation
  | event
  | source
  | handover
  deriving DecidableEq

structure Row where
  ref : ResourceRef
  kind : RowKind
  deriving DecidableEq

/-- `EXTENSIONS`. -/
def extensions (word : String) : Option RowKind :=
  if word = "operation" then some .operation
  else if word = "event" then some .event
  else if word = "source" then some .source
  else if word = "handover" then some .handover
  else none

section

variable (ref : ResourceRef) (id : String)

/-- The parts of a key of a resource, with those that come after it. -/
def rowParts (more : List String) : List String := "resource" :: ref.owner :: ref.id :: more

def resourceKey : String := key (rowParts ref [])

def operationKey : String := key (rowParts ref ["operation", id])

def eventKey : String := key (rowParts ref ["event", id])

def sourceKey (source : String) : String := key (rowParts ref ["source", source])

def handoverKey : String := key (rowParts ref ["handover", id])

def operationsPrefix : String := key (rowParts ref ["operation"])

def eventsPrefix : String := key (rowParts ref ["event"])

end

/-- What a path names; `none` if a part does not decode. -/
def parseRow (path : String) : Option (Option Row) :=
  match (path.toList.splitOn '/').map String.ofList with
  | "resource" :: owner :: id :: more => do
    if 2 < more.length then some none
    else
      let ref : ResourceRef := ⟨← decodeURIComponent owner, ← decodeURIComponent id⟩
      match more with
      | [] => some (some ⟨ref, .resource⟩)
      | word :: rest =>
        let kind := extensions (← decodeURIComponent word)
        some (if rest.isEmpty then none else kind.map (⟨ref, ·⟩))
  | _ => some none

def scan (store : List (List String)) (start : String) : List (List String) :=
  store.filter fun parts => start.toList.isPrefixOf (key parts).toList

/-- `rowsOf`: the scanned rows of one kind, with what they name. -/
def rowsOf (rows : List (List String)) (kind : RowKind) : List Row :=
  rows.filterMap fun parts => ((parseRow (key parts)).join).filter fun row => row.kind = kind

def Row.Parts (row : Row) (parts : List String) : Prop :=
  row.kind = .resource ∧ parts = rowParts row.ref [] ∨
    ∃ word id, extensions word = some row.kind ∧ parts = rowParts row.ref [word, id]

/-- A key of the store is one of this service, or begins with another word. -/
def Stored (parts : List String) : Prop :=
  (∃ row : Row, row.Parts parts) ∨ parts ≠ [] ∧ parts.head? ≠ some "resource"

theorem extensions_eq_some {word : String} {kind : RowKind} (h : extensions word = some kind) :
    (word, kind) ∈ [("operation", .operation), ("event", .event), ("source", .source), ("handover", .handover)] := by
  unfold extensions at h
  split_ifs at h <;> cases h <;> simp_all

theorem word_eq_of_head {word word' : String} {kind kind' : RowKind} (hword : extensions word = some kind)
    (hword' : extensions word' = some kind') {rest rest' : List Char}
    (h : (encodeURIComponent word).toList ++ rest = (encodeURIComponent word').toList ++ rest') : word = word' := by
  have hhead : ∃ c tail c' tail', (encodeURIComponent word).toList = c :: tail ∧
      (encodeURIComponent word').toList = c' :: tail' ∧ (c = c' → word = word') := by
    have hcases := extensions_eq_some hword
    have hcases' := extensions_eq_some hword'
    simp only [mem_cons, Prod.mk.injEq, not_mem_nil, or_false] at hcases hcases'
    rcases hcases with ⟨rfl, -⟩ | ⟨rfl, -⟩ | ⟨rfl, -⟩ | ⟨rfl, -⟩ <;>
      rcases hcases' with ⟨rfl, -⟩ | ⟨rfl, -⟩ | ⟨rfl, -⟩ | ⟨rfl, -⟩ <;>
      exact ⟨_, _, _, _, rfl, rfl, by decide⟩
  obtain ⟨c, tail, c', tail', htext, htext', hsame⟩ := hhead
  rw [htext, htext', cons_append, cons_append, List.cons.injEq] at h
  exact hsame h.1

variable {parts : List String} {row : Row}

theorem rowParts_ne_nil (ref : ResourceRef) (more : List String) : rowParts ref more ≠ [] := cons_ne_nil _ _

theorem key_singleton (word : String) : key [word] = encodeURIComponent word := by
  simp [key]

theorem Stored.ne_nil (h : Stored parts) : parts ≠ [] := by
  rcases h with ⟨row, ⟨-, rfl⟩ | ⟨word, id, -, rfl⟩⟩ | ⟨hne, -⟩
  · exact rowParts_ne_nil _ _
  · exact rowParts_ne_nil _ _
  · exact hne

theorem begins_iff (hstored : Stored parts) (ref : ResourceRef) {word : String} {kind : RowKind}
    (hword : extensions word = some kind) :
    (key (rowParts ref [word])).toList <+: (key parts).toList ↔ ∃ id, parts = rowParts ref [word, id] := by
  have hkey {more : List String} (hmore : more ≠ []) : (key (rowParts ref more)).toList =
      (key (rowParts ref [])).toList ++ '/' :: (key more).toList :=
    key_append (rowParts_ne_nil ref []) hmore
  constructor
  · rintro ⟨rest, hrest⟩
    rw [hkey (cons_ne_nil word []), key_singleton, append_assoc, cons_append] at hrest
    have hunder : (key (rowParts ref [])).toList ++ ['/'] <+: (key parts).toList :=
      ⟨(encodeURIComponent word).toList ++ rest, by rw [← hrest]; simp⟩
    obtain ⟨more, hmore, rfl⟩ := (under_key_iff (rowParts_ne_nil ref []) hstored.ne_nil).mp hunder
    rcases hstored with ⟨row, ⟨-, heq⟩ | ⟨word', id, hword', heq⟩⟩ | ⟨-, hother⟩
    · simp [rowParts, hmore] at heq
    · simp only [rowParts, cons_append, nil_append, List.cons.injEq, true_and] at heq
      obtain ⟨-, -, rfl⟩ := heq
      have hword'' : (key [word', id]).toList =
          (encodeURIComponent word').toList ++ '/' :: (encodeURIComponent id).toList := by
        rw [← key_singleton, ← key_singleton, ← key_append (cons_ne_nil _ _) (cons_ne_nil _ _), singleton_append]
      rw [key_append (rowParts_ne_nil ref []) hmore, append_cancel_left_eq, List.cons.injEq, hword''] at hrest
      rw [word_eq_of_head hword hword' hrest.2]
      exact ⟨id, rfl⟩
    · exact absurd rfl hother
  · rintro ⟨id, rfl⟩
    have hunder := (under_key_iff (rowParts_ne_nil ref [word]) (rowParts_ne_nil ref [word, id])).mpr
      ⟨[id], cons_ne_nil _ _, rfl⟩
    exact (prefix_append _ _).trans hunder

theorem parseRow_row (h : row.Parts parts) : parseRow (key parts) = some (some row) := by
  obtain ⟨ref, kind⟩ := row
  have hresource : encodeURIComponent "resource" = "resource" := by decide
  rcases h with ⟨hkind, rfl⟩ | ⟨word, id, hword, rfl⟩
  · dsimp only at hkind
    subst hkind
    unfold parseRow
    rw [split_key (rowParts_ne_nil _ _)]
    simp [rowParts, hresource, decode_encode]
  · unfold parseRow
    rw [split_key (rowParts_ne_nil _ _)]
    simp [rowParts, hresource, decode_encode, hword]

theorem parseRow_other (hne : parts ≠ []) (hother : parts.head? ≠ some "resource") :
    parseRow (key parts) = some none := by
  obtain ⟨first, rest, rfl⟩ := exists_cons_of_ne_nil hne
  have hfirst : encodeURIComponent first ≠ "resource" := by
    intro heq
    have hsame : encodeURIComponent first = encodeURIComponent "resource" := by
      rw [heq]
      decide
    exact hother (congrArg some (encodeURIComponent_injective hsame))
  unfold parseRow
  rw [split_key hne]
  simp only [map_cons, String.ofList_toList]
  split
  · next heq => exact absurd (List.cons.inj heq).1 hfirst
  · rfl

/-- **Storage keys.**  Keys are read back, and what comes under a key has its parts before its own.  So a scan by the
events or the operations of a resource lists exactly its rows of that kind, and the rows of a kind among all resource
rows name exactly the resources they were written for. -/
theorem keys_apart :
    (∀ parts parts' : List String, parts ≠ [] → parts' ≠ [] → (key parts = key parts' ↔ parts = parts')) ∧
    (∀ parts parts' : List String, parts ≠ [] → parts' ≠ [] →
      ((key parts ++ "/").toList <+: (key parts').toList ↔ parts <+: parts' ∧ parts ≠ parts')) ∧
    ∀ store : List (List String), (∀ parts ∈ store, Stored parts) → ∀ ref parts,
      (parts ∈ scan store (eventsPrefix ref) ↔ parts ∈ store ∧ ∃ id, key parts = eventKey ref id) ∧
      (parts ∈ scan store (operationsPrefix ref) ↔ parts ∈ store ∧ ∃ id, key parts = operationKey ref id) ∧
      ∀ row : Row, row ∈ rowsOf (scan store (key ["resource"])) row.kind ↔ ∃ parts ∈ store, row.Parts parts := by
  refine ⟨fun parts parts' hne hne' => ⟨key_injective hne hne', congrArg key⟩, ?_, ?_⟩
  · intro parts parts' hne hne'
    rw [String.toList_append]
    refine (under_key_iff hne hne').trans ⟨?_, ?_⟩
    · rintro ⟨more, hmore, rfl⟩
      exact ⟨prefix_append _ _, by simpa using hmore⟩
    · rintro ⟨⟨more, rfl⟩, hlonger⟩
      exact ⟨more, by simpa using hlonger, rfl⟩
  · intro store hstored ref parts
    have hscan (word : String) (kind : RowKind) (hword : extensions word = some kind) :
        parts ∈ scan store (key (rowParts ref [word])) ↔
          parts ∈ store ∧ ∃ id, key parts = key (rowParts ref [word, id]) := by
      rw [scan, mem_filter, isPrefixOf_iff_prefix]
      refine and_congr_right fun hmem => (begins_iff (hstored parts hmem) ref hword).trans ?_
      exact exists_congr fun id =>
        ⟨congrArg key, key_injective (hstored parts hmem).ne_nil (rowParts_ne_nil _ _)⟩
    refine ⟨hscan "event" .event rfl, hscan "operation" .operation rfl, fun row => ?_⟩
    simp only [rowsOf, scan, mem_filterMap, mem_filter]
    constructor
    · rintro ⟨parts, ⟨hmem, -⟩, hrow⟩
      refine ⟨parts, hmem, ?_⟩
      rcases hstored parts hmem with ⟨written, hparts⟩ | ⟨hne, hother⟩
      · rw [parseRow_row hparts, Option.join_some, Option.filter_eq_some_iff] at hrow
        rwa [← Option.some.inj hrow.1]
      · rw [parseRow_other hne hother] at hrow
        cases hrow
    · rintro ⟨parts, hmem, hparts⟩
      refine ⟨parts, ⟨hmem, ?_⟩, by simp [parseRow_row hparts]⟩
      have hunder : ∃ more ≠ [], parts = ["resource"] ++ more := by
        rcases hparts with ⟨-, rfl⟩ | ⟨word, id, -, rfl⟩ <;> exact ⟨_, cons_ne_nil _ _, rfl⟩
      have hbegins := (under_key_iff (cons_ne_nil _ _) (hstored parts hmem).ne_nil).mpr hunder
      exact isPrefixOf_iff_prefix.mpr ((prefix_append _ _).trans hbegins)

end Onlyne.Resources
