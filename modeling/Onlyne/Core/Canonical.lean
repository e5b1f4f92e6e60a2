import Onlyne.Core.Decode
import Onlyne.Core.Page

/-!
# Canonical JSON texts

The canonical JSON text of `core.ts`, and a reader of the texts that `JSON.stringify` prints.  Two values have
the same canonical text exactly when they are the same up to the order of their fields.

`undefined` is printed as `null`, and a field that is `undefined` is not printed at all: a value is
kept as the JSON value that is left of it.
-/

namespace Onlyne

open Foundation List

/-! ## Strings -/

def hexValue (c : Char) : Nat := if c.isDigit then c.toNat - 48 else c.toNat - 87

def unescape (c : Char) : Char :=
  if c = 'b' then Char.ofNat 8
  else if c = 't' then '\t'
  else if c = 'n' then '\n'
  else if c = 'f' then Char.ofNat 12
  else if c = 'r' then '\r'
  else c

def readQuoted : List Char → Option (Char × List Char)
  | [] => none
  | c :: rest =>
    if c = '\\' then
      match rest with
      | 'u' :: _ :: _ :: high :: low :: rest =>
        some (Char.ofNat (16 * hexValue high + hexValue low), rest)
      | c :: rest => some (unescape c, rest)
      | [] => none
    else some (c, rest)

theorem hexValue_lowerHex : ∀ n < 16, hexValue (lowerHex n) = n := by decide

/-- A character of a quoted text is read back, and none begins with the closing quote. -/
theorem quoteChar_read (c : Char) : ∃ head tail, quoteChar c = head :: tail ∧ head ≠ '"' ∧
    ∀ xs, readQuoted (quoteChar c ++ xs) = some (c, xs) := by
  unfold quoteChar
  split
  · next hquote =>
    subst hquote
    exact ⟨_, _, rfl, by decide, fun _ => rfl⟩
  · next hquote =>
    -- The escapes of one letter are read back by their letter.
    iterate 6
      split
      · next hescape =>
        subst hescape
        exact ⟨_, _, rfl, by decide, fun _ => rfl⟩
    split
    · next hcontrol =>
      have hval : 16 * (c.toNat / 16) + c.toNat % 16 = c.toNat := Nat.div_add_mod _ _
      refine ⟨_, _, rfl, by decide, fun xs => ?_⟩
      simp only [readQuoted, cons_append, nil_append, if_true]
      rw [hexValue_lowerHex _ (by omega), hexValue_lowerHex _ (by omega), hval, Char.ofNat_toNat]
    · refine ⟨_, _, rfl, hquote, fun xs => ?_⟩
      simp_all [readQuoted]

theorem quote_toList (text : String) : (quote text).toList = '"' :: (text.toList.flatMap quoteChar ++ ['"']) := by
  rw [quote, String.toList_ofList]
  rfl

/-! ## JSON values -/

theorem Json.inductionOn {motive : Json → Prop} (null : motive .null)
    (bool : ∀ value, motive (.bool value)) (number : ∀ text, motive (.number text))
    (string : ∀ value, motive (.string value)) (array : ∀ items, (∀ item ∈ items, motive item) → motive (.array items))
    (object : ∀ fields, (∀ field ∈ fields, motive field.2) → motive (.object fields)) : ∀ value, motive value := by
  refine @Json.rec motive (fun items => ∀ item ∈ items, motive item)
    (fun fields => ∀ field ∈ fields, motive field.2) (fun field => motive field.2) null bool number
    string array object ?_ ?_ ?_ ?_ ?_
  · simp
  · intro item rest hitem hrest
    exact forall_mem_cons.mpr ⟨hitem, hrest⟩
  · simp
  · intro field rest hfield hrest
    exact forall_mem_cons.mpr ⟨hfield, hrest⟩
  · intro name value hval
    exact hval

mutual
def canonicalText : Json → List Char
  | .null => "null".toList
  | .bool value => (if value then "true" else "false").toList
  | .number text => text.toList
  | .string value => (quote value).toList
  | .array items => '[' :: [','].intercalate (canonicalItems items) ++ [']']
  | .object fields => '\x7b' :: [','].intercalate ((sortedBy Prod.fst (canonicalFields fields)).map
      fun field => (quote field.1).toList ++ ':' :: field.2) ++ ['\x7d']

def canonicalItems : List Json → List (List Char)
  | [] => []
  | item :: rest => canonicalText item :: canonicalItems rest

def canonicalFields : List (String × Json) → List (String × List Char)
  | [] => []
  | (name, value) :: rest => (name, canonicalText value) :: canonicalFields rest
end

def canonical (value : Json) : String := String.ofList (canonicalText value)

mutual
/-- The text `JSON.stringify` makes of a value: the fields of an object in the order they stand in. -/
def jsonText : Json → List Char
  | .null => "null".toList
  | .bool value => (if value then "true" else "false").toList
  | .number text => text.toList
  | .string value => (quote value).toList
  | .array items => '[' :: [','].intercalate (jsonItems items) ++ [']']
  | .object fields => '\x7b' :: [','].intercalate (jsonFields fields) ++ ['\x7d']

def jsonItems : List Json → List (List Char)
  | [] => []
  | item :: rest => jsonText item :: jsonItems rest

def jsonFields : List (String × Json) → List (List Char)
  | [] => []
  | (name, value) :: rest => ((quote name).toList ++ ':' :: jsonText value) :: jsonFields rest
end

/-- The `JSON.stringify` of a value. -/
def stringify (value : Json) : String := String.ofList (jsonText value)

mutual
/-- A value with the fields of its objects in the order of their names. -/
def Json.normal : Json → Json
  | .array items => .array (normalItems items)
  | .object fields => .object (sortedBy Prod.fst (normalFields fields))
  | value => value

def normalItems : List Json → List Json
  | [] => []
  | item :: rest => item.normal :: normalItems rest

def normalFields : List (String × Json) → List (String × Json)
  | [] => []
  | (name, value) :: rest => (name, value.normal) :: normalFields rest
end

def numeric (c : Char) : Bool := c.isDigit || c = '-' || c = '+' || c = '.' || c = 'e'

mutual
def Json.plain : Json → Bool
  | .number text => text.toList ≠ [] && text.toList.all numeric
  | .array items => plainItems items
  | .object fields => plainFields fields
  | _ => true

def plainItems : List Json → Bool
  | [] => true
  | item :: rest => item.plain && plainItems rest

def plainFields : List (String × Json) → Bool
  | [] => true
  | (_, value) :: rest => value.plain && plainFields rest
end

variable (items : List Json) (fields : List (String × Json)) {value a b : Json}

@[simp] theorem canonicalItems_eq : canonicalItems items = items.map canonicalText := by
  induction items with
  | nil => rfl
  | cons item rest ih => rw [canonicalItems, ih, map_cons]

@[simp] theorem canonicalFields_eq :
    canonicalFields fields = fields.map fun field => (field.1, canonicalText field.2) := by
  induction fields with
  | nil => rfl
  | cons field rest ih => rw [canonicalFields, ih, map_cons]

@[simp] theorem jsonItems_eq : jsonItems items = items.map jsonText := by
  induction items with
  | nil => rfl
  | cons item rest ih => rw [jsonItems, ih, map_cons]

@[simp] theorem jsonFields_eq : jsonFields fields =
    fields.map fun field => (quote field.1).toList ++ ':' :: jsonText field.2 := by
  induction fields with
  | nil => rfl
  | cons field rest ih => rw [jsonFields, ih, map_cons]

@[simp] theorem normalItems_eq : normalItems items = items.map Json.normal := by
  induction items with
  | nil => rfl
  | cons item rest ih => rw [normalItems, ih, map_cons]

@[simp] theorem normalFields_eq : normalFields fields = fields.map fun field => (field.1, field.2.normal) := by
  induction fields with
  | nil => rfl
  | cons field rest ih => rw [normalFields, ih, map_cons]

@[simp] theorem plainItems_eq : plainItems items = items.all Json.plain := by
  induction items with
  | nil => rfl
  | cons item rest ih => rw [plainItems, ih, all_cons]

@[simp] theorem plainFields_eq : plainFields fields = fields.all fun field => field.2.plain := by
  induction fields with
  | nil => rfl
  | cons field rest ih => rw [plainFields, ih, all_cons]

/-! ## Sorting the fields -/

theorem sortedBy_map {α β : Type} (f : α → β) (fields : List (String × α)) :
    sortedBy Prod.fst (fields.map fun field => (field.1, f field.2)) =
      (sortedBy Prod.fst fields).map fun field => (field.1, f field.2) := by
  exact (map_insertionSort (fun a b : String × α => textUnits a.1 ≤ textUnits b.1)
    (fun a b : String × β => textUnits a.1 ≤ textUnits b.1) (fun field => (field.1, f field.2)) fields
    fun _ _ _ _ => Iff.rfl).symm

theorem mem_sortedBy {α : Type} {position : α → String} {items : List α} {item : α} :
    item ∈ sortedBy position items ↔ item ∈ items :=
  mem_insertionSort _

theorem canonicalText_eq (value : Json) : canonicalText value = jsonText value.normal := by
  induction value using Json.inductionOn with
  | null => rfl
  | bool value => cases value <;> rfl
  | number => rfl
  | string => rfl
  | array items ih =>
    have hitems : items.map canonicalText = (items.map Json.normal).map jsonText := by
      rw [map_map]
      exact map_congr_left ih
    rw [canonicalText, Json.normal, jsonText, canonicalItems_eq, normalItems_eq, jsonItems_eq, hitems]
  | object fields ih =>
    have hfields : (sortedBy Prod.fst (canonicalFields fields)).map
        (fun field => (quote field.1).toList ++ ':' :: field.2) =
        jsonFields (sortedBy Prod.fst (normalFields fields)) := by
      rw [canonicalFields_eq, normalFields_eq, jsonFields_eq, sortedBy_map, sortedBy_map, map_map, map_map]
      apply map_congr_left
      intro field hfield
      simp [ih field (mem_sortedBy.mp hfield)]
    rw [canonicalText, Json.normal, jsonText, hfields]

theorem plain_normal (value : Json) : value.normal.plain = value.plain := by
  induction value using Json.inductionOn with
  | null => rfl
  | bool => rfl
  | number => rfl
  | string => rfl
  | array items ih =>
    rw [Json.normal, Json.plain, Json.plain, normalItems_eq, plainItems_eq, plainItems_eq,
      Bool.eq_iff_iff, all_eq_true, all_eq_true, forall_mem_map]
    exact forall₂_congr fun item hitem => by rw [ih item hitem]
  | object fields ih =>
    rw [Json.normal, Json.plain, Json.plain, normalFields_eq, plainFields_eq, plainFields_eq,
      Bool.eq_iff_iff, all_eq_true, all_eq_true]
    simp only [mem_sortedBy, forall_mem_map]
    exact forall₂_congr fun field hfield => by rw [ih field hfield]

/-! ## Reading a value back -/

def readText : Nat → List Char → Option (List Char × List Char)
  | 0, _ => none
  | fuel + 1, text =>
    if text.head? = some '"' then some ([], text.tail)
    else do
      let (c, rest) ← readQuoted text
      let (chars, rest) ← readText fuel rest
      some (c :: chars, rest)

def readSequence {α : Type} (close : Char) (item : List Char → Option (α × List Char)) :
    Nat → List Char → Option (List α × List Char)
  | 0, _ => none
  | fuel + 1, text => do
    let (first, rest) ← item text
    match rest with
    | [] => none
    | c :: rest =>
      if c = close then some ([first], rest)
      else if c = ',' then do
        let (others, rest) ← readSequence close item fuel rest
        some (first :: others, rest)
      else none

def readList {α : Type} (close : Char) (item : List Char → Option (α × List Char)) (fuel : Nat)
    (text : List Char) : Option (List α × List Char) :=
  if text.head? = some close then some ([], text.tail) else readSequence close item fuel text

def readField (readValue : List Char → Option (Json × List Char)) (fuel : Nat) :
    List Char → Option ((String × Json) × List Char)
  | '"' :: text => do
    let (name, rest) ← readText fuel text
    match rest with
    | ':' :: rest => do
      let (value, rest) ← readValue rest
      some ((String.ofList name, value), rest)
    | _ => none
  | _ => none

def readValue : Nat → List Char → Option (Json × List Char)
  | 0, _ => none
  | fuel + 1, text =>
    match text with
    | 'n' :: 'u' :: 'l' :: 'l' :: rest => some (.null, rest)
    | 't' :: 'r' :: 'u' :: 'e' :: rest => some (.bool true, rest)
    | 'f' :: 'a' :: 'l' :: 's' :: 'e' :: rest => some (.bool false, rest)
    | '"' :: rest => (readText fuel rest).map fun read => (.string (String.ofList read.1), read.2)
    | '[' :: rest => (readList ']' (readValue fuel) fuel rest).map fun read => (.array read.1, read.2)
    | '\x7b' :: rest =>
      (readList '\x7d' (readField (readValue fuel) fuel) fuel rest).map fun read => (.object read.1, read.2)
    | text =>
      let word := text.takeWhile numeric
      if word.isEmpty then none else some (.number (String.ofList word), text.dropWhile numeric)

/-- The `JSON.parse` of a text that `JSON.stringify` may print. -/
def parse (text : String) : Option Json :=
  match readValue (text.length + 1) text.toList with
  | some (value, []) => some value
  | _ => none

theorem readText_quoted (chars rest : List Char) {fuel : Nat} (hfuel : (chars.flatMap quoteChar).length < fuel) :
    readText fuel (chars.flatMap quoteChar ++ '"' :: rest) = some (chars, rest) := by
  induction chars generalizing fuel with
  | nil =>
    obtain ⟨fuel, rfl⟩ := Nat.exists_eq_succ_of_ne_zero (Nat.ne_of_gt hfuel)
    rfl
  | cons c chars ih =>
    obtain ⟨fuel, rfl⟩ := Nat.exists_eq_succ_of_ne_zero (Nat.ne_of_gt (Nat.zero_lt_of_lt hfuel))
    obtain ⟨head, tail, hchar, hhead, hread⟩ := quoteChar_read c
    rw [flatMap_cons, length_append] at hfuel
    have hrest : (chars.flatMap quoteChar).length < fuel := by
      rw [hchar, length_cons] at hfuel
      omega
    have hopen : (quoteChar c ++ (chars.flatMap quoteChar ++ '"' :: rest)).head? ≠ some '"' := by
      rw [hchar]
      simpa using hhead
    rw [flatMap_cons, append_assoc, readText, if_neg hopen, hread]
    simp [ih hrest]

/-- The text goes on with a comma or with the closing bracket. -/
def Goes (close : Char) (text : List Char) : Prop := ∃ rest, text = ',' :: rest ∨ text = close :: rest

theorem readSequence_intercalate {α : Type} {close : Char} (hclose : ',' ≠ close) {word : α → List Char}
    {item : List Char → Option (α × List Char)} {items : List α} (hne : items ≠ []) {rest : List Char} {fuel : Nat}
    (hread : ∀ a ∈ items, ∀ rest, Goes close rest → item (word a ++ rest) = some (a, rest))
    (hfuel : ([','].intercalate (items.map word)).length < fuel) :
    readSequence close item fuel ([','].intercalate (items.map word) ++ close :: rest) = some (items, rest) := by
  induction items generalizing fuel with
  | nil => exact absurd rfl hne
  | cons a items ih =>
    obtain ⟨fuel, rfl⟩ := Nat.exists_eq_succ_of_ne_zero (Nat.ne_of_gt (Nat.zero_lt_of_lt hfuel))
    have hfst := hread a mem_cons_self
    cases items with
    | nil =>
      simp [readSequence, hfst _ ⟨rest, .inr rfl⟩]
    | cons b items =>
      rw [map_cons, map_cons, intercalate_cons_cons, ← map_cons] at hfuel ⊢
      have hlen : ([','].intercalate ((b :: items).map word)).length < fuel := by
        simp only [length_append, length_cons] at hfuel
        omega
      have hrest := ih (cons_ne_nil _ _) (fun a ha => hread a (mem_cons_of_mem _ ha)) hlen
      rw [append_assoc, append_assoc, singleton_append, readSequence, hfst _ ⟨_, .inl rfl⟩]
      rw [map_cons] at hrest
      simp [hclose, hrest]

theorem length_le_intercalate {words : List (List Char)} {word : List Char} (hword : word ∈ words) :
    word.length ≤ ([','].intercalate words).length := by
  induction words with
  | nil => cases hword
  | cons first words ih =>
    cases words with
    | nil =>
      rw [mem_singleton.mp hword]
      simp
    | cons next words =>
      rw [intercalate_cons_cons, length_append, length_append]
      rcases mem_cons.mp hword with rfl | hword
      · omega
      · have := ih hword
        omega

/-- A list in brackets is read back, if its items are and none begins with the closing one. -/
theorem readList_intercalate {α : Type} {close : Char} (hclose : ',' ≠ close) {word : α → List Char}
    {item : List Char → Option (α × List Char)} {items : List α} {rest : List Char} {fuel : Nat}
    (hword : ∀ a ∈ items, ∃ c text, word a = c :: text ∧ c ≠ close)
    (hread : ∀ a ∈ items, ∀ rest, Goes close rest → item (word a ++ rest) = some (a, rest))
    (hfuel : ([','].intercalate (items.map word)).length < fuel) :
    readList close item fuel ([','].intercalate (items.map word) ++ close :: rest) = some (items, rest) := by
  unfold readList
  cases items with
  | nil => simp
  | cons a items =>
    obtain ⟨c, text, hc, hne⟩ := hword a mem_cons_self
    have hhead : ([','].intercalate ((a :: items).map word) ++ close :: rest).head? = some c := by
      rw [map_cons, intercalate_cons, hc]
      rfl
    rw [hhead, if_neg (by simpa using hne)]
    exact readSequence_intercalate hclose (cons_ne_nil _ _) hread hfuel

theorem jsonText_begins (h : value.plain = true) : ∃ c text, jsonText value = c :: text ∧ c ≠ ']' := by
  cases value with
  | null => exact ⟨_, _, rfl, by decide⟩
  | bool value => cases value <;> exact ⟨_, _, rfl, by decide⟩
  | number =>
    simp only [Json.plain, Bool.and_eq_true, decide_eq_true_eq, all_eq_true] at h
    obtain ⟨c, rest, htext⟩ := exists_cons_of_ne_nil h.1
    refine ⟨c, rest, htext, ?_⟩
    rintro rfl
    exact absurd (h.2 ']' (by simp [htext])) (by decide)
  | string =>
    rw [jsonText, quote_toList]
    exact ⟨_, _, rfl, by decide⟩
  | array | object => exact ⟨_, _, rfl, by decide⟩

theorem readValue_number {word rest : List Char} (hne : word ≠ []) (hword : ∀ c ∈ word, numeric c = true)
    (hrest : ∀ c ∈ rest.head?, numeric c = false) (fuel : Nat) :
    readValue (fuel + 1) (word ++ rest) = some (.number (String.ofList word), rest) := by
  obtain ⟨c, tail, rfl⟩ := exists_cons_of_ne_nil hne
  have hc := hword c mem_cons_self
  have htake : (c :: tail ++ rest).takeWhile numeric = c :: tail ∧ (c :: tail ++ rest).dropWhile numeric = rest := by
    rw [takeWhile_append_of_pos hword, dropWhile_append_of_pos hword]
    cases rest with
    | nil => simp
    | cons d => simp [hrest d rfl]
  rw [cons_append] at htake ⊢
  unfold readValue
  split
  -- The other values begin with characters that are none of a number.
  all_goals first
    | (rename_i heq; rw [(List.cons.inj heq).1] at hc; exact absurd hc (by decide))
    | simp [htake]

/-- Every value is read back from its text, when the text does not go on as a number. -/
theorem readValue_jsonText (value : Json) {rest : List Char} {fuel : Nat} (hplain : value.plain = true)
    (hrest : ∀ c ∈ rest.head?, numeric c = false) (hfuel : (jsonText value).length < fuel) :
    readValue fuel (jsonText value ++ rest) = some (value, rest) := by
  have hgoes {close : Char} (hclose : numeric close = false) {rest : List Char} (h : Goes close rest) :
      ∀ c ∈ rest.head?, numeric c = false := by
    obtain ⟨rest, rfl | rfl⟩ := h
    all_goals
      rintro c ⟨⟩
      first | exact hclose | decide
  induction value using Json.inductionOn generalizing rest fuel
  all_goals obtain ⟨fuel, rfl⟩ := Nat.exists_eq_succ_of_ne_zero (Nat.ne_of_gt (Nat.zero_lt_of_lt hfuel))
  case null => rfl
  case bool value => cases value <;> rfl
  case number text =>
    simp only [Json.plain, Bool.and_eq_true, decide_eq_true_eq, all_eq_true] at hplain
    rw [jsonText, readValue_number hplain.1 hplain.2 hrest, String.ofList_toList]
  case string text =>
    rw [jsonText, quote_toList] at hfuel ⊢
    rw [cons_append, append_assoc, singleton_append, readValue, readText_quoted]
    · rw [Option.map_some, String.ofList_toList]
    · simp only [length_cons, length_append] at hfuel
      omega
  case array items ih =>
    simp only [Json.plain, plainItems_eq, all_eq_true] at hplain
    rw [jsonText, jsonItems_eq] at hfuel ⊢
    rw [cons_append, cons_append, append_assoc, singleton_append, readValue, readList_intercalate (by decide)]
    · rfl
    · exact fun item hitem => jsonText_begins (hplain item hitem)
    · intro item hitem rest hgo
      refine ih item hitem (hplain item hitem) (hgoes (by decide) hgo) ?_
      have := length_le_intercalate (mem_map_of_mem (f := jsonText) hitem)
      simp only [length_cons, length_append] at hfuel
      omega
    · simp only [length_cons, length_append] at hfuel
      omega
  case object fields ih =>
    simp only [Json.plain, plainFields_eq, all_eq_true] at hplain
    rw [jsonText, jsonFields_eq] at hfuel ⊢
    rw [cons_append, cons_append, append_assoc, singleton_append, readValue, readList_intercalate (by decide)]
    · rfl
    · intro field _
      rw [quote_toList]
      exact ⟨_, _, rfl, by decide⟩
    · intro field hfield rest hgo
      have hlen := length_le_intercalate (mem_map_of_mem (f := fun field : String × Json =>
        (quote field.1).toList ++ ':' :: jsonText field.2) hfield)
      simp only [quote_toList, length_cons, length_append] at hlen hfuel
      rw [quote_toList, append_assoc, cons_append, append_assoc, singleton_append, readField,
        readText_quoted _ _ (by omega)]
      have hvalue : (jsonText field.2).length < fuel := by omega
      simp [ih field hfield (hplain field hfield) (hgoes (by decide) hgo) hvalue]
    · simp only [length_cons, length_append] at hfuel
      omega

theorem parse_stringify (hplain : value.plain = true) : parse (stringify value) = some value := by
  have hread : readValue ((jsonText value).length + 1) (jsonText value ++ []) = some (value, []) :=
    readValue_jsonText value hplain (by simp) (by omega)
  rw [append_nil] at hread
  rw [parse, stringify, String.toList_ofList, String.length_ofList, hread]

section

variable (ha : a.plain = true) (hb : b.plain = true)
include ha hb

theorem jsonText_injective (h : jsonText a = jsonText b) : a = b := by
  have hread := parse_stringify ha
  rw [stringify, h, ← stringify, parse_stringify hb] at hread
  exact (Option.some.inj hread).symm

theorem stringify_injective (h : stringify a = stringify b) : a = b :=
  jsonText_injective ha hb (String.ofList_injective h)

/-- Two values have the same canonical text exactly when they are the same up to the order of their
fields. -/
theorem canonical_eq_iff : canonical a = canonical b ↔ a.normal = b.normal := by
  unfold canonical
  rw [canonicalText_eq, canonicalText_eq]
  constructor
  · intro h
    exact jsonText_injective (by rw [plain_normal, ha]) (by rw [plain_normal, hb]) (String.ofList_injective h)
  · intro h
    rw [h]

end

end Onlyne
