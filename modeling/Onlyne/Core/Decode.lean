import Mathlib.Data.List.Basic
import Onlyne.Core.Text

/-!
# Storage keys that are read back

`decodeURIComponent`, and the parts of a storage key as a reader of its path gets them.
-/

namespace Onlyne

open List

/-! ## Decoding -/

def hexDigit (c : Char) : Option Nat :=
  if c.isDigit then some (c.toNat - 48)
  else if 'a' ≤ c ∧ c ≤ 'f' then some (c.toNat - 87)
  else if 'A' ≤ c ∧ c ≤ 'F' then some (c.toNat - 55)
  else none

/-- The bytes a text begins with, each written as `%XX`. -/
def percentBytes : List Char → List UInt8
  | '%' :: high :: low :: rest =>
    match hexDigit high, hexDigit low with
    | some m, some n => UInt8.ofNat (16 * m + n) :: percentBytes rest
    | _, _ => []
  | _ => []

/-- The first `skip` characters belong to the character before. -/
def decodeChars : Nat → List Char → Option (List Char)
  | _, [] => some []
  | skip + 1, _ :: rest => decodeChars skip rest
  | 0, c :: rest =>
    if c = '%' then
      -- Bytes that are no character throw.
      match (percentBytes (c :: rest)).toByteArray.utf8DecodeChar? 0 with
      | none => none
      | some d => (decodeChars (3 * d.utf8Size - 1) rest).map (d :: ·)
    else (decodeChars 0 rest).map (c :: ·)

/-- The `decodeURIComponent` of JavaScript. -/
def decodeURIComponent (text : String) : Option String := (decodeChars 0 text.toList).map String.ofList

theorem hexDigit_upperHex : ∀ n < 16, hexDigit (upperHex n) = some n := by decide

theorem unreserved_upperHex : ∀ n < 16, unreserved (upperHex n) = true := by decide

def percent (byte : UInt8) : List Char := ['%', upperHex (byte.toNat / 16), upperHex (byte.toNat % 16)]

theorem percentBytes_append (bytes : List UInt8) (rest : List Char) :
    percentBytes (bytes.flatMap percent ++ rest) = bytes ++ percentBytes rest := by
  induction bytes with
  | nil => rfl
  | cons byte bytes ih =>
    have hlt := byte.toNat_lt
    have hval : 16 * (byte.toNat / 16) + byte.toNat % 16 = byte.toNat := Nat.div_add_mod _ _
    rw [flatMap_cons, append_assoc]
    change percentBytes ('%' :: upperHex (byte.toNat / 16) :: upperHex (byte.toNat % 16) ::
      (bytes.flatMap percent ++ rest)) = _
    rw [percentBytes, hexDigit_upperHex _ (by omega), hexDigit_upperHex _ (by omega), ih]
    dsimp only
    rw [hval, UInt8.ofNat_toNat, cons_append]

theorem decodeChars_skip (front rest : List Char) : decodeChars front.length (front ++ rest) = decodeChars 0 rest := by
  induction front with
  | nil => rfl
  | cons c front ih => exact ih

theorem decodeChars_encodeChar (c : Char) (rest : List Char) :
    decodeChars 0 (encodeChar c ++ rest) = (decodeChars 0 rest).map (c :: ·) := by
  unfold encodeChar
  split_ifs with hkept
  · have hne : c ≠ '%' := by
      rintro rfl
      exact absurd hkept (by decide)
    rw [singleton_append, decodeChars, if_neg hne]
  · obtain ⟨front, hfront, hlen⟩ : ∃ front, (String.utf8EncodeChar c).flatMap percent = '%' :: front ∧
        front.length = 3 * c.utf8Size - 1 := by
      have hlen : ((String.utf8EncodeChar c).flatMap percent).length = 3 * c.utf8Size := by
        simp [length_flatMap, percent, String.length_utf8EncodeChar, Nat.mul_comm]
      cases hbytes : String.utf8EncodeChar c with
      | nil =>
        have hsize := String.length_utf8EncodeChar c
        have hpos := c.utf8Size_pos
        rw [hbytes, length_nil] at hsize
        omega
      | cons byte bytes =>
        rw [hbytes] at hlen
        refine ⟨_, rfl, ?_⟩
        rw [← hlen]
        rfl
    have hbytes := percentBytes_append (String.utf8EncodeChar c) rest
    rw [hfront, cons_append] at hbytes
    change decodeChars 0 ((String.utf8EncodeChar c).flatMap percent ++ rest) = _
    rw [hfront, cons_append, decodeChars, if_pos rfl, hbytes, toByteArray_append,
      ByteArray.utf8DecodeChar?_utf8EncodeChar_append]
    dsimp only
    rw [← hlen, decodeChars_skip]

theorem decode_encode (text : String) : decodeURIComponent (encodeURIComponent text) = some text := by
  have hchars (chars : List Char) : decodeChars 0 (chars.flatMap encodeChar) = some chars := by
    induction chars with
    | nil => rfl
    | cons c rest ih => rw [flatMap_cons, decodeChars_encodeChar, ih, Option.map_some]
  rw [decodeURIComponent, encodeURIComponent, String.toList_ofList, hchars, Option.map_some, String.ofList_toList]

theorem encodeURIComponent_injective {a b : String} (h : encodeURIComponent a = encodeURIComponent b) : a = b := by
  have hread := decode_encode a
  rw [h, decode_encode] at hread
  exact (Option.some.inj hread).symm

/-! ## Keys -/

theorem slash_not_mem (text : String) : '/' ∉ (encodeURIComponent text).toList := by
  intro h
  rw [encodeURIComponent, String.toList_ofList, mem_flatMap] at h
  obtain ⟨c, -, hc⟩ := h
  have hslash : unreserved '/' = false := by decide
  unfold encodeChar at hc
  split_ifs at hc with hkept
  · rw [← mem_singleton.mp hc, hslash] at hkept
    cases hkept
  · obtain ⟨byte, -, hbyte⟩ := mem_flatMap.mp hc
    have hlt := byte.toNat_lt
    have hhex {n : Nat} (hn : n < 16) : '/' ≠ upperHex n := by
      intro heq
      rw [heq, unreserved_upperHex n hn] at hslash
      cases hslash
    simp only [mem_cons, not_mem_nil, or_false] at hbyte
    rcases hbyte with hsign | hhigh | hlow
    · cases hsign
    · exact hhex (by omega) hhigh
    · exact hhex (by omega) hlow

variable {parts parts' : List String}

theorem split_key (hne : parts ≠ []) :
    (key parts).toList.splitOn '/' = parts.map fun part => (encodeURIComponent part).toList := by
  rw [key, String.toList_intercalate, map_map]
  refine splitOn_intercalate '/' (fun word hword => ?_) (by simpa using hne)
  obtain ⟨part, -, rfl⟩ := List.mem_map.mp hword
  exact slash_not_mem part

theorem map_encode_injective : Function.Injective (List.map fun part : String => (encodeURIComponent part).toList) :=
  map_injective_iff.mpr fun _ _ h => encodeURIComponent_injective (String.toList_inj.mp h)

/-- The parts of a key are read back. -/
theorem key_injective (hne : parts ≠ []) (hne' : parts' ≠ []) (h : key parts = key parts') : parts = parts' := by
  apply map_encode_injective
  rw [← split_key hne, h, split_key hne']

theorem key_append (hne : parts ≠ []) (hne' : parts' ≠ []) :
    (key (parts ++ parts')).toList = (key parts).toList ++ '/' :: (key parts').toList := by
  have hsplit : (key (parts ++ parts')).toList.splitOn '/' =
      ((key parts).toList ++ '/' :: (key parts').toList).splitOn '/' := by
    rw [split_key (by simp [hne]), splitOn_append_cons_self, split_key hne, split_key hne', map_append]
  have hjoin := congrArg ['/'].intercalate hsplit
  rwa [intercalate_splitOn, intercalate_splitOn] at hjoin

/-- What comes under a key has the parts of the key before its own. -/
theorem under_key_iff (hne : parts ≠ []) (hne' : parts' ≠ []) :
    (key parts).toList ++ ['/'] <+: (key parts').toList ↔ ∃ more ≠ [], parts' = parts ++ more := by
  constructor
  · rintro ⟨rest, hrest⟩
    have hsplit := split_key hne'
    rw [← hrest, append_assoc, singleton_append, splitOn_append_cons_self, split_key hne] at hsplit
    have hparts : parts = parts'.take parts.length := by
      apply map_encode_injective
      have htake := congrArg (List.take parts.length) hsplit
      rwa [take_left' (length_map _), ← map_take] at htake
    refine ⟨parts'.drop parts.length, ?_, ?_⟩
    · intro hnil
      rw [hparts, take_of_length_le (drop_eq_nil_iff.mp hnil)] at hsplit
      simp at hsplit
    · conv_lhs => rw [← take_append_drop parts.length parts', ← hparts]
  · rintro ⟨more, hmore, rfl⟩
    rw [key_append hne hmore]
    exact ⟨(key more).toList, by simp⟩

end Onlyne
