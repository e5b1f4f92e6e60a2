import Onlyne.Core.Decode

/-!
# Messenger gateway: resource ids

`resourceIdOf` and `coordinateOf` of `bridge.ts`: a resource id is the name of a platform, a dash and the encoded
coordinate of a conversation.
-/

namespace Onlyne.Im

open List

/-- `PLATFORM_NAME`. -/
def platformName (name : List Char) : Bool :=
  !name.isEmpty && name.all fun c => c.isDigit || 'a' ≤ c && c ≤ 'z'

def resourceIdOf (platform conversation : String) : Except Failure String :=
  if platformName platform.toList then .ok (platform ++ "-" ++ encodeURIComponent conversation)
  else .error (onlyneError .invalidRequest ("The platform name " ++ platform ++ " cannot prefix a resource id."))

def cutId (id : String) : Option (List Char × List Char) :=
  match id.toList.dropWhile (· ≠ '-') with
  | [] => none
  | _ :: rest => some (id.toList.takeWhile (· ≠ '-'), rest)

def coordinateOf (id : String) : Option (String × String) := do
  let (platform, rest) ← cutId id
  if platformName platform then
    let conversation ← decodeURIComponent (String.ofList rest)
    some (String.ofList platform, conversation)
  else none

/-- What comes after the name of a platform does not decode, or is spelled as `encodeURIComponent` spells it. -/
def Spelled (id : String) : Prop :=
  ∀ platform rest, cutId id = some (platform, rest) → platformName platform = true →
    decodeURIComponent (String.ofList rest) = none ∨ ∃ conversation, rest = (encodeURIComponent conversation).toList

variable {id platform conversation : String}

theorem cutId_resourceIdOf (h : resourceIdOf platform conversation = .ok id) :
    platformName platform.toList = true ∧ cutId id = some (platform.toList, (encodeURIComponent conversation).toList) := by
  unfold resourceIdOf at h
  split_ifs at h with hname
  cases h
  refine ⟨hname, ?_⟩
  have hdash : ∀ c ∈ platform.toList, decide (c ≠ '-') = true := by
    simp only [platformName, Bool.and_eq_true, List.all_eq_true] at hname
    intro c hc
    rw [decide_eq_true_eq]
    rintro rfl
    exact absurd (hname.2 '-' hc) (by decide)
  have htext : (platform ++ "-" ++ encodeURIComponent conversation).toList =
      platform.toList ++ '-' :: (encodeURIComponent conversation).toList := by simp
  rw [cutId, htext, dropWhile_append_of_pos hdash, takeWhile_append_of_pos hdash]
  simp

theorem coordinateOf_resourceIdOf (h : resourceIdOf platform conversation = .ok id) :
    coordinateOf id = some (platform, conversation) := by
  obtain ⟨hname, hcut⟩ := cutId_resourceIdOf h
  simp [coordinateOf, hcut, hname, decode_encode]

theorem toList_of_cutId {front rest : List Char} (h : cutId id = some (front, rest)) :
    id.toList = front ++ '-' :: rest := by
  unfold cutId at h
  split at h
  · cases h
  · next c rest hdrop =>
    cases h
    obtain rfl : c = '-' := by
      have hhead := head?_dropWhile_not (fun c : Char => decide (c ≠ '-')) id.toList
      rw [hdrop] at hhead
      simpa using hhead
    have hcut := takeWhile_append_dropWhile (p := fun c : Char => decide (c ≠ '-')) (l := id.toList)
    rw [hdrop] at hcut
    exact hcut.symm

theorem Spelled.resourceIdOf (hspelled : Spelled id) (h : coordinateOf id = some (platform, conversation)) :
    resourceIdOf platform conversation = .ok id := by
  simp only [coordinateOf, Option.bind_eq_bind, Option.bind_eq_some_iff] at h
  obtain ⟨⟨front, rest⟩, hcut, h⟩ := h
  split_ifs at h with hname
  obtain ⟨text, hdec, h⟩ := Option.bind_eq_some_iff.mp h
  cases h
  rcases hspelled front rest hcut hname with hnone | ⟨text', rfl⟩
  · rw [hnone] at hdec
    cases hdec
  · rw [String.ofList_toList, decode_encode] at hdec
    obtain rfl := Option.some.inj hdec
    have hid : String.ofList front ++ "-" ++ encodeURIComponent text' = id := by
      apply String.toList_inj.mp
      rw [toList_of_cutId hcut]
      simp
    rw [Im.resourceIdOf, String.toList_ofList, if_pos hname, hid]

end Onlyne.Im
