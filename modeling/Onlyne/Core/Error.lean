import Mathlib.Init

/-!
# Errors of the library

The error values of `core.ts` and `types.ts`: the closed list of error codes, the `Failure` record a
refusal carries, and what a call may throw.  Host hooks may throw anything; only an `OnlyneError`
is recognized by the library, every other value passes through it untouched.
-/

namespace Onlyne

abbrev NodeId := String

/-- JSON values.  A number is kept as the text `JSON.stringify` prints for it. -/
inductive Json where
  | null
  | bool (value : Bool)
  | number (text : String)
  | string (value : String)
  | array (items : List Json)
  | object (fields : List (String × Json))
  deriving Repr

mutual
/-- Equality of JSON values is decided along their structure. -/
def Json.decEq : (a b : Json) → Decidable (a = b)
  | .null, .null => isTrue rfl
  | .bool x, .bool y => decidable_of_iff (x = y) (by simp)
  | .number x, .number y => decidable_of_iff (x = y) (by simp)
  | .string x, .string y => decidable_of_iff (x = y) (by simp)
  | .array x, .array y =>
    match Json.decEqItems x y with
    | isTrue h => isTrue (by rw [h])
    | isFalse h => isFalse (by simpa using h)
  | .object x, .object y =>
    match Json.decEqFields x y with
    | isTrue h => isTrue (by rw [h])
    | isFalse h => isFalse (by simpa using h)
  | .null, .bool _ | .null, .number _ | .null, .string _ | .null, .array _ | .null, .object _
  | .bool _, .null | .bool _, .number _ | .bool _, .string _ | .bool _, .array _ | .bool _, .object _
  | .number _, .null | .number _, .bool _ | .number _, .string _ | .number _, .array _
  | .number _, .object _ | .string _, .null | .string _, .bool _ | .string _, .number _
  | .string _, .array _ | .string _, .object _ | .array _, .null | .array _, .bool _
  | .array _, .number _ | .array _, .string _ | .array _, .object _ | .object _, .null
  | .object _, .bool _ | .object _, .number _ | .object _, .string _ | .object _, .array _ =>
    isFalse nofun

def Json.decEqItems : (a b : List Json) → Decidable (a = b)
  | [], [] => isTrue rfl
  | x :: xs, y :: ys =>
    match Json.decEq x y, Json.decEqItems xs ys with
    | isTrue h, isTrue hs => isTrue (by rw [h, hs])
    | isFalse h, _ => isFalse (by simp [h])
    | _, isFalse hs => isFalse (by simp [hs])
  | [], _ :: _ | _ :: _, [] => isFalse nofun

def Json.decEqFields : (a b : List (String × Json)) → Decidable (a = b)
  | [], [] => isTrue rfl
  | (k, x) :: xs, (k', y) :: ys =>
    match instDecidableEqString k k', Json.decEq x y, Json.decEqFields xs ys with
    | isTrue hk, isTrue h, isTrue hs => isTrue (by rw [hk, h, hs])
    | isFalse hk, _, _ => isFalse (by simp [hk])
    | _, isFalse h, _ => isFalse (by simp [h])
    | _, _, isFalse hs => isFalse (by simp [hs])
  | [], _ :: _ | _ :: _, [] => isFalse nofun
end

instance : DecidableEq Json := Json.decEq

/-- The error codes of `types.ts`. -/
inductive ErrorCode where
  | invalidRequest
  | unauthenticated
  | forbidden
  | notAMember
  | notFound
  | idConflict
  | revisionConflict
  | requestInProgress
  | conflict
  | threadClosed
  | contextLost
  | retryWindowExpired
  | cursorExpired
  | payloadTooLarge
  | unsupportedMediaType
  | unsupportedDelivery
  | ambiguousTarget
  | ambiguousResource
  | capacityExceeded
  | internal
  | unavailable
  | decisionUnavailable
  deriving DecidableEq, Repr

structure Failure where
  code : ErrorCode
  message : String
  retryable : Bool
  details : Option Json := none
  deriving DecidableEq, Repr

/-- The failure carried by `new OnlyneError(code, message, details)`: whether a retry may help is
decided by the code alone. -/
def onlyneError (code : ErrorCode) (message : String) (details : Option Json := none) : Failure where
  code := code
  message := message
  retryable := code = .unavailable || code = .decisionUnavailable || code = .requestInProgress
  details := details

/-- A thrown value: an `OnlyneError`, or anything else a host hook throws. -/
inductive Thrown where
  | onlyne (error : Failure)
  | other (text : String)
  deriving DecidableEq, Repr

theorem bind_eq_ok {ε α β : Type} {x : Except ε α} {f : α → Except ε β} {b : β} :
    (x >>= f) = .ok b ↔ ∃ a, x = .ok a ∧ f a = .ok b := by
  cases x <;> simp [bind, Except.bind]

theorem bind_eq_error {ε α β : Type} {x : Except ε α} {f : α → Except ε β} {e : ε} :
    (x >>= f) = .error e ↔ x = .error e ∨ ∃ a, x = .ok a ∧ f a = .error e := by
  cases x <;> simp [bind, Except.bind]

end Onlyne
