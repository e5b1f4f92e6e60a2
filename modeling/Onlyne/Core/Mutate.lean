import Onlyne.Core.Canonical
import Onlyne.Foundation.Once
import Onlyne.Foundation.Run
import Onlyne.Foundation.Table

/-!
# Repeatable calls

The `mutate` of `core.ts` over the rows of a host store.  The idempotency row of a call, the window and the
work share one transaction: what it throws rolls everything back.

A request carries its work, any function of the rows that leaves the idempotency rows alone, as the works
of the library do.  `mutations_idempotent` says what every interleaving of such calls keeps.
-/

namespace Onlyne.Core

open Foundation List

/-! ## The store and the context -/

abbrev Storage := Table String Json

structure Context where
  retryMaxMs : Int := 86400000
  dateParse : String → Option Int
  -- The hexadecimal digest of a text.
  digest : String → String

def throws (code : ErrorCode) (message : String) : Thrown := .onlyne (onlyneError code message)

section

variable (ctx : Context) (s : Storage)

/-- The window must end after now and within the supported maximum; the clock is read twice. -/
def deadline (first second : Int) (retryUntil : String) : Except Thrown Unit :=
  match utc ctx.dateParse retryUntil with
  | .error failure => .error (.onlyne failure)
  | .ok time =>
    if time ≤ first then
      .error (throws .retryWindowExpired "The admission window expired.")
    else if time > second + ctx.retryMaxMs then
      .error (throws .invalidRequest "The admission window exceeds the supported maximum.")
    else .ok ()

def fingerprint (value : Json) : String := ctx.digest (canonical value)

/-! ## Rows -/

def field (value : Json) (name : String) : Option Json :=
  match value with
  | .object fields => (fields.find? fun entry => entry.1 = name).map Prod.snd
  | _ => none

def truthy : Json → Bool
  | .null => false
  | .bool value => value
  | .number text => text ≠ "0"
  | .string value => value ≠ ""
  | .array _ | .object _ => true

/-- The work of a call, which leaves the idempotency rows alone. -/
structure Work where
  run : Storage → Except Thrown (Json × Storage)
  keeps : ∀ s result s', run s = .ok (result, s') → ∀ parts,
    s'.get (key ("idempotency" :: parts)) = s.get (key ("idempotency" :: parts))

/-! ## The call -/

structure Request where
  actor : NodeId
  operation : String
  idempotencyKey : String
  retryUntil : String
  body : Json
  plain : body.plain = true
  work : Work
  windowStart : Int
  windowEnd : Int

def Request.name (request : Request) : NodeId × String × String :=
  (request.actor, request.operation, request.idempotencyKey)

/-- The parts of the key of an idempotency row, after the first. -/
def slotParts (name : NodeId × String × String) : List String := [name.1, name.2.1, name.2.2]

def slotKey (name : NodeId × String × String) : String := key ("idempotency" :: slotParts name)

def Request.content (request : Request) : Json :=
  .object [("body", request.body), ("retry_until", .string request.retryUntil)]

/-- Run the work of a call once for each key of its caller. -/
def mutate (request : Request) (tx : Storage) : Except Thrown (Json × Storage) :=
  if request.actor = "" then .error (throws .unauthenticated "Authentication is required.")
  else if request.idempotencyKey = "" then
    .error (throws .invalidRequest "An idempotency key is required.")
  else
    let slot := slotKey request.name
    let digest := fingerprint ctx request.content
    match (tx.get slot).filter truthy with
    | some previous =>
      if field previous "digest" ≠ some (.string digest) then
        .error (throws .idConflict "The idempotency key is bound to another request.")
      else .ok ((field previous "result").getD .null, tx)
    | none => do
      deadline ctx request.windowStart request.windowEnd request.retryUntil
      let (result, tx') ← request.work.run tx
      .ok (result, tx'.put slot (.object [("digest", .string digest), ("result", result)]))

/-! ## Interleavings -/

inductive Act where
  | mutate (request : Request)
  | other (work : Work)

/-- The answer of a transaction, with the rows it leaves when it commits. -/
def perform : Act → Except Thrown (Json × Storage)
  | .mutate request => Core.mutate ctx request s
  | .other work => work.run s

def step (act : Act) : Option Storage :=
  match perform ctx s act with
  | .ok (_, s') => some s'
  | .error _ => some s

def commits (request : Request) : Option Json :=
  match (s.get (slotKey request.name)).filter truthy, mutate ctx request s with
  | none, .ok (result, _) => some result
  | _, _ => none

end

/-- Two calls ask for the same: the same body, whatever the order of its fields, and the same window. -/
def Request.same (a b : Request) : Prop :=
  a.body.normal = b.body.normal ∧ a.retryUntil = b.retryUntil

/-! ## The idempotency rows as slots -/

def slotRow (row : Option Json × Json) : Json :=
  match row.1 with
  | some digest => .object [("digest", digest), ("result", row.2)]
  | none => .object [("result", row.2)]

def readSlot (row : Json) : Option Json × Json :=
  (field row "digest", (field row "result").getD .null)

theorem slotKey_ne {name name' : NodeId × String × String} (h : name' ≠ name) : slotKey name' ≠ slotKey name := by
  intro heq
  have hparts := key_injective (cons_ne_nil _ _) (cons_ne_nil _ _) heq
  simp only [slotParts, List.cons.injEq, true_and, and_true] at hparts
  exact h (Prod.ext hparts.1 (Prod.ext hparts.2.1 hparts.2.2))

def slots : Slots Storage (NodeId × String × String) (Option Json) Json where
  get s name := ((s.get (slotKey name)).filter truthy).map readSlot
  fill s name row := s.put (slotKey name) (slotRow row)
  get_fill s name row := by
    obtain ⟨_ | digest, result⟩ := row <;> simp [slotRow, truthy, readSlot, field]
  get_fill_ne s name name' row hne := by rw [Table.get_put_ne _ _ (slotKey_ne hne)]

theorem Work.keeps_slots (work : Work) : slots.Keeps work.run := by
  intro s result s' hrun name
  unfold slots slotKey
  dsimp only
  rw [work.keeps s result s' hrun]

def conflict : Thrown := throws .idConflict "The idempotency key is bound to another request."

/-- A call of an authenticated caller with a key is the protocol of the library. -/
theorem mutate_eq_once {ctx : Context} {request : Request} {s : Storage} (hac : request.actor ≠ "")
    (hkey : request.idempotencyKey ≠ "") : mutate ctx request s = once slots conflict request.name
      (some (.string (fingerprint ctx request.content)))
      (deadline ctx request.windowStart request.windowEnd request.retryUntil) request.work.run s := by
  unfold mutate once
  rw [if_neg hac, if_neg hkey]
  dsimp only [slots]
  cases (s.get (slotKey request.name)).filter truthy with
  | none =>
    cases deadline ctx request.windowStart request.windowEnd request.retryUntil with
    | error => rfl
    | ok =>
      cases request.work.run s with
      | error => rfl
      | ok => rfl
  | some previous =>
    dsimp only [Option.map_some, readSlot]
    by_cases hdig : field previous "digest" = some (.string (fingerprint ctx request.content))
    · rw [if_neg (not_not.mpr hdig), if_pos hdig]
    · rw [if_pos hdig, if_neg hdig]
      rfl

/-! ## One call -/

section Call

variable {ctx : Context} {s s' : Storage} {request : Request}

variable {row : Option Json × Json} {name : NodeId × String × String} {result : Json}

theorem mutate_named (h : mutate ctx request s = .ok (result, s')) :
    request.actor ≠ "" ∧ request.idempotencyKey ≠ "" := by
  unfold mutate at h
  split_ifs at h with hac hkey
  exact ⟨hac, hkey⟩

theorem commits_eq_some (h : commits ctx s request = some result) :
    slots.get s request.name = none ∧ ∃ s', mutate ctx request s = .ok (result, s') := by
  unfold commits at h
  split at h
  · next hfree hmut =>
    cases h
    refine ⟨?_, _, hmut⟩
    simp [slots, hfree]
  · cases h

theorem commits_of_bound (h : slots.get s request.name = some row) : commits ctx s request = none := by
  cases hcom : commits ctx s request with
  | none => rfl
  | some =>
    rw [(commits_eq_some hcom).1] at h
    cases h

/-- What a call can do to the rows: nothing, or the rows of its work and its own idempotency row. -/
theorem mutate_rows (h : mutate ctx request s = .ok (result, s')) :
    s' = s ∨ ∃ tx row, request.work.run s = .ok (result, tx) ∧ s' = tx.put (slotKey request.name) row := by
  obtain ⟨hac, hkey⟩ := mutate_named h
  rw [mutate_eq_once hac hkey] at h
  rcases once_ok h with ⟨-, hsame⟩ | ⟨-, -, tx, hwork, hfill⟩
  · exact .inl hsame
  · exact .inr ⟨tx, _, hwork, hfill⟩

/-- The content of two calls has one text exactly when they ask for the same. -/
theorem fingerprint_content_eq_iff (hdig : Function.Injective ctx.digest) (a b : Request) :
    fingerprint ctx a.content = fingerprint ctx b.content ↔ a.same b := by
  have hpl (request : Request) : request.content.plain = true := by
    simp [Request.content, Json.plain, request.plain]
  have hnormal (request : Request) : request.content.normal =
      .object [("body", request.body.normal), ("retry_until", .string request.retryUntil)] := by
    have horder : textUnits "body" ≤ textUnits "retry_until" := by decide
    simp [Request.content, Json.normal, sortedBy, horder]
  unfold fingerprint Request.same
  rw [hdig.eq_iff, canonical_eq_iff (hpl a) (hpl b), hnormal, hnormal]
  simp

theorem step_keeps {act : Act} (hstep : step ctx s act = some s')
    (hrow : slots.get s name = some row) : slots.get s' name = some row := by
  unfold step at hstep
  split at hstep
  · next result tx hperf =>
    cases hstep
    cases act with
    | mutate request =>
      have hmut : mutate ctx request s = .ok (result, s') := hperf
      obtain ⟨hac, hkey⟩ := mutate_named hmut
      rw [mutate_eq_once hac hkey] at hmut
      exact once_keeps request.work.keeps_slots hmut hrow
    | other work =>
      rw [work.keeps_slots s result s' hperf]
      exact hrow
  · cases hstep
    exact hrow

theorem step_binds (hstep : step ctx s (.mutate request) = some s')
    (hcom : commits ctx s request = some result) : slots.get s' request.name =
      some (some (.string (fingerprint ctx request.content)), result) := by
  obtain ⟨-, tx, hmut⟩ := commits_eq_some hcom
  have hperf : perform ctx s (.mutate request) = .ok (result, tx) := hmut
  unfold step at hstep
  rw [hperf] at hstep
  cases hstep
  obtain ⟨hac, hkey⟩ := mutate_named hmut
  rw [mutate_eq_once hac hkey] at hmut
  exact once_binds hmut

/-- A call whose slot is bound by a call that asked for the same gets its result, and one that asks for
something else gets a conflict. -/
theorem mutate_of_bound (hdig : Function.Injective ctx.digest) {first : Request}
    (hname : request.name = first.name) (hac : first.actor ≠ "")
    (hkey : first.idempotencyKey ≠ "") (hbd : slots.get s first.name =
      some (some (.string (fingerprint ctx first.content)), result)) :
    (request.same first → mutate ctx request s = .ok (result, s)) ∧
      (¬ request.same first → mutate ctx request s = .error conflict) := by
  have hac' : request.actor ≠ "" := by
    rwa [show request.actor = first.actor from congrArg Prod.fst hname]
  have hkey' : request.idempotencyKey ≠ "" := by
    rwa [show request.idempotencyKey = first.idempotencyKey from congrArg (fun n => n.2.2) hname]
  rw [← hname] at hbd
  rw [mutate_eq_once hac' hkey', once_bound hbd, ← fingerprint_content_eq_iff hdig]
  constructor
  · intro hsame
    rw [if_pos (by rw [hsame])]
  · intro hoth
    rw [if_neg]
    intro heq
    simp only [Option.some.injEq, Json.string.injEq] at heq
    exact hoth heq.symm

section

variable (hstep : step ctx s (.mutate request) = some s')
include hstep

theorem step_fails {failure : Thrown} (hfails : deadline ctx request.windowStart request.windowEnd request.retryUntil =
      .error failure ∨ request.work.run s = .error failure) : s' = s := by
  unfold step at hstep
  split at hstep
  · next result tx hperf =>
    cases hstep
    have hmut : mutate ctx request s = .ok (result, s') := hperf
    obtain ⟨hac, hkey⟩ := mutate_named hmut
    rw [mutate_eq_once hac hkey] at hmut
    exact once_fails hfails hmut
  · cases hstep
    rfl

theorem step_other (hname : name ≠ request.name) : s'.get (slotKey name) = s.get (slotKey name) := by
  unfold step at hstep
  split at hstep
  · next result tx hperf =>
    cases hstep
    rcases mutate_rows hperf with rfl | ⟨tx, row, hwork, rfl⟩
    · rfl
    · rw [Table.get_put_ne _ _ (slotKey_ne hname)]
      exact request.work.keeps s result tx hwork (slotParts name)
  · cases hstep
    rfl

end

end Call

/-! ## Whole interleavings -/

namespace Scenario

def context : Context where
  dateParse _ := some 100
  digest := id

def writes : Work where
  run s := .ok (.string "done", s.put (key ["row"]) .null)
  keeps s result s' hrun parts := by
    cases hrun
    apply Table.get_put_ne
    intro heq
    have hparts := key_injective (List.cons_ne_nil _ _) (List.cons_ne_nil _ _) heq
    exact absurd (List.cons.inj hparts).1 (by decide)

/-- `a` asks for the work, in one window or another. -/
def asks (retryUntil : String) : Act :=
  .mutate {
    actor := "a"
    operation := "op"
    idempotencyKey := "k"
    retryUntil := retryUntil
    body := .object [("title", .string "t")]
    plain := by decide
    work := writes
    windowStart := 0
    windowEnd := 0 }

def after (s : Storage) (act : Act) : Storage :=
  match perform context s act with
  | .ok (_, s') => s'
  | .error _ => s

theorem step_after (s : Storage) (act : Act) : step context s act = some (after s act) := by
  unfold step after
  split <;> rfl

def answer (s : Storage) (act : Act) : Option Json × Option ErrorCode :=
  match perform context s act with
  | .ok (result, _) => (some result, none)
  | .error (.onlyne failure) => (none, some failure.code)
  | .error (.other _) => (none, none)

end Scenario

end Onlyne.Core
