import Onlyne.Messages.Http

/-!
# Messages: bodies that were read as text

An authenticated route hands `json` the text that it read for the signature, a public one the stream.  Only the stream
is counted against the limit, and only its decoder refuses what is not UTF-8.
-/

namespace Onlyne.Messages.Http

open Resources.Routes (invalidRequest)

/-- `JSON.parse`, `request.text`, and the decoder that refuses what is not UTF-8. -/
structure Decoders where
  parse : String → Option Json
  text : List UInt8 → String
  decode : List UInt8 → Option String
  parse_empty : parse "" = none
  decode_nil : decode [] = some ""
  text_of_decode : ∀ bytes decoded, decode bytes = some decoded → text bytes = decoded

variable (D : Decoders) (limit : Nat) (request : Request) (chunks : List (List UInt8))

def rawBody (text : String) : RawBody :=
  if text = "" then .empty
  else match D.parse text with
    | none => .malformed
    | some value => .parsed value

def textJson : Except Thrown Json := json limit { request with body := rawBody D (D.text chunks.flatten) }

def gather : List UInt8 → List (List UInt8) → Option (List UInt8)
  | bytes, [] => some bytes
  | bytes, chunk :: rest => if bytes.length + chunk.length > limit then none else gather (bytes ++ chunk) rest

def streamJson : Except Thrown Json :=
  if request.contentLength.any (· > limit) then
    .error (Core.throws .payloadTooLarge ("The request body exceeds " ++ toString limit ++ " bytes."))
  else if request.mediaType ≠ "application/json" then
    .error (Core.throws .unsupportedMediaType "Content-Type must be application/json.")
  else
    match gather limit [] chunks with
    | none => .error (Core.throws .payloadTooLarge ("The request body exceeds " ++ toString limit ++ " bytes."))
    | some [] => .error (invalidRequest "A JSON body is required.")
    | some bytes =>
      match (D.decode bytes).bind D.parse with
      | none => .error (invalidRequest "The request body is not valid UTF-8 JSON.")
      | some value => .ok value

def outcome (result : Except Thrown Json) : Except ErrorCode Json := result.mapError fun thrown => (failure thrown).code

def Opens : Prop := request.contentLength.any (· > limit) = false ∧ request.mediaType = "application/json"

/-- Both ways have one outcome, and what is too long or not UTF-8 is refused. -/
structure DecodedAlike : Prop where
  same : outcome (textJson D limit request chunks) = outcome (streamJson D limit request chunks)
  tooLarge : Opens limit request → limit < chunks.flatten.length →
    outcome (textJson D limit request chunks) = .error .payloadTooLarge
  invalid : D.decode chunks.flatten = none → ∃ code, outcome (textJson D limit request chunks) = .error code

theorem gather_eq (bytes : List UInt8) (h : bytes.length ≤ limit) : gather limit bytes chunks =
    if (bytes ++ chunks.flatten).length ≤ limit then some (bytes ++ chunks.flatten) else none := by
  induction chunks generalizing bytes with
  | nil => simp [gather, h]
  | cons chunk rest ih =>
    rw [gather, List.flatten_cons]
    split_ifs with hlong hfits hfits
    · simp at hfits
      omega
    · rfl
    all_goals
      rw [ih _ (by simpa using hlong)]
      simpa using hfits

variable {limit request}

theorem outcome_text (h : Opens limit request) : outcome (textJson D limit request chunks) =
    (D.parse (D.text chunks.flatten)).elim (.error .invalidRequest) .ok := by
  have hemp := D.parse_empty
  simp only [textJson, json, h.1, h.2, rawBody]
  grind [outcome, Except.mapError, failure, invalidRequest, Core.throws, onlyneError]

theorem outcome_stream (h : Opens limit request) : outcome (streamJson D limit request chunks) =
    if chunks.flatten.length ≤ limit then
      ((D.decode chunks.flatten).bind D.parse).elim (.error .invalidRequest) .ok else .error .payloadTooLarge := by
  have hemp : (D.decode []).bind D.parse = none := by simp [D.decode_nil, D.parse_empty]
  have hgather := gather_eq limit chunks [] (Nat.zero_le _)
  simp only [streamJson, h.1, h.2, List.nil_append] at hgather ⊢
  grind [outcome, Except.mapError, failure, invalidRequest, Core.throws, onlyneError]

theorem outcome_closed (h : ¬ Opens limit request) : ∃ code, outcome (textJson D limit request chunks) = .error code ∧
    outcome (streamJson D limit request chunks) = .error code := by
  unfold textJson json streamJson
  dsimp only
  split_ifs with hdecl htype
  · exact ⟨_, rfl, rfl⟩
  · exact ⟨_, rfl, rfl⟩
  · exact absurd ⟨eq_false_of_ne_true hdecl, not_not.mp htype⟩ h

def plainDecoders : Decoders where
  parse text := if text = "" then none else some (.string text)
  text bytes := String.ofList (bytes.map fun byte => if byte < 128 then Char.ofNat byte.toNat else Char.ofNat 65533)
  decode bytes := if bytes.all (· < 128) then some (String.ofList (bytes.map fun byte => Char.ofNat byte.toNat)) else none
  parse_empty := rfl
  decode_nil := rfl
  text_of_decode bytes decoded h := by
    obtain ⟨hall, ⟨⟩⟩ := Option.ite_none_right_eq_some.mp h
    refine congrArg String.ofList (List.map_congr_left fun byte hbyte => if_pos ?_)
    simpa using List.all_eq_true.mp hall byte hbyte

end Onlyne.Messages.Http
