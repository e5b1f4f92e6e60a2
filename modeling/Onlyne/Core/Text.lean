import Onlyne.Core.Error

/-!
# Text helpers of `core.ts`

Storage keys, decimal positions, deadlines and the JSON text of a string, computed as the source
computes them.  A Lean string is a sequence of Unicode scalar values: the lone surrogates a
JavaScript string may hold, on which `encodeURIComponent` throws, do not occur.
-/

namespace Onlyne

/-! ## Storage keys -/

/-- The characters `encodeURIComponent` keeps. -/
def unreserved (c : Char) : Bool := c.isAlphanum || "-_.!~*'()".toList.contains c

def upperHex (n : Nat) : Char := if n < 10 then Char.ofNat (48 + n) else Char.ofNat (55 + n)

/-- The UTF-8 bytes of every other character are written as `%XX`. -/
def encodeChar (c : Char) : List Char :=
  if unreserved c then [c]
  else (String.utf8EncodeChar c).flatMap fun byte =>
    ['%', upperHex (byte.toNat / 16), upperHex (byte.toNat % 16)]

/-- The `encodeURIComponent` of JavaScript. -/
def encodeURIComponent (text : String) : String := String.ofList (text.toList.flatMap encodeChar)

/-- A storage key: its parts encoded and joined by slashes. -/
def key (parts : List String) : String := "/".intercalate (parts.map encodeURIComponent)

/-! ## Decimal positions and deadlines -/

/-- A position: decimal digits without a leading zero. -/
def decimal (value : String) : Except Failure Nat :=
  match value.toList with
  | ['0'] => .ok 0
  | first :: rest =>
    if first ≠ '0' && (first :: rest).all Char.isDigit then
      .ok ((first :: rest).foldl (fun n digit => 10 * n + (digit.toNat - 48)) 0)
    else .error (onlyneError .invalidRequest "Expected a decimal sequence string.")
  | [] => .error (onlyneError .invalidRequest "Expected a decimal sequence string.")

theorem head_toDigits_ne_zero {n : Nat} (hn : 0 < n) : (Nat.toDigits 10 n).head? ≠ some '0' := by
  induction n using Nat.strongRecOn with
  | ind n ih =>
    rw [Nat.toDigits_eq_if (by omega)]
    split
    · next hlt =>
      have hdigit : ∀ n < 10, 0 < n → [Nat.digitChar n].head? ≠ some '0' := by decide
      exact hdigit n hlt hn
    · have hhead := ih (n / 10) (by omega) (by omega)
      cases hdig : Nat.toDigits 10 (n / 10) with
      | nil => exact absurd hdig Nat.toDigits_ne_nil
      | cons =>
        rw [hdig] at hhead
        simpa using hhead

theorem decimal_toString (n : Nat) : decimal (toString n) = .ok n := by
  by_cases hn : n = 0
  · subst hn
    rfl
  have hhead := head_toDigits_ne_zero (Nat.pos_of_ne_zero hn)
  have hval : Nat.ofDigitChars 10 (Nat.toDigits 10 n) 0 = n := Nat.ofDigitChars_ten_toDigits
  have hdig : ∀ c ∈ Nat.toDigits 10 n, c.isDigit = true :=
    fun c hc => Nat.isDigit_of_mem_toDigits (by omega) (by omega) hc
  unfold decimal
  rw [Nat.toString_eq_ofList_toDigits, String.toList_ofList]
  split
  · next heq =>
    rw [heq] at hhead
    exact absurd rfl hhead
  · next first rest hne heq =>
    rw [heq] at hhead hval hdig
    rw [if_pos]
    · exact congrArg Except.ok hval
    · simp only [Bool.and_eq_true, decide_eq_true_eq, List.all_eq_true]
      exact ⟨by simpa using hhead, hdig⟩
  · next heq => exact absurd heq Nat.toDigits_ne_nil

theorem toString_nat_injective {m n : Nat} (h : toString m = toString n) : m = n := by
  have hdec := decimal_toString m
  rw [h, decimal_toString] at hdec
  exact (Except.ok.inj hdec).symm

/-- The line terminators a `.` of a regular expression does not match. -/
def lineTerminator (c : Char) : Bool :=
  c = '\n' || c = '\r' || c = Char.ofNat 0x2028 || c = Char.ofNat 0x2029

/-- The shape `YYYY-MM-DDT…Z`. -/
def utcShape (value : String) : Bool :=
  match value.toList with
  | y₁ :: y₂ :: y₃ :: y₄ :: '-' :: m₁ :: m₂ :: '-' :: d₁ :: d₂ :: 'T' :: rest =>
    [y₁, y₂, y₃, y₄, m₁, m₂, d₁, d₂].all Char.isDigit && rest.getLast? = some 'Z' &&
      rest.dropLast.all fun c => !lineTerminator c
  | _ => false

/-- The milliseconds of a UTC deadline, given the `Date.parse` of the platform. -/
def utc (dateParse : String → Option Int) (value : String) : Except Failure Int :=
  match utcShape value, dateParse value with
  | true, some time => .ok time
  | _, _ => .error (onlyneError .invalidRequest "Expected a UTC RFC3339 deadline.")

/-! ## JSON text -/

def lowerHex (n : Nat) : Char := if n < 10 then Char.ofNat (48 + n) else Char.ofNat (87 + n)

def quoteChar (c : Char) : List Char :=
  if c = '"' then ['\\', '"']
  else if c = '\\' then ['\\', '\\']
  else if c = Char.ofNat 8 then ['\\', 'b']
  else if c = '\t' then ['\\', 't']
  else if c = '\n' then ['\\', 'n']
  else if c = Char.ofNat 12 then ['\\', 'f']
  else if c = '\r' then ['\\', 'r']
  else if c.toNat < 32 then
    ['\\', 'u', '0', '0', lowerHex (c.toNat / 16), lowerHex (c.toNat % 16)]
  else [c]

/-- The `JSON.stringify` of a string. -/
def quote (text : String) : String :=
  String.ofList ('"' :: text.toList.flatMap quoteChar ++ ['"'])

/-! ## Titles -/

/-- What `\s` matches and `trim` removes. -/
def whiteSpace (c : Char) : Bool :=
  [9, 10, 11, 12, 13, 32, 0xA0, 0x1680, 0x2028, 0x2029, 0x202F, 0x205F, 0x3000, 0xFEFF].contains
      c.toNat || (0x2000 ≤ c.toNat && c.toNat ≤ 0x200A)

/-- Every run of white space becomes one blank; `inside` says that the last character read was white
space. -/
def collapse (inside : Bool) : List Char → List Char
  | [] => []
  | c :: rest =>
    if whiteSpace c then
      if inside then collapse true rest else ' ' :: collapse true rest
    else c :: collapse false rest

/-- The characters that fit in `units` UTF-16 units.  The source may cut the last pair in half. -/
def takeUnits (units : Nat) : List Char → List Char
  | [] => []
  | c :: rest =>
    let size := if c.toNat < 0x10000 then 1 else 2
    if size ≤ units then c :: takeUnits (units - size) rest else []

def contactTitle (msg deliveryKind : String) : String :=
  let trimmed := ((collapse false msg.toList).dropWhile whiteSpace).reverse.dropWhile whiteSpace
  let title := takeUnits 100 trimmed.reverse
  if title.isEmpty then deliveryKind else String.ofList title

end Onlyne
