import RealEstate.Systems.Datetimes
import RealEstate.Systems.JsonText
import RealEstate.Systems.Uuid

/-!
# Cursors (`core/pagination.py`)

A cursor is a flat JSON object in URL-safe base64.

- `encodeCursor`, `decodeCursor`, `clampLimit`: the helpers of every list endpoint.
- `datetimeOf`, `decimalOf`, `uuidOf`: the constructors that the decoders of the modules apply
  to the fields, with what they raise.
- `decodeCursor_encodeCursor`: the fields are read back.
-/

namespace RealEstate

namespace Core

open Systems

/-- `DEFAULT_PAGE_SIZE`. -/
def defaultPageSize : Nat := 24

/-- `MAX_PAGE_SIZE`. -/
def maxPageSize : Nat := 100

/-- `clamp_limit`. -/
def clampLimit (limit : Option Int) : Nat :=
  match limit with
  | none => defaultPageSize
  | some n => (max 1 (min n maxPageSize)).toNat

/-- A page is never empty by its limit. -/
theorem clampLimit_pos (limit : Option Int) : 0 < clampLimit limit := by
  cases limit with
  | none => decide
  | some n =>
    show 0 < (max 1 (min n maxPageSize)).toNat
    omega

/-- Every size a page may have is kept. -/
theorem clampLimit_eq {n : Nat} (h : 1 ≤ n) (h' : n ≤ maxPageSize) :
    clampLimit (some n) = n := by
  show (max 1 (min (n : Int) maxPageSize)).toNat = n
  omega

/-- How reading a cursor fails: with an `InvalidCursorError`, or an exception no one catches. -/
inductive CursorError where
  | invalid (detail : String)
  | uncaught (e : PyException)
  deriving DecidableEq, Repr

/-- The one message for all that is no cursor. -/
def malformed : CursorError := .invalid "The provided cursor is malformed."

/-- `except (…) as exc: raise InvalidCursorError(…) from exc`. -/
def orMalformed {α : Type} (caught : List PyException) : Except PyException α → Except CursorError α
  | .ok a => .ok a
  | .error e => .error (if e ∈ caught then malformed else .uncaught e)

/-- The fields of a `dict`. -/
abbrev CursorFields := List (Text × JsonValue)

/-- `encode_cursor`. -/
def encodeCursor (values : List (Text × Scalar)) : Text := b64encode (encodeUtf8 (dumps values))

section

variable (limit : Nat)

/-- `json.loads(base64.urlsafe_b64decode(cursor.encode()))`. -/
def loadsCursor (cursor : Text) : Except PyException JsonValue :=
  match b64decode cursor with
  | some b => loads limit b
  | none => .error .binasciiError

/-- `decode_cursor`. `limit` is how deep a JSON value may nest. -/
def decodeCursor (cursor : Text) : Except CursorError CursorFields := do
  let decoded ← orMalformed [.binasciiError, .jsonDecodeError, .unicodeDecodeError]
    (loadsCursor limit cursor)
  match decoded with
  | .obj fields => return fields
  | _ => throw malformed

/-- No cursor is empty. -/
theorem encodeCursor_ne_nil (values : List (Text × Scalar)) : encodeCursor values ≠ [] := by
  intro h
  have hbytes := b64decode_b64encode (encodeUtf8 (dumps values))
  have hempty : some [] = some (encodeUtf8 (dumps values)) := by
    rw [← hbytes]
    show b64decode [] = b64decode (encodeCursor values)
    rw [h]
  have htext := decodeUtf8_encodeUtf8 (dumps values)
  rw [← Option.some.inj hempty] at htext
  cases htext

/-- **Cursors are read back.** -/
theorem decodeCursor_encodeCursor {limit : Nat} (hlimit : 0 < limit)
    {values : List (Text × Scalar)} (h : (values.map Prod.fst).Nodup) :
    decodeCursor limit (encodeCursor values) =
      .ok (values.map fun value => (value.1, value.2.toJson)) := by
  rw [decodeCursor, encodeCursor, loadsCursor, b64decode_b64encode]
  show (orMalformed _ (loads limit (encodeUtf8 (dumps values)))).bind _ = _
  rw [loads_dumps hlimit h]
  rfl

end

/-! ### The fields of a cursor -/

/-- `values[key]`. -/
def fieldOf (key : String) (values : CursorFields) : Except PyException JsonValue :=
  match values.lookup key.toList with
  | some value => .ok value
  | none => .error .keyError

/-- `bool(value)`. -/
def boolOf : JsonValue → Bool
  | .null => false
  | .bool b => b
  | .int n => n ≠ 0
  | .float (.decimal _ mantissa _) => mantissa ≠ 0
  | .float _ => true
  | .str t => t ≠ []
  | .arr xs => !xs.isEmpty
  | .obj fields => !fields.isEmpty

/-- `datetime.fromisoformat(value)`. -/
def datetimeOf : JsonValue → Except PyException Datetime
  | .str t =>
    match fromisoformat t with
    | some t => .ok t
    | none => .error .valueError
  | _ => .error .typeError

/-- `uuid.UUID(value)`: the text is taken for one without a check. -/
def uuidOf : JsonValue → Except PyException UUID
  | .str t =>
    match parseUuid t with
    | some u => .ok u
    | none => .error .valueError
  | .null => .error .typeError
  | _ => .error .attributeError

/-- An `int` of a list that stands for a decimal, as a C `long`. -/
def longOf : JsonValue → Except PyException Int
  | .int n => if -2 ^ 63 ≤ n ∧ n < 2 ^ 63 then .ok n else .error .overflowError
  | .bool b => .ok b.toNat
  | _ => .error .valueError

/-- The digits of such a list. -/
def digitsOf : List JsonValue → Except PyException Text
  | [] => .ok []
  | x :: xs => do
    let n ← longOf x
    if n < 0 ∨ 9 < n then throw .valueError
    return n.toNat.digitChar :: (← digitsOf xs)

/-- The last part of such a list: an exponent, or the letter of a special value. -/
def exponentOf : JsonValue → Except PyException (Char ⊕ Int)
  | .str [c] => if c = 'F' ∨ c = 'n' ∨ c = 'N' then .ok (.inl c) else .error .valueError
  | .str _ => .error .valueError
  | value => (longOf value).map .inr

/-- `Decimal([sign, digits, exponent])`. -/
def decimalOfParts (sign digits exponent : JsonValue) : Except PyException Decimal := do
  let n ← longOf sign
  if n ≠ 0 ∧ n ≠ 1 then throw .valueError
  let exponent ← exponentOf exponent
  let ds ←
    match digits with
    | .arr xs => digitsOf xs
    | _ => throw .valueError
  match exponent with
  | .inl c => return if c = 'F' then .infinity (n = 1) else .nan
  | .inr e =>
    match Decimal.ofParts (n = 1) (if ds = [] then ['0'] else ds) e with
    | some d => return d
    | none => throw .invalidOperation

/-- `Decimal(value)`. -/
def decimalOf : JsonValue → Except PyException Decimal
  | .str t =>
    match parseDecimal t with
    | some d => .ok d
    | none => .error .invalidOperation
  | .int n => .ok (.finite (n < 0) n.natAbs 0)
  | .bool b => .ok (.finite false b.toNat 0)
  | .float (.decimal negative mantissa exponent) => .ok (.finite negative mantissa exponent)
  | .float (.infinity negative) => .ok (.infinity negative)
  | .float .nan => .ok .nan
  | .arr [sign, digits, exponent] => decimalOfParts sign digits exponent
  | .arr _ => .error .valueError
  | .null | .obj _ => .error .typeError

end Core

end RealEstate
