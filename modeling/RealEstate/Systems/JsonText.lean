import RealEstate.Systems.Numerals
import RealEstate.Systems.Unicode

/-!
# JSON text

`json.loads` reads a text character by character. `step` is what one character does to what has
been read: the containers that are open and the place in the innermost one.

- `loads`: `json.loads` of bytes, with the exceptions it may raise.
- `dumps`: `json.dumps` of an object of scalars, with the separators `,` and `:`.
- `loads_dumps`: such an object is read back.
-/

namespace RealEstate

namespace Systems

/-- A `float`. A finite one is kept as the decimal that was read: `± mantissa * 10 ^ exponent`,
without its last rounding. -/
inductive JsonFloat where
  | decimal (negative : Bool) (mantissa : Nat) (exponent : Int)
  | infinity (negative : Bool)
  | nan
  deriving DecidableEq

/-- `m * 10 ^ e < n / d`. -/
def scaledLt (m : Nat) (e : Int) (n d : Nat) : Bool :=
  if 0 ≤ e then m * 10 ^ e.toNat * d < n else m * d < n * 10 ^ (-e).toNat

/-- The float that a decimal is rounded to: none is larger than `2 ^ 1024 - 2 ^ 970`, and one
below `2 ^ -1075` is zero. -/
def JsonFloat.ofDecimal (negative : Bool) (mantissa : Nat) (exponent : Int) : JsonFloat :=
  if scaledLt mantissa exponent (2 ^ 1024 - 2 ^ 970) 1 then
    if scaledLt mantissa exponent 1 (2 ^ 1075) then .decimal negative 0 0
    else .decimal negative mantissa exponent
  else .infinity negative

/-- What `json.loads` returns. -/
inductive JsonValue where
  | null
  | bool (b : Bool)
  | int (n : Int)
  | float (x : JsonFloat)
  | str (t : Text)
  | arr (xs : List JsonValue)
  | obj (fields : List (Text × JsonValue))

/-- The exceptions of the standard library that reading a text or a JSON value meets. -/
inductive PyException where
  | binasciiError
  | unicodeDecodeError
  | jsonDecodeError
  | recursionError
  | valueError
  | typeError
  | keyError
  | attributeError
  | overflowError
  | invalidOperation
  deriving DecidableEq, Repr

/-- `{**fields, key: value}`. -/
def setField (key : Text) (value : JsonValue) :
    List (Text × JsonValue) → List (Text × JsonValue)
  | [] => [(key, value)]
  | (k, v) :: fields =>
    if k = key then (k, value) :: fields else (k, v) :: setField key value fields

/-! ### The reader -/

/-- A container that is open. -/
inductive Frame where
  /-- The items so far, the last first. -/
  | arr (items : List JsonValue)
  /-- The fields so far, and the key of the next one. -/
  | obj (fields : List (Text × JsonValue)) (key : Text)

/-- Where in an escape sequence of a string. -/
inductive Escape where
  | off
  | backslash
  | hex (digits : Text)

/-- Where in a number. -/
inductive NumberPart where
  | minus
  | int
  /-- After the point, with no digit yet. -/
  | point
  | fraction
  /-- After the `e`, with no digit yet. -/
  | exponent
  | exponentSign
  | exponentDigits

/-- The digits of a number so far. -/
structure Number where
  negative : Bool := false
  int : Text := []
  fraction : Text := []
  exponentNegative : Bool := false
  exponent : Text := []

/-- What is read next. -/
inductive Mode where
  /-- A value; or the end of the array, if it has just been opened. -/
  | value (opened : Bool)
  /-- A key; or the end of the object, if it has just been opened. -/
  | key (opened : Bool)
  | colon
  /-- After a value: a comma, or the end of the container. -/
  | comma
  /-- In a string, read backwards in `acc`; a high surrogate may wait for its low one. -/
  | string (isKey : Bool) (acc : Text) (high : Option Nat) (escape : Escape)
  | number (part : NumberPart) (n : Number)
  /-- In a constant, with the rest of its name. -/
  | constant (rest : Text) (value : JsonValue)
  | done (value : JsonValue)

/-- The state of a scanner. -/
structure Reader where
  mode : Mode
  stack : List Frame

/-- `sys.get_int_max_str_digits()`. -/
def maxStrDigits : Nat := 4300

/-- White space between tokens. -/
def isBlank (c : Char) : Bool := c = ' ' || c = '\t' || c = '\n' || c = '\r'

/-- A value has been read. -/
def complete (v : JsonValue) : List Frame → Reader
  | [] => ⟨.done v, []⟩
  | .arr items :: stack => ⟨.comma, .arr (v :: items) :: stack⟩
  | .obj fields key :: stack => ⟨.comma, .obj (setField key v fields) [] :: stack⟩

/-- The text read so far; a high surrogate that stays alone is replaced. -/
def flush (acc : Text) (high : Option Nat) : Text := if high.isSome then '\uFFFD' :: acc else acc

/-- The character of a short escape sequence. -/
def unescape (c : Char) : Option Char :=
  if c = '"' ∨ c = '\\' ∨ c = '/' then some c
  else if c = 'b' then some '\x08'
  else if c = 'f' then some '\x0c'
  else if c = 'n' then some '\n'
  else if c = 'r' then some '\r'
  else if c = 't' then some '\t'
  else none

/-- A unit of UTF-16 has been read from an escape sequence. -/
def takeUnit (isKey : Bool) (acc : Text) (high : Option Nat) (unit : Nat) : Mode :=
  match high with
  | some h =>
    if isLow unit then .string isKey (chr (joinPair h unit) :: acc) none .off
    else if isHigh unit then .string isKey (flush acc high) (some unit) .off
    else .string isKey (chr unit :: flush acc high) none .off
  | none =>
    if isHigh unit then .string isKey acc (some unit) .off
    else .string isKey (chr unit :: acc) none .off

/-- A character within a string. -/
def stepString (isKey : Bool) (acc : Text) (high : Option Nat) (c : Char) (stack : List Frame) :
    Escape → Except PyException Reader
  | .off =>
    if c = '"' then
      let t := (flush acc high).reverse
      if isKey then
        match stack with
        | .obj fields _ :: stack => .ok ⟨.colon, .obj fields t :: stack⟩
        | _ => .error .jsonDecodeError
      else .ok (complete (.str t) stack)
    else if c = '\\' then .ok ⟨.string isKey acc high .backslash, stack⟩
    -- Control characters are refused in strings.
    else if c < ' ' then .error .jsonDecodeError
    else .ok ⟨.string isKey (c :: flush acc high) none .off, stack⟩
  | .backslash =>
    if c = 'u' then .ok ⟨.string isKey acc high (.hex []), stack⟩
    else
      match unescape c with
      | some c => .ok ⟨.string isKey (c :: flush acc high) none .off, stack⟩
      | none => .error .jsonDecodeError
  | .hex digits =>
    match digits ++ [c] with
    | [c₁, c₂, c₃, c₄] =>
      match parseNumeral 16 [c₁, c₂, c₃, c₄] with
      -- Four hexadecimal digits are one code unit, maybe half of a pair.
      | some unit => .ok ⟨takeUnit isKey acc high unit, stack⟩
      | none => .error .jsonDecodeError
    | digits => .ok ⟨.string isKey acc high (.hex digits), stack⟩

/-- The number that digits spell. -/
def digitsValue (t : Text) : Nat := t.foldl (fun m c => m * 10 + (c.toNat - 48)) 0

/-- A number with its sign. -/
def signed (negative : Bool) (n : Nat) : Int := if negative then -n else n

/-- The value of a number that ends after `part`. Without a digit where one is needed the
number ended before, and what follows it is not JSON. -/
def Number.value (n : Number) (part : NumberPart) : Except PyException JsonValue :=
  let int : Except PyException JsonValue :=
    if maxStrDigits < n.int.length then .error .valueError
    else .ok (.int (signed n.negative (digitsValue n.int)))
  match part with
  | .minus => .error .jsonDecodeError
  | .int => int
  | .point => int.bind fun _ => .error .jsonDecodeError
  | .exponent | .exponentSign =>
    if n.fraction.isEmpty then int.bind fun _ => .error .jsonDecodeError
    else .error .jsonDecodeError
  | .fraction | .exponentDigits =>
    .ok (.float (.ofDecimal n.negative (digitsValue (n.int ++ n.fraction))
      (signed n.exponentNegative (digitsValue n.exponent) - n.fraction.length)))

/-- The number goes on with `c`; `none` if it has ended. -/
def Number.continue (n : Number) (c : Char) : NumberPart → Option Mode
  | .minus =>
    if c.isDigit then some (.number .int { n with int := [c] })
    else if c = 'I' then some (.constant "nfinity".toList (.float (.infinity true)))
    else none
  | .int =>
    -- No digit follows a leading zero.
    if c.isDigit ∧ n.int ≠ ['0'] then some (.number .int { n with int := n.int ++ [c] })
    else if c = '.' then some (.number .point n)
    else if c = 'e' ∨ c = 'E' then some (.number .exponent n)
    else none
  | .point => if c.isDigit then some (.number .fraction { n with fraction := [c] }) else none
  | .fraction =>
    if c.isDigit then some (.number .fraction { n with fraction := n.fraction ++ [c] })
    else if c = 'e' ∨ c = 'E' then some (.number .exponent n)
    else none
  | .exponent =>
    if c.isDigit then some (.number .exponentDigits { n with exponent := [c] })
    else if c = '+' then some (.number .exponentSign n)
    else if c = '-' then some (.number .exponentSign { n with exponentNegative := true })
    else none
  | .exponentSign =>
    if c.isDigit then some (.number .exponentDigits { n with exponent := [c] }) else none
  | .exponentDigits =>
    if c.isDigit then some (.number .exponentDigits { n with exponent := n.exponent ++ [c] })
    else none

/-- The first character of a value. -/
def startValue (limit : Nat) (c : Char) (stack : List Frame) : Except PyException Reader :=
  if c = '"' then .ok ⟨.string false [] none .off, stack⟩
  else if c = '{' then
    if stack.length < limit then .ok ⟨.key true, .obj [] [] :: stack⟩
    else .error .recursionError
  else if c = '[' then
    if stack.length < limit then .ok ⟨.value true, .arr [] :: stack⟩
    else .error .recursionError
  else if c = '-' then .ok ⟨.number .minus { negative := true }, stack⟩
  else if c.isDigit then .ok ⟨.number .int { int := [c] }, stack⟩
  else if c = 't' then .ok ⟨.constant "rue".toList (.bool true), stack⟩
  else if c = 'f' then .ok ⟨.constant "alse".toList (.bool false), stack⟩
  else if c = 'n' then .ok ⟨.constant "ull".toList .null, stack⟩
  else if c = 'N' then .ok ⟨.constant "aN".toList (.float .nan), stack⟩
  else if c = 'I' then .ok ⟨.constant "nfinity".toList (.float (.infinity false)), stack⟩
  else .error .jsonDecodeError

/-- A character after a value in the innermost container. -/
def stepComma (c : Char) : List Frame → Except PyException Reader
  | .arr items :: stack =>
    if isBlank c then .ok ⟨.comma, .arr items :: stack⟩
    else if c = ',' then .ok ⟨.value false, .arr items :: stack⟩
    else if c = ']' then .ok (complete (.arr items.reverse) stack)
    else .error .jsonDecodeError
  | .obj fields key :: stack =>
    if isBlank c then .ok ⟨.comma, .obj fields key :: stack⟩
    else if c = ',' then .ok ⟨.key false, .obj fields key :: stack⟩
    else if c = '}' then .ok (complete (.obj fields) stack)
    else .error .jsonDecodeError
  | [] => .error .jsonDecodeError

/-- A character after a complete value `v`. -/
def stepAfter (v : JsonValue) (c : Char) (stack : List Frame) : Except PyException Reader :=
  match complete v stack with
  | ⟨.comma, stack⟩ => stepComma c stack
  | reader => if isBlank c then .ok reader else .error .jsonDecodeError

/-- One character. `limit` is how deep containers may nest. -/
def Reader.step (limit : Nat) (r : Reader) (c : Char) : Except PyException Reader :=
  match r.mode with
  | .value opened =>
    if isBlank c then .ok r
    else
      match opened, c, r.stack with
      -- A closing bracket ends an array only at its start.
      | true, ']', .arr _ :: stack => .ok (complete (.arr []) stack)
      | _, c, stack => startValue limit c stack
  | .key opened =>
    if isBlank c then .ok r
    else if c = '"' then .ok ⟨.string true [] none .off, r.stack⟩
    else
      match opened, c, r.stack with
      | true, '}', .obj _ _ :: stack => .ok (complete (.obj []) stack)
      | _, _, _ => .error .jsonDecodeError
  | .colon =>
    if isBlank c then .ok r
    else if c = ':' then .ok ⟨.value false, r.stack⟩
    else .error .jsonDecodeError
  | .comma => stepComma c r.stack
  | .string isKey acc high escape => stepString isKey acc high c r.stack escape
  | .number part n =>
    match n.continue c part with
    | some mode => .ok ⟨mode, r.stack⟩
    -- Where the number ends, the same character is read once more behind it.
    | none => (n.value part).bind fun v => stepAfter v c r.stack
  | .constant rest v =>
    match rest with
    | [] => stepAfter v c r.stack
    | [d] => if c = d then .ok (complete v r.stack) else .error .jsonDecodeError
    | d :: rest => if c = d then .ok ⟨.constant rest v, r.stack⟩ else .error .jsonDecodeError
  | .done _ => if isBlank c then .ok r else .error .jsonDecodeError

/-- The value of a text that ends here. -/
def Reader.finish (r : Reader) : Except PyException JsonValue :=
  match r.mode, r.stack with
  | .done v, _ => .ok v
  | .number part n, stack =>
    (n.value part).bind fun v => if stack.isEmpty then .ok v else .error .jsonDecodeError
  | _, _ => .error .jsonDecodeError

/-- The reader of a text. -/
def Reader.start : Reader := ⟨.value false, []⟩

/-- A text, character by character. -/
def Reader.scan (limit : Nat) (r : Reader) (t : Text) : Except PyException Reader :=
  t.foldlM (Reader.step limit) r

/-- `json.loads` of a `str`. -/
def loadsText (limit : Nat) (t : Text) : Except PyException JsonValue :=
  (Reader.start.scan limit t).bind Reader.finish

/-- `json.loads` of `bytes`. -/
def loads (limit : Nat) (b : Bytes) : Except PyException JsonValue :=
  match decodeJson b with
  | some t => loadsText limit t
  | none => .error .unicodeDecodeError

/-! ### The writer -/

/-- A value of a flat object. -/
inductive Scalar where
  | bool (b : Bool)
  | str (t : Text)

/-- The value that is read back. -/
def Scalar.toJson : Scalar → JsonValue
  | .bool b => .bool b
  | .str t => .str t

/-- `\uXXXX`. -/
def escapeUnit (n : Nat) : Text := '\\' :: 'u' :: numeral 16 4 n

/-- A character within a string; ASCII only. -/
def escapeChar (c : Char) : Text :=
  if c = '"' then ['\\', '"']
  else if c = '\\' then ['\\', '\\']
  else if c = '\n' then ['\\', 'n']
  else if c = '\r' then ['\\', 'r']
  else if c = '\t' then ['\\', 't']
  else if c = '\x0c' then ['\\', 'f']
  else if c = '\x08' then ['\\', 'b']
  else if ' ' ≤ c ∧ c ≤ '~' then [c]
  else if c.toNat < 0x10000 then escapeUnit c.toNat
  else
    escapeUnit (0xD800 + (c.toNat - 0x10000) / 1024) ++
      escapeUnit (0xDC00 + (c.toNat - 0x10000) % 1024)

/-- A string, with its escapes. -/
def dumpsText (t : Text) : Text := '"' :: t.flatMap escapeChar ++ ['"']

/-- A value, as `json.dumps` writes it. -/
def Scalar.dumps : Scalar → Text
  | .bool true => "true".toList
  | .bool false => "false".toList
  | .str t => dumpsText t

/-- A key and its value. -/
def dumpsField (field : Text × Scalar) : Text := dumpsText field.1 ++ ':' :: field.2.dumps

/-- `json.dumps(fields, separators=(",", ":"))`. -/
def dumps (fields : List (Text × Scalar)) : Text :=
  '{' :: join (fields.map dumpsField) ++ ['}']

/-! ### Round trip -/

section

variable {limit : Nat} {r r' : Reader} {isKey : Bool} {acc t : Text} {stack : List Frame}

theorem scan_cons (r : Reader) (c : Char) (t : Text) :
    r.scan limit (c :: t) = (r.step limit c).bind fun r' => r'.scan limit t := rfl

/-- One character is read, and the reader goes on. -/
theorem scan_step {c : Char} (h : r.step limit c = .ok r') (t : Text) :
    r.scan limit (c :: t) = r'.scan limit t := by
  rw [scan_cons, h]
  rfl

/-- The reader goes on from where it stands. -/
theorem scan_append {s : Text} (h : r.scan limit s = .ok r') (t : Text) :
    r.scan limit (s ++ t) = r'.scan limit t := by
  rw [Reader.scan, List.foldlM_append]
  show (r.scan limit s).bind _ = _
  rw [h]
  rfl

/-- In a string, with no surrogate waiting. -/
def inString (isKey : Bool) (acc : Text) (stack : List Frame) : Reader :=
  ⟨.string isKey acc none .off, stack⟩

/-- A `\u` escape is one unit. -/
theorem scan_escapeUnit {n : Nat} {high : Option Nat} (hn : n < 0x10000) :
    Reader.scan limit ⟨.string isKey acc high .off, stack⟩ (escapeUnit n) =
      .ok ⟨takeUnit isKey acc high n, stack⟩ := by
  have hlength : (numeral 16 4 n).length = 4 := length_numeral (by decide) hn
  have hread : parseNumeral 16 (numeral 16 4 n) = some n :=
    parseNumeral_numeral (by decide) (by decide) (by decide)
  rw [escapeUnit]
  match numeral 16 4 n, hlength, hread with
  | [c₁, c₂, c₃, c₄], _, hread =>
    have hlast : stepString isKey acc high c₄ stack (.hex [c₁, c₂, c₃]) =
        .ok ⟨takeUnit isKey acc high n, stack⟩ := by
      simp only [stepString, List.cons_append, List.nil_append, hread]
    -- The other characters only wait for it.
    show (stepString isKey acc high c₄ stack (.hex [c₁, c₂, c₃])).bind
      (fun r => r.scan limit []) = _
    rw [hlast]
    rfl

theorem toNat_lt (c : Char) : c.toNat < 0xD800 ∨ (0xDFFF < c.toNat ∧ c.toNat < 0x110000) :=
  c.valid

/-- A unit that is a character. -/
theorem takeUnit_of_not_surrogate {n : Nat} (h : n < 0xD800 ∨ 0xDFFF < n) :
    takeUnit isKey acc none n = .string isKey (chr n :: acc) none .off := by
  rw [takeUnit, if_neg]
  simp only [isHigh, decide_eq_true_eq]
  omega

/-- A pair of units is one character. -/
theorem takeUnit_pair {n : Nat} (hlow : 0x10000 ≤ n) (hbound : n < 0x110000) :
    takeUnit isKey acc none (0xD800 + (n - 0x10000) / 1024) =
        .string isKey acc (some (0xD800 + (n - 0x10000) / 1024)) .off ∧
      takeUnit isKey acc (some (0xD800 + (n - 0x10000) / 1024))
          (0xDC00 + (n - 0x10000) % 1024) =
        .string isKey (chr n :: acc) none .off := by
  constructor
  · rw [takeUnit, if_pos]
    simp only [isHigh, decide_eq_true_eq]
    omega
  · have hjoin : joinPair (0xD800 + (n - 0x10000) / 1024) (0xDC00 + (n - 0x10000) % 1024) = n := by
      unfold joinPair
      omega
    rw [takeUnit, if_pos, hjoin]
    simp only [isLow, decide_eq_true_eq]
    omega

/-- A character is read back, escaped or not. -/
theorem scan_escapeChar (c : Char) :
    (inString isKey acc stack).scan limit (escapeChar c) =
      .ok (inString isKey (c :: acc) stack) := by
  by_cases hshort : c ∈ ['"', '\\', '\n', '\r', '\t', '\x0c', '\x08']
  · simp only [List.mem_cons, List.not_mem_nil, or_false] at hshort
    rcases hshort with rfl | rfl | rfl | rfl | rfl | rfl | rfl <;> rfl
  · simp only [List.mem_cons, List.not_mem_nil, or_false, not_or] at hshort
    obtain ⟨hquote, hbackslash, hn, hr, ht, hf, hb⟩ := hshort
    rw [escapeChar, if_neg hquote, if_neg hbackslash, if_neg hn, if_neg hr, if_neg ht, if_neg hf,
      if_neg hb]
    have hvalid := toNat_lt c
    split
    · next hplain =>
      simp only [scan_cons, inString, Reader.step, stepString, if_neg hquote, if_neg hbackslash,
        if_neg (Char.not_lt.2 hplain.1)]
      rfl
    · split
      · rw [inString, scan_escapeUnit (by omega), takeUnit_of_not_surrogate (by omega), chr_toNat]
        rfl
      · obtain ⟨hhigh, hlow⟩ := @takeUnit_pair isKey acc c.toNat (by omega) (by omega)
        rw [inString, scan_append (scan_escapeUnit (by omega)), hhigh, scan_escapeUnit (by omega),
          hlow, chr_toNat]
        rfl

theorem scan_escaped (t : Text) :
    (inString isKey acc stack).scan limit (t.flatMap escapeChar) =
      .ok (inString isKey (t.reverse ++ acc) stack) := by
  induction t generalizing acc with
  | nil => rfl
  | cons c t ih =>
    rw [List.flatMap_cons, scan_append (scan_escapeChar c), ih, List.reverse_cons,
      List.append_assoc]
    rfl

theorem scan_dumpsText_key {fields : List (Text × JsonValue)} {opened : Bool} {key : Text} :
    Reader.scan limit ⟨.key opened, .obj fields key :: stack⟩ (dumpsText t) =
      .ok ⟨.colon, .obj fields t :: stack⟩ := by
  show (inString true [] (.obj fields key :: stack)).scan limit (t.flatMap escapeChar ++ ['"']) = _
  rw [scan_append (scan_escaped t)]
  show Except.ok (⟨.colon, .obj fields (t.reverse ++ []).reverse :: stack⟩ : Reader) = _
  rw [List.append_nil, List.reverse_reverse]

theorem scan_dumpsText_value {opened : Bool} :
    Reader.scan limit ⟨.value opened, stack⟩ (dumpsText t) = .ok (complete (.str t) stack) := by
  have hopen : Reader.step limit ⟨.value opened, stack⟩ '"' = .ok (inString false [] stack) := by
    cases opened <;> rfl
  rw [dumpsText, List.cons_append, scan_cons, hopen]
  show (inString false [] stack).scan limit (t.flatMap escapeChar ++ ['"']) = _
  rw [scan_append (scan_escaped t)]
  show Except.ok (complete (.str (t.reverse ++ []).reverse) stack) = _
  rw [List.append_nil, List.reverse_reverse]

theorem scan_scalar (value : Scalar) :
    Reader.scan limit ⟨.value false, stack⟩ value.dumps = .ok (complete value.toJson stack) := by
  cases value with
  | bool b => cases b <;> rfl
  | str t => exact scan_dumpsText_value

theorem scan_field {fields : List (Text × JsonValue)} {opened : Bool} {key : Text}
    (field : Text × Scalar) :
    Reader.scan limit ⟨.key opened, .obj fields key :: stack⟩ (dumpsField field) =
      .ok ⟨.comma, .obj (setField field.1 field.2.toJson fields) [] :: stack⟩ := by
  rw [dumpsField, scan_append scan_dumpsText_key, scan_cons]
  exact scan_scalar field.2

/-- The fields of an object that is open. -/
def putFields (fields : List (Text × JsonValue)) (new : List (Text × Scalar)) :
    List (Text × JsonValue) :=
  new.foldl (fun fields field => setField field.1 field.2.toJson fields) fields

theorem scan_fields {fields : List (Text × JsonValue)} {opened : Bool} {key : Text}
    (field : Text × Scalar) (new : List (Text × Scalar)) :
    Reader.scan limit ⟨.key opened, .obj fields key :: stack⟩
        (join ((field :: new).map dumpsField)) =
      .ok ⟨.comma, .obj (putFields fields (field :: new)) [] :: stack⟩ := by
  induction new generalizing fields opened key field with
  | nil =>
    rw [List.map_singleton, join, List.intercalate_singleton]
    exact scan_field field
  | cons next new ih =>
    rw [List.map_cons, List.map_cons, join, List.intercalate_cons_cons, List.append_assoc,
      scan_append (scan_field field)]
    exact ih next

/-- An object, where a value is due. -/
theorem scan_dumps (hlimit : stack.length < limit) (fields : List (Text × Scalar)) :
    Reader.scan limit ⟨.value false, stack⟩ (dumps fields) =
      .ok (complete (.obj (putFields [] fields)) stack) := by
  have hopen : Reader.step limit ⟨.value false, stack⟩ '{' =
      .ok ⟨.key true, .obj [] [] :: stack⟩ := by
    show startValue limit '{' stack = _
    simp [startValue, hlimit]
  rw [dumps, List.cons_append, scan_step hopen]
  cases fields with
  | nil => rfl
  | cons field new =>
    rw [scan_append (scan_fields field new)]
    rfl

/-- **What `dumps` writes, `loads` reads.** -/
theorem loadsText_dumps (hlimit : 0 < limit) (fields : List (Text × Scalar)) :
    loadsText limit (dumps fields) = .ok (.obj (putFields [] fields)) := by
  have hscan := @scan_dumps limit [] hlimit fields
  rw [loadsText, Reader.start, hscan]
  rfl

end

theorem setField_of_not_mem {key : Text} {value : JsonValue} :
    ∀ {fields : List (Text × JsonValue)}, key ∉ fields.map Prod.fst →
      setField key value fields = fields ++ [(key, value)]
  | [], _ => rfl
  | field :: fields, h => by
    rw [List.map_cons, List.mem_cons, not_or] at h
    rw [setField, if_neg (Ne.symm h.1), setField_of_not_mem h.2]
    rfl

theorem putFields_eq {fields : List (Text × JsonValue)} {new : List (Text × Scalar)}
    (h : (fields.map Prod.fst ++ new.map Prod.fst).Nodup) :
    putFields fields new = fields ++ new.map fun field => (field.1, field.2.toJson) := by
  induction new generalizing fields with
  | nil => exact (List.append_nil _).symm
  | cons field new ih =>
    have hnew : field.1 ∉ fields.map Prod.fst := by
      intro hmem
      exact (List.nodup_append.1 h).2.2 _ hmem _ (by simp) rfl
    have hset := @setField_of_not_mem _ field.2.toJson _ hnew
    show putFields (setField field.1 field.2.toJson fields) new = _
    rw [hset, ih]
    · rw [List.map_cons, List.append_assoc]
      rfl
    · rw [List.map_append, List.append_assoc]
      exact h

/-- **Flat objects are read back.** -/
theorem loads_dumps {limit : Nat} (hlimit : 0 < limit) {fields : List (Text × Scalar)}
    (h : (fields.map Prod.fst).Nodup) :
    loads limit (encodeUtf8 (dumps fields)) =
      .ok (.obj (fields.map fun field => (field.1, field.2.toJson))) := by
  have hdecode : decodeJson (encodeUtf8 (dumps fields)) = some (dumps fields) := by
    have hhead : ∃ d t, dumps fields = '{' :: d :: t ∧ (d = '"' ∨ d = '}') := by
      match fields with
      | [] => exact ⟨'}', [], rfl, .inr rfl⟩
      | [field] => exact ⟨'"', _, rfl, .inl rfl⟩
      | field :: next :: fields => exact ⟨'"', _, rfl, .inl rfl⟩
    obtain ⟨d, t, hdumps, hd⟩ := hhead
    rw [hdumps]
    rcases hd with rfl | rfl <;>
      exact decodeJson_encodeUtf8 (by decide) (by decide) (by decide) (by decide) t
  have hput : putFields [] fields = _ := @putFields_eq [] fields h
  rw [loads, hdecode]
  show loadsText limit (dumps fields) = _
  rw [loadsText_dumps hlimit, hput, List.nil_append]

end Systems

end RealEstate
