import Mathlib.Algebra.GroupWithZero.Nat
import RealEstate.Systems.Text

/-!
# Base64, URL-safe

- `b64encode`: `base64.urlsafe_b64encode`, with its padding.
- `b64decode`: `base64.urlsafe_b64decode`. It is lenient: characters outside the alphabet are
  skipped, `+` and `/` are read as well, and what follows a complete padding is ignored.
- `b64decode_b64encode`: bytes are read back.
-/

namespace RealEstate

namespace Systems

/-- A `bytes` object. -/
abbrev Bytes := List (Fin 256)

/-! ### The alphabet -/

/-- The character of six bits. -/
def sextetChar (n : Nat) : Char :=
  if n < 26 then Char.ofNat (65 + n)
  else if n < 52 then Char.ofNat (71 + n)
  else if n < 62 then Char.ofNat (n - 4)
  else if n = 62 then '-'
  else '_'

/-- The six bits of a character. -/
def sextet (c : Char) : Option Nat :=
  if 'A' ≤ c ∧ c ≤ 'Z' then some (c.toNat - 65)
  else if 'a' ≤ c ∧ c ≤ 'z' then some (c.toNat - 71)
  else if '0' ≤ c ∧ c ≤ '9' then some (c.toNat + 4)
  else if c = '-' ∨ c = '+' then some 62
  else if c = '_' ∨ c = '/' then some 63
  else none

theorem sextet_sextetChar {n : Nat} (h : n < 64) : sextet (sextetChar n) = some n := by
  revert n
  decide

/-- None of them is the padding. -/
theorem sextetChar_ne_pad {n : Nat} (h : n < 64) : sextetChar n ≠ '=' := by
  revert n
  decide

/-! ### Encoding and decoding -/

/-- Three bytes are four characters; one or two bytes at the end are padded to four. -/
def b64encode : Bytes → Text
  | [] => []
  | [a] => [sextetChar (a / 4), sextetChar (a % 4 * 16), '=', '=']
  | [a, b] => [sextetChar (a / 4), sextetChar (a % 4 * 16 + b / 16), sextetChar (b % 16 * 4), '=']
  | a :: b :: c :: t =>
    sextetChar (a / 4) :: sextetChar (a % 4 * 16 + b / 16) ::
      sextetChar (b % 16 * 4 + c / 64) :: sextetChar (c % 64) :: b64encode t

/-- For the literals. -/
instance neZeroByte : NeZero 256 := ⟨by decide⟩

/-- The byte of a number below 256. -/
def byte (n : Nat) : Fin 256 := Fin.ofNat 256 n

/-- `binascii.a2b_base64`, with `none` for a `binascii.Error`: `pos` characters of a quantum
have been read, `left` holds their bits that are not in a byte yet, and `pads` counts the
padding. -/
def a2b (pos left pads : Nat) : Text → Option Bytes
  | [] => if pos = 0 then some [] else none
  | c :: t =>
    if c = '=' then
      if 2 ≤ pos then
        if 4 ≤ pos + (pads + 1) then some [] else a2b pos left (pads + 1) t
      else a2b pos left pads t
    else
      match sextet c, pos with
      | none, _ => a2b pos left pads t
      | some n, 0 => a2b 1 n 0 t
      | some n, 1 => (a2b 2 (n % 16) 0 t).map (byte (left * 4 + n / 16) :: ·)
      | some n, 2 => (a2b 3 (n % 4) 0 t).map (byte (left * 16 + n / 4) :: ·)
      | some n, _ => (a2b 0 0 0 t).map (byte (left * 64 + n) :: ·)

/-- `urlsafe_b64decode`. -/
def b64decode (t : Text) : Option Bytes := a2b 0 0 0 t

/-! ### Round trip -/

section

variable {left pads n : Nat} (t : Text)

theorem a2b_zero (h : n < 64) : a2b 0 left pads (sextetChar n :: t) = a2b 1 n 0 t := by
  refine (if_neg (sextetChar_ne_pad h)).trans ?_
  rw [sextet_sextetChar h]
  rfl

theorem a2b_one (h : n < 64) : a2b 1 left pads (sextetChar n :: t) =
    (a2b 2 (n % 16) 0 t).map (byte (left * 4 + n / 16) :: ·) := by
  refine (if_neg (sextetChar_ne_pad h)).trans ?_
  rw [sextet_sextetChar h]
  rfl

theorem a2b_two (h : n < 64) : a2b 2 left pads (sextetChar n :: t) =
    (a2b 3 (n % 4) 0 t).map (byte (left * 16 + n / 4) :: ·) := by
  refine (if_neg (sextetChar_ne_pad h)).trans ?_
  rw [sextet_sextetChar h]
  rfl

theorem a2b_three (h : n < 64) : a2b 3 left pads (sextetChar n :: t) =
    (a2b 0 0 0 t).map (byte (left * 64 + n) :: ·) := by
  refine (if_neg (sextetChar_ne_pad h)).trans ?_
  rw [sextet_sextetChar h]
  rfl

end

theorem byte_eq {a : Fin 256} {n : Nat} (h : n = a) : byte n = a := by
  refine Fin.ext ?_
  rw [h]
  exact Nat.mod_eq_of_lt a.isLt

/-- The first byte of a quantum, from its own bits and those `m` of the next byte. -/
theorem byte_first {a : Fin 256} {m : Nat} (h : m < 16) :
    byte ((a : Nat) / 4 * 4 + ((a : Nat) % 4 * 16 + m) / 16) = a :=
  byte_eq (by omega)

theorem byte_second {b : Fin 256} {k m : Nat} (h : m < 4) :
    byte ((k * 16 + (b : Nat) / 16) % 16 * 16 + ((b : Nat) % 16 * 4 + m) / 4) = b :=
  byte_eq (by omega)

theorem byte_third {c : Fin 256} {k : Nat} :
    byte ((k * 4 + (c : Nat) / 64) % 4 * 64 + (c : Nat) % 64) = c :=
  byte_eq (by omega)

/-- **Bytes are read back.** -/
theorem b64decode_b64encode : ∀ bs : Bytes, b64decode (b64encode bs) = some bs
  | [] => rfl
  | [a] => by
    rw [b64decode, b64encode, a2b_zero _ (by omega), a2b_one _ (by omega)]
    have hpad : a2b 2 ((a : Nat) % 4 * 16 % 16) 0 ['=', '='] = some [] := rfl
    have ha : byte ((a : Nat) / 4 * 4 + (a : Nat) % 4 * 16 / 16) = a :=
      byte_first (m := 0) (by decide)
    rw [hpad, Option.map_some, ha]
  | [a, b] => by
    rw [b64decode, b64encode, a2b_zero _ (by omega), a2b_one _ (by omega), a2b_two _ (by omega)]
    have hpad : a2b 3 ((b : Nat) % 16 * 4 % 4) 0 ['='] = some [] := rfl
    have hb : byte (((a : Nat) % 4 * 16 + (b : Nat) / 16) % 16 * 16 + (b : Nat) % 16 * 4 / 4) = b :=
      byte_second (m := 0) (by decide)
    rw [hpad, Option.map_some, Option.map_some, byte_first (by omega), hb]
  | a :: b :: c :: t => by
    have ih : a2b 0 0 0 (b64encode t) = some t := b64decode_b64encode t
    rw [b64decode, b64encode, a2b_zero _ (by omega), a2b_one _ (by omega), a2b_two _ (by omega),
      a2b_three _ (by omega), ih, Option.map_some, Option.map_some, Option.map_some,
      byte_first (by omega), byte_second (by omega), byte_third]

end Systems

end RealEstate
