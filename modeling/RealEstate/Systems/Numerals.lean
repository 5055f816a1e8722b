import Mathlib.Data.Nat.Digits.Lemmas
import RealEstate.Systems.Text

/-!
# Numerals

Numbers as text in any base up to sixteen, the highest digit first, padded with zeros to a
least width: `str(n)`, `f"{n:05d}"`, `f"{n:032x}"`.

- `numeral`, `parseNumeral`: the text of a number, and the number of a text.
- `parseNumeral_numeral`: the number is read back, whatever the width.
- `length_numeral`, `not_mem_numeral`: what a reader that splits texts needs to know.
-/

namespace RealEstate

namespace Systems

/-- The digits of `n` in base `b`, padded to `width`. -/
def numeral (b width n : Nat) : Text :=
  (Nat.digitsAppend b width n).reverse.map Nat.digitChar

/-- The value of a digit; letters count from ten, in either case. -/
def digitValue (c : Char) : Option Nat :=
  if c.isDigit then some (c.toNat - '0'.toNat)
  else if 'a' ≤ c ∧ c ≤ 'f' then some (c.toNat - 'a'.toNat + 10)
  else if 'A' ≤ c ∧ c ≤ 'F' then some (c.toNat - 'A'.toNat + 10)
  else none

/-- A digit of base `b`. -/
def digit (b : Nat) (c : Char) : Option Nat := (digitValue c).filter (· < b)

/-- The number a text of digits stands for; there must be one digit at least. -/
def parseNumeral (b : Nat) (t : Text) : Option Nat :=
  if t = [] then none else (t.mapM (digit b)).map fun ds => Nat.ofDigits b ds.reverse

section

variable {b width n : Nat}

theorem digit_digitChar (hb : b ≤ 16) {d : Nat} (hd : d < b) : digit b d.digitChar = some d := by
  have hvalue : ∀ d < 16, digitValue d.digitChar = some d := by decide
  rw [digit, hvalue d (Nat.lt_of_lt_of_le hd hb), Option.filter_some, decide_eq_true hd]
  rfl

theorem mapM_digit (hb : b ≤ 16) :
    ∀ ds : List Nat, (∀ d ∈ ds, d < b) → (ds.map Nat.digitChar).mapM (digit b) = some ds
  | [], _ => rfl
  | d :: ds, h => by
    rw [List.map_cons, List.mapM_cons, digit_digitChar hb (h d List.mem_cons_self),
      mapM_digit hb ds fun e he => h e (List.mem_cons_of_mem d he)]
    rfl

theorem numeral_ne_nil (hwidth : 0 < width) : numeral b width n ≠ [] := by
  intro h
  have hlength := congrArg List.length h
  rw [numeral, List.length_map, List.length_reverse, Nat.digitsAppend, List.length_append,
    List.length_replicate, List.length_nil] at hlength
  omega

/-- **Numbers are read back.** -/
theorem parseNumeral_numeral (hb : 1 < b) (hb' : b ≤ 16) (hwidth : 0 < width) :
    parseNumeral b (numeral b width n) = some n := by
  have hdigits : ∀ d ∈ (Nat.digitsAppend b width n).reverse, d < b := fun d hd =>
    Nat.lt_of_mem_digitsAppend hb width d (List.mem_reverse.1 hd)
  rw [parseNumeral, if_neg (numeral_ne_nil hwidth), numeral, mapM_digit hb' _ hdigits,
    Option.map_some, List.reverse_reverse, Nat.digitsAppend, Nat.ofDigits_append_replicate_zero,
    Nat.ofDigits_digits]

/-- Numbers are told apart by their numerals. -/
theorem numeral_injective (hb : 1 < b) (hb' : b ≤ 16) (hwidth : 0 < width) :
    Function.Injective (numeral b width) := by
  intro m n h
  have hread := congrArg (parseNumeral b) h
  rw [parseNumeral_numeral hb hb' hwidth, parseNumeral_numeral hb hb' hwidth] at hread
  exact Option.some.inj hread

/-- A number below the bound has the width. -/
theorem length_numeral (hb : 1 < b) (hn : n < b ^ width) : (numeral b width n).length = width := by
  rw [numeral, List.length_map, List.length_reverse, Nat.length_digitsAppend hb width hn]

theorem isDigit_of_mem_numeral {c : Char} (h : c ∈ numeral 10 width n) : c.isDigit = true := by
  have hdigit : ∀ d < 10, (Nat.digitChar d).isDigit = true := by decide
  obtain ⟨d, hd, rfl⟩ := List.mem_map.1 h
  exact hdigit d (Nat.lt_of_mem_digitsAppend (by decide) width d (List.mem_reverse.1 hd))

/-- A character that is no digit does not occur. -/
theorem not_mem_numeral (hb : 1 < b) (hb' : b ≤ 16) {c : Char} (hc : digit b c = none) :
    c ∉ numeral b width n := by
  intro hmem
  obtain ⟨d, hd, rfl⟩ := List.mem_map.1 hmem
  have hlt := Nat.lt_of_mem_digitsAppend hb width d (List.mem_reverse.1 hd)
  rw [digit_digitChar hb' hlt] at hc
  cases hc

end

end Systems

end RealEstate
