import Mathlib.Data.List.TakeWhile
import Mathlib.Data.Rat.Defs
import RealEstate.Systems.Numerals

/-!
# Decimals and their text

- `decimalText`, `parseDecimal`: `str(d)` and `Decimal(text)`.
- `parseDecimal_decimalText`: a decimal that is written without an exponent is read back.
-/

namespace RealEstate

namespace Systems

/-- A `decimal.Decimal`. -/
inductive Decimal where
  /-- `± coefficient * 10 ^ exponent`. -/
  | finite (negative : Bool) (coefficient : Nat) (exponent : Int)
  | infinity (negative : Bool)
  | nan
  deriving DecidableEq, Repr

/-- The number a finite decimal stands for. -/
def Decimal.toRat : Decimal → Option Rat
  | .finite negative coefficient exponent =>
    let n : Rat := if negative then -coefficient else coefficient
    some (if 0 ≤ exponent then n * 10 ^ exponent.toNat else n / 10 ^ (-exponent).toNat)
  | .infinity _ | .nan => none

/-- `str(n)`. -/
def natText (n : Nat) : Text := numeral 10 1 n

/-- The digits with a point after `place` of them. -/
def pointAt (place : Int) (digits : Text) : Text :=
  if place ≤ 0 then '0' :: '.' :: (List.replicate (-place).toNat '0' ++ digits)
  else if digits.length ≤ place then digits
  else digits.take place.toNat ++ '.' :: digits.drop place.toNat

/-- `str(d)`: an exponent is written if it is positive, or the number very small. -/
def decimalText : Decimal → Text
  | .finite negative coefficient exponent =>
    let digits := natText coefficient
    let left := exponent + digits.length
    let place := if exponent ≤ 0 ∧ -6 < left then left else 1
    (if negative then ['-'] else []) ++ pointAt place digits ++
      if left = place then []
      else 'E' :: (if left < place then '-' else '+') :: natText (left - place).natAbs
  | .infinity negative => (if negative then ['-'] else []) ++ "Infinity".toList
  | .nan => "NaN".toList

/-! ### Reading -/

/-- The zeros of the scripts that have decimal digits, besides ASCII. -/
def decimalZeros : List Nat :=
  [0x660, 0x6F0, 0x7C0, 0x966, 0x9E6, 0xA66, 0xAE6, 0xB66, 0xBE6, 0xC66, 0xCE6, 0xD66, 0xDE6,
    0xE50, 0xED0, 0xF20, 0x1040, 0x1090, 0x17E0, 0x1810, 0x1946, 0x19D0, 0x1A80, 0x1A90, 0x1B50,
    0x1BB0, 0x1C40, 0x1C50, 0xA620, 0xA8D0, 0xA900, 0xA9D0, 0xA9F0, 0xAA50, 0xABF0, 0xFF10,
    0x104A0, 0x10D30, 0x11066, 0x110F0, 0x11136, 0x111D0, 0x112F0, 0x11450, 0x114D0, 0x11650,
    0x116C0, 0x11730, 0x118E0, 0x11950, 0x11C50, 0x11D50, 0x11DA0, 0x11F50, 0x16A60, 0x16AC0,
    0x16B50, 0x1D7CE, 0x1D7D8, 0x1D7E2, 0x1D7EC, 0x1D7F6, 0x1E140, 0x1E2F0, 0x1E4F0, 0x1E950,
    0x1FBF0]

/-- A character as the C code sees it: decimal digits of any script are digits. -/
def asciiDigit (c : Char) : Char :=
  match decimalZeros.find? fun first => first ≤ c.toNat ∧ c.toNat < first + 10 with
  | some first => Nat.digitChar (c.toNat - first)
  | none => c

/-- The largest exponents of a decimal that is not rounded. -/
def maxExponent : Int := 999999999999999999

/-- `MIN_ETINY`, where a conversion underflows. -/
def minExponent : Int := -1999999999999999997

/-- A finite decimal, if its exponent is in range. -/
def Decimal.ofParts (negative : Bool) (digits : Text) (exponent : Int) : Option Decimal :=
  (parseNumeral 10 digits).bind fun coefficient =>
    if exponent + (natText coefficient).length - 1 ≤ maxExponent ∧ minExponent ≤ exponent then
      some (.finite negative coefficient exponent)
    else none

/-- The exponent after an `e`. -/
def parseExponent : Text → Option Int
  | '-' :: t => (parseNumeral 10 t).map fun n => -n
  | '+' :: t => (parseNumeral 10 t).map fun n => n
  | t => (parseNumeral 10 t).map fun n => n

/-- Digits with at most one point, and an exponent. -/
def parseFinite (negative : Bool) (t : Text) : Option Decimal :=
  let int := t.takeWhile Char.isDigit
  let t := t.dropWhile Char.isDigit
  let (fraction, t) :=
    match t with
    | '.' :: t => (t.takeWhile Char.isDigit, t.dropWhile Char.isDigit)
    | t => ([], t)
  let exponent :=
    match t with
    | [] => some 0
    | c :: t => if c = 'e' ∨ c = 'E' then parseExponent t else none
  exponent.bind fun exponent =>
    Decimal.ofParts negative (int ++ fraction) (exponent - fraction.length)

/-- What follows the sign. -/
def parseUnsigned (negative : Bool) (t : Text) : Option Decimal :=
  let name := t.map Char.toLower
  if name = "inf".toList ∨ name = "infinity".toList then some (.infinity negative)
  else if "nan".toList.isPrefixOf name ∧ (name.drop 3).all Char.isDigit then some .nan
  else if "snan".toList.isPrefixOf name ∧ (name.drop 4).all Char.isDigit then some .nan
  else parseFinite negative t

/-- `Decimal(text)`, with `none` for an `InvalidOperation`. -/
def parseDecimal (t : Text) : Option Decimal :=
  match ((strip t).filter (· ≠ '_')).map asciiDigit with
  | '-' :: t => parseUnsigned true t
  | '+' :: t => parseUnsigned false t
  | t => parseUnsigned false t

/-! ### Round trip -/

theorem isDigit_of_mem_natText {n : Nat} {c : Char} (h : c ∈ natText n) : c.isDigit = true :=
  isDigit_of_mem_numeral h

/-- A number below a power has so many digits. -/
theorem length_natText_le {n k : Nat} (hk : 0 < k) (h : n < 10 ^ k) : (natText n).length ≤ k := by
  have hdigits : (Nat.digits 10 n).length ≤ k := (Nat.digits_length_le_iff (by decide) n).2 h
  rw [natText, numeral, List.length_map, List.length_reverse, Nat.digitsAppend, List.length_append,
    List.length_replicate]
  omega

theorem natText_ne_nil (n : Nat) : natText n ≠ [] := numeral_ne_nil (by decide)

theorem parseNumeral_natText (n : Nat) : parseNumeral 10 (natText n) = some n :=
  parseNumeral_numeral (by decide) (by decide) (by decide)

/-- A leading zero changes nothing. -/
theorem parseNumeral_zero_cons {t : Text} (h : t ≠ []) :
    parseNumeral 10 ('0' :: t) = parseNumeral 10 t := by
  have hdigit : digit 10 '0' = some 0 := rfl
  rw [parseNumeral, parseNumeral, if_neg (List.cons_ne_nil _ _), if_neg h, List.mapM_cons, hdigit]
  cases t.mapM (digit 10) with
  | none => rfl
  | some ds =>
    show some (Nat.ofDigits 10 (0 :: ds).reverse) = some (Nat.ofDigits 10 ds.reverse)
    rw [List.reverse_cons, Nat.ofDigits_append, Nat.ofDigits_singleton, Nat.mul_zero, Nat.add_zero]

theorem parseNumeral_zeros {t : Text} (h : t ≠ []) :
    ∀ k, parseNumeral 10 (List.replicate k '0' ++ t) = parseNumeral 10 t
  | 0 => rfl
  | k + 1 => by
    rw [List.replicate_succ, List.cons_append, parseNumeral_zero_cons, parseNumeral_zeros h k]
    exact List.append_ne_nil_of_right_ne_nil _ h

/-- Digits only. -/
def AllDigits (t : Text) : Prop := ∀ c ∈ t, c.isDigit = true

theorem parseFinite_int {negative : Bool} {t : Text} (h : AllDigits t) :
    parseFinite negative t = Decimal.ofParts negative t 0 := by
  have htake : t.takeWhile Char.isDigit = t := List.takeWhile_eq_self_iff.2 h
  have hdrop : t.dropWhile Char.isDigit = [] := List.dropWhile_eq_nil_iff.2 h
  simp [parseFinite, htake, hdrop]

theorem parseFinite_point {negative : Bool} {int fraction : Text} (hint : AllDigits int)
    (hfraction : AllDigits fraction) :
    parseFinite negative (int ++ '.' :: fraction) =
      Decimal.ofParts negative (int ++ fraction) (-fraction.length) := by
  have htake : (int ++ '.' :: fraction).takeWhile Char.isDigit = int := by
    rw [List.takeWhile_append_of_pos hint, List.takeWhile_cons_of_neg (by decide), List.append_nil]
  have hdrop : (int ++ '.' :: fraction).dropWhile Char.isDigit = '.' :: fraction := by
    rw [List.dropWhile_append_of_pos hint, List.dropWhile_cons_of_neg (by decide)]
  have htake' : fraction.takeWhile Char.isDigit = fraction := List.takeWhile_eq_self_iff.2 hfraction
  have hdrop' : fraction.dropWhile Char.isDigit = [] := List.dropWhile_eq_nil_iff.2 hfraction
  simp [parseFinite, htake, hdrop, htake', hdrop']

/-- A sign, a point or a digit. -/
def IsNumeric (c : Char) : Prop := 45 ≤ c.toNat ∧ c.toNat ≤ 57

theorem isNumeric_of_isDigit {c : Char} (h : c.isDigit = true) : IsNumeric c := by
  have hbounds : 48 ≤ c.toNat ∧ c.toNat ≤ 57 := by
    simpa [Char.isDigit, UInt32.le_iff_toNat_le] using h
  exact ⟨by omega, hbounds.2⟩

theorem asciiDigit_eq_self {c : Char} (h : c.toNat < 0x660) : asciiDigit c = c := by
  have hnone : (decimalZeros.find? fun first => first ≤ c.toNat ∧ c.toNat < first + 10) = none := by
    have hzeros : ∀ first ∈ decimalZeros, 0x660 ≤ first := by decide
    rw [List.find?_eq_none]
    intro first hmem hmatch
    have hle := hzeros first hmem
    have hfirst := of_decide_eq_true hmatch
    omega
  rw [asciiDigit, hnone]

/-- Nothing is stripped from a numeric text, or converted. -/
theorem cleaned_eq_self {t : Text} (h : ∀ c ∈ t, IsNumeric c) :
    ((strip t).filter (· ≠ '_')).map asciiDigit = t := by
  have hspace : ∀ c ∈ t, isSpace c = false := by
    intro c hc
    obtain ⟨hlow, hhigh⟩ := h c hc
    simp only [isSpace, decide_eq_false_iff_not]
    omega
  have hkeep : ∀ c ∈ t, decide (c ≠ '_') = true := by
    intro c hc
    refine decide_eq_true ?_
    rintro rfl
    exact absurd (h _ hc).2 (by decide)
  rw [strip_eq_self hspace, List.filter_eq_self.2 hkeep]
  have hmap : t.map asciiDigit = t.map id := List.map_congr_left fun c hc =>
    asciiDigit_eq_self (Nat.lt_of_le_of_lt (h c hc).2 (by decide))
  rw [hmap, List.map_id]

/-- A digit is the same in lower case. -/
theorem toLower_ne_of_isDigit {c d : Char} (h : c.isDigit = true) (hd : d.isDigit = false) :
    c.toLower ≠ d := by
  have hlow : c.toLower = c := by
    have hbounds := isNumeric_of_isDigit h
    refine dif_neg fun hupper => ?_
    have h65 : 65 ≤ c.toNat := hupper.1
    exact absurd (Nat.le_trans h65 hbounds.2) (by decide)
  rintro rfl
  rw [hlow, h] at hd
  cases hd

/-- Before a digit there is neither a sign nor a name. -/
theorem parseUnsigned_cons {negative : Bool} {c : Char} {t : Text} (h : c.isDigit = true) :
    parseUnsigned negative (c :: t) = parseFinite negative (c :: t) := by
  have hword : ∀ (d : Char) (ds : Text), d.isDigit = false →
      List.isPrefixOf (d :: ds) ((c :: t).map Char.toLower) = false := by
    intro d ds hd
    rw [List.map_cons, List.isPrefixOf_cons_cons,
      beq_false_of_ne (Ne.symm (toLower_ne_of_isDigit h hd)), Bool.false_and]
  have hname : ∀ (d : Char) (ds : Text), d.isDigit = false →
      (c :: t).map Char.toLower ≠ d :: ds := by
    intro d ds hd heq
    exact toLower_ne_of_isDigit h hd (List.cons.inj heq).1
  rw [parseUnsigned, if_neg, if_neg, if_neg]
  · rintro ⟨hsnan, -⟩
    exact Bool.false_ne_true ((hword 's' _ (by decide)).symm.trans hsnan)
  · rintro ⟨hnan, -⟩
    exact Bool.false_ne_true ((hword 'n' _ (by decide)).symm.trans hnan)
  · rintro (hinf | hinf)
    · exact hname 'i' _ (by decide) hinf
    · exact hname 'i' _ (by decide) hinf

/-- A sign, and a number after it. -/
theorem parseDecimal_sign {negative : Bool} {c : Char} {t : Text} (h : c.isDigit = true)
    (ht : ∀ d ∈ t, IsNumeric d) :
    parseDecimal ((if negative then ['-'] else []) ++ c :: t) = parseFinite negative (c :: t) := by
  have hnumeric : ∀ d ∈ c :: t, IsNumeric d := by
    intro d hd
    rcases List.mem_cons.1 hd with rfl | hd
    · exact isNumeric_of_isDigit h
    · exact ht d hd
  -- The sign is read off first; a digit is none.
  cases negative with
  | true =>
    have hclean := cleaned_eq_self (t := '-' :: c :: t) (by
      intro d hd
      rcases List.mem_cons.1 hd with rfl | hd
      · exact ⟨by decide, by decide⟩
      · exact hnumeric d hd)
    rw [if_pos rfl, List.singleton_append, parseDecimal, hclean]
    exact parseUnsigned_cons h
  | false =>
    rw [if_neg Bool.false_ne_true, List.nil_append, ← parseUnsigned_cons h]
    unfold parseDecimal
    rw [cleaned_eq_self hnumeric]
    split
    · next heq =>
      cases heq
      cases h
    · next heq =>
      cases heq
      cases h
    · rfl

/-- A text with a point begins with a digit. -/
theorem pointAt_eq_cons {place : Int} {digits : Text} (h : AllDigits digits) (hne : digits ≠ []) :
    ∃ c t, pointAt place digits = c :: t ∧ c.isDigit = true ∧ ∀ d ∈ t, IsNumeric d := by
  have hpoint : IsNumeric '.' := ⟨by decide, by decide⟩
  have hzero : ∀ k, ∀ d ∈ List.replicate k '0', IsNumeric d := fun k d hd =>
    List.eq_of_mem_replicate hd ▸ ⟨by decide, by decide⟩
  rw [pointAt]
  split
  · -- The point stands before all the digits, behind a zero of its own.
    refine ⟨'0', _, rfl, by decide, fun d hd => ?_⟩
    rcases List.mem_cons.1 hd with rfl | hd
    · exact hpoint
    · rcases List.mem_append.1 hd with hd | hd
      · exact hzero _ d hd
      · exact isNumeric_of_isDigit (h d hd)
  · next hpos =>
    obtain ⟨c, t, rfl⟩ := List.exists_cons_of_ne_nil hne
    have hc : c.isDigit = true := h c List.mem_cons_self
    have ht : ∀ d ∈ t, IsNumeric d := fun d hd =>
      isNumeric_of_isDigit (h d (List.mem_cons_of_mem c hd))
    split
    · exact ⟨c, t, rfl, hc, ht⟩
    · -- It stands among them, and the first digit is before it.
      obtain ⟨k, hk⟩ : ∃ k, place.toNat = k + 1 := ⟨place.toNat - 1, by omega⟩
      rw [hk, List.take_succ_cons, List.drop_succ_cons]
      refine ⟨c, _, rfl, hc, fun d hd => ?_⟩
      rcases List.mem_append.1 hd with hd | hd
      · exact ht d (List.mem_of_mem_take hd)
      · rcases List.mem_cons.1 hd with rfl | hd
        · exact hpoint
        · exact ht d (List.mem_of_mem_drop hd)

/-- It is read back as its digits and their place. -/
theorem parseFinite_pointAt {negative : Bool} {exponent : Int} {digits : Text}
    (h : AllDigits digits) (hne : digits ≠ []) (hexponent : exponent ≤ 0) :
    parseFinite negative (pointAt (exponent + digits.length) digits) =
      Decimal.ofParts negative digits exponent := by
  rw [pointAt]
  split
  · -- Before the digits: the zeros between belong to the fraction, and change no value.
    next hplace =>
    generalize hk : (-(exponent + digits.length)).toNat = k
    have hzeros : AllDigits (List.replicate k '0' ++ digits) := by
      intro c hc
      rcases List.mem_append.1 hc with hc | hc
      · exact List.eq_of_mem_replicate hc ▸ by decide
      · exact h c hc
    have hlength : -((List.replicate k '0' ++ digits).length : Int) = exponent := by
      rw [List.length_append, List.length_replicate]
      omega
    have hzero : AllDigits ['0'] := fun c hc => List.mem_singleton.1 hc ▸ by decide
    have hpoint := @parseFinite_point negative _ _ hzero hzeros
    rw [hlength] at hpoint
    refine hpoint.trans ?_
    rw [Decimal.ofParts, Decimal.ofParts, List.singleton_append, parseNumeral_zero_cons,
      parseNumeral_zeros hne]
    exact List.append_ne_nil_of_right_ne_nil _ hne
  · split
    · have hzero : exponent = 0 := by omega
      rw [hzero]
      exact parseFinite_int h
    · next hpos hlt =>
      -- Among them: the exponent counts the digits behind the point.
      have hlength : -((digits.drop (exponent + digits.length).toNat).length : Int) = exponent := by
        rw [List.length_drop]
        omega
      rw [parseFinite_point (fun c hc => h c (List.mem_of_mem_take hc))
        (fun c hc => h c (List.mem_of_mem_drop hc)), hlength, List.take_append_drop]

/-- **Decimals are read back** if they are written without an exponent. -/
theorem parseDecimal_decimalText {negative : Bool} {coefficient : Nat} {exponent : Int}
    (hexponent : exponent ≤ 0) (hplain : -6 < exponent + (natText coefficient).length)
    (hmax : exponent + (natText coefficient).length - 1 ≤ maxExponent)
    (hmin : minExponent ≤ exponent) :
    parseDecimal (decimalText (.finite negative coefficient exponent)) =
      some (.finite negative coefficient exponent) := by
  have hdigits : AllDigits (natText coefficient) := fun c hc => isDigit_of_mem_natText hc
  have hofParts : Decimal.ofParts negative (natText coefficient) exponent =
      some (.finite negative coefficient exponent) := by
    rw [Decimal.ofParts, parseNumeral_natText]
    exact if_pos ⟨hmax, hmin⟩
  obtain ⟨c, t, hpoint, hc, ht⟩ := @pointAt_eq_cons (exponent + (natText coefficient).length) _
    hdigits (natText_ne_nil coefficient)
  have hplace : (if exponent ≤ 0 ∧ -6 < exponent + (natText coefficient).length then
      exponent + (natText coefficient).length else 1) =
      exponent + (natText coefficient).length := if_pos ⟨hexponent, hplain⟩
  simp only [decimalText, hplace, if_true, List.append_nil]
  rw [hpoint, parseDecimal_sign hc ht, ← hpoint,
    parseFinite_pointAt hdigits (natText_ne_nil coefficient) hexponent, hofParts]

end Systems

end RealEstate
