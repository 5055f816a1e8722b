import RealEstate.Systems.Binary
import RealEstate.Systems.Integers

/-!
# Floats and their text

A `float` is its 64 bits. Every finite one is a whole number of units of `2 ^ -1074`, in which it
is compared and rounded.

- `FloatValue`: what a float stands for, with the order of `<=` and `==`.
- `roundBits`: the bits of the float nearest to a fraction, ties to even.
- `parseFloat`, `reprFloat`: `float(text)` and `repr(x)`.
- `parseFloat_reprFloat`: a finite float is read back, its sign included.
-/

namespace RealEstate

namespace Systems

/-! ### Values -/

/-- One, in units of `2 ^ -1074`. -/
@[irreducible] def unitsInOne : Nat := 2 ^ 1074

/-- The unit, as a coefficient of `10 ^ -1074`. -/
@[irreducible] def unitCoefficient : Nat := 5 ^ 1074

/-- What a float stands for; a finite one in units of `2 ^ -1074`. -/
inductive FloatValue where
  | nan
  | infinity (negative : Bool)
  | finite (units : Int)
  deriving DecidableEq, Repr

namespace FloatValue

/-- An integer as a float. -/
def ofInt (n : Int) : FloatValue := .finite (n * unitsInOne)

/-- `x <= y`. -/
def le : FloatValue → FloatValue → Bool
  | .nan, _ | _, .nan => false
  | .infinity true, _ | _, .infinity false => true
  | .infinity false, _ | _, .infinity true => false
  | .finite x, .finite y => x ≤ y

/-- `x == y`. -/
def same : FloatValue → FloatValue → Bool
  | .nan, _ => false
  | x, y => x = y

end FloatValue

/-- The bits of infinity; more are no number, fewer a finite magnitude. -/
def infinityBits : Nat := 2047 * 2 ^ 52

/-- The bits of a quiet NaN. -/
def nanBits : Nat := infinityBits + 2 ^ 51

/-- The power of two, above `2 ^ -1074`, that a magnitude counts. -/
def scale (bits : Nat) : Nat := bits / 2 ^ 52 - 1

/-- How often it does; the first bit of a normal number is implicit. -/
def significand (bits : Nat) : Nat := bits - scale bits * 2 ^ 52

/-- A finite magnitude in units. -/
def units (bits : Nat) : Nat := significand bits * 2 ^ scale bits

/-- The magnitude of a float, without its sign. -/
def magnitudeBits (x : Double) : Nat := x.toNat % 2 ^ 63

/-- The sign bit. -/
def isNegative (x : Double) : Bool := 2 ^ 63 ≤ x.toNat

/-- The value of a double. -/
def floatValue (x : Double) : FloatValue :=
  let bits := magnitudeBits x
  if infinityBits < bits then .nan
  else if bits = infinityBits then .infinity (isNegative x)
  else .finite (if isNegative x then -(units bits : Int) else units bits)

/-- `math.isfinite`. -/
def IsFinite (x : Double) : Prop := magnitudeBits x < infinityBits

/-- A comparison. -/
instance : DecidablePred IsFinite := fun x => inferInstanceAs (Decidable (magnitudeBits x < _))

/-- A float with this sign and magnitude. -/
def withSign (negative : Bool) (bits : Nat) : Double :=
  BitVec.ofNat 64 (if negative then 2 ^ 63 + bits else bits)

/-! ### Rounding -/

/-- The whole number nearest to `n / d`, ties to even. -/
def nearest (n d : Nat) : Nat :=
  let q := n / d
  let r := n % d
  if 2 * r < d ∨ 2 * r = d ∧ q % 2 = 0 then q else q + 1

/-- The bits of the float nearest to `n / d`. A significand that is rounded up to `2 ^ 53` carries
into the exponent. -/
def roundBits (n d : Nat) : Nat :=
  let k := (n * unitsInOne / d).log2 - 52
  min (k * 2 ^ 52 + nearest (n * unitsInOne) (d * 2 ^ k)) infinityBits

/-- The bits of the float nearest to `coefficient * 10 ^ exponent`; what is far out of range is not
computed. -/
def roundDecimal (coefficient : Nat) (exponent : Int) : Nat :=
  if coefficient = 0 ∨ exponent + (coefficient.log2 : Int) < -2000 then 0
  else if 2000 < exponent then infinityBits
  else if 0 ≤ exponent then roundBits (coefficient * 10 ^ exponent.toNat) 1
  else roundBits coefficient (10 ^ (-exponent).toNat)

/-! ### Reading -/

/-- Underscores are dropped; they must stand between digits. -/
def dropUnderscores : Char → Text → Option Text
  | previous, [] => if previous = '_' then none else some []
  | previous, c :: t =>
    if c = '_' then if previous.isDigit then dropUnderscores c t else none
    else if previous = '_' ∧ ¬c.isDigit then none
    else (dropUnderscores c t).map (c :: ·)

/-- Digits with at most one point, and an exponent. -/
def parseDecimalPoint (t : Text) : Option Nat :=
  let int := t.takeWhile Char.isDigit
  let t := t.dropWhile Char.isDigit
  let (fraction, t) :=
    match t with
    | '.' :: t => (t.takeWhile Char.isDigit, t.dropWhile Char.isDigit)
    | t => ([], t)
  let exponent :=
    match t with
    | [] => some 0
    | c :: t => if c = 'e' ∨ c = 'E' then parseExponent t else none
  exponent.bind fun exponent => (parseNumeral 10 (int ++ fraction)).map fun coefficient =>
    roundDecimal coefficient (exponent - fraction.length)

/-- What follows the sign. -/
def parseBits (t : Text) : Option Nat :=
  let name := t.map Char.toLower
  if name = "inf".toList ∨ name = "infinity".toList then some infinityBits
  else if name = "nan".toList then some nanBits
  else parseDecimalPoint t

/-- `float(text)`, with `none` for a `ValueError`. -/
def parseFloat (t : Text) : Option Double :=
  (dropUnderscores '\x00' (stripC (t.map asciiOf))).bind fun
    | '-' :: t => (parseBits t).map (withSign true)
    | '+' :: t => (parseBits t).map (withSign false)
    | t => (parseBits t).map (withSign false)

/-! ### Writing -/

/-- The sign, if it is negative. -/
def signText (negative : Bool) : Text := if negative then ['-'] else []

/-- Digits whose first follows the point of `0.` times ten to this power. -/
def formatDigits (point : Int) (digits : Text) : Text :=
  if -4 < point ∧ point ≤ 16 then
    pointAt point (digits ++ List.replicate (point + 1 - digits.length).toNat '0')
  else
    let exponent := point - 1
    pointAt 1 digits ++ 'e' :: (if exponent < 0 then '-' else '+') ::
      numeral 10 2 exponent.natAbs

/-- Without the zeros at its end. -/
def dropZeros (digits : Text) : Text := (digits.reverse.dropWhile (· = '0')).reverse

/-- A coefficient of a power of ten. -/
def formatDecimal (coefficient : Nat) (exponent : Int) : Text :=
  formatDigits (exponent + (natText coefficient).length) (dropZeros (natText coefficient))

/-- The numbers with so many digits below and above a coefficient of `10 ^ -1074`, the nearer one
first. -/
def roundings (coefficient digits : Nat) : List Text :=
  let dropped := (natText coefficient).length - digits
  let low := coefficient / 10 ^ dropped
  let write := fun n => formatDecimal n (dropped - 1074)
  if 2 * (coefficient % 10 ^ dropped) ≤ 10 ^ dropped then [write low, write (low + 1)]
  else [write (low + 1), write low]

/-- All its digits, for a magnitude that no shorter text would give. -/
def exactText (coefficient : Nat) : Text := natText coefficient ++ "e-1074".toList

/-- The shortest text that reads back as `x`, and of these the nearest. -/
def shortestText (x : Double) (coefficient : Nat) : Option Text :=
  ((List.range 17).flatMap fun n => roundings coefficient (n + 1)).find? fun t =>
    parseFloat (signText (isNegative x) ++ t) = some x

/-- `repr(x)`. -/
def reprFloat (x : Double) : Text :=
  let sign := signText (isNegative x)
  let bits := magnitudeBits x
  if infinityBits < bits then "nan".toList
  else if bits = infinityBits then sign ++ "inf".toList
  else if bits = 0 then sign ++ "0.0".toList
  else
    let coefficient := units bits * unitCoefficient
    sign ++ (shortestText x coefficient).getD (exactText coefficient)

/-! ### Rounding what needs none -/

theorem unitsInOne_pos : 0 < unitsInOne := by
  have hpos : ∀ n, 0 < 2 ^ n := fun n => Nat.two_pow_pos n
  unfold unitsInOne
  exact hpos 1074

theorem unitCoefficient_pos : 0 < unitCoefficient := by
  have hpos : ∀ n, 0 < 5 ^ n := fun n => Nat.pow_pos (by decide)
  unfold unitCoefficient
  exact hpos 1074

theorem ten_pow_eq : 10 ^ 1074 = unitCoefficient * unitsInOne := by
  have hten : ∀ n, 10 ^ n = 5 ^ n * 2 ^ n := fun n => Nat.mul_pow 5 2 n
  unfold unitCoefficient unitsInOne
  exact hten 1074

/-- A multiple is its own nearest. -/
theorem nearest_mul (m : Nat) {d : Nat} (hd : 0 < d) : nearest (m * d) d = m := by
  unfold nearest
  dsimp only
  rw [Nat.mul_div_cancel m hd, Nat.mul_mod_left, if_pos (.inl hd)]

theorem scale_mul_le (bits : Nat) : scale bits * 2 ^ 52 ≤ bits := by
  unfold scale
  omega

theorem significand_lt (bits : Nat) : significand bits < 2 ^ 53 := by
  unfold significand scale
  omega

theorem le_significand {bits : Nat} (h : scale bits ≠ 0) : 2 ^ 52 ≤ significand bits := by
  unfold significand
  unfold scale at h ⊢
  omega

/-- The scale is found in the magnitude itself. -/
theorem log2_units (bits : Nat) : (units bits).log2 - 52 = scale bits := by
  have hlt := significand_lt bits
  by_cases hzero : scale bits = 0
  · have hunits : units bits = significand bits := by rw [units, hzero, pow_zero, Nat.mul_one]
    rw [hunits, hzero]
    by_cases hsig : significand bits = 0
    · rw [hsig]
      rfl
    · have hlog : (significand bits).log2 < 53 := (Nat.log2_lt hsig).2 hlt
      omega
  · have hle := le_significand hzero
    have hpos : 0 < 2 ^ scale bits := Nat.two_pow_pos _
    have hlow : 2 ^ (52 + scale bits) ≤ units bits := by
      rw [pow_add]
      exact Nat.mul_le_mul_right _ hle
    have hhigh : units bits < 2 ^ (52 + scale bits + 1) := by
      have hsplit : 2 ^ (52 + scale bits + 1) = 2 ^ 53 * 2 ^ scale bits := by ring
      rw [hsplit]
      exact Nat.mul_lt_mul_of_pos_right hlt hpos
    have hne : units bits ≠ 0 := Nat.ne_of_gt (Nat.lt_of_lt_of_le (Nat.two_pow_pos _) hlow)
    rw [(Nat.log2_eq_iff hne).2 ⟨hlow, hhigh⟩]
    omega

/-- **A magnitude is nearest to itself.** -/
theorem roundBits_units {bits : Nat} (h : bits < infinityBits) {d : Nat} (hd : 0 < d) :
    roundBits (units bits * d) (d * unitsInOne) = bits := by
  have hunit : 0 < d * unitsInOne := Nat.mul_pos hd unitsInOne_pos
  have hquotient : units bits * d * unitsInOne / (d * unitsInOne) = units bits := by
    rw [Nat.mul_assoc, Nat.mul_div_cancel _ hunit]
  have hproduct : units bits * d * unitsInOne =
      significand bits * (d * unitsInOne * 2 ^ scale bits) := by
    unfold units
    ring
  have hsum : scale bits * 2 ^ 52 + significand bits = bits :=
    Nat.add_sub_of_le (scale_mul_le bits)
  unfold roundBits
  dsimp only
  rw [hquotient, log2_units, hproduct, nearest_mul _ (Nat.mul_pos hunit (Nat.two_pow_pos _)), hsum]
  exact Nat.min_eq_left (Nat.le_of_lt h)

theorem units_ne_zero {bits : Nat} (h : bits ≠ 0) : units bits ≠ 0 := by
  have hsum : scale bits * 2 ^ 52 + significand bits = bits :=
    Nat.add_sub_of_le (scale_mul_le bits)
  have hsig : significand bits ≠ 0 := by
    by_cases hzero : scale bits = 0
    · rw [hzero] at hsum
      omega
    · have hle := le_significand hzero
      omega
  exact Nat.mul_ne_zero hsig (Nat.ne_of_gt (Nat.two_pow_pos _))

/-- All the digits of a magnitude. -/
theorem roundDecimal_units {bits : Nat} (hzero : bits ≠ 0) (h : bits < infinityBits) :
    roundDecimal (units bits * unitCoefficient) (-1074) = bits := by
  have hcoefficient : units bits * unitCoefficient ≠ 0 :=
    Nat.mul_ne_zero (units_ne_zero hzero) (Nat.ne_of_gt unitCoefficient_pos)
  have hexponent : (-(-1074 : Int)).toNat = 1074 := by decide
  unfold roundDecimal
  rw [if_neg (not_or.2 ⟨hcoefficient, by omega⟩), if_neg (by decide), if_neg (by decide),
    hexponent, ten_pow_eq]
  exact roundBits_units h unitCoefficient_pos

/-! ### Reading back -/

/-- A double is its sign and its magnitude. -/
theorem withSign_magnitudeBits (x : Double) : withSign (isNegative x) (magnitudeBits x) = x := by
  have hlt := x.isLt
  refine BitVec.eq_of_toNat_eq ?_
  unfold withSign isNegative magnitudeBits
  rw [BitVec.toNat_ofNat]
  by_cases hsign : 2 ^ 63 ≤ x.toNat
  · rw [if_pos (decide_eq_true hsign)]
    omega
  · rw [if_neg fun h => hsign (of_decide_eq_true h)]
    omega

theorem dropUnderscores_eq_self {previous : Char} {t : Text} (hprevious : previous ≠ '_')
    (h : '_' ∉ t) : dropUnderscores previous t = some t := by
  induction t generalizing previous with
  | nil => exact if_neg hprevious
  | cons c t ih =>
    have hc : c ≠ '_' := fun heq => h (heq ▸ List.mem_cons_self)
    have ht : '_' ∉ t := fun hmem => h (List.mem_cons_of_mem c hmem)
    rw [dropUnderscores, if_neg hc, if_neg fun hboth => hprevious hboth.1, ih hc ht]
    rfl

/-- An exact text is read back, rounded once. -/
theorem parseDecimalPoint_exactText (coefficient : Nat) :
    parseDecimalPoint (exactText coefficient) = some (roundDecimal coefficient (-1074)) := by
  have hdigits : ∀ c ∈ natText coefficient, c.isDigit = true := fun c hc =>
    isDigit_of_mem_natText hc
  have htake : (exactText coefficient).takeWhile Char.isDigit = natText coefficient := by
    unfold exactText
    rw [List.takeWhile_append_of_pos hdigits]
    exact List.append_nil _
  have hdrop : (exactText coefficient).dropWhile Char.isDigit = "e-1074".toList := by
    unfold exactText
    rw [List.dropWhile_append_of_pos hdigits]
    rfl
  have hexponent : parseExponent "-1074".toList = some (-1074) := by decide
  unfold parseDecimalPoint
  rw [htake, hdrop]
  show (parseExponent "-1074".toList).bind (fun exponent =>
    (parseNumeral 10 (natText coefficient ++ [])).map fun coefficient =>
      roundDecimal coefficient (exponent - 0)) = _
  rw [hexponent, List.append_nil, parseNumeral_natText]
  rfl

/-- Before a digit there is no name. -/
theorem parseBits_cons {c : Char} {t : Text} (h : c.isDigit = true) :
    parseBits (c :: t) = parseDecimalPoint (c :: t) := by
  have hname : ∀ (d : Char) (ds : Text), d.isDigit = false →
      (c :: t).map Char.toLower ≠ d :: ds := by
    intro d ds hd heq
    exact toLower_ne_of_isDigit h hd (List.cons.inj heq).1
  unfold parseBits
  dsimp only
  rw [if_neg, if_neg]
  · exact hname 'n' _ (by decide)
  · rintro (hinf | hinf)
    · exact hname 'i' _ (by decide) hinf
    · exact hname 'i' _ (by decide) hinf

/-- A character of a finite float. -/
def isFloatChar (c : Char) : Bool := c.isDigit || ['.', 'e', '+', '-'].contains c

theorem isFloatChar_of_isDigit {c : Char} (h : c.isDigit = true) : isFloatChar c = true :=
  Bool.or_eq_true_iff.2 (.inl h)

theorem isFloatChar_signText (negative : Bool) : ∀ c ∈ signText negative, isFloatChar c = true := by
  intro c hc
  cases negative with
  | false => cases hc
  | true =>
    rw [List.mem_singleton.1 hc]
    decide

theorem isFloatChar_exactText {coefficient : Nat} :
    ∀ c ∈ exactText coefficient, isFloatChar c = true := by
  intro c hc
  rcases List.mem_append.1 hc with hc | hc
  · exact isFloatChar_of_isDigit (isDigit_of_mem_natText hc)
  · have htail : "e-1074".toList.all isFloatChar = true := by decide
    exact List.all_eq_true.1 htail c hc

/-- The characters of a float are printable. -/
theorem plain_of_isFloatChar {c : Char} (h : isFloatChar c = true) :
    (33 ≤ c.toNat ∧ c.toNat < 127) ∧ c ≠ '_' := by
  rcases Bool.or_eq_true_iff.1 h with h | h
  · obtain ⟨hlow, hhigh⟩ := isNumeric_of_isDigit h
    refine ⟨by omega, ?_⟩
    rintro rfl
    cases h
  · have hplain : ['.', 'e', '+', '-'].all (fun c =>
        decide ((33 ≤ c.toNat ∧ c.toNat < 127) ∧ c ≠ '_')) = true := by decide
    exact of_decide_eq_true (List.all_eq_true.1 hplain c (List.contains_iff_mem.1 h))

/-- **A double's exact text is read back as the double.** -/
theorem parseFloat_exactText (negative : Bool) (coefficient : Nat) :
    parseFloat (signText negative ++ exactText coefficient) =
      some (withSign negative (roundDecimal coefficient (-1074))) := by
  -- The text is made of characters that strip and separate nothing.
  have hchars : ∀ c ∈ signText negative ++ exactText coefficient, isFloatChar c = true := by
    intro c hc
    rcases List.mem_append.1 hc with hc | hc
    · exact isFloatChar_signText negative c hc
    · exact isFloatChar_exactText c hc
  have hstrip : stripC ((signText negative ++ exactText coefficient).map asciiOf) =
      signText negative ++ exactText coefficient :=
    stripC_map_asciiOf fun c hc => (plain_of_isFloatChar (hchars c hc)).1
  have hdrop : dropUnderscores '\x00' (signText negative ++ exactText coefficient) =
      some (signText negative ++ exactText coefficient) :=
    dropUnderscores_eq_self (by decide) fun hc => (plain_of_isFloatChar (hchars _ hc)).2 rfl
  -- Behind the sign it begins with a digit, so it is read as a number.
  obtain ⟨c, t, ht⟩ := List.exists_cons_of_ne_nil (natText_ne_nil coefficient)
  have hc : c.isDigit = true :=
    isDigit_of_mem_natText (by rw [ht]; exact List.mem_cons_self)
  have hexact : exactText coefficient = c :: (t ++ "e-1074".toList) := by
    rw [exactText, ht, List.cons_append]
  have hbits : parseBits (exactText coefficient) = some (roundDecimal coefficient (-1074)) := by
    rw [← parseDecimalPoint_exactText, hexact, parseBits_cons hc]
  unfold parseFloat
  rw [hstrip, hdrop, Option.bind_some]
  cases negative with
  | true =>
    show (parseBits (exactText coefficient)).map (withSign true) = _
    rw [hbits]
    rfl
  | false =>
    show (match exactText coefficient with
      | '-' :: t => (parseBits t).map (withSign true)
      | '+' :: t => (parseBits t).map (withSign false)
      | t => (parseBits t).map (withSign false)) = _
    rw [hexact]
    split
    · next heq =>
      cases heq
      cases hc
    · next heq =>
      cases heq
      cases hc
    · rw [← hexact, hbits]
      rfl

/-- **Finite floats are read back**, the sign of a zero included. -/
theorem parseFloat_reprFloat {x : Double} (h : IsFinite x) : parseFloat (reprFloat x) = some x := by
  unfold IsFinite at h
  unfold reprFloat
  dsimp only
  rw [if_neg (Nat.lt_asymm h), if_neg (Nat.ne_of_lt h)]
  by_cases hzero : magnitudeBits x = 0
  · have hx := withSign_magnitudeBits x
    rw [hzero] at hx
    have hread : ∀ negative,
        parseFloat (signText negative ++ "0.0".toList) = some (withSign negative 0) := by
      decide
    rw [if_pos hzero, hread, hx]
  · rw [if_neg hzero]
    cases hshortest : shortestText x (units (magnitudeBits x) * unitCoefficient) with
    | some t =>
      have hfound := List.find?_some hshortest
      exact of_decide_eq_true hfound
    | none =>
      rw [Option.getD_none, parseFloat_exactText, roundDecimal_units hzero h,
        withSign_magnitudeBits]

/-! ### Characters -/

theorem mem_pointAt {place : Int} {digits : Text} {c : Char} (h : c ∈ pointAt place digits) :
    c ∈ digits ∨ c = '0' ∨ c = '.' := by
  unfold pointAt at h
  split at h
  · rcases List.mem_cons.1 h with rfl | h
    · exact .inr (.inl rfl)
    · rcases List.mem_cons.1 h with rfl | h
      · exact .inr (.inr rfl)
      · rcases List.mem_append.1 h with h | h
        · exact .inr (.inl (List.eq_of_mem_replicate h))
        · exact .inl h
  · split at h
    · exact .inl h
    · rcases List.mem_append.1 h with h | h
      · exact .inl (List.mem_of_mem_take h)
      · rcases List.mem_cons.1 h with rfl | h
        · exact .inr (.inr rfl)
        · exact .inl (List.mem_of_mem_drop h)

/-- A point is one of them. -/
theorem isFloatChar_pointAt {place : Int} {digits : Text} (h : ∀ c ∈ digits, c.isDigit = true) :
    ∀ c ∈ pointAt place digits, isFloatChar c = true := by
  intro c hc
  rcases mem_pointAt hc with hc | rfl | rfl
  · exact isFloatChar_of_isDigit (h c hc)
  · decide
  · decide

/-- Formatted digits have no others. -/
theorem isFloatChar_formatDigits {point : Int} {digits : Text}
    (h : ∀ c ∈ digits, c.isDigit = true) :
    ∀ c ∈ formatDigits point digits, isFloatChar c = true := by
  intro c hc
  unfold formatDigits at hc
  split at hc
  · refine isFloatChar_pointAt (fun d hd => ?_) c hc
    rcases List.mem_append.1 hd with hd | hd
    · exact h d hd
    · rw [List.eq_of_mem_replicate hd]
      decide
  · rcases List.mem_append.1 hc with hc | hc
    · exact isFloatChar_pointAt h c hc
    · rcases List.mem_cons.1 hc with rfl | hc
      · decide
      · rcases List.mem_cons.1 hc with rfl | hc
        · split <;> decide
        · exact isFloatChar_of_isDigit (isDigit_of_mem_numeral hc)

theorem isFloatChar_formatDecimal (coefficient : Nat) (exponent : Int) :
    ∀ c ∈ formatDecimal coefficient exponent, isFloatChar c = true := by
  refine isFloatChar_formatDigits fun c hc => ?_
  have hkept : c ∈ (natText coefficient).reverse :=
    (List.dropWhile_suffix _).subset (List.mem_reverse.1 hc)
  exact isDigit_of_mem_natText (List.mem_reverse.1 hkept)

/-- Nor have the candidates of `repr`. -/
theorem isFloatChar_roundings {coefficient digits : Nat} {t : Text}
    (h : t ∈ roundings coefficient digits) : ∀ c ∈ t, isFloatChar c = true := by
  unfold roundings at h
  dsimp only at h
  split at h
  · rcases List.mem_cons.1 h with rfl | h
    · exact isFloatChar_formatDecimal _ _
    · rw [List.mem_singleton.1 h]
      exact isFloatChar_formatDecimal _ _
  · rcases List.mem_cons.1 h with rfl | h
    · exact isFloatChar_formatDecimal _ _
    · rw [List.mem_singleton.1 h]
      exact isFloatChar_formatDecimal _ _

/-- Finite floats are written in digits, points, signs and an `e`. -/
theorem isFloatChar_reprFloat {x : Double} (h : IsFinite x) :
    ∀ c ∈ reprFloat x, isFloatChar c = true := by
  unfold IsFinite at h
  unfold reprFloat
  dsimp only
  rw [if_neg (Nat.lt_asymm h), if_neg (Nat.ne_of_lt h)]
  intro c hc
  by_cases hzero : magnitudeBits x = 0
  · rw [if_pos hzero] at hc
    have htext : "0.0".toList.all isFloatChar = true := by decide
    rcases List.mem_append.1 hc with hc | hc
    · exact isFloatChar_signText _ c hc
    · exact List.all_eq_true.1 htext c hc
  · rw [if_neg hzero] at hc
    rcases List.mem_append.1 hc with hc | hc
    · exact isFloatChar_signText _ c hc
    · cases hshortest : shortestText x (units (magnitudeBits x) * unitCoefficient) with
      | some t =>
        rw [hshortest, Option.getD_some] at hc
        unfold shortestText at hshortest
        obtain ⟨n, -, ht⟩ := List.mem_flatMap.1 (List.mem_of_find?_eq_some hshortest)
        exact isFloatChar_roundings ht c hc
      | none =>
        -- The exact text is there in case no rounding reads back.
        rw [hshortest, Option.getD_none] at hc
        exact isFloatChar_exactText c hc

theorem reprFloat_ne_nil {x : Double} (h : IsFinite x) : reprFloat x ≠ [] := by
  intro hnil
  have hread := parseFloat_reprFloat h
  rw [hnil] at hread
  have hnone : parseFloat [] = none := by decide
  rw [hnone] at hread
  cases hread

/-! ### Comparing -/

/-- Between two integers lies nothing but finite floats. -/
theorem isFinite_of_le {x : Double} {a b : Int}
    (ha : (FloatValue.ofInt a).le (floatValue x) = true)
    (hb : (floatValue x).le (.ofInt b) = true) : IsFinite x := by
  by_contra hfinite
  have hge : infinityBits ≤ magnitudeBits x := Nat.le_of_not_lt hfinite
  unfold floatValue at ha hb
  dsimp only at ha hb
  split at ha
  · exact Bool.false_ne_true ha
  · next hnan =>
    rw [if_neg hnan] at hb
    have hinf : magnitudeBits x = infinityBits := Nat.le_antisymm (Nat.le_of_not_lt hnan) hge
    rw [if_pos hinf] at ha hb
    cases hsign : isNegative x with
    | false =>
      rw [hsign] at hb
      exact Bool.false_ne_true hb
    | true =>
      rw [hsign] at ha
      exact Bool.false_ne_true ha

end Systems

end RealEstate
