import RealEstate.Systems.Decimals
import RealEstate.Systems.JsonText

/-!
# Integers as text

`int(text, base)` forgives more than a numeral: spaces around it, a sign, the prefix `0x`,
underscores between digits, and the digits of any script.

- `intText`, `parseInt`: `str(n)` and `int(text, b)`.
- `parseInt_of_digits`: a text of plain digits is read as the numeral it is.
- `parseInt_intText`: an integer is read back.
-/

namespace RealEstate

namespace Systems

/-- `str(n)`. -/
def intText (n : Int) : Text := if n < 0 then '-' :: natText n.natAbs else natText n.natAbs

/-- A character as the C code sees it: any space is a blank, and any decimal digit a digit. -/
def asciiOf (c : Char) : Char := if 127 ≤ c.toNat ∧ isSpace c then ' ' else asciiDigit c

/-- The spaces that the C code skips. -/
def isCSpace (c : Char) : Bool := (9 ≤ c.toNat ∧ c.toNat ≤ 13) ∨ c = ' '

/-- Without the spaces of C at both ends. -/
def stripC (t : Text) : Text := ((t.dropWhile isCSpace).reverse.dropWhile isCSpace).reverse

/-- What follows `0x`, with one underscore after it. -/
def dropHexPrefix : Text → Text
  | '0' :: c :: '_' :: t => if c = 'x' ∨ c = 'X' then t else '0' :: c :: '_' :: t
  | '0' :: c :: t => if c = 'x' ∨ c = 'X' then t else '0' :: c :: t
  | t => t

/-- Digits, with single underscores between them. There is no limit to the digits of a base that
is a power of two. -/
def parseDigits (b : Nat) (t : Text) : Option Nat :=
  let digits := t.filter (· ≠ '_')
  if (t.splitOn '_').any List.isEmpty then none
  else if b &&& (b - 1) ≠ 0 ∧ maxStrDigits < digits.length then none
  else parseNumeral b digits

/-- The digits after a sign. -/
def parseMagnitude (b : Nat) (t : Text) : Option Nat :=
  parseDigits b (if b = 16 then dropHexPrefix t else t)

/-- `int(text, b)`, with `none` for a `ValueError`. -/
def parseInt (b : Nat) (t : Text) : Option Int :=
  match stripC (t.map asciiOf) with
  | '-' :: t => (parseMagnitude b t).map fun n : Nat => -(n : Int)
  | '+' :: t => (parseMagnitude b t).map Int.ofNat
  | t => (parseMagnitude b t).map Int.ofNat

/-! ### Plain digits -/

section

variable {b : Nat} {t : Text}

theorem asciiOf_plain {c : Char} (h : c.toNat < 127) : asciiOf c = c := by
  rw [asciiOf, if_neg (by omega), asciiDigit_eq_self (by omega)]

theorem stripC_eq_self (h : ∀ c ∈ t, isCSpace c = false) : stripC t = t := by
  have hdrop : ∀ l : Text, (∀ c ∈ l, isCSpace c = false) → l.dropWhile isCSpace = l := by
    intro l hl
    cases l with
    | nil => rfl
    | cons c l => rw [List.dropWhile_cons_of_neg (by simp [hl c List.mem_cons_self])]
  have hreverse : ∀ c ∈ t.reverse, isCSpace c = false := fun c hc => h c (List.mem_reverse.mp hc)
  rw [stripC, hdrop t h, hdrop t.reverse hreverse, List.reverse_reverse]

theorem isCSpace_plain {c : Char} (h : 33 ≤ c.toNat) : isCSpace c = false := by
  refine decide_eq_false ?_
  rintro (h' | rfl)
  · omega
  · exact absurd h (by decide)

theorem dropHexPrefix_eq_self (h : ∀ c ∈ t, c ≠ 'x' ∧ c ≠ 'X') : dropHexPrefix t = t := by
  unfold dropHexPrefix
  split
  · next c t =>
    have hc := h c (List.mem_cons_of_mem _ List.mem_cons_self)
    rw [if_neg (by simp [hc.1, hc.2])]
  · next c t _ =>
    have hc := h c (List.mem_cons_of_mem _ List.mem_cons_self)
    rw [if_neg (by simp [hc.1, hc.2])]
  · rfl

theorem parseDigits_plain (ht : t ≠ []) (h : '_' ∉ t)
    (hlimit : b &&& (b - 1) ≠ 0 → t.length ≤ maxStrDigits) :
    parseDigits b t = parseNumeral b t := by
  have hfilter : t.filter (· ≠ '_') = t := by
    refine List.filter_eq_self.2 fun c hc => decide_eq_true ?_
    rintro rfl
    exact h hc
  rw [parseDigits, List.splitOn_eq_singleton h, hfilter, if_neg (by simpa using ht), if_neg]
  rintro ⟨hb, hlength⟩
  have := hlimit hb
  omega

/-- What the characters of a plain text of digits are not. -/
theorem plain_of_digit {c : Char} (h : (digitValue c).isSome) :
    (33 ≤ c.toNat ∧ c.toNat < 127) ∧ c ≠ '_' ∧ c ≠ 'x' ∧ c ≠ 'X' ∧ c ≠ '-' ∧ c ≠ '+' := by
  have hbounds : (48 ≤ c.toNat ∧ c.toNat ≤ 57) ∨ (97 ≤ c.toNat ∧ c.toNat ≤ 102) ∨
      (65 ≤ c.toNat ∧ c.toNat ≤ 70) := by
    unfold digitValue at h
    split at h
    · next hdigit => exact .inl (by simpa [Char.isDigit, UInt32.le_iff_toNat_le] using hdigit)
    · split at h
      · next hlower => exact .inr (.inl hlower)
      · split at h
        · next hupper => exact .inr (.inr hupper)
        · cases h
  refine ⟨by omega, ?_, ?_, ?_, ?_, ?_⟩
  all_goals
    rintro rfl
    exact absurd hbounds (by decide)

/-- Nothing is stripped from a printable text, or converted. -/
theorem stripC_map_asciiOf (h : ∀ c ∈ t, 33 ≤ c.toNat ∧ c.toNat < 127) :
    stripC (t.map asciiOf) = t := by
  have hmap : t.map asciiOf = t :=
    (List.map_congr_left fun c hc => asciiOf_plain (h c hc).2).trans (List.map_id' t)
  rw [hmap, stripC_eq_self fun c hc => isCSpace_plain (h c hc).1]

theorem parseMagnitude_of_digits (ht : t ≠ []) (h : ∀ c ∈ t, (digitValue c).isSome)
    (hlimit : b &&& (b - 1) ≠ 0 → t.length ≤ maxStrDigits) :
    parseMagnitude b t = parseNumeral b t := by
  have hprefix : dropHexPrefix t = t :=
    dropHexPrefix_eq_self fun c hc => ⟨(plain_of_digit (h c hc)).2.2.1,
      (plain_of_digit (h c hc)).2.2.2.1⟩
  rw [parseMagnitude, hprefix, ite_self,
    parseDigits_plain ht (fun hc => (plain_of_digit (h _ hc)).2.1 rfl) hlimit]

/-- **Plain digits are a numeral.** -/
theorem parseInt_of_digits (ht : t ≠ []) (h : ∀ c ∈ t, (digitValue c).isSome)
    (hlimit : b &&& (b - 1) ≠ 0 → t.length ≤ maxStrDigits) :
    parseInt b t = (parseNumeral b t).map Int.ofNat := by
  rw [parseInt, stripC_map_asciiOf fun c hc => (plain_of_digit (h c hc)).1]
  split
  · next t => exact absurd rfl (plain_of_digit (h '-' List.mem_cons_self)).2.2.2.2.1
  · next t => exact absurd rfl (plain_of_digit (h '+' List.mem_cons_self)).2.2.2.2.2
  · rw [parseMagnitude_of_digits ht h hlimit]

theorem digitValue_natText {n : Nat} {c : Char} (h : c ∈ natText n) : (digitValue c).isSome := by
  rw [digitValue, if_pos (isDigit_of_mem_natText h)]
  rfl

/-- What is read from digits is what they stand for, whether or not there are too many of them. -/
theorem parseMagnitude_sound (h : ∀ c ∈ t, (digitValue c).isSome) {n : Nat}
    (hn : parseMagnitude b t = some n) : parseNumeral b t = some n := by
  by_cases ht : t = []
  · subst ht
    unfold parseMagnitude at hn
    split at hn <;> cases hn
  · by_cases hlimit : b &&& (b - 1) ≠ 0 → t.length ≤ maxStrDigits
    · rw [← hn, parseMagnitude_of_digits ht h hlimit]
    · have hunderscore : '_' ∉ t := fun hc => (plain_of_digit (h _ hc)).2.1 rfl
      have hprefix : dropHexPrefix t = t :=
        dropHexPrefix_eq_self fun c hc => ⟨(plain_of_digit (h c hc)).2.2.1,
          (plain_of_digit (h c hc)).2.2.2.1⟩
      have hfilter : t.filter (· ≠ '_') = t :=
        List.filter_eq_self.2 fun c hc => decide_eq_true fun heq => hunderscore (heq ▸ hc)
      rw [Classical.not_imp, Nat.not_le] at hlimit
      rw [parseMagnitude, hprefix, ite_self, parseDigits, List.splitOn_eq_singleton hunderscore,
        hfilter, if_neg (by simpa using ht), if_pos hlimit] at hn
      cases hn

/-- A numeral has digits and a sign only. -/
theorem not_mem_intText {c : Char} (hc : digitValue c = none) (hsign : c ≠ '-') (n : Int) :
    c ∉ intText n := by
  have hdigits : c ∉ natText n.natAbs := by
    intro hmem
    have hsome := digitValue_natText hmem
    rw [hc] at hsome
    cases hsome
  unfold intText
  split
  · exact List.not_mem_cons_of_ne_of_not_mem hsign hdigits
  · exact hdigits

/-- `int` of a numeral reads its sign and its digits. -/
theorem parseInt_intText_eq (n : Int) : parseInt 10 (intText n) =
    (parseMagnitude 10 (natText n.natAbs)).map
      fun m : Nat => if n < 0 then -(m : Int) else m := by
  have hdigits : ∀ c ∈ natText n.natAbs, (digitValue c).isSome := fun c => digitValue_natText
  have hprintable : ∀ c ∈ natText n.natAbs, 33 ≤ c.toNat ∧ c.toNat < 127 :=
    fun c hc => (plain_of_digit (hdigits c hc)).1
  unfold intText
  split
  · next hneg =>
    have hsigned : ∀ c ∈ '-' :: natText n.natAbs, 33 ≤ c.toNat ∧ c.toNat < 127 := by
      intro c hc
      rcases List.mem_cons.1 hc with rfl | hc
      · decide
      · exact hprintable c hc
    rw [parseInt, stripC_map_asciiOf hsigned]
    rfl
  · next hpos =>
    rw [parseInt, stripC_map_asciiOf hprintable]
    -- No digit is a sign.
    split
    · next t heq =>
      have hmem : '-' ∈ natText n.natAbs := by rw [heq]; exact List.mem_cons_self
      exact absurd rfl (plain_of_digit (hdigits _ hmem)).2.2.2.2.1
    · next t heq =>
      have hmem : '+' ∈ natText n.natAbs := by rw [heq]; exact List.mem_cons_self
      exact absurd rfl (plain_of_digit (hdigits _ hmem)).2.2.2.2.2
    · rfl

theorem signed_natAbs (n : Int) : (if n < 0 then -(n.natAbs : Int) else n.natAbs) = n := by
  split <;> omega

/-- **Integers are read back.** -/
theorem parseInt_intText {n : Int} (h : (natText n.natAbs).length ≤ maxStrDigits) :
    parseInt 10 (intText n) = some n := by
  rw [parseInt_intText_eq, parseMagnitude_of_digits (natText_ne_nil _)
    (fun c => digitValue_natText) fun _ => h, parseNumeral_natText, Option.map_some,
    signed_natAbs]

/-- Whatever is read from the text of an integer is that integer. -/
theorem parseInt_intText_sound {m n : Int} (h : parseInt 10 (intText n) = some m) : m = n := by
  rw [parseInt_intText_eq] at h
  obtain ⟨k, hk, rfl⟩ := Option.map_eq_some_iff.1 h
  have hnumeral := parseMagnitude_sound (fun c => digitValue_natText) hk
  rw [parseNumeral_natText] at hnumeral
  rw [← Option.some.inj hnumeral, signed_natAbs]

end

end Systems

end RealEstate
