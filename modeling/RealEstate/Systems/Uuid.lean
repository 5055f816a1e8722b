import RealEstate.Systems.Integers

/-!
# UUIDs and their text

- `uuidText`, `parseUuid`: `str(u)` and `uuid.UUID(text)`, which forgives braces, hyphens and
  a URN prefix.
- `parseUuid_uuidText`: a UUID is read back.
- `not_mem_uuidText`: what its text is free of.
-/

namespace RealEstate

namespace Systems

/-- A UUID, as the 128-bit number it is. -/
abbrev UUID := Fin (2 ^ 128)

/-- For the literals. -/
instance neZeroUUID : NeZero (2 ^ 128) := ⟨by decide⟩

/-- `t.replace(c + pat, "")`; `skip` characters of an occurrence are still ahead. -/
def removeAll (c : Char) (pat : Text) : Nat → Text → Text
  | _, [] => []
  | skip + 1, _ :: t => removeAll c pat skip t
  | 0, d :: t =>
    if (c :: pat).isPrefixOf (d :: t) then removeAll c pat pat.length t
    else d :: removeAll c pat 0 t

/-- `str(u)`: 32 hexadecimal digits in groups of 8, 4, 4, 4 and 12. -/
def uuidText (u : UUID) : Text :=
  let hex := numeral 16 32 u
  hex.take 8 ++ '-' :: (hex.drop 8).take 4 ++ '-' :: (hex.drop 12).take 4 ++
    '-' :: (hex.drop 16).take 4 ++ '-' :: hex.drop 20

/-- `{` or `}`. -/
def isBrace (c : Char) : Bool := c = '{' || c = '}'

/-- `uuid.UUID(text)`, with `none` for a `ValueError`. -/
def parseUuid (t : Text) : Option UUID :=
  let t := removeAll 'u' ['u', 'i', 'd', ':'] 0 (removeAll 'u' ['r', 'n', ':'] 0 t)
  let hex := (((t.dropWhile isBrace).reverse.dropWhile isBrace).reverse).filter (· ≠ '-')
  if hex.length ≠ 32 then none
  else (parseInt 16 hex).bind fun n =>
    if h : 0 ≤ n ∧ n < 2 ^ 128 then some ⟨n.toNat, by omega⟩ else none

/-- A text without the character. -/
theorem removeAll_eq_self {c : Char} {pat : Text} :
    ∀ {t : Text}, c ∉ t → removeAll c pat 0 t = t
  | [], _ => rfl
  | d :: t, h => by
    have hne : ¬ (c :: pat).isPrefixOf (d :: t) = true := by
      rw [List.isPrefixOf_cons_cons, Bool.and_eq_true, beq_iff_eq]
      rintro ⟨rfl, -⟩
      exact h List.mem_cons_self
    rw [removeAll, if_neg hne, removeAll_eq_self fun hc => h (List.mem_cons_of_mem d hc)]

/-- Only hyphens and hexadecimal digits occur in the text of a UUID. -/
theorem not_mem_uuidText {c : Char} (hyphen : c ≠ '-') (hc : digit 16 c = none) (u : UUID) :
    c ∉ uuidText u := by
  have hhex : c ∉ numeral 16 32 u := not_mem_numeral (by decide) (by decide) hc
  have htake : ∀ i j, c ∉ ((numeral 16 32 u).drop i).take j := fun i j hmem =>
    hhex (List.mem_of_mem_drop (List.mem_of_mem_take hmem))
  have hdrop : c ∉ (numeral 16 32 u).drop 20 := fun hmem => hhex (List.mem_of_mem_drop hmem)
  simp only [uuidText, List.mem_append, List.mem_cons, not_or]
  exact ⟨⟨⟨⟨htake 0 8, hyphen, htake 8 4⟩, hyphen, htake 12 4⟩, hyphen, htake 16 4⟩, hyphen, hdrop⟩

/-- Without hyphens, a UUID is a numeral. -/
theorem filter_uuidText (u : UUID) : (uuidText u).filter (· ≠ '-') = numeral 16 32 u := by
  have hkeep : ∀ t : Text, (∀ c ∈ t, c ∈ numeral 16 32 u) → t.filter (· ≠ '-') = t := by
    intro t ht
    refine List.filter_eq_self.2 fun c hc => decide_eq_true ?_
    rintro rfl
    exact not_mem_numeral (b := 16) (by decide) (by decide) (by decide) (ht _ hc)
  have htake : ∀ i j, (((numeral 16 32 u).drop i).take j).filter (· ≠ '-') =
      ((numeral 16 32 u).drop i).take j := fun i j =>
    hkeep _ fun c hc => List.mem_of_mem_drop (List.mem_of_mem_take hc)
  have hdrop := hkeep ((numeral 16 32 u).drop 20) fun c hc => List.mem_of_mem_drop hc
  have hhead := htake 0 8
  rw [List.drop_zero] at hhead
  have hhyphen : ∀ t : Text, ('-' :: t).filter (· ≠ '-') = t.filter (· ≠ '-') := fun _ => rfl
  have hjoin : ∀ i, ((numeral 16 32 u).drop i).take 4 ++ (numeral 16 32 u).drop (i + 4) =
      (numeral 16 32 u).drop i := by
    intro i
    rw [← List.drop_drop, List.take_append_drop]
  simp only [uuidText, List.filter_append, hhyphen, htake, hdrop, hhead, List.append_assoc]
  rw [hjoin 16, hjoin 12, hjoin 8, List.take_append_drop]

/-- **UUIDs are read back.** -/
theorem parseUuid_uuidText (u : UUID) : parseUuid (uuidText u) = some u := by
  -- Neither end of the text is a brace.
  have hbrace : ∀ t : Text, (∀ c ∈ t, c ∈ uuidText u) → t.dropWhile isBrace = t := by
    intro t ht
    cases t with
    | nil => rfl
    | cons c t =>
      refine List.dropWhile_cons_of_neg fun hc => ?_
      have hmem := ht c List.mem_cons_self
      rcases Bool.or_eq_true _ _ ▸ hc with hopen | hclose
      · rw [of_decide_eq_true hopen] at hmem
        exact not_mem_uuidText (by decide) (by decide) u hmem
      · rw [of_decide_eq_true hclose] at hmem
        exact not_mem_uuidText (by decide) (by decide) u hmem
  -- And it holds no prefix that would be removed.
  have hurn : 'u' ∉ uuidText u := not_mem_uuidText (by decide) (by decide) u
  have hbound : (u : Nat) < 16 ^ 32 := u.isLt
  -- What is left when the hyphens go is 32 digits.
  have hdigits : ∀ c ∈ numeral 16 32 u, (digitValue c).isSome := fun c hc => by
    by_contra hnone
    have hdigit : digit 16 c = none := by rw [digit, Option.not_isSome_iff_eq_none.1 hnone]; rfl
    exact not_mem_numeral (by decide) (by decide) hdigit hc
  rw [parseUuid, removeAll_eq_self hurn, removeAll_eq_self hurn, hbrace _ fun _ hc => hc,
    hbrace _ fun _ hc => List.mem_reverse.1 hc, List.reverse_reverse, filter_uuidText,
    length_numeral (by decide) hbound, if_neg (by decide),
    parseInt_of_digits (numeral_ne_nil (by decide)) hdigits fun h => absurd rfl h,
    parseNumeral_numeral (by decide) (by decide) (by decide)]
  -- And their value is below 2^128.
  have hlt : ((u : Nat) : Int) < 2 ^ 128 := by exact_mod_cast u.isLt
  rw [Option.map_some, Option.bind_some, Int.ofNat_eq_natCast,
    dif_pos ⟨Int.natCast_nonneg _, hlt⟩]
  exact congrArg some (Fin.ext (Int.toNat_natCast _))

/-- UUIDs are told apart by their text. -/
theorem uuidText_injective : Function.Injective uuidText := by
  intro u v h
  have hread := congrArg parseUuid h
  rw [parseUuid_uuidText, parseUuid_uuidText] at hread
  exact Option.some.inj hread

end Systems

end RealEstate
