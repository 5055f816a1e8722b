import Mathlib.Data.List.Basic

/-!
# Text as a list of characters

`str.strip`, `str.split`, `str.partition` and comma-separated lists, as header fields, tokens and
settings use them.

- `partition_append`, `rpartition_append`: the separator splits what it was put between.
- `splitText_append`: a text splits at the first separator.
- `commaList`: the non-empty entries of a text, stripped.
- `commaList_join`: joining texts with commas joins their lists.
- `commaList_of_entries`: a list of proper entries is read back.
-/

namespace RealEstate

namespace Systems

/-- A `str`. -/
abbrev Text := List Char

/-- Equality of lists. -/
instance lawfulBEqText : LawfulBEq Text := inferInstance

/-- `str.isspace`, of one character. -/
def isSpace (c : Char) : Bool :=
  let n := c.toNat
  (0x09 ≤ n ∧ n ≤ 0x0d) ∨ (0x1c ≤ n ∧ n ≤ 0x20) ∨ n = 0x85 ∨ n = 0xa0 ∨ n = 0x1680 ∨
    (0x2000 ≤ n ∧ n ≤ 0x200a) ∨ n = 0x2028 ∨ n = 0x2029 ∨ n = 0x202f ∨ n = 0x205f ∨ n = 0x3000

/-- `str.strip`. -/
def strip (t : Text) : Text := ((t.dropWhile isSpace).reverse.dropWhile isSpace).reverse

/-- `str.split`, at white space. -/
def words (t : Text) : List Text := (t.splitOnP isSpace).filter fun w => !w.isEmpty

theorem dropWhile_of_head {p : Char → Bool} {t : Text} (h : t.head?.any p = false) :
    t.dropWhile p = t := by
  cases t with
  | nil => rfl
  | cons c t =>
    have hc : p c = false := h
    rw [List.dropWhile_cons_of_neg (by simp [hc])]

/-- `t.rstrip(chars)`, for the characters of a predicate. -/
def rstrip (p : Char → Bool) (t : Text) : Text := (t.reverse.dropWhile p).reverse

theorem rstrip_of_last {p : Char → Bool} {t : Text} (h : t.getLast?.any p = false) :
    rstrip p t = t := by
  rw [rstrip, dropWhile_of_head (by rwa [List.head?_reverse]), List.reverse_reverse]

/-- A text without space at its ends. -/
theorem strip_of_ends {t : Text} (hhead : t.head?.any isSpace = false)
    (hlast : t.getLast?.any isSpace = false) : strip t = t := by
  rw [strip, dropWhile_of_head hhead]
  exact rstrip_of_last hlast

theorem strip_eq_self {t : Text} (h : ∀ c ∈ t, isSpace c = false) : strip t = t := by
  refine strip_of_ends ?_ ?_
  · cases hc : t.head? with
    | none => rfl
    | some c => exact h c (List.mem_of_mem_head? hc)
  · cases hc : t.getLast? with
    | none => rfl
    | some c => exact h c (List.mem_of_getLast? hc)

/-- `t.partition(c)`: without a separator, both texts after the first are empty. -/
def partition (c : Char) (t : Text) : Text × Text × Text :=
  (t.takeWhile (· ≠ c), if c ∈ t then [c] else [], (t.dropWhile (· ≠ c)).drop 1)

theorem partition_append {c : Char} {a : Text} (h : c ∉ a) (b : Text) :
    partition c (a ++ c :: b) = (a, [c], b) := by
  have hall : ∀ d ∈ a, decide (d ≠ c) = true := by
    intro d hd
    refine decide_eq_true ?_
    rintro rfl
    exact h hd
  have hmem : c ∈ a ++ c :: b := List.mem_append_right _ List.mem_cons_self
  rw [partition, List.takeWhile_append_of_pos hall, List.dropWhile_append_of_pos hall,
    List.takeWhile_cons_of_neg (by simp), List.dropWhile_cons_of_neg (by simp), if_pos hmem,
    List.append_nil]
  rfl

/-- `t.rpartition(c)`: without a separator, both texts before the last are empty. -/
def rpartition (c : Char) (t : Text) : Text × Text × Text :=
  let parts := partition c t.reverse
  (parts.2.2.reverse, parts.2.1, parts.1.reverse)

theorem rpartition_append {c : Char} {b : Text} (h : c ∉ b) (a : Text) :
    rpartition c (a ++ c :: b) = (a, [c], b) := by
  have hreverse : (a ++ c :: b).reverse = b.reverse ++ c :: a.reverse := by
    rw [List.reverse_append, List.reverse_cons, List.append_assoc]
    rfl
  rw [rpartition, hreverse, partition_append (fun hmem => h (List.mem_reverse.1 hmem))]
  simp only [List.reverse_reverse]

theorem rpartition_of_not_mem {c : Char} {t : Text} (h : c ∉ t) :
    (rpartition c t).2.1 = [] :=
  if_neg fun hmem => h (List.mem_reverse.1 hmem)

/-- A text splits at its last separator. -/
theorem exists_rpartition {c : Char} {t : Text} (h : c ∈ t) :
    ∃ a b, t = a ++ c :: b ∧ c ∉ b := by
  obtain ⟨b, a, hsplit, hb⟩ := List.eq_append_cons_of_mem (List.mem_reverse.2 h)
  refine ⟨a.reverse, b.reverse, ?_, fun hmem => hb (List.mem_reverse.1 hmem)⟩
  rw [← List.reverse_reverse t, hsplit, List.reverse_append, List.reverse_cons,
    List.append_assoc]
  rfl

/-- `t.split(sep)`, where so many characters belong to the separator last met. -/
def splitTextFrom (sep : Text) : Nat → Text → List Text
  | _, [] => [[]]
  | skip + 1, _ :: t => splitTextFrom sep skip t
  | 0, c :: t =>
    if sep.isPrefixOf (c :: t) then [] :: splitTextFrom sep (sep.length - 1) t
    else (splitTextFrom sep 0 t).modifyHead (c :: ·)

/-- `t.split(sep)`, for a separator that is not empty. -/
def splitText (sep t : Text) : List Text := splitTextFrom sep 0 t

theorem splitTextFrom_append (sep : Text) {skipped : Text} (t : Text) :
    splitTextFrom sep skipped.length (skipped ++ t) = splitText sep t := by
  induction skipped with
  | nil => rfl
  | cons c skipped ih => exact ih

theorem splitText_cons_of_ne {c d : Char} (sep t : Text) (h : d ≠ c) :
    splitText (c :: sep) (d :: t) = (splitText (c :: sep) t).modifyHead (d :: ·) := by
  have hprefix : ¬(c :: sep).isPrefixOf (d :: t) = true := fun hprefix =>
    h (List.cons_prefix_cons.1 (List.isPrefixOf_iff_prefix.1 hprefix)).1.symm
  exact if_neg hprefix

/-- A text splits at the first separator, in front of which its first character is not met. -/
theorem splitText_append {c : Char} {a : Text} (h : c ∉ a) (sep t : Text) :
    splitText (c :: sep) (a ++ c :: (sep ++ t)) = a :: splitText (c :: sep) t := by
  induction a with
  | nil =>
    have hprefix : (c :: sep).isPrefixOf (c :: (sep ++ t)) = true :=
      List.isPrefixOf_iff_prefix.2 (List.prefix_append (c :: sep) t)
    rw [← splitTextFrom_append (c :: sep) t]
    exact if_pos hprefix
  | cons d a ih =>
    rw [List.cons_append, splitText_cons_of_ne sep _ (List.ne_of_not_mem_cons h).symm,
      ih (List.not_mem_of_not_mem_cons h)]
    rfl

/-- What is too short to hold the separator is not split. -/
theorem splitText_of_length {c : Char} {sep a b : Text} (ha : c ∉ a) (hb : b.length ≤ sep.length) :
    splitText (c :: sep) (a ++ b) = [a ++ b] := by
  induction a with
  | nil =>
    rw [List.nil_append]
    induction b with
    | nil => rfl
    | cons d b ih =>
      have hprefix : ¬(c :: sep).isPrefixOf (d :: b) = true := by
        intro hprefix
        have hle := (List.isPrefixOf_iff_prefix.1 hprefix).length_le
        simp only [List.length_cons] at hle hb
        omega
      have hsplit : splitText (c :: sep) (d :: b) =
          (splitText (c :: sep) b).modifyHead (d :: ·) := if_neg hprefix
      rw [hsplit, ih (Nat.le_of_succ_le hb)]
      rfl
  | cons d a ih =>
    rw [List.cons_append, splitText_cons_of_ne sep _ (List.ne_of_not_mem_cons ha).symm,
      ih (List.not_mem_of_not_mem_cons ha)]
    rfl

/-- `[p.strip() for p in t.split(",") if p.strip()]`. -/
def commaList (t : Text) : List Text :=
  ((t.splitOn ',').map strip).filter fun p => !p.isEmpty

/-- `",".join(ts)`. -/
def join (ts : List Text) : Text := List.intercalate [','] ts

/-- An entry of a comma-separated list: no comma, no blank, not empty. -/
structure ListEntry (t : Text) : Prop where
  ne_nil : t ≠ []
  comma : ',' ∉ t
  space : ∀ c ∈ t, isSpace c = false

theorem commaList_of_entry {t : Text} (h : ListEntry t) : commaList t = [t] := by
  unfold commaList
  rw [List.splitOn_eq_singleton h.comma, List.map_singleton, strip_eq_self h.space]
  cases t with
  | nil => exact absurd rfl h.ne_nil
  | cons c t => rfl

/-- A joined text is split entry by entry. -/
theorem commaList_join (ts : List Text) : commaList (join ts) = ts.flatMap commaList := by
  induction ts with
  | nil => rfl
  | cons t ts ih =>
    cases ts with
    | nil =>
      show commaList (join [t]) = commaList t ++ []
      rw [List.append_nil, join, List.intercalate_singleton]
    | cons t' ts =>
      have hjoin : join (t :: t' :: ts) = t ++ ',' :: join (t' :: ts) := by
        rw [join, List.intercalate_cons_cons, List.append_assoc]
        rfl
      have hsplit : commaList (t ++ ',' :: join (t' :: ts)) =
          commaList t ++ commaList (join (t' :: ts)) := by
        unfold commaList
        rw [List.splitOn_append_cons_self, List.map_append, List.filter_append]
      rw [hjoin, hsplit, ih]
      rfl

theorem mem_join {ts : List Text} {c : Char} (h : c ∈ join ts) :
    c = ',' ∨ ∃ t ∈ ts, c ∈ t := by
  induction ts with
  | nil => cases h
  | cons t ts ih =>
    cases ts with
    | nil =>
      rw [join, List.intercalate_singleton] at h
      exact .inr ⟨t, List.mem_cons_self, h⟩
    | cons t' ts =>
      rw [join, List.intercalate_cons_cons, List.append_assoc, List.mem_append,
        List.singleton_append, List.mem_cons] at h
      rcases h with h | h | h
      · exact .inr ⟨t, List.mem_cons_self, h⟩
      · exact .inl h
      · rcases ih h with h | ⟨u, hu, hc⟩
        · exact .inl h
        · exact .inr ⟨u, List.mem_cons_of_mem _ hu, hc⟩

theorem commaList_of_entries {ts : List Text} (h : ∀ t ∈ ts, ListEntry t) :
    commaList (join ts) = ts := by
  rw [commaList_join]
  induction ts with
  | nil => rfl
  | cons t ts ih =>
    rw [List.flatMap_cons, commaList_of_entry (h t List.mem_cons_self),
      ih fun u hu => h u (List.mem_cons_of_mem _ hu)]
    rfl

end Systems

end RealEstate
