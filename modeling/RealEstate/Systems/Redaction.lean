import Mathlib.Data.List.Basic

/-!
# Documents and what is redacted in them

A document is built of lists and objects. Redaction puts a mark in the place of every value whose
key is secret, at any depth.

- `redact_eq_self_iff`: what it leaves alone are the documents that show nothing secret.
- `redact_eq_redact_iff`: it tells two documents apart exactly if they differ elsewhere.
- `at?_redact`, `shape_redact`: away from the secret keys everything is as it was.
-/

namespace RealEstate

namespace Systems

/-- Lists and objects of leaves. -/
inductive Document (Key Leaf : Type) where
  | leaf (value : Leaf)
  | list (items : List (Document Key Leaf))
  | object (fields : List (Key × Document Key Leaf))

namespace Document

variable {Key Leaf : Type}

section

variable (secret : Key → Bool) (mark : Leaf)

mutual

/-- The mark in the place of every value under a secret key. -/
def redact : Document Key Leaf → Document Key Leaf
  | .leaf value => .leaf value
  | .list items => .list (redactItems items)
  | .object fields => .object (redactFields fields)

/-- Item by item. -/
def redactItems : List (Document Key Leaf) → List (Document Key Leaf)
  | [] => []
  | d :: items => redact d :: redactItems items

/-- A secret field is masked as a whole. -/
def redactFields : List (Key × Document Key Leaf) → List (Key × Document Key Leaf)
  | [] => []
  | (key, d) :: fields =>
    (key, if secret key then .leaf mark else redact d) :: redactFields fields

end

mutual

/-- There is nothing but the mark under a secret key. -/
def Clean : Document Key Leaf → Prop
  | .leaf _ => True
  | .list items => CleanItems items
  | .object fields => CleanFields fields

/-- Item by item. -/
def CleanItems : List (Document Key Leaf) → Prop
  | [] => True
  | d :: items => Clean d ∧ CleanItems items

/-- Field by field. -/
def CleanFields : List (Key × Document Key Leaf) → Prop
  | [] => True
  | (key, d) :: fields =>
    (if secret key then d = .leaf mark else Clean d) ∧ CleanFields fields

end

mutual

/-- Two documents differ under secret keys only. -/
def Agree : Document Key Leaf → Document Key Leaf → Prop
  | .leaf v, .leaf w => v = w
  | .list xs, .list ys => AgreeItems xs ys
  | .object xs, .object ys => AgreeFields xs ys
  | _, _ => False

/-- Item by item. -/
def AgreeItems : List (Document Key Leaf) → List (Document Key Leaf) → Prop
  | [], [] => True
  | d :: xs, e :: ys => Agree d e ∧ AgreeItems xs ys
  | _, _ => False

/-- Secret fields may differ. -/
def AgreeFields : List (Key × Document Key Leaf) → List (Key × Document Key Leaf) → Prop
  | [], [] => True
  | (key, d) :: xs, (other, e) :: ys =>
    key = other ∧ (secret key = false → Agree d e) ∧ AgreeFields xs ys
  | _, _ => False

end

end

/-! ### What is redacted -/

section

variable {secret : Key → Bool} {mark : Leaf}

mutual

/-- **What was redacted is clean.** -/
theorem clean_redact : ∀ d : Document Key Leaf, Clean secret mark (redact secret mark d)
  | .leaf _ => trivial
  | .list items => clean_redactItems items
  | .object fields => clean_redactFields fields

theorem clean_redactItems : ∀ items : List (Document Key Leaf),
    CleanItems secret mark (redactItems secret mark items)
  | [] => trivial
  | d :: items => ⟨clean_redact d, clean_redactItems items⟩

theorem clean_redactFields : ∀ fields : List (Key × Document Key Leaf),
    CleanFields secret mark (redactFields secret mark fields)
  | [] => trivial
  | (key, d) :: fields => by
    refine ⟨?_, clean_redactFields fields⟩
    by_cases hkey : secret key = true
    · simp only [hkey, if_true]
    · simp only [hkey, if_false, Bool.false_eq_true]
      exact clean_redact d

end

mutual

/-- Redaction leaves alone what shows nothing secret. -/
theorem redact_eq_self_iff :
    ∀ d : Document Key Leaf, redact secret mark d = d ↔ Clean secret mark d
  | .leaf _ => iff_of_true rfl trivial
  | .list items => by
    simp only [redact, Clean, Document.list.injEq]
    exact redactItems_eq_self_iff items
  | .object fields => by
    simp only [redact, Clean, Document.object.injEq]
    exact redactFields_eq_self_iff fields

theorem redactItems_eq_self_iff : ∀ items : List (Document Key Leaf),
    redactItems secret mark items = items ↔ CleanItems secret mark items
  | [] => iff_of_true rfl trivial
  | d :: items => by
    simp only [redactItems, CleanItems, List.cons.injEq]
    exact and_congr (redact_eq_self_iff d) (redactItems_eq_self_iff items)

theorem redactFields_eq_self_iff : ∀ fields : List (Key × Document Key Leaf),
    redactFields secret mark fields = fields ↔ CleanFields secret mark fields
  | [] => iff_of_true rfl trivial
  | (key, d) :: fields => by
    simp only [redactFields, CleanFields, List.cons.injEq, Prod.mk.injEq, true_and]
    refine and_congr ?_ (redactFields_eq_self_iff fields)
    by_cases hkey : secret key = true
    · simp only [hkey, if_true]
      exact eq_comm
    · simp only [hkey, if_false, Bool.false_eq_true]
      exact redact_eq_self_iff d

end

theorem redact_redact (d : Document Key Leaf) :
    redact secret mark (redact secret mark d) = redact secret mark d :=
  (redact_eq_self_iff _).2 (clean_redact d)

mutual

/-- **Nothing shows** of what is under secret keys, and everything of the rest. -/
theorem redact_eq_redact_iff : ∀ d e : Document Key Leaf,
    redact secret mark d = redact secret mark e ↔ Agree secret d e
  | .leaf v, e => by cases e <;> simp [redact, Agree]
  | .list xs, e => by
    cases e with
    | list ys =>
      simp only [redact, Agree, Document.list.injEq]
      exact redactItems_eq_redactItems_iff xs ys
    | leaf w => simp [redact, Agree]
    | object ys => simp [redact, Agree]
  | .object xs, e => by
    cases e with
    | object ys =>
      simp only [redact, Agree, Document.object.injEq]
      exact redactFields_eq_redactFields_iff xs ys
    | leaf w => simp [redact, Agree]
    | list ys => simp [redact, Agree]

theorem redactItems_eq_redactItems_iff : ∀ xs ys : List (Document Key Leaf),
    redactItems secret mark xs = redactItems secret mark ys ↔ AgreeItems secret xs ys
  | [], ys => by cases ys <;> simp [redactItems, AgreeItems]
  | d :: xs, ys => by
    cases ys with
    | nil => simp [redactItems, AgreeItems]
    | cons e ys =>
      simp only [redactItems, AgreeItems, List.cons.injEq]
      exact and_congr (redact_eq_redact_iff d e) (redactItems_eq_redactItems_iff xs ys)

theorem redactFields_eq_redactFields_iff : ∀ xs ys : List (Key × Document Key Leaf),
    redactFields secret mark xs = redactFields secret mark ys ↔ AgreeFields secret xs ys
  | [], ys => by cases ys <;> simp [redactFields, AgreeFields]
  | (key, d) :: xs, ys => by
    cases ys with
    | nil => simp [redactFields, AgreeFields]
    | cons field ys =>
      obtain ⟨other, e⟩ := field
      simp only [redactFields, AgreeFields, List.cons.injEq, Prod.mk.injEq, and_assoc]
      refine and_congr_right fun hkey => and_congr ?_ (redactFields_eq_redactFields_iff xs ys)
      subst hkey
      by_cases hkey : secret key = true
      · simp [hkey]
      · simp only [hkey, if_false, Bool.false_eq_true, forall_const]
        exact redact_eq_redact_iff d e

end

theorem agreeFields_keys : ∀ {xs ys : List (Key × Document Key Leaf)}, AgreeFields secret xs ys →
    xs.map Prod.fst = ys.map Prod.fst
  | [], [], _ => rfl
  | (_, _) :: _, (_, _) :: _, ⟨hkey, _, hrest⟩ =>
    congrArg₂ List.cons hkey (agreeFields_keys hrest)

/-! ### What is kept -/

/-- What there is at a node itself. -/
inductive Shape (Key Leaf : Type) where
  | leaf (value : Leaf)
  | list (length : Nat)
  | object (keys : List Key)

/-- What a document is made of, on top. -/
def shape : Document Key Leaf → Shape Key Leaf
  | .leaf value => .leaf value
  | .list items => .list items.length
  | .object fields => .object (fields.map Prod.fst)

theorem redactItems_eq_map (items : List (Document Key Leaf)) :
    redactItems secret mark items = items.map (redact secret mark) := by
  induction items with
  | nil => rfl
  | cons d items ih => rw [redactItems, ih, List.map_cons]

theorem redactFields_eq_map (fields : List (Key × Document Key Leaf)) :
    redactFields secret mark fields =
      fields.map fun f => (f.1, if secret f.1 then .leaf mark else redact secret mark f.2) := by
  induction fields with
  | nil => rfl
  | cons f fields ih => rw [redactFields, ih, List.map_cons]

theorem shape_redact (d : Document Key Leaf) : (redact secret mark d).shape = d.shape := by
  cases d with
  | leaf value => rfl
  | list items => simp only [redact, shape, redactItems_eq_map, List.length_map]
  | object fields =>
    simp only [redact, shape, redactFields_eq_map, List.map_map]
    rfl

/-- The way to an item, or to the value of a field. -/
inductive Step (Key : Type) where
  | key (k : Key)
  | index (i : Nat)

/-- The step leads past no secret key. -/
def Step.Open (secret : Key → Bool) : Step Key → Prop
  | .key k => secret k = false
  | .index _ => True

variable [BEq Key]

/-- One step down. -/
def child : Document Key Leaf → Step Key → Option (Document Key Leaf)
  | .object fields, .key k => fields.lookup k
  | .list items, .index i => items[i]?
  | _, _ => none

/-- The node at the end of a path. -/
def at? : Document Key Leaf → List (Step Key) → Option (Document Key Leaf)
  | d, [] => some d
  | d, step :: path => (d.child step).bind (at? · path)

theorem lookup_map_fields {Value Value' : Type} [LawfulBEq Key] (f : Key → Value → Value')
    (fields : List (Key × Value)) (key : Key) :
    (fields.map fun field => (field.1, f field.1 field.2)).lookup key =
      (fields.lookup key).map (f key) := by
  induction fields with
  | nil => rfl
  | cons field fields ih =>
    rw [List.map_cons, List.lookup_cons, List.lookup_cons]
    by_cases hfield : key = field.1
    · subst hfield
      simp only [beq_self_eq_true, Option.map_some]
    · simp only [beq_eq_false_iff_ne.2 hfield]
      exact ih

/-- An open field is redacted where it is. -/
theorem lookup_redactFields [LawfulBEq Key] {key : Key} (hkey : secret key = false)
    (fields : List (Key × Document Key Leaf)) :
    (redactFields secret mark fields).lookup key =
      (fields.lookup key).map (redact secret mark) := by
  rw [redactFields_eq_map,
    lookup_map_fields fun k d => if secret k then .leaf mark else redact secret mark d]
  simp only [hkey, Bool.false_eq_true, if_false]

/-- An open step leads to the redacted child. -/
theorem child_redact [LawfulBEq Key] (d : Document Key Leaf) {step : Step Key}
    (h : step.Open secret) :
    (redact secret mark d).child step = (d.child step).map (redact secret mark) := by
  cases d with
  | leaf value => rfl
  | list items =>
    cases step with
    | key k => rfl
    | index i => simp only [redact, child, redactItems_eq_map, List.getElem?_map]
  | object fields =>
    cases step with
    | key k =>
      have hkey : secret k = false := h
      exact lookup_redactFields hkey fields
    | index i => rfl

/-- Paths that pass no secret key lead to the same nodes, redacted. -/
theorem at?_redact [LawfulBEq Key] (d : Document Key Leaf) {path : List (Step Key)}
    (h : ∀ step ∈ path, step.Open secret) :
    (redact secret mark d).at? path = (d.at? path).map (redact secret mark) := by
  induction path generalizing d with
  | nil => rfl
  | cons step path ih =>
    have hrest : ∀ s ∈ path, s.Open secret := fun s hs => h s (List.mem_cons_of_mem step hs)
    rw [at?, at?, child_redact d (h step List.mem_cons_self)]
    cases d.child step with
    | none => rfl
    | some e => exact ih e hrest

end

end Document

end Systems

end RealEstate
