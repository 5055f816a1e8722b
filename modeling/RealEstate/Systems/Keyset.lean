import Mathlib.Algebra.Order.Group.Defs
import Mathlib.Data.Prod.Lex
import RealEstate.Systems.Paging

/-!
# Keyset pagination

A query serves the rows past a given one, in order, one more than fit on a page; the last row of
a page that leaves some out is where the next page begins.

- `past`, `toward`: the values after another one in a column, in either direction.
- `OrderBy.sort_filter`: rows that the order tells apart are ordered alike with and without others.
- `cut`: the page of what the query returned, and the cursor of the next one.
- `walk`: every page after the other, until there is no cursor.
- `Orders`: an `ORDER BY` and the condition on the rows past another one are one linear order.
- `Orders.walk`: then a walk returns the rows in that order, all of them and each once.
-/

namespace RealEstate

namespace Systems

universe u v

variable {α : Type u} {γ : Type v}

/-! ### Columns -/

/-- `key` comes after `after` in the order of its column. -/
def past {K : Type v} [LT K] [DecidableLT K] (descending : Bool) (key after : K) : Bool :=
  if descending then key < after else after < key

/-- A key such that the order of the column ascends. -/
def toward {K : Type v} [Neg K] (descending : Bool) (key : K) : K :=
  if descending then -key else key

section

variable {K : Type v} [AddCommGroup K] [LinearOrder K] [IsOrderedAddMonoid K] {descending : Bool}
  {a b : K}

/-- Past, in the direction of the order. -/
theorem past_iff : past descending b a = true ↔ toward descending a < toward descending b := by
  cases descending with
  | true => simp [past, toward]
  | false => simp [past, toward]

end

theorem toward_inj {K : Type v} [AddCommGroup K] {descending : Bool} {a b : K} :
    toward descending a = toward descending b ↔ a = b := by
  cases descending with
  | true => exact neg_inj
  | false => exact Iff.rfl

/-! ### Orders without ties -/

/-- No two of the rows are tied. -/
def Untied (le : α → α → Prop) (rows : List α) : Prop :=
  ∀ a ∈ rows, ∀ b ∈ rows, le a b → le b a → a = b

/-- Whatever else a query returns, it returns the rows of `p` in the same order. -/
theorem OrderBy.sort_filter {le : α → α → Prop} (order : OrderBy le) {rows : List α}
    (h : Untied le rows) (p : α → Bool) :
    order.sort (rows.filter p) = (order.sort rows).filter p := by
  have hperm : (order.sort (rows.filter p)).Perm ((order.sort rows).filter p) :=
    (order.perm _).trans ((order.perm rows).filter p).symm
  refine hperm.eq_of_pairwise ?_ (order.sorted _) ((order.sorted rows).sublist List.filter_sublist)
  intro a b ha hb hab hba
  have hrow : ∀ {r}, r ∈ (order.sort rows).filter p → r ∈ rows := fun hr =>
    (order.perm rows).mem_iff.1 (List.mem_of_mem_filter hr)
  exact h a (hrow (hperm.mem_iff.1 ha)) b (hrow hb) hab hba

/-! ### Pages -/

/-- The page of rows of which one more than `size` was asked for. -/
def cut (encode : α → Option γ) (size : Nat) (rows : List α) : Option (List α × Option γ) :=
  let items := rows.take size
  if size < rows.length then
    (items.getLast?.bind encode).map fun cursor => (items, some cursor)
  else some (items, none)

/-- Pages from `cursor` on, until one has no cursor. -/
def walk (fetch : Option γ → Option (List α × Option γ)) : Nat → Option γ → Option (List α)
  | 0, _ => none
  | fuel + 1, cursor =>
    (fetch cursor).bind fun
      | (items, none) => some items
      | (items, some next) => (walk fetch fuel (some next)).map (items ++ ·)

/-- The pages of `fetch` are those of `rows`, which come in the order of `before`. -/
structure Serves (fetch : Option γ → Option (List α × Option γ)) (encode : α → Option γ)
    (size : Nat) (before : α → α → Bool) (rows : List α) : Prop where
  positive : 0 < size
  /-- Each row has a cursor. -/
  encodes : ∀ r ∈ rows, (encode r).isSome
  first : fetch none = cut encode size (rows.take (size + 1))
  next : ∀ r ∈ rows, ∀ cursor, encode r = some cursor →
    fetch (some cursor) = cut encode size ((rows.filter (before r)).take (size + 1))

/-- The page of the rows from some place on. -/
theorem cut_take (encode : α → Option γ) (size : Nat) (rows : List α) :
    cut encode size (rows.take (size + 1)) = cut encode size rows := by
  have hitems : (rows.take (size + 1)).take size = rows.take size := by
    rw [List.take_take, Nat.min_eq_left (Nat.le_succ size)]
  have hmore : (size < (rows.take (size + 1)).length) = (size < rows.length) := by
    rw [List.length_take, Nat.lt_min]
    exact propext ⟨And.right, fun h => ⟨Nat.lt_succ_self size, h⟩⟩
  simp only [cut, hitems, hmore]

/-- The rows past one of them are those after it. -/
theorem filter_before {before : α → α → Bool} {rows rest : List α} {r : α}
    (hbefore : (rows ++ r :: rest).Pairwise fun a b => before a b = true)
    (hasymm : ∀ a b, before a b = true → before b a = false) :
    (rows ++ r :: rest).filter (before r) = rest := by
  have hirrefl : before r r = false := by
    by_contra h
    have htrue := Bool.eq_true_of_not_eq_false h
    exact h (hasymm r r htrue)
  obtain ⟨-, hrest, hcross⟩ := List.pairwise_append.1 hbefore
  have hnone : rows.filter (before r) = [] := by
    rw [List.filter_eq_nil_iff]
    intro a ha
    rw [hasymm a r (hcross a ha r List.mem_cons_self)]
    exact Bool.false_ne_true
  rw [List.filter_append, hnone, List.nil_append, List.filter_cons_of_neg (by simp [hirrefl]),
    List.filter_eq_self.2 (List.pairwise_cons.1 hrest).1]

variable {fetch : Option γ → Option (List α × Option γ)} {encode : α → Option γ} {size : Nat}
  {before : α → α → Bool} {rows : List α}

/-- The page after `done` ends the walk, or is followed by the page after it. -/
theorem Serves.walk_suffix (h : Serves fetch encode size before rows)
    (hbefore : rows.Pairwise fun a b => before a b = true)
    (hasymm : ∀ a b, before a b = true → before b a = false) :
    ∀ (fuel : Nat) (done rest : List α) (cursor : Option γ), rows = done ++ rest →
      fetch cursor = cut encode size rest → rest.length < fuel →
      walk fetch fuel cursor = some rest := by
  intro fuel
  induction fuel with
  | zero =>
    intro done rest cursor _ _ hfuel
    exact absurd hfuel (Nat.not_lt_zero _)
  | succ fuel ih =>
    intro done rest cursor hrows hfetch hfuel
    rw [walk, hfetch, cut]
    split
    · next hmore =>
      -- the last row of the page, after which the next one begins
      obtain ⟨page, r, hpage⟩ : ∃ page r, rest.take size = page ++ [r] := by
        have hne : rest.take size ≠ [] := by
          rw [← List.length_pos_iff, List.length_take]
          have hpos := h.positive
          omega
        exact ⟨_, _, (List.dropLast_append_getLast hne).symm⟩
      have hsplit : rows = (done ++ page) ++ r :: rest.drop size := by
        rw [hrows]
        conv_lhs => rw [← List.take_append_drop size rest, hpage]
        simp only [List.append_assoc, List.singleton_append]
      have hmem : r ∈ rows := hsplit ▸ List.mem_append_right _ List.mem_cons_self
      obtain ⟨next, hnext⟩ := Option.isSome_iff_exists.1 (h.encodes r hmem)
      have hpast : rows.filter (before r) = rest.drop size := by
        rw [hsplit] at hbefore ⊢
        exact filter_before hbefore hasymm
      have hwalk : walk fetch fuel (some next) = some (rest.drop size) := by
        refine ih (done ++ page ++ [r]) _ _ ?_ ?_ ?_
        · rw [hsplit, List.append_assoc _ [r], List.singleton_append]
        · rw [h.next r hmem next hnext, hpast, cut_take]
        · rw [List.length_drop]
          have hpos := h.positive
          omega
      rw [hpage, List.getLast?_append_of_ne_nil _ (List.cons_ne_nil r []), List.getLast?_singleton,
        Option.bind_some, hnext]
      show (walk fetch fuel (some next)).map ((page ++ [r]) ++ ·) = _
      rw [hwalk, Option.map_some, ← hpage, List.take_append_drop]
    · next hall =>
      rw [List.take_of_length_le (Nat.le_of_not_lt hall)]
      rfl

/-- **A walk is complete**: it ends, and returns the rows in order. -/
theorem Serves.walk_eq (h : Serves fetch encode size before rows)
    (hbefore : rows.Pairwise fun a b => before a b = true)
    (hasymm : ∀ a b, before a b = true → before b a = false) {fuel : Nat}
    (hfuel : rows.length < fuel) : walk fetch fuel none = some rows := by
  refine h.walk_suffix hbefore hasymm fuel [] rows none rfl ?_ hfuel
  rw [h.first, cut_take]

/-! ### One order -/

/-- `ORDER BY` and the condition past a row both follow the places of the rows. -/
structure Orders {P : Type v} [LinearOrder P] (place : α → P) (le : α → α → Prop)
    (before : α → α → Bool) : Prop where
  le_iff : ∀ {a b}, le a b ↔ place a ≤ place b
  before_iff : ∀ {a b}, before a b = true ↔ place a < place b

section

variable {P : Type v} [LinearOrder P] {place : α → P} {le : α → α → Prop}

theorem Orders.untied (h : Orders place le before) (hplace : (rows.map place).Nodup) :
    Untied le rows := by
  intro a ha b hb hab hba
  exact List.inj_on_of_nodup_map hplace ha hb (le_antisymm (h.le_iff.1 hab) (h.le_iff.1 hba))

/-- The rows of a page are in the order of their places. -/
theorem Orders.sorted (h : Orders place le before) (hplace : (rows.map place).Nodup)
    (order : OrderBy le) : (order.sort rows).Pairwise fun a b => before a b = true := by
  have hne : (order.sort rows).Pairwise fun a b => place a ≠ place b := by
    rw [← List.pairwise_map (f := place) (R := (· ≠ ·))]
    exact ((order.perm rows).map place).nodup_iff.2 hplace
  refine ((order.sorted rows).and hne).imp fun hab => ?_
  exact h.before_iff.2 (lt_of_le_of_ne (h.le_iff.1 hab.1) hab.2)

/-- **Pages follow each other without a gap.** An endpoint whose first page is the first rows,
and whose page at a row's cursor is the first rows past it, lists every row once, in order. -/
theorem Orders.walk (h : Orders place le before) (hplace : (rows.map place).Nodup)
    (order : OrderBy le) (hpositive : 0 < size) (hencodes : ∀ r ∈ rows, (encode r).isSome)
    (hfirst : fetch none = cut encode size (order.page rows (size + 1)))
    (hnext : ∀ r ∈ rows, ∀ cursor, encode r = some cursor →
      fetch (some cursor) = cut encode size (order.page (rows.filter (before r)) (size + 1)))
    {fuel : Nat} (hfuel : rows.length < fuel) :
    ∃ out, Systems.walk fetch fuel none = some out ∧ out.Perm rows ∧
      out.Pairwise fun a b => before a b = true := by
  have hsorted := h.sorted hplace order
  have hmem : ∀ {r}, r ∈ order.sort rows → r ∈ rows := fun hr =>
    (order.perm rows).mem_iff.1 hr
  have hserves : Serves fetch encode size before (order.sort rows) := {
    positive := hpositive
    encodes := fun r hr => hencodes r (hmem hr)
    first := hfirst
    next := by
      intro r hr cursor hcursor
      rw [hnext r (hmem hr) cursor hcursor, OrderBy.page,
        order.sort_filter (h.untied hplace) (before r)] }
  refine ⟨order.sort rows, hserves.walk_eq hsorted ?_ ?_, order.perm rows, hsorted⟩
  · -- The order is strict, so no page repeats a row.
    intro a b hab
    refine Bool.eq_false_iff.2 fun hba => ?_
    exact lt_asymm (h.before_iff.1 hab) (h.before_iff.1 hba)
  · rw [(order.perm rows).length_eq]
    exact hfuel

end

end Systems

end RealEstate
