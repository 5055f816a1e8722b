import RealEstate.Systems.Keyset

/-!
# Keyset pagination of a table that changes

Between two pages rows may be inserted, deleted and changed, as long as a row keeps its place.

- `walkOver`: a walk whose `n`-th page is cut from the rows as they are then.
- `Orders.walkOver_sorted`: it lists no place twice.
- `Orders.walkOver_complete`: it lists every place that is taken all along.
- `Orders.walkOver_mem`: it lists rows of the tables only.
-/

namespace RealEstate

namespace Systems

universe u v

variable {α : Type u} {γ P : Type v} [LinearOrder P] {place : α → P} {le : α → α → Prop}
  {before : α → α → Bool} {encode : α → Option γ} {size : Nat}

/-- Pages from `cursor` on, the first of them the `n`-th, until one has no cursor. -/
def walkOver (fetch : Nat → Option γ → Option (List α × Option γ)) :
    Nat → Nat → Option γ → Option (List α)
  | 0, _, _ => none
  | fuel + 1, n, cursor =>
    (fetch n cursor).bind fun
      | (items, none) => some items
      | (items, some next) => (walkOver fetch fuel (n + 1) (some next)).map (items ++ ·)

/-- The pages are cut from the tables: what is past a row's cursor is what is past its place. -/
structure Pages (place : α → P) (le : α → α → Prop) (encode : α → Option γ) (size : Nat)
    (tables : Nat → List α) (fetch : Nat → Option γ → Option (List α × Option γ)) : Prop where
  positive : 0 < size
  places : ∀ n, ((tables n).map place).Nodup
  first : ∀ n, ∃ order : OrderBy le,
    fetch n none = cut encode size (order.page (tables n) (size + 1))
  next : ∀ n r cursor, encode r = some cursor → ∃ order : OrderBy le, fetch n (some cursor) =
    cut encode size
      (order.page ((tables n).filter fun row => place r < place row) (size + 1))

variable {tables : Nat → List α} {fetch : Nat → Option γ → Option (List α × Option γ)}

/-- The rows past a cursor: all of them, or those past a row. -/
def Past (place : α → P) (encode : α → Option γ) (cursor : Option γ) (p : P → Bool) : Prop :=
  (cursor = none ∧ p = fun _ => true) ∨
    ∃ r, encode r = cursor ∧ cursor.isSome ∧ p = fun x => place r < x

/-- A page: the first of the rows past the cursor, and whether there are more. -/
theorem Orders.page_cases (h : Orders place le before)
    (hpages : Pages place le encode size tables fetch) {n : Nat} {cursor : Option γ} {p : P → Bool}
    (hpast : Past place encode cursor p) {items : List α} {next : Option γ}
    (hfetch : fetch n cursor = some (items, next)) :
    ∃ rest, (items ++ rest).Perm ((tables n).filter fun row => p (place row)) ∧
      (items ++ rest).Pairwise (fun a b => place a < place b) ∧
      ((next = none ∧ rest = []) ∨
        ∃ init r, items = init ++ [r] ∧ encode r = next ∧ next.isSome) := by
  -- The first page and a later one are both a cut of the sorted rest.
  obtain ⟨order, hcut⟩ : ∃ order : OrderBy le, fetch n cursor = cut encode size
      (order.page ((tables n).filter fun row => p (place row)) (size + 1)) := by
    rcases hpast with ⟨rfl, rfl⟩ | ⟨r, hr, hsome, rfl⟩
    · obtain ⟨order, hfirst⟩ := hpages.first n
      exact ⟨order, by rw [hfirst, List.filter_true]⟩
    · obtain ⟨value, rfl⟩ := Option.isSome_iff_exists.1 hsome
      exact hpages.next n r value hr
  have hplaces : (((tables n).filter fun row => p (place row)).map place).Nodup :=
    (hpages.places n).sublist (List.filter_sublist.map _)
  rw [hcut, OrderBy.page, cut_take] at hfetch
  have hsorted : (order.sort ((tables n).filter fun row => p (place row))).Pairwise
      fun a b => place a < place b :=
    (h.sorted hplaces order).imp fun hab => h.before_iff.1 hab
  have hperm := order.perm ((tables n).filter fun row => p (place row))
  generalize order.sort ((tables n).filter fun row => p (place row)) = sorted
    at hfetch hsorted hperm
  rw [cut] at hfetch
  split at hfetch
  · -- One row more than the page: the cursor is that of the last row shown.
    next hmore =>
    obtain ⟨value, hvalue, heq⟩ := Option.map_eq_some_iff.1 hfetch
    cases heq
    obtain ⟨r, hr, hencode⟩ := Option.bind_eq_some_iff.1 hvalue
    refine ⟨sorted.drop size, ?_, ?_, .inr ?_⟩
    · rw [List.take_append_drop]
      exact hperm
    · rw [List.take_append_drop]
      exact hsorted
    · obtain ⟨init, hinit⟩ := List.getLast?_eq_some_iff.1 hr
      exact ⟨init, r, hinit, hencode, rfl⟩
  · next hall =>
    cases hfetch
    have htake : sorted.take size = sorted := List.take_of_length_le (Nat.le_of_not_lt hall)
    refine ⟨[], ?_, ?_, .inl ⟨rfl, rfl⟩⟩
    · rw [List.append_nil, htake]
      exact hperm
    · rw [List.append_nil, htake]
      exact hsorted

/-- From a cursor on: what is listed lies past it, in order, and nothing that stays is missed. -/
theorem Orders.walkOver_past (h : Orders place le before)
    (hpages : Pages place le encode size tables fetch) :
    ∀ (fuel n : Nat) (cursor : Option γ) (p : P → Bool) (out : List α),
      Past place encode cursor p → walkOver fetch fuel n cursor = some out →
      (∀ row ∈ out, p (place row) = true ∧ ∃ m, row ∈ tables m) ∧
        out.Pairwise (fun a b => place a < place b) ∧
        ∀ x, p x = true → (∀ m, n ≤ m → x ∈ (tables m).map place) → x ∈ out.map place := by
  intro fuel
  induction fuel with
  | zero => exact fun n cursor p out _ hwalk => by cases hwalk
  | succ fuel ih =>
    intro n cursor p out hpast hwalk
    rw [walkOver] at hwalk
    obtain ⟨⟨items, next⟩, hfetch, hwalk⟩ := Option.bind_eq_some_iff.1 hwalk
    obtain ⟨rest, hperm, hsorted, hcases⟩ := h.page_cases hpages hpast hfetch
    -- The rows of the page are in the table as it was read, past the cursor.
    have hitems : ∀ row ∈ items, p (place row) = true ∧ ∃ m, row ∈ tables m := by
      intro row hrow
      obtain ⟨htable, hp⟩ := List.mem_filter.1 (hperm.mem_iff.1 (List.mem_append_left _ hrow))
      exact ⟨hp, n, htable⟩
    -- A place that stays is on this page, or in the rest of this reading.
    have hfound : ∀ x, p x = true → (∀ m, n ≤ m → x ∈ (tables m).map place) →
        x ∈ (items ++ rest).map place := by
      intro x hx hstays
      obtain ⟨row, hrow, rfl⟩ := List.mem_map.1 (hstays n (Nat.le_refl n))
      exact List.mem_map_of_mem (hperm.mem_iff.2 (List.mem_filter.2 ⟨hrow, hx⟩))
    rcases hcases with ⟨rfl, rfl⟩ | ⟨init, r, rfl, hencode, hsome⟩
    · -- the last page
      cases hwalk
      rw [List.append_nil] at hsorted hfound
      exact ⟨hitems, hsorted, hfound⟩
    · obtain ⟨value, rfl⟩ := Option.isSome_iff_exists.1 hsome
      obtain ⟨tail, htail, rfl⟩ := Option.map_eq_some_iff.1 hwalk
      obtain ⟨hafter, htailSorted, htailFound⟩ :=
        ih (n + 1) (some value) (fun x => place r < x) tail
          (.inr ⟨r, hencode, rfl, rfl⟩) htail
      have hbelow : ∀ row ∈ tail, place r < place row := fun row hrow =>
        of_decide_eq_true (hafter row hrow).1
      obtain ⟨hitemsSorted, -, hcross⟩ := List.pairwise_append.1 hsorted
      have hlast : ∀ row ∈ init ++ [r], place row ≤ place r := by
        intro row hrow
        rcases List.mem_append.1 hrow with hinit | hr
        · exact le_of_lt ((List.pairwise_append.1 hitemsSorted).2.2 row hinit r
            List.mem_cons_self)
        · rw [List.mem_singleton.1 hr]
      have hr : p (place r) = true := (hitems r (List.mem_append_right _ List.mem_cons_self)).1
      refine ⟨fun row hrow => ?_, ?_, fun x hx hstays => ?_⟩
      · rcases List.mem_append.1 hrow with hrow | hrow
        · exact hitems row hrow
        · -- past the last row of a page past the cursor
          refine ⟨?_, (hafter row hrow).2⟩
          rcases hpast with ⟨-, rfl⟩ | ⟨r₀, -, -, rfl⟩
          · rfl
          · exact decide_eq_true ((of_decide_eq_true hr).trans (hbelow row hrow))
      · -- The last row separates the page from what comes after it.
        refine List.pairwise_append.2 ⟨hitemsSorted, htailSorted, fun a ha b hb => ?_⟩
        exact lt_of_le_of_lt (hlast a ha) (hbelow b hb)
      · -- What was in the rest is past that row, and stays for the next reading.
        rw [List.map_append, List.mem_append]
        have hx' := hfound x hx hstays
        rw [List.map_append, List.mem_append] at hx'
        refine hx'.imp_right fun hrest => ?_
        obtain ⟨row, hrow, rfl⟩ := List.mem_map.1 hrest
        exact htailFound _
          (decide_eq_true (hcross r (List.mem_append_right _ List.mem_cons_self) row hrow))
          fun m hm => hstays m (Nat.le_of_succ_le hm)

/-- No place is listed twice. -/
theorem Orders.walkOver_sorted (h : Orders place le before)
    (hpages : Pages place le encode size tables fetch) {fuel : Nat} {out : List α}
    (hwalk : walkOver fetch fuel 0 none = some out) :
    out.Pairwise fun a b => place a < place b :=
  (h.walkOver_past hpages fuel 0 none _ out (.inl ⟨rfl, rfl⟩) hwalk).2.1

/-- What is listed was in the table when its page was cut. -/
theorem Orders.walkOver_mem (h : Orders place le before)
    (hpages : Pages place le encode size tables fetch) {fuel : Nat} {out : List α}
    (hwalk : walkOver fetch fuel 0 none = some out) : ∀ row ∈ out, ∃ n, row ∈ tables n :=
  fun row hrow => ((h.walkOver_past hpages fuel 0 none _ out (.inl ⟨rfl, rfl⟩) hwalk).1 row hrow).2

/-- **What stays is listed**, whatever comes and goes between the pages. -/
theorem Orders.walkOver_complete (h : Orders place le before)
    (hpages : Pages place le encode size tables fetch) {fuel : Nat} {out : List α}
    (hwalk : walkOver fetch fuel 0 none = some out) {x : P}
    (hstays : ∀ n, x ∈ (tables n).map place) : x ∈ out.map place :=
  (h.walkOver_past hpages fuel 0 none _ out (.inl ⟨rfl, rfl⟩) hwalk).2.2 x rfl
    fun n _ => hstays n

end Systems

end RealEstate
