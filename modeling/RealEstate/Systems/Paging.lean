import Mathlib.Data.List.Sort

/-!
# Ordered queries with a limit

`OrderBy le` is what `ORDER BY` promises: the rows, in an order that respects
`le`. Rows that `le` ties come in any order, and not in the same one each time, so
a query takes the `OrderBy` it ran with as an argument.

- `OrderBy.page`: the first rows of the order (`LIMIT`).
- `OrderBy.mem_page_of_length_le`: a page that is large enough leaves nothing out.
- `OrderBy.mem_page_of_countP_lt`: nor a row that few others can come before.
- `OrderBy.insertion`: one such order, for running a query.
-/

namespace RealEstate

namespace Systems

universe u

/-- One way to put rows in the order of `le`. -/
structure OrderBy {α : Type u} (le : α → α → Prop) where
  sort : List α → List α
  perm : ∀ rows, (sort rows).Perm rows
  sorted : ∀ rows, (sort rows).Pairwise le

namespace OrderBy

variable {α : Type u} {le : α → α → Prop}

/-- `ORDER BY … LIMIT limit`. -/
def page (order : OrderBy le) (rows : List α) (limit : Nat) : List α :=
  (order.sort rows).take limit

/-- A page holds rows of the table. -/
theorem mem_of_mem_page {order : OrderBy le} {rows : List α} {limit : Nat} {r : α}
    (h : r ∈ order.page rows limit) : r ∈ rows :=
  (order.perm rows).mem_iff.1 (List.mem_of_mem_take h)

/-- All of them, if they are few. -/
theorem mem_page_of_length_le {order : OrderBy le} {rows : List α} {limit : Nat} {r : α}
    (hlimit : rows.length ≤ limit) (h : r ∈ rows) : r ∈ order.page rows limit := by
  have hlength : (order.sort rows).length ≤ limit := by
    rw [(order.perm rows).length_eq]
    exact hlimit
  rw [page, List.take_of_length_le hlength]
  exact (order.perm rows).mem_iff.2 h

/-- A row is on the page if fewer than `limit` others may come before it. -/
theorem mem_page_of_countP_lt {order : OrderBy le} {rows : List α} {limit : Nat} {r : α}
    (h : r ∈ rows) {p : α → Bool} (hp : ∀ r' ∈ rows, r' ≠ r → le r' r → p r' = true)
    (hlimit : rows.countP p < limit) : r ∈ order.page rows limit := by
  have hmem : r ∈ order.sort rows := (order.perm rows).mem_iff.2 h
  obtain ⟨before, after, hsort, hfirst⟩ := List.eq_append_cons_of_mem hmem
  -- Every row before it on the list satisfies the predicate.
  have hbefore : ∀ r' ∈ before, p r' = true := by
    intro r' hr'
    have hsorted := order.sorted rows
    rw [hsort, List.pairwise_append] at hsorted
    have hle : le r' r := hsorted.2.2 r' hr' r List.mem_cons_self
    have hrow : r' ∈ rows := by
      rw [← (order.perm rows).mem_iff, hsort]
      exact List.mem_append_left _ hr'
    exact hp r' hrow (fun heq => hfirst (heq ▸ hr')) hle
  -- So fewer than a page of them stand before it.
  have hlength : before.length < limit := by
    calc before.length
        = before.countP p := (List.countP_eq_length.mpr hbefore).symm
      _ ≤ (order.sort rows).countP p := by
          rw [hsort, List.countP_append]
          exact Nat.le_add_right _ _
      _ = rows.countP p := (order.perm rows).countP_eq _
      _ < limit := hlimit
  rw [page, hsort, List.take_append]
  refine List.mem_append_right _ ?_
  rw [← Nat.succ_pred_eq_of_pos (Nat.sub_pos_of_lt hlength), List.take_succ_cons]
  exact List.mem_cons_self

/-- Rows sorted by insertion. -/
def insertion (le : α → α → Prop) [DecidableRel le] [Std.Total le] [IsTrans α le] :
    OrderBy le where
  sort := List.insertionSort le
  perm := List.perm_insertionSort le
  sorted := List.pairwise_insertionSort le

end OrderBy

end Systems

end RealEstate
