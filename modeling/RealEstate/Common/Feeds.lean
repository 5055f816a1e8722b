import RealEstate.Listings.Cursors
import RealEstate.Listings.Pagination
import RealEstate.Systems.Walks

/-!
# Lists by time (`core/pagination.py` and the modules that list by a timestamp)

Most lists come in the order of a time column and of the id, a page at a time; the cursor names
the time and the id of the last row.

- `Feed`: which column a list goes by and how it reads its cursors.
- `Feed.list`: a request for a page.
- `Feed.order_iff`, `Feed.past_iff`: the order and the condition past a cursor are one order.
- `Feed.complete`: following the cursors lists every row, each once and in order.
- `lists_by_time`: so it is for every list, and a row's cursor is read back.
- `lists_that_change`: rows that come and go between two pages hide none of those that stay, and
  no row is listed twice unless its time changes.
-/

namespace RealEstate

namespace Common

open RealEstate.Core Systems Listings
open Listings.Search (Timestamp Key ListError Timestamp.number bindKey)

/-- Who parses the time in a cursor, and what is caught. -/
inductive Reader where
  /-- `_decode_keyset` and its like. -/
  | keyset (column : String)
  /-- The audit logs, which catch nothing. -/
  | auditLog
  /-- `_decode_cursor` of webhooks and syndication, whose repositories parse the time. -/
  | repository (column : String)

/-- The column that a feed is ordered by. -/
def Reader.column : Reader → String
  | .keyset column | .repository column => column
  | .auditLog => "created_at"

/-- The decoder of its cursors. -/
def Reader.decoder : Reader → Cursors.Decoder
  | .keyset column => .keyset column
  | .auditLog => .auditLog
  | .repository column => .repository column

/-- A list by a time column, and by the id where times are equal. -/
structure Feed (α : Type) where
  reader : Reader
  descending : Bool
  /-- `if cursor` where this is so, `if cursor is not None` elsewhere. -/
  emptyIsNone : Bool
  time : α → Option Timestamp
  id : α → UUID
  column_ne : reader.column ≠ "id"

namespace Feed

variable {α : Type}

/-- `created_at DESC, id DESC`: agents, blog posts, deals, favorites, guides, leads, notifications,
pages, reports and reviews; and, where an empty cursor is one, users and tenants. -/
def newest (emptyIsNone : Bool) (createdAt : α → Timestamp) (id : α → UUID) : Feed α :=
  ⟨.keyset "created_at", true, emptyIsNone, fun row => some (createdAt row), id, by decide⟩

/-- `published_at DESC, id DESC`: public blog posts, and the listings within a guide. -/
def published (publishedAt : α → Option Timestamp) (id : α → UUID) : Feed α :=
  ⟨.keyset "published_at", true, true, publishedAt, id, by decide⟩

/-- `start_at, id`: appointments. -/
def soonest (startAt : α → Timestamp) (id : α → UUID) : Feed α :=
  ⟨.keyset "start_at", false, true, fun row => some (startAt row), id, by decide⟩

/-- The audit logs of a tenant and of the platform. -/
def audit (createdAt : α → Timestamp) (id : α → UUID) : Feed α :=
  ⟨.auditLog, true, false, fun row => some (createdAt row), id, by decide⟩

/-- Webhook deliveries. -/
def deliveries (createdAt : α → Timestamp) (id : α → UUID) : Feed α :=
  ⟨.repository "created_at", true, true, fun row => some (createdAt row), id, by decide⟩

/-- The sync states of portals. -/
def syncStates (updatedAt : α → Timestamp) (id : α → UUID) : Feed α :=
  ⟨.repository "updated_at", true, true, fun row => some (updatedAt row), id, by decide⟩

variable (feed : Feed α)

/-- The time of a row; the rows of a list have one. -/
def key (row : α) : ℚ := (feed.time row).elim 0 Timestamp.number

/-- `ORDER BY` the column and the id, both in one direction. -/
def le (a b : α) : Prop :=
  past feed.descending (feed.key b) (feed.key a) = true ∨ feed.key b = feed.key a ∧
    (past feed.descending (feed.id b) (feed.id a) = true ∨ feed.id b = feed.id a)

/-- The rows past a cursor. -/
def past (after : ℚ × UUID) (row : α) : Bool :=
  Systems.past feed.descending (feed.key row) after.1 ||
    (feed.key row = after.1 && Systems.past feed.descending (feed.id row) after.2)

/-- Where a row stands in the order of its feed. -/
def place (after : ℚ × UUID) : ℚ ×ₗ ℤ :=
  toLex (toward feed.descending after.1, toward feed.descending (after.2 : ℤ))

/-- `{column: time.isoformat(), "id": str(id)}`. -/
def values (t : Timestamp) (row : α) : List (Text × Scalar) :=
  [(feed.reader.column.toList, .str (isoformat t.val.val)),
    ("id".toList, .str (uuidText (feed.id row)))]

/-- The cursor after a row. A row without a time fails an assertion. -/
def encode (row : α) : Option Text :=
  (feed.time row).map fun t => encodeCursor (feed.values t row)

/-- `if cursor`, or `if cursor is not None`. -/
def given (cursor : Option Text) : Option Text :=
  if feed.emptyIsNone then cursor.filter (· ≠ []) else cursor

/-- What a cursor is compared as. -/
def after (depth : Nat) (cursor : Text) : Except ListError (ℚ × UUID) :=
  match Cursors.decode depth cursor feed.reader.decoder with
  | .ok keyset => do return (← bindKey keyset.key, keyset.id)
  | .error e => .error (.cursor e)

/-- The rows of a page and its next cursor. -/
def respond (size : Nat) (found : List α) : Except ListError (List α × Option Text) :=
  match cut feed.encode size found with
  | some page => .ok page
  | none => .error .assertion

/-- The page of the rows that satisfy a condition, and its next cursor. -/
def list (depth : Nat) (order : OrderBy feed.le) (rows : List α) (p : α → Bool)
    (limit : Option Int) (cursor : Option Text) : Except ListError (List α × Option Text) := do
  let pageSize := clampLimit limit
  let after ← (feed.given cursor).mapM (feed.after depth)
  feed.respond pageSize
    (order.page ((rows.filter p).filter fun row => after.all fun k => feed.past k row)
      (pageSize + 1))

/-! ### One order -/

variable {feed} {a b row : α}

/-- The keyset condition says: later in the order. -/
theorem past_iff {after : ℚ × UUID} :
    feed.past after row = true ↔ feed.place after < feed.place (feed.key row, feed.id row) := by
  have hkey : after.1 = feed.key row ↔ feed.key row = after.1 := eq_comm
  simp only [past, place, Prod.Lex.toLex_lt_toLex, toward_inj, ← Search.past_id, hkey,
    Bool.or_eq_true, Bool.and_eq_true, decide_eq_true_eq, Systems.past_iff]

/-- The order of the query is the order of places. -/
theorem le_iff : feed.le a b ↔
    feed.place (feed.key a, feed.id a) ≤ feed.place (feed.key b, feed.id b) := by
  have hid : (Systems.past feed.descending (feed.id b) (feed.id a) = true ∨
      feed.id b = feed.id a) ↔
        toward feed.descending (feed.id a : ℤ) ≤ toward feed.descending (feed.id b : ℤ) := by
    rw [Search.past_id, le_iff_lt_or_eq, toward_inj, Int.natCast_inj, Fin.val_inj, eq_comm]
  have hkey : feed.key a = feed.key b ↔ feed.key b = feed.key a := eq_comm
  simp only [le, place, Prod.Lex.toLex_le_toLex, toward_inj, hid, hkey, Systems.past_iff]

/-- Every feed is a keyset over its places. -/
theorem orders (feed : Feed α) : Orders (fun row => feed.place (feed.key row, feed.id row)) feed.le
    (fun a b => feed.past (feed.key a, feed.id a) b) :=
  ⟨le_iff, past_iff⟩

/-- Comparisons of a time and an id. -/
instance (feed : Feed α) : DecidableRel feed.le := fun _ _ =>
  inferInstanceAs (Decidable (_ ∨ _ ∧ (_ ∨ _)))

/-- For `mergeSort`. -/
instance (feed : Feed α) : Std.Total feed.le where
  total a b := by
    rw [le_iff, le_iff]
    exact le_total _ _

/-- For `mergeSort`. -/
instance (feed : Feed α) : IsTrans α feed.le where
  trans a b c hab hbc := by
    rw [le_iff] at hab hbc ⊢
    exact hab.trans hbc

theorem id_of_place {x y : ℚ × UUID} (h : feed.place x = feed.place y) : x.2 = y.2 := by
  have hid := (Prod.ext_iff.1 (toLex_inj.1 h)).2
  exact Fin.val_inj.1 (Int.natCast_inj.1 (toward_inj.1 hid))

/-- No id is listed twice while every row keeps its time. -/
theorem nodup_ids {out : List α}
    (hsorted : out.Pairwise fun a b => feed.past (feed.key a, feed.id a) b = true)
    (hkeys : ∀ a ∈ out, ∀ b ∈ out, feed.id a = feed.id b → feed.key a = feed.key b) :
    (out.map feed.id).Nodup := by
  rw [List.Nodup, List.pairwise_map]
  refine hsorted.imp_of_mem fun {a b} ha hb hpast hsame => ?_
  have hplace := past_iff.1 hpast
  rw [hkeys a ha b hb hsame, hsame] at hplace
  exact lt_irrefl _ hplace

/-! ### Cursors -/

section

variable {column : String} {t : Text} {id : JsonValue} {moment : Datetime} {u : UUID}

theorem fieldOf_column (value id : JsonValue) :
    fieldOf column [(column.toList, value), ("id".toList, id)] = .ok value := by
  rw [fieldOf, List.lookup_cons_self]

theorem fieldOf_id (hne : column ≠ "id") (value id : JsonValue) :
    fieldOf "id" [(column.toList, value), ("id".toList, id)] = .ok id := by
  have hbeq : ("id".toList == column.toList) = false :=
    beq_eq_false_iff_ne.2 fun heq => hne (String.ext heq.symm)
  rw [fieldOf, List.lookup_cons, hbeq, List.lookup_cons_self]

/-- `decode_cursor` of `keyset.py` reads back what was encoded. -/
theorem keysetFields_eq (hne : column ≠ "id") (ht : fromisoformat t = some moment) :
    Cursors.keysetFields column [(column.toList, .str t), ("id".toList, .str (uuidText u))] =
      .ok { key := .datetime moment, id := u } := by
  simp only [Cursors.keysetFields, fieldOf_column, fieldOf_id hne, Search.uuidOf_uuidText,
    Cursors.datetimeOf_ok ht, bind, Except.bind, pure, Except.pure]

/-- So does the decoder of the repositories. -/
theorem rawFields_eq (hne : column ≠ "id") :
    Cursors.rawFields column [(column.toList, .str t), ("id".toList, .str (uuidText u))] =
      .ok (.str t, u) := by
  simp only [Cursors.rawFields, fieldOf_column, fieldOf_id hne, Search.uuidOf_uuidText,
    bind, Except.bind, pure, Except.pure]

/-- Every reader reads a row's cursor. -/
theorem decodeFields_eq {reader : Reader} (hne : reader.column ≠ "id")
    (ht : fromisoformat t = some moment) :
    Cursors.decodeFields [(reader.column.toList, .str t), ("id".toList, .str (uuidText u))]
      reader.decoder = .ok { key := .datetime moment, id := u } := by
  cases reader with
  | keyset column => exact congrArg (orMalformed _) (keysetFields_eq hne ht)
  | auditLog => exact congrArg (orMalformed _) (keysetFields_eq hne ht)
  | repository column =>
    have hraw : Cursors.rawFields column
        [(column.toList, .str t), ("id".toList, .str (uuidText u))] = .ok (.str t, u) :=
      rawFields_eq hne
    show (orMalformed _ (Cursors.rawFields column [(column.toList, _), _]) >>= fun _ => _) = _
    rw [hraw]
    show (orMalformed _ (datetimeOf (.str t)) >>= fun _ => _) = _
    rw [Cursors.datetimeOf_ok ht]
    rfl

end

variable {depth : Nat}

/-- A row's cursor is read back as its place. -/
theorem after_encode (hdepth : 0 < depth) {cursor : Text} (h : feed.encode row = some cursor) :
    feed.after depth cursor = .ok (feed.key row, feed.id row) := by
  obtain ⟨t, ht, rfl⟩ := Option.map_eq_some_iff.1 h
  have hnodup : ((feed.values t row).map Prod.fst).Nodup := by
    refine List.nodup_cons.2 ⟨fun hmem => feed.column_ne ?_, List.nodup_singleton _⟩
    exact String.ext (List.mem_singleton.1 hmem)
  have hkey : feed.key row = t.number := by
    rw [key, ht]
    rfl
  have hdecode : Cursors.decode depth (encodeCursor (feed.values t row)) feed.reader.decoder =
      .ok { key := .datetime t.val, id := feed.id row } := by
    rw [Cursors.decode_eq, decodeCursor_encodeCursor hdepth hnodup]
    exact decodeFields_eq feed.column_ne (fromisoformat_isoformat t.property)
  rw [after, hdecode, hkey]
  show (do return (← bindKey (.datetime t.val), feed.id row) : Except ListError (ℚ × UUID)) = _
  rw [Search.bindKey_eq (Search.number_of_timestamp t)]
  rfl

/-! ### Complete -/

section

variable (order : OrderBy feed.le) (rows : List α) (p : α → Bool) (limit : Option Int)

omit order rows p limit in
theorem toOption_respond (size : Nat) (found : List α) :
    (feed.respond size found).toOption = cut feed.encode size found := by
  rw [respond]
  cases cut feed.encode size found <;> rfl

theorem list_first : (feed.list depth order rows p limit none).toOption =
    cut feed.encode (clampLimit limit) (order.page (rows.filter p) (clampLimit limit + 1)) := by
  have hgiven : feed.given none = none := ite_self _
  rw [list, hgiven, ← toOption_respond]
  show (feed.respond _ (order.page (List.filter (fun _ => true) _) _)).toOption = _
  rw [List.filter_true]

/-- The page after a row: what is past its place. -/
theorem list_cursor (hdepth : 0 < depth) {cursor : Text} (h : feed.encode row = some cursor) :
    (feed.list depth order rows p limit (some cursor)).toOption =
      cut feed.encode (clampLimit limit)
        (order.page ((rows.filter p).filter (feed.past (feed.key row, feed.id row)))
          (clampLimit limit + 1)) := by
  have hne : cursor ≠ [] := by
    obtain ⟨t, -, rfl⟩ := Option.map_eq_some_iff.1 h
    exact encodeCursor_ne_nil _
  have hgiven : feed.given (some cursor) = some cursor := by
    rw [given, Option.filter_some, decide_eq_true hne, if_pos rfl, ite_self]
  rw [list, hgiven, Option.mapM_some, after_encode hdepth h, ← toOption_respond]
  rfl

omit order limit in
theorem nodup_places {rows : List α} (p : α → Bool) (hids : (rows.map feed.id).Nodup) :
    ((rows.filter p).map fun row => feed.place (feed.key row, feed.id row)).Nodup := by
  have hids' : ((rows.filter p).map feed.id).Nodup := hids.sublist (List.filter_sublist.map _)
  rw [List.Nodup, List.pairwise_map] at hids' ⊢
  exact hids'.imp fun hne hsame => hne (id_of_place hsame)

/-- Following the cursors from the first page on ends, and yields the selected rows, each once, in
order. -/
theorem complete (hdepth : 0 < depth) (hids : (rows.map feed.id).Nodup)
    (htimes : ∀ row ∈ rows, p row = true → (feed.time row).isSome) {fuel : Nat}
    (hfuel : rows.length < fuel) :
    ∃ out, walk (fun cursor => (feed.list depth order rows p limit cursor).toOption) fuel none =
        some out ∧ out.Perm (rows.filter p) ∧
      out.Pairwise fun a b => feed.past (feed.key a, feed.id a) b = true := by
  refine feed.orders.walk (nodup_places p hids) order (clampLimit_pos limit) ?_
    (list_first order rows p limit) ?_ (Nat.lt_of_le_of_lt (List.length_filter_le _ _) hfuel)
  · intro row hrow
    obtain ⟨hrow, hp⟩ := List.mem_filter.1 hrow
    exact Option.isSome_map.trans (htimes row hrow hp)
  · intro row _ cursor hcursor
    exact list_cursor order rows p limit hdepth hcursor

end

end Feed

/-! ### Lists -/

section

variable {α : Type} {depth : Nat} (hdepth : 0 < depth) (feed : Feed α) (p : α → Bool)
  (limit : Option Int)
include hdepth

/-- **Lists by time are complete.** For every such list, whatever rows it selects and however large
its pages: following the cursors ends, and yields the selected rows, each once, in order. The
cursor after a row is read back as the row's time and id. -/
theorem lists_by_time (order : OrderBy feed.le) (rows : List α) (hids : (rows.map feed.id).Nodup)
    (htimes : ∀ row ∈ rows, p row = true → (feed.time row).isSome) {fuel : Nat}
    (hfuel : rows.length < fuel) :
    (∃ out, walk (fun cursor => (feed.list depth order rows p limit cursor).toOption) fuel none =
        some out ∧ out.Perm (rows.filter p) ∧
      out.Pairwise fun a b => feed.past (feed.key a, feed.id a) b = true) ∧
    ∀ row ∈ rows, p row = true → ∃ cursor, feed.encode row = some cursor ∧
      feed.after depth cursor = .ok (feed.key row, feed.id row) := by
  refine ⟨Feed.complete order rows p limit hdepth hids htimes hfuel, fun row hrow hp => ?_⟩
  obtain ⟨t, ht⟩ := Option.isSome_iff_exists.1 (htimes row hrow hp)
  have hencode : feed.encode row = some (encodeCursor (feed.values t row)) := by
    rw [Feed.encode, ht]
    rfl
  exact ⟨_, hencode, Feed.after_encode hdepth hencode⟩

omit hdepth in
/-- Two rows of one instant, a page each. -/
theorem lists_by_time_two :
    let noon : Timestamp := ⟨⟨⟨2026, 1, 31, 12, 0, 0, 0, some 0⟩, by decide⟩, rfl⟩
    let feed : Feed (Timestamp × UUID) := .newest true Prod.fst Prod.snd
    let rows : List (Timestamp × UUID) := [(noon, 1), (noon, 2)]
    ∀ order : OrderBy feed.le,
      (∃ out, walk (fun cursor => (feed.list 1 order rows (fun _ => true) (some 1)
          cursor).toOption) 3 none = some out ∧ out.Perm (rows.filter fun _ => true) ∧
        out.Pairwise fun a b => feed.past (feed.key a, feed.id a) b = true) ∧
      ∀ row ∈ rows, (fun _ => true) row = true → ∃ cursor, feed.encode row = some cursor ∧
        feed.after 1 cursor = .ok (feed.key row, feed.id row) := by
  intro noon feed rows order
  exact lists_by_time (by decide) feed (fun _ => true) (some 1) order rows (by decide)
    (fun _ _ _ => rfl) (by decide)

/-- **And stay so while rows change.** Let every page be cut from other rows, as they are when it
is asked for. What is listed has a place each, in order; a row that keeps its time and its id and
is selected all along is not missed; and where every row keeps its time, none is listed twice. -/
theorem lists_that_change (orders : Nat → OrderBy feed.le) (tables : Nat → List α)
    (hids : ∀ n, ((tables n).map feed.id).Nodup) {fuel : Nat} {out : List α}
    (hwalk : walkOver (fun n cursor =>
      (feed.list depth (orders n) (tables n) p limit cursor).toOption) fuel 0 none = some out) :
    (out.Pairwise fun a b => feed.past (feed.key a, feed.id a) b = true) ∧
      (∀ row, (∀ n, ∃ now ∈ tables n, p now = true ∧ feed.key now = feed.key row ∧
        feed.id now = feed.id row) → ∃ listed ∈ out, feed.id listed = feed.id row) ∧
      ((∀ m n, ∀ a ∈ tables m, ∀ b ∈ tables n, feed.id a = feed.id b → feed.key a = feed.key b) →
        (out.map feed.id).Nodup) := by
  have hpages : Pages (fun row => feed.place (feed.key row, feed.id row)) feed.le feed.encode
      (clampLimit limit) (fun n => (tables n).filter p) (fun n cursor =>
        (feed.list depth (orders n) (tables n) p limit cursor).toOption) := {
    -- Each page is a page of the walk, over the table as it is at that moment.
    positive := clampLimit_pos limit
    places := fun n => Feed.nodup_places p (hids n)
    first := fun n => ⟨orders n, Feed.list_first (orders n) (tables n) p limit⟩
    next := by
      intro n row cursor hcursor
      refine ⟨orders n, (Feed.list_cursor (orders n) (tables n) p limit hdepth hcursor).trans ?_⟩
      refine congrArg (fun found => cut _ _ (OrderBy.page _ found _)) (List.filter_congr ?_)
      exact fun other _ => Bool.eq_iff_iff.2 (Feed.past_iff.trans decide_eq_true_iff.symm) }
  have hsorted := (feed.orders.walkOver_sorted hpages hwalk).imp Feed.past_iff.2
  refine ⟨hsorted, fun row hstays => ?_, fun hkeys => Feed.nodup_ids hsorted ?_⟩
  · -- A row that stays keeps its place in every table.
    have hplace : ∀ n, feed.place (feed.key row, feed.id row) ∈ ((tables n).filter p).map
        fun row => feed.place (feed.key row, feed.id row) := by
      intro n
      obtain ⟨now, hnow, hp, hkey, hid⟩ := hstays n
      rw [← hkey, ← hid]
      exact List.mem_map_of_mem (List.mem_filter.2 ⟨hnow, hp⟩)
    obtain ⟨listed, hlisted, hsame⟩ :=
      List.mem_map.1 (feed.orders.walkOver_complete hpages hwalk hplace)
    exact ⟨listed, hlisted, Feed.id_of_place hsame⟩
  · -- both rows are of some table
    intro a ha b hb hid
    obtain ⟨m, hm⟩ := feed.orders.walkOver_mem hpages hwalk a ha
    obtain ⟨n, hn⟩ := feed.orders.walkOver_mem hpages hwalk b hb
    exact hkeys m n a (List.mem_filter.1 hm).1 b (List.mem_filter.1 hn).1 hid

end

section

/-- A noon in January. -/
def noon : Timestamp := ⟨⟨⟨2026, 1, 31, 12, 0, 0, 0, some 0⟩, by decide⟩, rfl⟩

/-- Rows that are a time and an id, the newest first. -/
def stampedRows : Feed (Timestamp × UUID) := .newest true Prod.fst Prod.snd

/-- A third row comes after the first page. -/
def growing : Nat → List (Timestamp × UUID)
  | 0 => [(noon, 1), (noon, 2)]
  | _ => [(noon, 1), (noon, 2), (noon, 3)]

/-- A walk over a table that grows. -/
def growingWalk : Option (List (Timestamp × UUID)) :=
  walkOver (fun n cursor => (stampedRows.list 1 (.insertion stampedRows.le) (growing n)
    (fun _ => true) (some 1) cursor).toOption) 3 0 none

theorem growingWalk_eq : growingWalk = some [(noon, 2), (noon, 1)] := by decide +kernel

theorem growing_time (n : Nat) : ∀ row ∈ growing n, row.1 = noon := by
  cases n with
  | zero => simp [growing]
  | succ n => simp [growing]

theorem lists_that_change_growing :
    ([(noon, 2), (noon, 1)].Pairwise fun a b =>
        stampedRows.past (stampedRows.key a, stampedRows.id a) b = true) ∧
      (∃ listed ∈ [(noon, 2), (noon, 1)], stampedRows.id listed = 1) ∧
      ([(noon, 2), (noon, 1)].map stampedRows.id).Nodup := by
  obtain ⟨hsorted, hstays, honce⟩ := lists_that_change (by decide) stampedRows (fun _ => true)
    (some 1) (fun _ => .insertion stampedRows.le) growing (fun n => by
      cases n with
      | zero => decide
      | succ n => exact (by decide : ([1, 2, 3] : List UUID).Nodup)) growingWalk_eq
  refine ⟨hsorted, hstays (noon, 1) fun n => ⟨(noon, 1), ?_, rfl, rfl, rfl⟩, honce ?_⟩
  · cases n with
    | zero => exact List.mem_cons_self
    | succ n => exact List.mem_cons_self
  · intro m n a ha b hb _
    show (some a.1).elim 0 Timestamp.number = (some b.1).elim 0 Timestamp.number
    rw [growing_time m a ha, growing_time n b hb]

end

end Common

end RealEstate
