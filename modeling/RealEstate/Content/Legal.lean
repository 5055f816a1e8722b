import RealEstate.Core.Base
import RealEstate.Systems.Transactions
import RealEstate.Systems.UniqueIndex

/-!
# Publishing legal pages

`publish_legal_version` of `modules/content/service.py` as transactions over the
`legal_pages` table, one statement a step.

- `select`, `lock`: `get_current_legal(for_update=True)`. The rows come from the snapshot of
  the statement; each is locked, and kept if it still matches once its lock is granted.
- `flip`: `current.is_current = False`, written by the flush before the next query.
- `count`: `max_legal_version`, of the rows the transaction sees by then.
- `insert`: the new page. `uq_legal_pages_tenant_kind_version` and `uq_legal_pages_current`
  have to admit it: a request that violates one is rolled back, and one that meets the
  uncommitted row of another request waits.
-/

namespace RealEstate

namespace Content

open RealEstate.Core Systems

/-- `LegalKind`. -/
inductive LegalKind where
  | privacy
  | terms
  | fairTreatment
  | licenseDisclosure
  deriving DecidableEq, Repr

/-- A text by language. -/
abbrev I18nText := List (String × String)

/-- `LegalPageCreate`. -/
structure LegalPageCreate where
  kind : LegalKind
  body : I18nText
  effectiveAt : Option DateTime := none

/-- A row of `legal_pages`. -/
structure LegalPage where
  tenantId : Uuid
  kind : LegalKind
  version : Nat
  body : I18nText
  effectiveAt : DateTime
  isCurrent : Bool
  createdAt : DateTime
  updatedAt : DateTime
  deriving DecidableEq

/-- The pages that are numbered together. -/
abbrev Series := Uuid × LegalKind

/-- Versions count by tenant and kind. -/
def LegalPage.series (page : LegalPage) : Series := (page.tenantId, page.kind)

/-- `uq_legal_pages_tenant_kind_version`. -/
def versionKey (page : LegalPage) : Option (Series × Nat) := some (page.series, page.version)

/-- `uq_legal_pages_current`, on the current pages only. -/
def currentKey (page : LegalPage) : Option Series :=
  if page.isCurrent then some page.series else none

/-- `current.is_current = False`, and the `onupdate` of the timestamp. -/
def LegalPage.retire (page : LegalPage) (now : DateTime) : LegalPage :=
  { page with isCurrent := false, updatedAt := now }

/-- Everything but `is_current` and the timestamp of the last update. -/
def LegalPage.Same (page page' : LegalPage) : Prop :=
  page' = { page with isCurrent := page'.isCurrent, updatedAt := page'.updatedAt }

namespace LegalPage

variable {page page' page'' : LegalPage}

theorem same_refl (page : LegalPage) : page.Same page := rfl

/-- Retiring a page changes its flag and its time only. -/
theorem same_retire (page : LegalPage) (now : DateTime) : page.Same (page.retire now) := rfl

theorem Same.trans (h : page.Same page') (h' : page'.Same page'') : page.Same page'' := by
  rw [Same] at *
  rw [h', h]

theorem Same.series (h : page.Same page') : page'.series = page.series := by
  rw [h]
  rfl

theorem Same.version (h : page.Same page') : page'.version = page.version := by
  rw [h]

end LegalPage

namespace Legal

/-- Where a request stands. `current` and `page` are its local variables. -/
inductive Phase where
  | locking (todo found : List Uuid)
  | counting (current : Option Uuid)
  | inserting (current : Option Uuid) (nextVersion : Nat)
  | done (current : Option Uuid) (page : Uuid)

/-- A request to publish a page. -/
structure Txn where
  tenantId : Uuid
  data : LegalPageCreate
  phase : Phase

/-- The series that a request adds to. -/
def Txn.series (txn : Txn) : Series := (txn.tenantId, txn.data.kind)

/-- The table and the requests under way. -/
structure State where
  table : Table Uuid LegalPage Nat
  txns : Nat → Option Txn

/-- A statement of a request. -/
inductive Label where
  | select (t : Nat) (tenantId : Uuid) (data : LegalPageCreate)
  | lock (t : Nat)
  | flip (t : Nat) (now : DateTime)
  | count (t : Nat)
  | insert (t : Nat) (id : Uuid) (clock now : DateTime)
  | commit (t : Nat)
  | rollback (t : Nat)

/-- The condition of `get_current_legal`. -/
def isCurrentOf (series : Series) (page : LegalPage) : Bool :=
  page.series = series && page.isCurrent

/-- `max_legal_version`. -/
def maxLegalVersion (table : Table Uuid LegalPage Nat) (t : Nat) (series : Series) : Nat :=
  ((table.select t fun page => page.series = series).map (·.version)).max?.getD 0

/-- The page of a request, numbered. -/
def Txn.page (txn : Txn) (nextVersion : Nat) (clock now : DateTime) : LegalPage where
  tenantId := txn.tenantId
  kind := txn.data.kind
  version := nextVersion
  body := txn.data.body
  effectiveAt := txn.data.effectiveAt.getD clock
  isCurrent := true
  createdAt := now
  updatedAt := now

/-- Both unique indexes admit the version of the row. -/
def Admitted (table : Table Uuid LegalPage Nat) (t : Nat) (id : Uuid) (page : LegalPage) : Prop :=
  table.Admits versionKey t id page ∧ table.Admits currentKey t id page

/-- Two comparisons over the rows. -/
instance (table : Table Uuid LegalPage Nat) (t : Nat) (id : Uuid) (page : LegalPage) :
    Decidable (Admitted table t id page) :=
  inferInstanceAs (Decidable (_ ∧ _))

/-- Transaction `t` goes on. -/
def State.goes (s : State) (t : Nat) (table : Table Uuid LegalPage Nat) (txn : Txn) : State where
  table
  txns := Function.update s.txns t (some txn)

/-- Transaction `t` ends. -/
def State.ends (s : State) (t : Nat) (table : Table Uuid LegalPage Nat) : State where
  table
  txns := Function.update s.txns t none

/-- The lock of one row of the snapshot, and the second look at it. -/
def State.lock (s : State) (t : Nat) (txn : Txn) (k : Uuid) (todo found : List Uuid) :
    Option State :=
  (s.table.acquire t k).map fun table =>
    s.goes t table { txn with
      phase := .locking todo
        (if (table.visible t k).any (isCurrentOf txn.series) then found ++ [k] else found) }

/-- The end of `scalar_one_or_none`, and the flip of the row it returned. -/
def State.flip (s : State) (t : Nat) (txn : Txn) (now : DateTime) : List Uuid → Option State
  | [] => some (s.goes t s.table { txn with phase := .counting none })
  | [k] =>
    (s.table.visible t k).bind fun page =>
      if Admitted s.table t k (page.retire now) then
        (s.table.write t k (some (page.retire now))).map fun table =>
          s.goes t table { txn with phase := .counting (some k) }
      else none
  -- two current pages: it raises
  | _ => none

/-- The `INSERT` of the new page. -/
def State.insert (s : State) (t : Nat) (txn : Txn) (current : Option Uuid) (nextVersion : Nat)
    (id : Uuid) (clock now : DateTime) : Option State :=
  if Admitted s.table t id (txn.page nextVersion clock now) then
    (s.table.insert t id (txn.page nextVersion clock now)).map fun table =>
      s.goes t table { txn with phase := .done current id }
  else none

/-- One statement of a request, or its end. -/
def step (s : State) : Label → Option State
  | .select t tenantId data =>
    if (s.txns t).isSome then none
    else some (s.goes t s.table
      ⟨tenantId, data, .locking (s.table.scan t (isCurrentOf (tenantId, data.kind))) []⟩)
  | .lock t =>
    match s.txns t with
    | some ⟨tenantId, data, .locking (k :: todo) found⟩ =>
      s.lock t ⟨tenantId, data, .locking (k :: todo) found⟩ k todo found
    | _ => none
  | .flip t now =>
    match s.txns t with
    | some ⟨tenantId, data, .locking [] found⟩ =>
      s.flip t ⟨tenantId, data, .locking [] found⟩ now found
    | _ => none
  | .count t =>
    match s.txns t with
    | some ⟨tenantId, data, .counting current⟩ =>
      some (s.goes t s.table ⟨tenantId, data,
        .inserting current (maxLegalVersion s.table t (tenantId, data.kind) + 1)⟩)
    | _ => none
  | .insert t id clock now =>
    match s.txns t with
    | some ⟨tenantId, data, .inserting current nextVersion⟩ =>
      s.insert t ⟨tenantId, data, .inserting current nextVersion⟩ current nextVersion id clock now
    | _ => none
  | .commit t =>
    match s.txns t with
    | some ⟨_, _, .done _ _⟩ => some (s.ends t (s.table.commit t))
    | _ => none
  | .rollback t =>
    match s.txns t with
    | some _ => some (s.ends t (s.table.rollback t))
    | none => none

/-- Requests to publish legal pages, of any agency and kind, from an empty table on. -/
def machine : Machine State Label where
  init s := s = ⟨.empty, fun _ => none⟩
  step := step

/-- What a step comes to, and where its request stood. -/
inductive Stepped (s : State) : Label → State → Prop where
  | select {t : Nat} {tenantId : Uuid} {data : LegalPageCreate} : s.txns t = none →
    Stepped s (.select t tenantId data) (s.goes t s.table
      ⟨tenantId, data, .locking (s.table.scan t (isCurrentOf (tenantId, data.kind))) []⟩)
  | lock {t : Nat} {txn : Txn} {k : Uuid} {todo found : List Uuid} {s' : State} :
    s.txns t = some txn → txn.phase = .locking (k :: todo) found →
    s.lock t txn k todo found = some s' → Stepped s (.lock t) s'
  | flip {t : Nat} {now : DateTime} {txn : Txn} {found : List Uuid} {s' : State} :
    s.txns t = some txn → txn.phase = .locking [] found →
    s.flip t txn now found = some s' → Stepped s (.flip t now) s'
  | count {t : Nat} {txn : Txn} {current : Option Uuid} :
    s.txns t = some txn → txn.phase = .counting current →
    Stepped s (.count t) (s.goes t s.table
      { txn with phase := .inserting current (maxLegalVersion s.table t txn.series + 1) })
  | insert {t : Nat} {id : Uuid} {clock now : DateTime} {txn : Txn} {current : Option Uuid}
      {nextVersion : Nat} {s' : State} :
    s.txns t = some txn → txn.phase = .inserting current nextVersion →
    s.insert t txn current nextVersion id clock now = some s' →
    Stepped s (.insert t id clock now) s'
  | commit {t : Nat} {txn : Txn} {current : Option Uuid} {id : Uuid} :
    s.txns t = some txn → txn.phase = .done current id →
    Stepped s (.commit t) (s.ends t (s.table.commit t))
  | rollback {t : Nat} : Stepped s (.rollback t) (s.ends t (s.table.rollback t))

/-- What each statement does to the state. -/
theorem stepped_of_step {s s' : State} {l : Label} (h : step s l = some s') : Stepped s l s' := by
  cases l with
  | select t tenantId data =>
    obtain ⟨ht, h⟩ := Option.ite_none_left_eq_some.mp h
    cases h
    exact .select (Option.not_isSome_iff_eq_none.mp ht)
  | lock t =>
    dsimp only [step] at h
    split at h
    · next ht => exact .lock ht rfl h
    · cases h
  | flip t now =>
    dsimp only [step] at h
    split at h
    · next ht => exact .flip ht rfl h
    · cases h
  | count t =>
    dsimp only [step] at h
    split at h
    · next ht =>
      cases h
      exact .count ht rfl
    · cases h
  | insert t id clock now =>
    dsimp only [step] at h
    split at h
    · next ht => exact .insert ht rfl h
    · cases h
  | commit t =>
    dsimp only [step] at h
    split at h
    · next ht =>
      cases h
      exact .commit ht rfl
    · cases h
  | rollback t =>
    dsimp only [step] at h
    split at h
    · cases h
      exact .rollback
    · cases h

end Legal

end Content

end RealEstate
