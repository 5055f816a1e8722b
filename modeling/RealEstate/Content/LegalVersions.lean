import RealEstate.Content.Legal

/-!
# The versions of a legal page

- `Consecutive`: the committed pages of a series are versions `1 … n`, each once, and the
  current one is the last.
- `Publication`: what a request commits. It retires the current page and adds the next version,
  or adds the first version to an empty series; `Consecutive` survives either.
- `TxnInv`: how far a request has come with that. The request that has locked the current page
  is alone in its series. Two first publications are kept apart by `uq_legal_pages_current`
  only: `Inv.first` is what an insert without a current page has been promised by it.
- `legal_versions`: every interleaving of requests.
-/

namespace RealEstate

namespace Content

namespace Legal

open RealEstate.Core Systems

/-! ### Committed pages -/

/-- The series has the versions `1 … n`, each once, and its current page is the last. -/
structure Consecutive (rows : Uuid → Option LegalPage) (series : Series) (n : Nat) : Prop where
  versions : ∀ m, (∃ k page, rows k = some page ∧ page.series = series ∧ page.version = m) ↔
    1 ≤ m ∧ m ≤ n
  once : ∀ j k p q, rows j = some p → rows k = some q → p.series = series → q.series = series →
    p.version = q.version → j = k
  current : ∀ k page, rows k = some page → page.series = series →
    (page.isCurrent = true ↔ page.version = n)

/-- No page is lost, and none changes but in `is_current` and its update timestamp. -/
def Persist (rows rows' : Uuid → Option LegalPage) : Prop :=
  ∀ k page, rows k = some page → ∃ page', rows' k = some page' ∧ page.Same page'

/-- A request commits: it retires `current` and adds `page` after it, or adds the first page. -/
structure Publication (rows rows' : Uuid → Option LegalPage) (current : Option Uuid) (id : Uuid)
    (page : LegalPage) : Prop where
  fresh : rows id = none
  added : rows' id = some page
  isCurrent : page.isCurrent = true
  retired : ∀ k, current = some k → ∃ old now, rows k = some old ∧ old.series = page.series ∧
    old.isCurrent = true ∧ page.version = old.version + 1 ∧ rows' k = some (old.retire now)
  first : current = none → page.version = 1 ∧
    ∀ k old, rows k = some old → old.series ≠ page.series
  rest : ∀ j, j ≠ id → current ≠ some j → rows' j = rows j

section Pages

variable {rows rows' : Uuid → Option LegalPage} {series : Series} {n : Nat}
  {current : Option Uuid} {id : Uuid} {page : LegalPage}

theorem Persist.refl (rows : Uuid → Option LegalPage) : Persist rows rows :=
  fun _ page hrow => ⟨page, hrow, page.same_refl⟩

theorem Persist.trans {rows'' : Uuid → Option LegalPage} (h : Persist rows rows')
    (h' : Persist rows' rows'') : Persist rows rows'' := by
  intro k page hrow
  obtain ⟨page', hrow', hsame⟩ := h k page hrow
  obtain ⟨page'', hrow'', hsame'⟩ := h' k page' hrow'
  exact ⟨page'', hrow'', hsame.trans hsame'⟩

/-- What a publication leaves under a key. -/
theorem Publication.cases (h : Publication rows rows' current id page) {k : Uuid}
    {new : LegalPage} (hnew : rows' k = some new) :
    (k = id ∧ new = page) ∨
      (k ≠ id ∧ ∃ old, rows k = some old ∧ old.Same new ∧
        ((current = some k ∧ new.isCurrent = false ∧ page.version = old.version + 1 ∧
          old.series = page.series) ∨ (current ≠ some k ∧ new = old))) := by
  by_cases hid : k = id
  · subst hid
    exact .inl ⟨rfl, Option.some.inj (hnew.symm.trans h.added)⟩
  · refine .inr ⟨hid, ?_⟩
    by_cases hk : current = some k
    · obtain ⟨old, now, hold, hseries, -, hversion, hretired⟩ := h.retired k hk
      obtain rfl := Option.some.inj (hnew.symm.trans hretired)
      exact ⟨old, hold, LegalPage.same_retire .., .inl ⟨hk, rfl, hversion, hseries⟩⟩
    · have hold : rows k = some new := (h.rest k hid hk).symm.trans hnew
      exact ⟨new, hold, new.same_refl, .inr ⟨hk, rfl⟩⟩

theorem Publication.persist (h : Publication rows rows' current id page) :
    Persist rows rows' := by
  intro k old hold
  have hid : k ≠ id := by
    rintro rfl
    rw [h.fresh] at hold
    cases hold
  by_cases hk : current = some k
  · obtain ⟨old', now, hold', -, -, -, hretired⟩ := h.retired k hk
    obtain rfl := Option.some.inj (hold.symm.trans hold')
    exact ⟨_, hretired, LegalPage.same_retire ..⟩
  · exact ⟨old, (h.rest k hid hk).trans hold, old.same_refl⟩

/-- The version a publication adds follows the last one. -/
theorem Publication.version (h : Publication rows rows' current id page)
    (hrows : Consecutive rows page.series n) : page.version = n + 1 := by
  cases hcurrent : current with
  | some k =>
    obtain ⟨old, now, hold, hseries, hold_current, hversion, -⟩ := h.retired k hcurrent
    rw [hversion, (hrows.current k old hold hseries).1 hold_current]
  | none =>
    obtain ⟨hversion, hempty⟩ := h.first hcurrent
    have hn : n = 0 := by
      by_contra hn
      obtain ⟨k, old, hold, hseries, -⟩ := (hrows.versions n).2 ⟨by omega, Nat.le_refl n⟩
      exact hempty k old hold hseries
    rw [hversion, hn]

/-- No page that was there before is current now: the one that was has been retired. -/
theorem Publication.superseded (h : Publication rows rows' current id page)
    (hrows : Consecutive rows page.series n) {k : Uuid} {new : LegalPage} (hk : k ≠ id)
    (hnew : rows' k = some new) (hseries : new.series = page.series) :
    new.isCurrent ≠ true := by
  rcases h.cases hnew with ⟨heq, -⟩ | ⟨-, old, hold, -, hcase⟩
  · exact absurd heq hk
  · rcases hcase with ⟨-, hretired, -⟩ | ⟨hother, rfl⟩
    · rw [hretired]
      exact Bool.false_ne_true
    · intro hcurrent
      have hlast := (hrows.current k new hold hseries).1 hcurrent
      cases hlocked : current with
      | none => exact (h.first hlocked).2 k new hold hseries
      | some j =>
        -- a current page has the last version, and only one page has it
        obtain ⟨last, now, hj, hjseries, hjcurrent, -⟩ := h.retired j hlocked
        have hjlast := (hrows.current j last hj hjseries).1 hjcurrent
        obtain rfl := hrows.once j k last new hj hold hjseries hseries (hjlast.trans hlast.symm)
        exact hother hlocked

/-- **One more version** in the series of the new page. -/
theorem Publication.consecutive (h : Publication rows rows' current id page)
    (hrows : Consecutive rows page.series n) : Consecutive rows' page.series (n + 1) := by
  have hnext := h.version hrows
  -- Pages of before have the versions up to `n`.
  have hold_le : ∀ {k old}, rows k = some old → old.series = page.series →
      1 ≤ old.version ∧ old.version ≤ n :=
    fun hold hseries => (hrows.versions _).1 ⟨_, _, hold, hseries, rfl⟩
  constructor
  case versions =>
    intro m
    constructor
    · rintro ⟨k, new, hnew, hseries, rfl⟩
      rcases h.cases hnew with ⟨-, rfl⟩ | ⟨-, old, hold, hsame, -⟩
      · omega
      · have hle := hold_le hold (hsame.series.symm.trans hseries)
        rw [hsame.version]
        omega
    · rintro ⟨hpos, hle⟩
      by_cases hm : m = n + 1
      · -- The new page has the next version.
        exact ⟨id, page, h.added, rfl, hnext.trans hm.symm⟩
      · obtain ⟨k, old, hold, hseries, hversion⟩ := (hrows.versions m).2 ⟨hpos, by omega⟩
        obtain ⟨new, hnew, hsame⟩ := h.persist k old hold
        exact ⟨k, new, hnew, hsame.series.trans hseries, hsame.version.trans hversion⟩
  case once =>
    intro j k p q hp hq hpseries hqseries hversion
    rcases h.cases hp with ⟨hj, rfl⟩ | ⟨-, p', hp', hpsame, -⟩ <;>
      rcases h.cases hq with ⟨hk, rfl⟩ | ⟨-, q', hq', hqsame, -⟩
    · -- Two pages of one version are the new one, or were there before.
      exact hj.trans hk.symm
    · have hle := hold_le hq' (hqsame.series.symm.trans hqseries)
      rw [hqsame.version] at hversion
      omega
    · have hle := hold_le hp' (hpsame.series.symm.trans hpseries)
      rw [hpsame.version] at hversion
      omega
    · refine hrows.once j k p' q' hp' hq' (hpsame.series.symm.trans hpseries)
        (hqsame.series.symm.trans hqseries) ?_
      rw [← hpsame.version, ← hqsame.version, hversion]
  case current =>
    intro k new hnew hseries
    rcases h.cases hnew with ⟨-, rfl⟩ | ⟨hk, old, hold, hsame, -⟩
    · exact iff_of_true h.isCurrent hnext
    · have hle := hold_le hold (hsame.series.symm.trans hseries)
      have hversion := hsame.version
      exact iff_of_false (h.superseded hrows hk hnew hseries) (by omega)

/-- The other series are left alone. -/
theorem Publication.consecutive_of_ne (h : Publication rows rows' current id page)
    (hne : series ≠ page.series) (hrows : Consecutive rows series n) :
    Consecutive rows' series n := by
  have hrow : ∀ k new, new.series = series → (rows' k = some new ↔ rows k = some new) := by
    intro k new hseries
    constructor
    · intro hnew
      rcases h.cases hnew with ⟨-, rfl⟩ | ⟨-, old, hold, hsame, hcase⟩
      · exact absurd hseries.symm hne
      · rcases hcase with ⟨-, -, -, hold_series⟩ | ⟨-, rfl⟩
        · exact absurd (hseries.symm.trans (hsame.series.trans hold_series)) hne
        · exact hold
    · intro hold
      have hid : k ≠ id := by
        rintro rfl
        rw [h.fresh] at hold
        cases hold
      refine (h.rest k hid fun hk => ?_).trans hold
      obtain ⟨old, now, hold', hold_series, -⟩ := h.retired k hk
      obtain rfl := Option.some.inj (hold.symm.trans hold')
      exact hne (hseries.symm.trans hold_series)
  constructor
  case versions =>
    intro m
    rw [← hrows.versions m]
    constructor
    · rintro ⟨k, new, hnew, hseries, hversion⟩
      exact ⟨k, new, (hrow k new hseries).1 hnew, hseries, hversion⟩
    · rintro ⟨k, new, hnew, hseries, hversion⟩
      exact ⟨k, new, (hrow k new hseries).2 hnew, hseries, hversion⟩
  case once =>
    intro j k p q hp hq hpseries hqseries
    exact hrows.once j k p q ((hrow j p hpseries).1 hp) ((hrow k q hqseries).1 hq) hpseries
      hqseries
  case current =>
    intro k new hnew hseries
    exact hrows.current k new ((hrow k new hseries).1 hnew) hseries

end Pages

/-! ### Requests in flight -/

/-- The table of legal pages. -/
abbrev Pages := Table Uuid LegalPage Nat

/-- The request has locked a current page of its series. -/
def Locked (table : Pages) (t : Nat) (series : Series) (k : Uuid) : Prop :=
  table.lock k = some t ∧
    ∃ page, table.rows k = some page ∧ page.series = series ∧ page.isCurrent = true

/-- The request has retired the current page, if there is one, and written nothing else but
`new`. -/
structure Holding (table : Pages) (t : Nat) (series : Series) (current new : Option Uuid) :
    Prop where
  locked : ∀ k, current = some k → Locked table t series k
  retired : ∀ k, current = some k → ∃ page now, table.rows k = some page ∧
    table.dirty t k = some (some (page.retire now))
  rest : ∀ j, current ≠ some j → new ≠ some j → table.dirty t j = none

/-- A number that follows the version of the current page. With no current page to hold on to,
it is 1 or the series is no longer empty. -/
def Next (rows : Uuid → Option LegalPage) (series : Series) (nextVersion : Nat) :
    Option Uuid → Prop
  | some k => ∃ page, rows k = some page ∧ nextVersion = page.version + 1
  | none => nextVersion ≠ 1 → ∃ k page, rows k = some page ∧ page.series = series

/-- What a request has come to, by its phase. -/
def TxnInv (table : Pages) (t : Nat) (txn : Txn) : Prop :=
  match txn.phase with
  | .locking _ found =>
    (∀ k, table.dirty t k = none) ∧ ∀ k ∈ found, Locked table t txn.series k
  | .counting current => Holding table t txn.series current none
  | .inserting current nextVersion =>
    Holding table t txn.series current none ∧
      Next table.rows txn.series nextVersion current
  | .done current id =>
    Holding table t txn.series current (some id) ∧ current ≠ some id ∧ table.rows id = none ∧
      ∃ page, table.dirty t id = some (some page) ∧ page.series = txn.series ∧
        page.isCurrent = true ∧ Next table.rows txn.series page.version current

/-- Versions and current pages are unique, and every request knows what it needs of its series. -/
structure Inv (s : State) : Prop where
  idle : ∀ t, s.txns t = none → ∀ k, s.table.lock k ≠ some t
  versions : s.table.UniqueOn versionKey
  currents : s.table.UniqueOn currentKey
  consecutive : ∀ series, ∃ n, Consecutive s.table.rows series n
  txn : ∀ t txn, s.txns t = some txn → TxnInv s.table t txn
  /-- A first page that is still uncommitted is alone. -/
  first : ∀ t txn id, s.txns t = some txn → txn.phase = .done none id →
    ∀ k page, s.table.rows k = some page → page.series ≠ txn.series

section Transactions

variable {s s' : State} {table table' : Pages} {t u : Nat} {txn : Txn} {series : Series}
  {current new : Option Uuid} {nextVersion : Nat}

/-- What a request has locked stays as it was read. -/
theorem Locked.of_same {k : Uuid} (h : Locked table t series k)
    (hsame : Table.SameFor t table table') : Locked table' t series k := by
  obtain ⟨hlock, page, hrow, hpage⟩ := h
  exact ⟨(hsame.lock k).2 hlock, page, (hsame.rows k hlock).trans hrow, hpage⟩

theorem Holding.of_same (h : Holding table t series current new)
    (hsame : Table.SameFor t table table') : Holding table' t series current new where
  locked k hk := (h.locked k hk).of_same hsame
  retired k hk := by
    obtain ⟨page, now, hrow, hdirty⟩ := h.retired k hk
    exact ⟨page, now, (hsame.rows k (h.locked k hk).1).trans hrow, (hsame.dirty k).trans hdirty⟩
  rest j hj hnew := (hsame.dirty j).trans (h.rest j hj hnew)

theorem Next.of_same (h : Next table.rows series nextVersion current)
    (hlock : ∀ k, current = some k → table.lock k = some t)
    (hsame : Table.SameFor t table table') (hpersist : Persist table.rows table'.rows) :
    Next table'.rows series nextVersion current := by
  cases current with
  | some k =>
    obtain ⟨page, hrow, hnext⟩ := h
    exact ⟨page, (hsame.rows k (hlock k rfl)).trans hrow, hnext⟩
  | none =>
    intro hne
    obtain ⟨k, page, hrow, hseries⟩ := h hne
    obtain ⟨page', hrow', hpage⟩ := hpersist k page hrow
    exact ⟨k, page', hrow', hpage.series.trans hseries⟩

/-- A request does not notice what the others do. -/
theorem TxnInv.of_same (h : TxnInv table t txn) (hsame : Table.SameFor t table table')
    (hpersist : Persist table.rows table'.rows) : TxnInv table' t txn := by
  unfold TxnInv at h ⊢
  split at h
  · obtain ⟨hclean, hfound⟩ := h
    exact ⟨fun k => (hsame.dirty k).trans (hclean k), fun k hk => (hfound k hk).of_same hsame⟩
  · exact h.of_same hsame
  · obtain ⟨hholding, hnext⟩ := h
    exact ⟨hholding.of_same hsame,
      hnext.of_same (fun k hk => (hholding.locked k hk).1) hsame hpersist⟩
  · obtain ⟨hholding, hne, hfresh, page, hdirty, hseries, hcurrent, hnext⟩ := h
    refine ⟨hholding.of_same hsame, hne, ?_, page, (hsame.dirty _).trans hdirty, hseries,
      hcurrent, hnext.of_same (fun k hk => (hholding.locked k hk).1) hsame hpersist⟩
    exact (hsame.rows _ (table.dirty_lock hdirty)).trans hfresh

theorem Inv.empty : Inv ⟨.empty, fun _ => none⟩ where
  idle _ _ _ := nofun
  versions := .empty
  currents := .empty
  consecutive _ := by
    refine ⟨0, fun m => ?_, (fun j _ p _ hp => nomatch hp), fun k page hrow => nomatch hrow⟩
    constructor
    · rintro ⟨k, page, hrow, -⟩
      cases hrow
    · omega
  txn _ _ h := nomatch h
  first _ _ _ h := nomatch h

/-- A statement of a request. -/
theorem Inv.goes (h : Inv s) (hrows : table.rows = s.table.rows)
    (hother : ∀ u, u ≠ t → Table.SameFor u s.table table)
    (hversions : table.UniqueOn versionKey) (hcurrents : table.UniqueOn currentKey)
    (htxn : TxnInv table t txn)
    (hfirst : ∀ id, txn.phase = .done none id →
      ∀ k page, table.rows k = some page → page.series ≠ txn.series) :
    Inv (s.goes t table txn) where
  idle := Table.Idle.goes h.idle hother
  versions := hversions
  currents := hcurrents
  consecutive series := by
    obtain ⟨n, hn⟩ := h.consecutive series
    exact ⟨n, hrows ▸ hn⟩
  txn := Machine.each_goes h.txn
    (fun u _ hne hu => hu.of_same (hother u hne) (hrows ▸ Persist.refl _)) htxn
  first u txn' id hu hphase := by
    rcases Machine.update_cases hu with ⟨rfl, heq⟩ | ⟨hne, hu⟩
    · cases heq
      exact hfirst id hphase
    · show ∀ k page, table.rows k = some page → _
      rw [hrows]
      exact h.first u txn' id hu hphase

/-- The query of the current pages. -/
theorem Inv.select (h : Inv s) (ht : s.txns t = none) {tenantId : Uuid} {data : LegalPageCreate}
    {todo : List Uuid} : Inv (s.goes t s.table ⟨tenantId, data, .locking todo []⟩) :=
  h.goes rfl (fun u _ => Table.SameFor.refl u _) h.versions h.currents
    ⟨Table.Idle.clean h.idle t ht, fun _ hk => nomatch hk⟩ nofun

theorem isCurrentOf_iff {page : LegalPage} :
    isCurrentOf series page = true ↔ page.series = series ∧ page.isCurrent = true := by
  simp [isCurrentOf]

/-- A row is locked, or waited for. -/
theorem Inv.lock (h : Inv s) (ht : s.txns t = some txn) {k : Uuid} {todo found : List Uuid}
    (hphase : txn.phase = .locking (k :: todo) found)
    (hst : s.lock t txn k todo found = some s') : Inv s' := by
  obtain ⟨table, hacquire, rfl⟩ := Option.map_eq_some_iff.1 hst
  obtain ⟨hk, rfl⟩ := Table.acquire_eq_some.1 hacquire
  have htxn := h.txn t txn ht
  rw [TxnInv, hphase] at htxn
  obtain ⟨hclean, hfound⟩ := htxn
  refine h.goes rfl (fun u hu => Table.acquired_sameFor hu hk)
    (h.versions.of_same rfl rfl) (h.currents.of_same rfl rfl) ⟨hclean, ?_⟩ nofun
  have hold : ∀ j ∈ found, Locked (s.table.acquired t k hk) t txn.series j := by
    intro j hj
    obtain ⟨hlock, hpage⟩ := hfound j hj
    refine ⟨?_, hpage⟩
    rw [Table.acquired_lock]
    by_cases hjk : j = k
    · rw [hjk, Function.update_self]
    · rw [Function.update_of_ne hjk]
      exact hlock
  intro j hj
  split at hj
  · next hmatch =>
    rcases List.mem_append.1 hj with hj | hj
    · exact hold j hj
    · -- the row still matches under its lock
      obtain rfl := List.mem_singleton.1 hj
      obtain ⟨page, hvisible, hpage⟩ := (Option.any_eq_true _ _).1 hmatch
      refine ⟨Function.update_self .., page, ?_, isCurrentOf_iff.1 hpage⟩
      rw [← hvisible]
      exact (Table.visible_of_clean (hclean j)).symm
  · exact hold j hj

theorem Inv.flip (h : Inv s) (ht : s.txns t = some txn) {now : DateTime} {found : List Uuid}
    (hphase : txn.phase = .locking [] found) (hst : s.flip t txn now found = some s') :
    Inv s' := by
  have htxn := h.txn t txn ht
  rw [TxnInv, hphase] at htxn
  obtain ⟨hclean, hfound⟩ := htxn
  match found, hst with
  | [], hst =>
    cases hst
    exact h.goes rfl (fun u _ => Table.SameFor.refl u _) h.versions h.currents
      ⟨nofun, nofun, fun j _ _ => hclean j⟩ nofun
  | [k], hst =>
    -- the one row it has locked becomes the retired page
    obtain ⟨page, hvisible, hst⟩ := Option.bind_eq_some_iff.1 hst
    obtain ⟨⟨hversion, hcurrent⟩, hst⟩ := Option.ite_none_right_eq_some.1 hst
    obtain ⟨table, hwrite, rfl⟩ := Option.map_eq_some_iff.1 hst
    have hwrote := Table.wrote_of_write hwrite
    have hlocked := hfound k List.mem_cons_self
    have hrow : s.table.rows k = some page :=
      (Table.visible_of_clean (hclean k)).symm.trans hvisible
    refine h.goes hwrote.rows hwrote.other (h.versions.wrote hwrote hversion)
      (h.currents.wrote hwrote hcurrent) ?_ nofun
    refine ⟨fun j hj => ?_, fun j hj => ?_, fun j hj _ => ?_⟩
    · cases hj
      exact ⟨(hwrote.lock k).2 (.inl rfl), hwrote.rows ▸ hlocked.2⟩
    · cases hj
      exact ⟨page, now, hwrote.rows ▸ hrow, hwrote.self⟩
    · exact (hwrote.rest j fun hjk => hj (congrArg some hjk.symm)).trans (hclean j)

/-- Until its insert, a request sees the pages of a series under the same versions. -/
theorem Holding.visible (h : Holding table t series current none) {j : Uuid} {page : LegalPage} :
    (table.visible t j = some page → ∃ old, table.rows j = some old ∧ old.Same page) ∧
    (table.rows j = some page → ∃ new, table.visible t j = some new ∧ page.Same new) := by
  by_cases hj : current = some j
  · obtain ⟨old, now, hrow, hdirty⟩ := h.retired j hj
    rw [Table.visible_of_dirty hdirty, hrow]
    constructor
    · rintro heq
      cases heq
      exact ⟨old, rfl, old.same_retire now⟩
    · rintro heq
      cases heq
      exact ⟨_, rfl, page.same_retire now⟩
  · rw [Table.visible_of_clean (h.rest j hj nofun)]
    exact ⟨fun hrow => ⟨page, hrow, page.same_refl⟩, fun hrow => ⟨page, hrow, page.same_refl⟩⟩

/-- `max_legal_version` counts to the last version of the series. -/
theorem Holding.maxLegalVersion (h : Holding table t series current none) {n : Nat}
    (hn : Consecutive table.rows series n) : maxLegalVersion table t series = n := by
  -- The request sees the versions that are committed.
  have hmem : ∀ m, m ∈ (table.select t fun page => page.series = series).map (·.version) ↔
      1 ≤ m ∧ m ≤ n := by
    intro m
    rw [← hn.versions m, List.mem_map]
    constructor
    · rintro ⟨page, hpage, rfl⟩
      obtain ⟨k, hvisible, hseries⟩ := Table.mem_select.1 hpage
      obtain ⟨old, hrow, hsame⟩ := h.visible.1 hvisible
      exact ⟨k, old, hrow, hsame.series.symm.trans (of_decide_eq_true hseries),
        hsame.version.symm⟩
    · rintro ⟨k, old, hrow, hseries, rfl⟩
      obtain ⟨page, hvisible, hsame⟩ := h.visible.2 hrow
      exact ⟨page, Table.mem_select.2 ⟨k, hvisible, decide_eq_true (hsame.series.trans hseries)⟩,
        hsame.version⟩
  unfold Legal.maxLegalVersion
  by_cases hzero : n = 0
  · -- A series without pages has no greatest version.
    have hnil : (table.select t fun page => page.series = series).map (·.version) = [] := by
      refine List.eq_nil_iff_forall_not_mem.2 fun m hm => ?_
      have := (hmem m).1 hm
      omega
    rw [hnil, hzero]
    rfl
  · have hlast : n ∈ (table.select t fun page => page.series = series).map (·.version) :=
      (hmem n).2 ⟨by omega, Nat.le_refl n⟩
    rw [List.max?_eq_some_iff.2 ⟨hlast, fun m hm => ((hmem m).1 hm).2⟩]
    rfl

/-- The highest version of the series. -/
theorem Inv.count (h : Inv s) (ht : s.txns t = some txn) (hphase : txn.phase = .counting current) :
    Inv (s.goes t s.table { txn with
      phase := .inserting current (Legal.maxLegalVersion s.table t txn.series + 1) }) := by
  have hholding := h.txn t txn ht
  rw [TxnInv, hphase] at hholding
  obtain ⟨n, hn⟩ := h.consecutive txn.series
  refine h.goes rfl (fun u _ => Table.SameFor.refl u _) h.versions h.currents
    ⟨hholding, ?_⟩ nofun
  show Next s.table.rows txn.series (Legal.maxLegalVersion s.table t txn.series + 1) current
  rw [hholding.maxLegalVersion hn]
  cases current with
  | some k =>
    obtain ⟨-, page, hrow, hseries, hcurrent⟩ := hholding.locked k rfl
    exact ⟨page, hrow, by rw [(hn.current k page hrow hseries).1 hcurrent]⟩
  | none =>
    intro hne
    obtain ⟨k, page, hrow, hseries, -⟩ := (hn.versions 1).2 ⟨Nat.le_refl 1, by omega⟩
    exact ⟨k, page, hrow, hseries⟩

/-- A request with no page to retire whose new page the index admits has met no page at all:
the last one of the series would be current. -/
theorem Holding.no_page (h : Holding table t series none none) {n : Nat} {id : Uuid}
    {page : LegalPage} (hn : Consecutive table.rows series n) (hid : id ∉ table.keys)
    (hkey : currentKey page = some series) (hadmits : table.Admits currentKey t id page) :
    ∀ k old, table.rows k = some old → old.series ≠ series := by
  intro k old hrow hseries
  obtain ⟨hpos, hle⟩ := (hn.versions old.version).1 ⟨k, old, hrow, hseries, rfl⟩
  obtain ⟨j, last, hlast, hlast_series, hlast_version⟩ :=
    (hn.versions n).2 ⟨by omega, Nat.le_refl n⟩
  have hcurrent : last.isCurrent = true := (hn.current j last hlast hlast_series).2 hlast_version
  have hne : j ≠ id := by
    rintro rfl
    exact hid (table.rows_keys hlast)
  rw [Table.Admits, hkey] at hadmits
  refine (hadmits j (table.rows_keys hlast) hne).1 ?_
  have hnone : none ≠ some j := (Option.some_ne_none j).symm
  rw [Table.visible_of_clean (h.rest j hnone hnone), hlast]
  show currentKey last = some series
  rw [currentKey, if_pos hcurrent, hlast_series]

/-- **The insertion**, under a lock on the current page or into an empty series. -/
theorem Inv.insert (h : Inv s) (ht : s.txns t = some txn) {id : Uuid} {clock now : DateTime}
    (hphase : txn.phase = .inserting current nextVersion)
    (hst : s.insert t txn current nextVersion id clock now = some s') : Inv s' := by
  obtain ⟨⟨hversion, hcurrent⟩, hst⟩ := Option.ite_none_right_eq_some.1 hst
  obtain ⟨table, hinsert, rfl⟩ := Option.map_eq_some_iff.1 hst
  have hid : id ∉ s.table.keys := (Table.insert_eq_some.1 hinsert).1
  have hwrote := Table.wrote_of_insert hinsert
  have htxn := h.txn t txn ht
  rw [TxnInv, hphase] at htxn
  obtain ⟨hholding, hnext⟩ := htxn
  have hne : ∀ k page, s.table.rows k = some page → k ≠ id := by
    rintro k page hrow rfl
    exact hid (s.table.rows_keys hrow)
  refine h.goes hwrote.rows hwrote.other (h.versions.wrote hwrote hversion)
    (h.currents.wrote hwrote hcurrent) ⟨⟨fun k hk => ?_, fun k hk => ?_, fun j hj hjid => ?_⟩,
      fun hk => ?_, ?_, _, hwrote.self, rfl, rfl, ?_⟩ fun id' hdone => ?_
  · obtain ⟨hlock, hpage⟩ := hholding.locked k hk
    exact ⟨(hwrote.lock k).2 (.inr hlock), hwrote.rows ▸ hpage⟩
  · obtain ⟨page, stamp, hrow, hdirty⟩ := hholding.retired k hk
    exact ⟨page, stamp, hwrote.rows ▸ hrow, (hwrote.rest k (hne k page hrow)).trans hdirty⟩
  · exact (hwrote.rest j fun hj => hjid (congrArg some hj.symm)).trans (hholding.rest j hj nofun)
  · obtain ⟨-, page, hrow, -⟩ := hholding.locked id hk
    exact hne id page hrow rfl
  · rw [hwrote.rows]
    cases hrow : s.table.rows id with
    | none => rfl
    | some page => exact absurd rfl (hne id page hrow)
  · rw [hwrote.rows]
    exact hnext
  · cases hdone
    -- Nobody has added a page of the series in between, as the current one is locked.
    rw [hwrote.rows]
    obtain ⟨n, hn⟩ := h.consecutive txn.series
    exact hholding.no_page hn hid rfl hcurrent

/-- A request that commits publishes one page. -/
theorem Inv.publication (h : Inv s) (ht : s.txns t = some txn) {id : Uuid}
    (hphase : txn.phase = .done current id) :
    ∃ page, s.table.dirty t id = some (some page) ∧ page.series = txn.series ∧
      Publication s.table.rows (s.table.visible t) current id page := by
  have htxn := h.txn t txn ht
  rw [TxnInv, hphase] at htxn
  obtain ⟨hholding, hne, hfresh, page, hdirty, hseries, hcurrent, hnext⟩ := htxn
  refine ⟨page, hdirty, hseries, hfresh, Table.visible_of_dirty hdirty, hcurrent,
    fun k hk => ?_, fun hnone => ?_, fun j hj hjcurrent => ?_⟩
  · subst hk
    -- The page that was current is retired, and the new version comes after it.
    obtain ⟨-, old, hrow, hold_series, hold_current⟩ := hholding.locked k rfl
    obtain ⟨old', now, hrow', hretired⟩ := hholding.retired k rfl
    obtain ⟨old'', hrow'', hversion⟩ := hnext
    obtain rfl := Option.some.inj (hrow.symm.trans hrow')
    obtain rfl := Option.some.inj (hrow.symm.trans hrow'')
    exact ⟨old, now, hrow, hold_series.trans hseries.symm, hold_current, hversion,
      Table.visible_of_dirty hretired⟩
  · subst hnone
    -- Without one, the series is empty and the new page is the first.
    have hempty := h.first t txn id ht hphase
    rw [hseries]
    refine ⟨?_, hempty⟩
    by_contra hversion
    obtain ⟨k, old, hrow, hold⟩ := hnext hversion
    exact hempty k old hrow hold
  · exact Table.visible_of_clean
      (hholding.rest j hjcurrent fun hjid => hj (Option.some.inj hjid).symm)

theorem Inv.commit (h : Inv s) (ht : s.txns t = some txn) {id : Uuid}
    (hphase : txn.phase = .done current id) : Inv (s.ends t (s.table.commit t)) := by
  obtain ⟨page, hdirty, hseries, hpublication⟩ := h.publication ht hphase
  constructor
  case idle => exact Table.Idle.commit h.idle
  case versions => exact h.versions.commit t
  case currents => exact h.currents.commit t
  case consecutive =>
    intro series
    obtain ⟨n, hn⟩ := h.consecutive series
    by_cases hne : series = page.series
    · subst hne
      exact ⟨n + 1, hpublication.consecutive hn⟩
    · exact ⟨n, hpublication.consecutive_of_ne hne hn⟩
  case txn =>
    exact Machine.each_ends h.txn fun u _ hne hu =>
      hu.of_same (Table.commit_sameFor hne) hpublication.persist
  case first =>
    intro u txn' id' hu hphase' k new hrow
    obtain ⟨hne, hu⟩ := Machine.old_of_update hu nofun
    have hfirst := h.first u txn' id' hu hphase'
    rcases hpublication.cases hrow with ⟨-, rfl⟩ | ⟨-, old, hold, hsame, -⟩
    · -- two uncommitted current pages of one series
      intro heq
      obtain ⟨page', hdirty', hseries', hpublication'⟩ := h.publication hu hphase'
      have hunder : ∀ {v : Nat} {j : Uuid} {p : LegalPage},
          s.table.dirty v j = some (some p) → p.isCurrent = true → p.series = txn'.series →
            Table.Under currentKey txn'.series (s.table.pending j).join := by
        intro v j p hd hcurrent hp
        refine Table.under_pending.2 ⟨v, p, hd, ?_⟩
        rw [currentKey, if_pos hcurrent, hp]
      have hid := h.currents.pending (hunder hdirty hpublication.isCurrent heq)
        (hunder hdirty' hpublication'.isCurrent hseries')
      subst hid
      exact hne (Table.dirty_unique hdirty' hdirty)
    · rw [hsame.series]
      exact hfirst k old hold

theorem Inv.rollback (h : Inv s) (t : Nat) : Inv (s.ends t (s.table.rollback t)) where
  idle := Table.Idle.rollback h.idle
  versions := h.versions.rollback t
  currents := h.currents.rollback t
  consecutive := h.consecutive
  txn := Machine.each_ends h.txn fun _ _ hne hu =>
    hu.of_same (Table.rollback_sameFor hne) (Persist.refl _)
  first u txn' id hu hphase := by
    obtain ⟨-, hu⟩ := Machine.old_of_update hu nofun
    exact h.first u txn' id hu hphase

end Transactions

/-! ### Runs -/

/-- One step keeps the invariant. -/
theorem inv_step {s s' : State} {l : Label} (h : Inv s) (hst : step s l = some s') : Inv s' := by
  cases stepped_of_step hst with
  | select ht => exact h.select ht
  | lock ht hphase hst => exact h.lock ht hphase hst
  | flip ht hphase hst => exact h.flip ht hphase hst
  | count ht hphase => exact h.count ht hphase
  | insert ht hphase hst => exact h.insert ht hphase hst
  | commit ht hphase => exact h.commit ht hphase
  | rollback => exact h.rollback _

theorem inv_inductive : machine.Inductive (fun _ _ => True) Inv where
  init s hs := by
    cases hs
    exact .empty
  step s l t h _ hst := inv_step h hst

/-- In every reachable state. -/
theorem inv {s : State} (h : machine.Reachable s) : Inv s := inv_inductive.always h

theorem rows_of_flip {s s' : State} {t : Nat} {txn : Txn} {now : DateTime} :
    ∀ {found : List Uuid}, s.flip t txn now found = some s' → s'.table.rows = s.table.rows
  | [], hst => by
    cases hst
    rfl
  | [k], hst => by
    obtain ⟨page, -, hst⟩ := Option.bind_eq_some_iff.1 hst
    obtain ⟨-, hst⟩ := Option.ite_none_right_eq_some.1 hst
    obtain ⟨table, hwrite, rfl⟩ := Option.map_eq_some_iff.1 hst
    exact (Table.wrote_of_write hwrite).rows

/-- Only a commit changes the committed pages. -/
theorem persist_step {s s' : State} {l : Label} (h : Inv s) (hst : step s l = some s') :
    Persist s.table.rows s'.table.rows := by
  have hsame : ∀ {rows}, rows = s.table.rows → Persist s.table.rows rows := by
    rintro rows rfl
    exact Persist.refl _
  cases stepped_of_step hst with
  | select _ => exact hsame rfl
  | lock _ _ hst =>
    obtain ⟨table, hacquire, rfl⟩ := Option.map_eq_some_iff.1 hst
    obtain ⟨-, rfl⟩ := Table.acquire_eq_some.1 hacquire
    exact hsame rfl
  | flip _ _ hst => exact hsame (rows_of_flip hst)
  | count _ _ => exact hsame rfl
  | insert _ _ hst =>
    obtain ⟨-, hst⟩ := Option.ite_none_right_eq_some.1 hst
    obtain ⟨table, hinsert, rfl⟩ := Option.map_eq_some_iff.1 hst
    exact hsame (Table.wrote_of_insert hinsert).rows
  | commit ht hphase =>
    obtain ⟨page, -, -, hpublication⟩ := h.publication ht hphase
    exact hpublication.persist
  | rollback => exact hsame rfl

/-- No page is lost, from any state to any later one. -/
theorem persist_run {s s' : State} (h : machine.Reachable s)
    (hrun : (machine.startingAt s).Reachable s') : Persist s.table.rows s'.table.rows := by
  induction hrun with
  | init hs =>
    cases hs
    exact Persist.refl _
  | step hr _ hst ih => exact ih.trans (persist_step (inv (h.of_startingAt hr)) hst)

/-- **Legal pages are numbered without gaps** and never rewritten: in every state reached by
concurrent requests each series has the versions `1 … n`, its current page is version `n`, and
every page stays as it is but for `is_current` and its update timestamp. -/
theorem legal_versions {s : State} (h : machine.Reachable s) (series : Series) :
    (∃ n, Consecutive s.table.rows series n) ∧
      ∀ s', (machine.startingAt s).Reachable s' → Persist s.table.rows s'.table.rows :=
  ⟨(inv h).consecutive series, fun _ hrun => persist_run h hrun⟩

/-- Two requests that find no current page: the second insert waits for the first commit, fails,
and is tried again. -/
def firstPages : List Label :=
  [.select 1 7 ⟨.terms, [("en", "one")], none⟩, .select 2 7 ⟨.terms, [("en", "two")], some 3⟩,
    .flip 1 5, .flip 2 5, .count 1, .count 2, .insert 1 10 5 5, .commit 1, .rollback 2,
    .select 2 7 ⟨.terms, [("en", "two")], some 3⟩, .lock 2, .flip 2 9, .count 2, .insert 2 11 9 9,
    .commit 2]

/-- Both pages are there, and the second is current. -/
theorem legal_versions_first :
    ∃ s, machine.Reachable s ∧
      (s.table.rows 10).any (fun page => page.version = 1 && !page.isCurrent) = true ∧
      (s.table.rows 11).any (fun page => page.version = 2 && page.isCurrent) = true ∧
      (∃ n, Consecutive s.table.rows (7, .terms) n) ∧
      ∀ s', (machine.startingAt s).Reachable s' → Persist s.table.rows s'.table.rows := by
  obtain ⟨s, hs, hp⟩ := Machine.exists_reachable_of_run (M := machine) firstPages
    (fun s => (s.table.rows 10).any (fun page => page.version = 1 && !page.isCurrent) &&
      (s.table.rows 11).any (fun page => page.version = 2 && page.isCurrent)) rfl
    (by decide)
  obtain ⟨h10, h11⟩ := Bool.and_eq_true_iff.1 hp
  exact ⟨s, hs, h10, h11, legal_versions hs (7, .terms)⟩

end Legal

end Content

end RealEstate
