import RealEstate.Core.Isolation

/-!
# What a tenant cannot see

Policies do not guard the keys and the references: PostgreSQL checks these on all rows. So a tenant
is cut off from the others as far as its keys and references are.

- `Fenced`: no reference crosses the border of a tenant.
- `filter_applyAll_own`, `enforce_filter`: then its own writes do the same, and are refused for the
  same, without the rows of the others.
- `Label.apart`: a run that keeps to the border; `Fences`: what such a run keeps.
- `Alone`: the whole, and what it is to one tenant.
- `tenants_alone`: what a tenant is answered and what it stores is what it would be without the
  others.
-/

namespace RealEstate

namespace Core

namespace RowSecurity

open Systems

variable {A : Type} {S : Schema A}

/-! ### Borders -/

section Borders

variable {born born' : UUID → Option (Option UUID)} {rows : List (Row A)} {ids : List UUID}
  {x : Option UUID} {u : UUID} {w : Write A} {writes : List (Write A)} {row : Row A}

/-- What a row refers to is on the same side of a tenant's border. -/
def Schema.fenced (S : Schema A) (born : UUID → Option (Option UUID)) (x : Option UUID)
    (row : Row A) : Bool :=
  (S.references row).all fun r => (born r.target).any fun y =>
    decide (row.tenantId = x) == decide (y = x)

/-- No row refers across the border. -/
def Fenced (S : Schema A) (born : UUID → Option (Option UUID)) (x : Option UUID)
    (rows : List (Row A)) : Prop :=
  ∀ row ∈ rows, S.fenced born x row = true

/-- No row that is written does, and the write takes none of the tenant's rows at once. -/
def Write.fenced (S : Schema A) (born : UUID → Option (Option UUID)) (u : UUID) : Write A → Bool
  | .insert row | .update row => S.fenced born (some u) row
  | .delete _ => true
  | .purge tenantId => tenantId ≠ u
  | .drop _ => false

/-- A key of the tenant is no other tenant's. -/
def Write.ownKey (S : Schema A) (u : UUID) (after : List (Row A)) (w : Write A) : Bool :=
  w.written.all fun row => row.tenantId ≠ some u ||
    after.all fun other => !S.clash row other || other.tenantId = some u

/-- A target is on the side of its row. -/
theorem target_of_fenced (h : S.fenced born x row = true) {r : Reference}
    (hr : r ∈ S.references row) : ∃ y, born r.target = some y ∧ (row.tenantId = x ↔ y = x) := by
  obtain ⟨y, hy, hside⟩ := (Option.any_eq_true _ _).1 (List.all_eq_true.1 h r hr)
  exact ⟨y, hy, decide_eq_decide.1 (beq_iff_eq.1 hside)⟩

/-- More ids do not move the border. -/
theorem fenced_mono (h : S.fenced born x row = true)
    (hborn : ∀ i y, born i = some y → born' i = some y) : S.fenced born' x row = true := by
  refine List.all_eq_true.2 fun r hr => ?_
  obtain ⟨y, hy, hside⟩ := (Option.any_eq_true _ _).1 (List.all_eq_true.1 h r hr)
  exact (Option.any_eq_true _ _).2 ⟨y, hborn _ _ hy, hside⟩

theorem Write.fenced_mono (h : w.fenced S born u = true)
    (hborn : ∀ i y, born i = some y → born' i = some y) : w.fenced S born' u = true := by
  cases w with
  | insert row | update row => exact RowSecurity.fenced_mono h hborn
  | delete row | purge tenantId | drop month => exact h

/-- Then the tenant refers to no other's rows. -/
theorem Fenced.local (h : Fenced S born x rows) : Local S born x rows := by
  intro row hrow htenant r hr y hy
  obtain ⟨z, hz, hside⟩ := target_of_fenced (h row hrow) hr
  exact (Option.some.inj (hy.symm.trans hz)).trans (hside.1 htenant)

/-- A fenced write leaves the rows fenced. -/
theorem Fenced.apply (h : Fenced S born (some u) rows) (hw : w.fenced S born u = true) :
    Fenced S born (some u) (w.apply S rows) := by
  have hremove : ∀ ids, Fenced S born (some u) (S.remove ids rows) := by
    intro ids row hrow
    obtain ⟨old, hold, -, rfl⟩ := mem_remove.1 hrow
    exact List.all_eq_true.2 fun r hr =>
      List.all_eq_true.1 (h old hold) r (S.setNull_references _ old hr)
  intro row hrow
  cases w with
  | insert new =>
    rcases List.mem_append.1 hrow with hold | hnew
    · exact h row hold
    · rw [List.mem_singleton.1 hnew]
      exact hw
  | update new =>
    obtain ⟨old, hold, rfl⟩ := List.mem_map.1 hrow
    split
    · exact hw
    · exact h old hold
  | delete old => exact hremove _ row hrow
  | purge tenantId => exact hremove _ row hrow
  | drop month => cases hw

theorem Fenced.applyAll : ∀ {rows : List (Row A)}, Fenced S born (some u) rows →
    (∀ w ∈ writes, w.fenced S born u = true) →
    Fenced S born (some u) (applyAll S writes rows) := by
  induction writes with
  | nil => exact fun h _ => h
  | cons w writes ih =>
    intro rows h hw
    exact ih (h.apply (hw w List.mem_cons_self)) fun v hv => hw v (List.mem_cons_of_mem _ hv)

/-! ### A tenant's own writes -/

/-- What refers to a tenant's rows is the tenant's. -/
theorem tenantId_of_refersTo (h : S.fenced born x row = true) {onDelete : OnDelete}
    (hids : ∀ i ∈ ids, born i = some x) (hrefers : S.refersTo onDelete ids row = true) :
    row.tenantId = x := by
  obtain ⟨r, hr, htarget⟩ := List.any_eq_true.1 hrefers
  obtain ⟨y, hy, hside⟩ := target_of_fenced h hr
  have hown := hids _ (of_decide_eq_true (Bool.and_eq_true_iff.1 htarget).2)
  exact hside.2 (Option.some.inj (hy.symm.trans hown))

/-- A cascade from a tenant's rows finds the same rows without the others'. -/
theorem doomed_of_fenced (hrows : Registered born rows) (h : Fenced S born x rows) :
    ∀ {k : Nat} {ids : List UUID}, (∀ i ∈ ids, born i = some x) →
      S.doomed (rows.filter (·.tenantId = x)) k ids = S.doomed rows k ids ∧
        ∀ i ∈ S.doomed rows k ids, born i = some x
  | 0, _, hids => ⟨rfl, hids⟩
  | k + 1, ids, hids => by
    -- The rows that refer to the tenant's ids are the tenant's own, behind the fence.
    have hfilter : (rows.filter (·.tenantId = x)).filter (S.refersTo .cascade ids) =
        rows.filter (S.refersTo .cascade ids) := by
      rw [List.filter_filter]
      refine List.filter_congr fun row hrow => ?_
      cases hrefers : S.refersTo .cascade ids row with
      | false => rfl
      | true =>
        rw [Bool.true_and]
        exact decide_eq_true (tenantId_of_refersTo (h row hrow) hids hrefers)
    -- So the next round of the cascade starts from the tenant's ids again.
    have hmore : ∀ i ∈ ids ++ (rows.filter (S.refersTo .cascade ids)).map (·.id),
        born i = some x := by
      intro i hi
      rcases List.mem_append.1 hi with hold | hnew
      · exact hids i hold
      · obtain ⟨row, hrow, rfl⟩ := List.mem_map.1 hnew
        obtain ⟨hmem, hrefers⟩ := List.mem_filter.1 hrow
        rw [hrows row hmem, tenantId_of_refersTo (h row hmem) hids hrefers]
    rw [Schema.doomed, Schema.doomed, hfilter]
    exact doomed_of_fenced hrows h hmore

/-- A tenant's deletion is the same deletion without the others' rows. -/
theorem remove_filter_of_fenced (hrows : Registered born rows) (h : Fenced S born x rows)
    (hids : ∀ i ∈ ids, born i = some x) :
    (S.remove ids rows).filter (·.tenantId = x) = S.remove ids (rows.filter (·.tenantId = x)) := by
  rw [Schema.remove, Schema.remove, (doomed_of_fenced hrows h hids).1, List.filter_map,
    List.filter_filter, List.filter_filter]
  refine congrArg _ (List.filter_congr fun row _ => ?_)
  exact Bool.and_comm _ _

/-- So is any write of the tenant. -/
theorem filter_apply_own (hrows : Registered born rows) (h : Fenced S born (some u) rows)
    (hw : w.OwnedBy born (some u)) :
    (w.apply S rows).filter (·.tenantId = some u) =
      w.apply S (rows.filter (·.tenantId = some u)) := by
  cases w with
  | insert new =>
    rw [Write.apply, Write.apply, List.filter_append]
    refine congrArg _ (List.filter_cons_of_pos ?_)
    exact decide_eq_true hw.1
  | update new => exact filter_update_rows hrows hw
  | delete old =>
    refine remove_filter_of_fenced hrows h fun i hi => ?_
    rw [List.mem_singleton.1 hi]
    exact hw.2
  | purge tenantId | drop month => cases hw

/-- What a tenant writes does to its rows the same without the others'. -/
theorem filter_applyAll_own : ∀ {rows : List (Row A)}, Registered born rows →
    Fenced S born (some u) rows → Owned born (some u) writes →
    (∀ w ∈ writes, w.fenced S born u = true) →
    (applyAll S writes rows).filter (·.tenantId = some u) =
      applyAll S writes (rows.filter (·.tenantId = some u)) := by
  induction writes with
  | nil => exact fun _ _ _ _ => rfl
  | cons w writes ih =>
    intro rows hrows h hown hw
    have hfirst := hown w List.mem_cons_self
    have hstep := ih (hrows.apply hfirst) (h.apply (hw w List.mem_cons_self))
      (fun v hv => hown v (List.mem_cons_of_mem _ hv)) fun v hv => hw v (List.mem_cons_of_mem _ hv)
    refine hstep.trans ?_
    rw [filter_apply_own hrows h hfirst]
    rfl

/-- A search that finds rows of one kind only. -/
theorem any_filter_of_imp {p q : Row A → Bool} (h : ∀ row ∈ rows, q row = true → p row = true) :
    (rows.filter p).any q = rows.any q := by
  rw [Bool.eq_iff_iff, List.any_eq_true, List.any_eq_true]
  constructor
  · rintro ⟨row, hrow, hq⟩
    exact ⟨row, (List.mem_filter.1 hrow).1, hq⟩
  · rintro ⟨row, hrow, hq⟩
    exact ⟨row, List.mem_filter.2 ⟨hrow, h row hrow hq⟩, hq⟩

/-- A check that fails on rows of one kind only. -/
theorem all_filter_of_imp {p q : Row A → Bool} (h : ∀ row ∈ rows, q row = false → p row = true) :
    (rows.filter p).all q = rows.all q := by
  rw [List.all_eq_not_any_not, List.all_eq_not_any_not, any_filter_of_imp]
  exact fun row hrow hq => h row hrow (by simpa using hq)

theorem all_congr_mem {α : Type} {l : List α} {p q : α → Bool} (h : ∀ a ∈ l, p a = q a) :
    l.all p = l.all q := by
  rw [Bool.eq_iff_iff, List.all_eq_true, List.all_eq_true]
  exact forall₂_congr fun a ha => by rw [h a ha]

/-- The constraints say the same of a tenant's writes without the others' rows, if these have none
of its keys. -/
theorem enforce_filter (hrows : Registered born rows) (h : Fenced S born (some u) rows)
    (hown : Owned born (some u) writes) (hw : ∀ w ∈ writes, w.fenced S born u = true)
    (hkeys : ∀ w ∈ writes, w.ownKey S u (applyAll S writes rows) = true) :
    S.enforce (rows.filter (·.tenantId = some u)) writes = S.enforce rows writes := by
  -- What is written lies behind the fence and clashes with the tenant's own rows alone.
  have hwritten : ∀ {row}, row ∈ writes.filterMap Write.written → row.tenantId = some u ∧
      S.fenced born (some u) row = true ∧
      ∀ other ∈ applyAll S writes rows, S.clash row other = true → other.tenantId = some u := by
    intro row hrow
    obtain ⟨w, hmem, hrow⟩ := List.mem_filterMap.1 hrow
    have hmine := hown w hmem
    have hin := hw w hmem
    have hkey := hkeys w hmem
    rw [Write.ownKey, hrow, Option.all_some] at hkey
    have htenant : row.tenantId = some u := by
      cases w with
      | insert new | update new =>
        cases hrow
        exact hmine.1
      | delete old | purge tenantId | drop month => cases hrow
    refine ⟨htenant, ?_, fun other hother hclash => ?_⟩
    · cases w with
      | insert new | update new =>
        cases hrow
        exact hin
      | delete old | purge tenantId | drop month => cases hrow
    · rcases Bool.or_eq_true_iff.1 hkey with hnot | hall
      · exact absurd htenant (of_decide_eq_true hnot)
      · have hside := List.all_eq_true.1 hall other hother
        rw [hclash] at hside
        exact of_decide_eq_true hside
  have hafter : Registered born (applyAll S writes rows) := hrows.applyAll hown
  have hdeleted : ∀ i ∈ writes.filterMap Write.deleted, born i = some (some u) := by
    intro i hi
    obtain ⟨w, hmem, hi⟩ := List.mem_filterMap.1 hi
    have hmine := hown w hmem
    cases w with
    | delete old =>
      cases hi
      exact hmine.2
    | insert new | update new | purge tenantId | drop month => cases hi
  -- The unique indexes: a row that clashes is one of the tenant's, so none is missed.
  have hunique : ∀ row ∈ writes.filterMap Write.written,
      S.unique ((applyAll S writes rows).filter (·.tenantId = some u)) row =
        S.unique (applyAll S writes rows) row := by
    intro row hrow
    refine all_filter_of_imp fun other hother hclash => decide_eq_true ?_
    obtain ⟨-, hclash⟩ := Bool.or_eq_false_iff.1 hclash
    exact (hwritten hrow).2.2 other hother (by simpa using hclash)
  have hrefers : ∀ row ∈ writes.filterMap Write.written,
      S.refers ((applyAll S writes rows).filter (·.tenantId = some u)) row =
        S.refers (applyAll S writes rows) row := by
    intro row hrow
    obtain ⟨htenant, hfenced, -⟩ := hwritten hrow
    refine all_congr_mem fun r hr => any_filter_of_imp fun other hother hid => decide_eq_true ?_
    obtain ⟨y, hy, hside⟩ := target_of_fenced hfenced hr
    rw [← of_decide_eq_true hid, hafter other hother] at hy
    exact (Option.some.inj hy).trans (hside.1 htenant)
  -- The restricting references: what holds a deleted row back is the tenant's.
  have hrestricted : S.restricted (rows.filter (·.tenantId = some u))
      (writes.filterMap Write.deleted) = S.restricted rows (writes.filterMap Write.deleted) := by
    obtain ⟨hsame, hgone⟩ := doomed_of_fenced hrows h (k := S.depth) hdeleted
    rw [Schema.restricted, Schema.restricted, hsame]
    refine any_filter_of_imp fun row hrow hstays => decide_eq_true ?_
    exact tenantId_of_refersTo (h row hrow) hgone (Bool.and_eq_true_iff.1 hstays).2
  rw [Schema.enforce, Schema.enforce, ← filter_applyAll_own hrows h hown hw,
    all_congr_mem hunique, all_congr_mem hrefers, hrestricted]

end Borders

/-! ### Runs that keep to the border -/

/-- The guard of a run: what a statement writes refers to nothing across the tenant's border, uses
no key that is the tenant's and another's, and is neither the end of the tenant nor of old events
of all tenants. -/
def Label.apart (S : Schema A) (u : UUID) (s : State A) : Label A → Bool
  | .run t statement => (s.transactions t).all fun tx =>
    (attempt (s.setting tx) (tx.view S s.rows) statement).toOption.all fun result =>
      result.1.all fun w => w.fenced S (statement.born s.born) u &&
        w.ownKey S u (applyAll S result.1 (tx.view S s.rows))
  | .begin _ _ _ | .scope _ _ | .commit _ | .rollback _ => true

/-- No row, and none that is about to be, refers across the tenant's border. -/
structure Fences (S : Schema A) (u : UUID) (s : State A) : Prop where
  rows : Fenced S s.born (some u) s.rows
  pending : ∀ t tx, s.transactions t = some tx → ∀ w ∈ tx.pending, w.fenced S s.born u = true

section Fences

variable {s s' : State A} {t : Nat} {tx : Transaction A} {u : UUID}

/-- What the guard says of a statement's writes. -/
theorem Label.apart_run {statement : Statement A} {writes : List (Write A)} {rows : List (Row A)}
    (hapart : (Label.run t statement).apart S u s = true) (ht : s.transactions t = some tx)
    (hattempt : attempt (s.setting tx) (tx.view S s.rows) statement = .ok (writes, rows)) :
    ∀ w ∈ writes, w.fenced S (statement.born s.born) u = true ∧
      w.ownKey S u (applyAll S writes (tx.view S s.rows)) = true := by
  rw [Label.apart, ht, Option.all_some, hattempt] at hapart
  exact fun w hw => Bool.and_eq_true_iff.1 (List.all_eq_true.1 hapart w hw)

theorem Fences.start : Fences S u .start where
  rows _ hrow := absurd hrow List.not_mem_nil
  pending _ _ ht := by cases ht

/-- What a transaction sees is fenced. -/
theorem Fences.view (h : Fences S u s) (ht : s.transactions t = some tx) :
    Fenced S s.born (some u) (tx.view S s.rows) :=
  h.rows.applyAll (h.pending t tx ht)

/-- In such a run the platform takes none of the tenant's rows. -/
theorem Fences.not_removes (h : Fences S u s) (l : Label A) : l.removes s (some u) = false := by
  refine Bool.eq_false_of_not_eq_true fun hremoves => ?_
  cases l with
  | commit t =>
    obtain ⟨tx, ht, hany⟩ := (Option.any_eq_true _ _).1 hremoves
    obtain ⟨w, hmem, hw⟩ := List.any_eq_true.1 hany
    have hfenced := h.pending t tx ht w hmem
    cases w with
    | purge tenantId =>
      exact of_decide_eq_true hfenced (Option.some.inj (of_decide_eq_true hw)).symm
    | drop month => cases hfenced
    | insert | update | delete => cases hw
  | begin | scope | run | rollback => cases hremoves

/-- A transaction goes on, and its writes keep to the border. -/
theorem Fences.update (h : Fences S u s) {tx' : Transaction A}
    {born : UUID → Option (Option UUID)} (hborn : ∀ i x, s.born i = some x → born i = some x)
    (hpending : ∀ w ∈ tx'.pending, w.fenced S born u = true) :
    Fences S u { s with born, transactions := Function.update s.transactions t (some tx') } := by
  refine ⟨fun row hrow => fenced_mono (h.rows row hrow) hborn, fun n tx₁ hn w hw => ?_⟩
  rcases Machine.update_cases hn with ⟨-, hnew⟩ | ⟨-, hold⟩
  · cases hnew
    exact hpending w hw
  · exact Write.fenced_mono (h.pending n tx₁ hold w hw) hborn

/-- A statement that keeps to the border. -/
theorem Fences.run (h : Fences S u s) {statement : Statement A}
    (hapart : (Label.run t statement).apart S u s = true)
    (hst : s.step S (.run t statement) = some s') : Fences S u s' := by
  obtain ⟨tx, ht, rfl⟩ := Option.map_eq_some_iff.1 hst
  obtain ⟨ht, hallowed⟩ := Option.filter_eq_some_iff.1 ht
  have hborn := born_mono (Bool.and_eq_true_iff.1 hallowed).2
  have hold : ∀ w ∈ tx.pending, w.fenced S (statement.born s.born) u = true := fun w hw =>
    Write.fenced_mono (h.pending t tx ht w hw) hborn
  refine h.update hborn ?_
  cases hex : execute S (s.setting tx) (tx.view S s.rows) statement with
  | error e => exact hold
  | ok result =>
    obtain ⟨writes, rows⟩ := result
    intro w hw
    rcases List.mem_append.1 hw with hpending | hnew
    · exact hold w hpending
    · exact (Label.apart_run hapart ht (execute_eq_ok hex).1 w hnew).1

theorem Fences.finish (h : Fences S u s) {rows : List (Row A)}
    (hrows : Fenced S s.born (some u) rows) : Fences S u { s.finish t tx with rows } :=
  ⟨hrows, fun n tx₁ hn => h.pending n tx₁
    (Machine.old_of_update hn (Option.some_ne_none tx₁).symm).2⟩

/-- One step keeps the fences. -/
theorem Fences.step (h : Fences S u s) {l : Label A} (hapart : l.apart S u s = true)
    (hst : s.step S l = some s') : Fences S u s' := by
  cases l with
  | begin t connection tenant =>
    obtain ⟨-, hst⟩ := Option.ite_none_left_eq_some.1 hst
    cases hst
    refine ⟨h.rows, fun n tx hn => ?_⟩
    rcases Machine.update_cases hn with ⟨-, hnew⟩ | ⟨-, hold⟩
    · cases hnew
      exact fun w hw => absurd hw List.not_mem_nil
    · exact h.pending n tx hold
  | scope t tenantId =>
    obtain ⟨tx, ht, rfl⟩ := Option.map_eq_some_iff.1 hst
    exact h.update (fun i x hi => hi) (h.pending t tx (Option.filter_eq_some_iff.1 ht).1)
  | run t statement => exact h.run hapart hst
  | commit t =>
    obtain ⟨tx, ht, rfl⟩ := Option.map_eq_some_iff.1 hst
    refine h.finish ?_
    split
    · exact h.rows
    · exact h.view ht
  | rollback t =>
    obtain ⟨tx, ht, rfl⟩ := Option.map_eq_some_iff.1 hst
    exact h.finish h.rows

end Fences

/-! ### Noninterference -/

/-- `s₁` is `s` to one tenant: its rows, its transactions and what they were answered. What the
others left on the connections, and which of these they hold, may differ. -/
structure Alone (tenantId : UUID) (s s₁ : State A) : Prop where
  rows : s₁.rows = s.rows.filter (·.tenantId = some tenantId)
  transactions : ∀ t, s₁.transactions t =
    (s.transactions t).filter (·.tenant = some tenantId)
  busy : ∀ c, s₁.busy c = true → ∃ t tx, s₁.transactions t = some tx ∧ tx.connection = c
  born : ∀ i x, s₁.born i = some x → s.born i = some x
  log : s₁.log = s.log.filter (·.1 = some tenantId)

section Alone

variable {s s' s₁ : State A} {t : Nat} {tx : Transaction A} {u : UUID}

/-- A transaction of the tenant is the same in both. -/
theorem Alone.mine (h : Alone u s s₁) (ht : s.transactions t = some tx)
    (htenant : tx.tenant = some u) : s₁.transactions t = some tx := by
  rw [h.transactions, ht]
  exact Option.filter_some_pos (decide_eq_true htenant)

/-- A free connection is free to the tenant alone. -/
theorem Alone.idle (h : Alone u s s₁) (hinv : Inv s) {c : Nat} (hc : s.busy c = false) :
    s₁.busy c = false := by
  by_contra hbusy
  obtain ⟨t, tx, ht, hconnection⟩ := h.busy c (Bool.eq_true_of_not_eq_false hbusy)
  rw [h.transactions] at ht
  have hold := hinv.busy t tx (Option.filter_eq_some_iff.1 ht).1
  rw [hconnection, hc] at hold
  cases hold

/-- An id that is new to all is new to the tenant. -/
theorem Alone.fresh (h : Alone u s s₁) {statement : Statement A}
    (hfresh : statement.fresh s.born = true) : statement.fresh s₁.born = true := by
  cases statement with
  | insert row =>
    have hnone : s.born row.id = none := Option.isNone_iff_eq_none.1 hfresh
    cases hborn : s₁.born row.id with
    | none => exact Option.isNone_iff_eq_none.2 hborn
    | some x => cases hnone.symm.trans (h.born row.id x hborn)
  | select | update | delete | purgeTenant | dropPartition => rfl

/-- A transaction of the tenant reads the tenant from its connection. -/
theorem Alone.setting (h : Inv s) (ht : s.transactions t = some tx)
    (htenant : tx.tenant = some u) (s₀ : State A) : s₀.setting tx = some (uuidText u) := by
  have hscope : tx.scope = some u := by
    rcases (h.transactions t tx ht).scope with heq | hnone
    · exact heq.trans htenant
    · cases hnone.symm.trans htenant
  rw [State.setting, hscope]
  rfl

/-- The tenant's transaction sees alone what it sees among the others. -/
theorem Alone.view (h : Alone u s s₁) (hinv : Inv s) (hfences : Fences S u s)
    (ht : s.transactions t = some tx) (htenant : tx.tenant = some u) :
    tx.view S s₁.rows = (tx.view S s.rows).filter (·.tenantId = some u) := by
  have howned : Owned s.born (some u) tx.pending := htenant ▸ (hinv.transactions t tx ht).pending
  rw [h.rows]
  exact (filter_applyAll_own hinv.rows hfences.rows howned (hfences.pending t tx ht)).symm

/-- A transaction of the tenant goes on in both. -/
theorem Alone.update (h : Alone u s s₁) {tx' : Transaction A}
    {born born₁ : UUID → Option (Option UUID)} (ht₁ : s₁.transactions t = some tx)
    (hconnection : tx'.connection = tx.connection)
    (htenant : tx'.tenant = some u) (hborn : ∀ i x, born₁ i = some x → born i = some x) :
    Alone u { s with born, transactions := Function.update s.transactions t (some tx') }
      { s₁ with born := born₁, transactions := Function.update s₁.transactions t (some tx') } := by
  refine ⟨h.rows, fun n => ?_, fun c hc => ?_, hborn, h.log⟩
  · dsimp only
    by_cases hn : n = t
    · subst hn
      rw [Function.update_self, Function.update_self, Option.filter_some, if_pos]
      exact decide_eq_true htenant
    · rw [Function.update_of_ne hn, Function.update_of_ne hn]
      exact h.transactions n
  · obtain ⟨n, tx₀, hn, hc⟩ := h.busy c hc
    by_cases hnt : n = t
    · subst hnt
      cases ht₁.symm.trans hn
      exact ⟨n, tx', Function.update_self .., hconnection.trans hc⟩
    · exact ⟨n, tx₀, (Function.update_of_ne hnt ..).trans hn, hc⟩

/-- A transaction of the tenant ends in both. -/
theorem Alone.finish (h : Alone u s s₁) (ht₁ : s₁.transactions t = some tx)
    (htenant : tx.tenant = some u) {rows rows₁ : List (Row A)}
    (hrows : rows₁ = rows.filter (·.tenantId = some u)) :
    Alone u { s.finish t tx with rows } { s₁.finish t tx with rows := rows₁ } := by
  refine ⟨hrows, fun n => ?_, fun c hc => ?_, h.born, ?_⟩
  · dsimp only [State.finish]
    by_cases hn : n = t
    · subst hn
      rw [Function.update_self, Function.update_self]
      rfl
    · rw [Function.update_of_ne hn, Function.update_of_ne hn]
      exact h.transactions n
  · obtain ⟨hne, hc⟩ := Machine.old_of_update hc Bool.false_ne_true
    obtain ⟨n, tx₀, hn, hconnection⟩ := h.busy c hc
    have hnt : n ≠ t := by
      rintro rfl
      cases ht₁.symm.trans hn
      exact hne hconnection.symm
    exact ⟨n, tx₀, (Function.update_of_ne hnt ..).trans hn, hconnection⟩
  · dsimp only [State.finish]
    rw [List.filter_cons, if_pos, h.log]
    exact decide_eq_true htenant

/-- What another transaction does to itself is nothing to the tenant. -/
theorem Alone.ignore (h : Alone u s s₁) {transactions : Nat → Option (Transaction A)}
    {born : UUID → Option (Option UUID)} {log : List _} {rows : List (Row A)}
    {settings : Nat → Option Text} {busy : Nat → Bool}
    (hrows : rows.filter (·.tenantId = some u) = s.rows.filter (·.tenantId = some u))
    (htransactions : ∀ n, (transactions n).filter (·.tenant = some u) =
      (s.transactions n).filter (·.tenant = some u))
    (hborn : ∀ i x, s.born i = some x → born i = some x)
    (hlog : log.filter (·.1 = some u) = s.log.filter (·.1 = some u)) :
    Alone u ⟨rows, born, settings, busy, transactions, log⟩ s₁ :=
  ⟨h.rows.trans hrows.symm, fun n => (h.transactions n).trans (htransactions n).symm, h.busy,
    fun i x hi => hborn i x (h.born i x hi), h.log.trans hlog.symm⟩

/-- A statement of the tenant is answered alone what it is answered among the others. -/
theorem Alone.answer (h : Alone u s s₁) (hinv : Inv s) (hfences : Fences S u s)
    {statement : Statement A} (ht : s.transactions t = some tx) (htenant : tx.tenant = some u)
    (hallows : tx.allows statement = true) (hfresh : statement.fresh s.born = true)
    (hapart : (Label.run t statement).apart S u s = true) :
    execute S (s₁.setting tx) (tx.view S s₁.rows) statement =
      execute S (s.setting tx) (tx.view S s.rows) statement := by
  -- Both runs execute under the same setting and see the same rows.
  have hsetting : ∀ s₀ : State A, s₀.setting tx = some (uuidText u) := Alone.setting hinv ht htenant
  have hattempt : attempt (s₁.setting tx) (tx.view S s₁.rows) statement =
      attempt (s.setting tx) (tx.view S s.rows) statement := by
    rw [hsetting, hsetting, h.view hinv hfences ht htenant, attempt_filter]
  rw [execute, execute, hattempt]
  cases hresult : attempt (s.setting tx) (tx.view S s.rows) statement with
  | error e => rfl
  | ok result =>
    obtain ⟨writes, rows⟩ := result
    have hborn := born_mono hfresh
    have howned : Owned (statement.born s.born) (some u) writes :=
      htenant ▸ hinv.owned ht hallows hfresh hresult
    have hguard := Label.apart_run hapart ht hresult
    -- So the checks of the store answer the same in both runs.
    have hview : Fenced S (statement.born s.born) (some u) (tx.view S s.rows) := fun row hrow =>
      fenced_mono (hfences.view ht row hrow) hborn
    have henforce := enforce_filter ((hinv.view ht).mono hborn) hview howned
      (fun w hw => (hguard w hw).1) fun w hw => (hguard w hw).2
    rw [← h.view hinv hfences ht htenant] at henforce
    show (S.enforce (tx.view S s₁.rows) writes >>= fun _ => Except.ok (writes, rows)) = _
    rw [henforce]
    rfl

/-- **A step of the tenant** is a step in both. -/
theorem Alone.own (h : Alone u s s₁) (hinv : Inv s) (hfences : Fences S u s) {l : Label A}
    (hl : l.tenant s = some u) (hapart : l.apart S u s = true) (hst : s.step S l = some s') :
    ∃ s₁', s₁.step S l = some s₁' ∧ Alone u s' s₁' := by
  have hmine : ∀ {t tx}, s.transactions t = some tx →
      (s.transactions t).bind (·.tenant) = some u → tx.tenant = some u := by
    intro t tx ht hl
    rw [ht] at hl
    exact hl
  cases l with
  | begin t connection tenant =>
    cases (hl : tenant = some u)
    obtain ⟨hfree, hst⟩ := Option.ite_none_left_eq_some.1 hst
    cases hst
    obtain ⟨hnone, hidle⟩ := not_or.1 (mt Bool.or_eq_true_iff.2 hfree)
    have hnone : s.transactions t = none := Option.not_isSome_iff_eq_none.1 hnone
    have hnone₁ : s₁.transactions t = none := by
      rw [h.transactions, hnone]
      rfl
    have hidle₁ := h.idle hinv (Bool.eq_false_iff.2 hidle)
    refine ⟨_, if_neg ?_, h.rows, fun n => ?_, fun c hc => ?_, h.born, h.log⟩
    · rw [hnone₁, hidle₁]
      exact Bool.false_ne_true
    · dsimp only
      by_cases hn : n = t
      · subst hn
        rw [Function.update_self, Function.update_self, Option.filter_some, if_pos]
        exact decide_eq_true rfl
      · rw [Function.update_of_ne hn, Function.update_of_ne hn]
        exact h.transactions n
    · rcases Machine.update_cases hc with ⟨rfl, -⟩ | ⟨-, hold⟩
      · exact ⟨t, _, Function.update_self .., rfl⟩
      · obtain ⟨n, tx, hn, hconnection⟩ := h.busy c hold
        have hnt : n ≠ t := by
          rintro rfl
          cases hnone₁.symm.trans hn
        exact ⟨n, tx, (Function.update_of_ne hnt ..).trans hn, hconnection⟩
  | scope t tenantId =>
    -- a tenant's transaction has its scope already
    obtain ⟨tx, ht, rfl⟩ := Option.map_eq_some_iff.1 hst
    obtain ⟨ht, hscope⟩ := Option.filter_eq_some_iff.1 ht
    have htenant := hmine ht hl
    rcases (hinv.transactions t tx ht).scope with heq | hnone
    · rw [heq, htenant] at hscope
      cases hscope
    · cases hnone.symm.trans htenant
  | run t statement =>
    obtain ⟨tx, ht, rfl⟩ := Option.map_eq_some_iff.1 hst
    obtain ⟨ht, hallowed⟩ := Option.filter_eq_some_iff.1 ht
    obtain ⟨hallows, hfresh⟩ := Bool.and_eq_true_iff.1 hallowed
    have htenant := hmine ht hl
    have ht₁ := h.mine ht htenant
    have hsame := h.answer hinv hfences ht htenant hallows hfresh hapart
    have hborn : ∀ i x, statement.born s₁.born i = some x → statement.born s.born i = some x := by
      intro i x hi
      cases statement with
      | insert row =>
        rcases Machine.update_cases hi with ⟨rfl, heq⟩ | ⟨hne, hold⟩
        · exact (Function.update_self ..).trans heq
        · exact (Function.update_of_ne hne ..).trans (h.born i x hold)
      | select | update | delete | purgeTenant | dropPartition => exact h.born i x hi
    refine ⟨_, ?_, h.update ht₁ (record_connection tx (execute S (s.setting tx)
      (tx.view S s.rows) statement)) ((record_tenant ..).trans htenant) hborn⟩
    have hallowed₁ : (tx.allows statement && statement.fresh s₁.born) = true := by
      rw [hallows, h.fresh hfresh]
      rfl
    rw [← hsame]
    refine Option.map_eq_some_iff.2 ⟨tx, ?_, rfl⟩
    exact Option.filter_eq_some_iff.2 ⟨ht₁, hallowed₁⟩
  | commit t =>
    obtain ⟨tx, ht, rfl⟩ := Option.map_eq_some_iff.1 hst
    have htenant := hmine ht hl
    have ht₁ := h.mine ht htenant
    refine ⟨_, Option.map_eq_some_iff.2 ⟨tx, ht₁, rfl⟩, h.finish ht₁ htenant ?_⟩
    split
    · exact h.rows
    · exact h.view hinv hfences ht htenant
  | rollback t =>
    obtain ⟨tx, ht, rfl⟩ := Option.map_eq_some_iff.1 hst
    have htenant := hmine ht hl
    have ht₁ := h.mine ht htenant
    exact ⟨_, Option.map_eq_some_iff.2 ⟨tx, ht₁, rfl⟩, h.finish ht₁ htenant h.rows⟩

theorem filter_update {p : Transaction A → Bool} {f : Nat → Option (Transaction A)}
    {value : Option (Transaction A)} (hvalue : value.filter p = (f t).filter p) (n : Nat) :
    (Function.update f t value n).filter p = (f n).filter p := by
  by_cases hn : n = t
  · subst hn
    rw [Function.update_self, hvalue]
  · rw [Function.update_of_ne hn]

/-- **A step of others** is none to the tenant. -/
theorem Alone.other (h : Alone u s s₁) (hinv : Inv s) (hfences : Fences S u s) {l : Label A}
    (hl : l.tenant s ≠ some u) (hst : s.step S l = some s') : Alone u s' s₁ := by
  have hrows := (rows_of_step hinv hst hl).2 hfences.rows.local (hfences.not_removes l)
  -- A transaction of another tenant is hidden, before the step and after it.
  have htheirs : ∀ {t tx}, s.transactions t = some tx →
      (s.transactions t).bind (·.tenant) ≠ some u →
      (s.transactions t).filter (·.tenant = some u) = none ∧
        decide (tx.tenant = some u) = false := by
    intro t tx ht hl
    rw [ht] at hl ⊢
    have hne := decide_eq_false (show tx.tenant ≠ some u from hl)
    exact ⟨Option.filter_some_neg hne, hne⟩
  cases l with
  | begin t connection tenant =>
    obtain ⟨hfree, hst⟩ := Option.ite_none_left_eq_some.1 hst
    cases hst
    obtain ⟨hnone, -⟩ := not_or.1 (mt Bool.or_eq_true_iff.2 hfree)
    have hnone : s.transactions t = none := Option.not_isSome_iff_eq_none.1 hnone
    refine h.ignore hrows (filter_update ?_) (fun i x hi => hi) rfl
    rw [hnone]
    exact Option.filter_some_neg (decide_eq_false hl)
  | scope t tenantId =>
    obtain ⟨tx, ht, rfl⟩ := Option.map_eq_some_iff.1 hst
    obtain ⟨ht, -⟩ := Option.filter_eq_some_iff.1 ht
    obtain ⟨hnone, hne⟩ := htheirs ht hl
    refine h.ignore hrows (filter_update ?_) (fun i x hi => hi) rfl
    rw [hnone]
    exact Option.filter_some_neg hne
  | run t statement =>
    obtain ⟨tx, ht, rfl⟩ := Option.map_eq_some_iff.1 hst
    obtain ⟨ht, hallowed⟩ := Option.filter_eq_some_iff.1 ht
    obtain ⟨hnone, hne⟩ := htheirs ht hl
    refine h.ignore hrows (filter_update ?_)
      (born_mono (Bool.and_eq_true_iff.1 hallowed).2) rfl
    rw [hnone]
    refine Option.filter_some_neg ?_
    rw [record_tenant]
    exact hne
  | commit t | rollback t =>
    obtain ⟨tx, ht, rfl⟩ := Option.map_eq_some_iff.1 hst
    obtain ⟨hnone, hne⟩ := htheirs ht hl
    refine h.ignore hrows (filter_update ?_) (fun i x hi => hi) ?_
    · rw [hnone]
      rfl
    · exact List.filter_cons_of_neg (by rw [hne]; exact Bool.false_ne_true)

end Alone

/-- What the tenant does among the others, it does alone. -/
theorem projects (u : UUID) : (machine S).Projects (fun s l => l.apart S u s = true)
    (fun s l => l.tenant s = some u) fun s s₁ => Inv s ∧ Fences S u s ∧ Alone u s s₁ where
  own s s₁ l s' hR hapart hmine hst := by
    obtain ⟨hinv, hfences, h⟩ := hR
    obtain ⟨s₁', hst₁, h'⟩ := h.own hinv hfences (of_decide_eq_true hmine) hapart hst
    exact ⟨s₁', hst₁, hinv.step hst, hfences.step hapart hst, h'⟩
  other s s₁ l s' hR hapart hmine hst := by
    obtain ⟨hinv, hfences, h⟩ := hR
    have h' := h.other hinv hfences (of_decide_eq_false hmine) hst
    exact ⟨hinv.step hst, hfences.step hapart hst, h'⟩

end RowSecurity

end Core

end RealEstate
