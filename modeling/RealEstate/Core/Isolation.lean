import RealEstate.Core.RowSecurity

/-!
# Tenants on shared tables and connections

- `Inv`: every id belongs to the tenant that drew it, and connections keep nothing of a tenant.
- `Schema.Pruned`, `Local`: what referential actions may do to the rows of another tenant, and when
  they do nothing.
- `tenant_isolation`: a transaction sees and writes rows of its tenant only; what referential
  actions and the platform do to the rows of others is bounded.
-/

namespace RealEstate

namespace Core

namespace RowSecurity

open Systems

variable {A : Type} {S : Schema A}

/-! ### Isolation -/

variable {s s' : State A} {t : Nat} {tx : Transaction A}

/-- A write to a row whose id is the tenant's; the platform has its own. -/
def Write.OwnedBy (born : UUID → Option (Option UUID)) (tenant : Option UUID) : Write A → Prop
  | .insert row | .update row | .delete row => row.tenantId = tenant ∧ born row.id = some tenant
  | .purge _ | .drop _ => tenant = none

/-- All of a transaction's writes are its tenant's. -/
def Owned (born : UUID → Option (Option UUID)) (tenant : Option UUID) (writes : List (Write A)) :
    Prop :=
  ∀ w ∈ writes, w.OwnedBy born tenant

/-- Every id belongs to the tenant that drew it. -/
def Registered (born : UUID → Option (Option UUID)) (rows : List (Row A)) : Prop :=
  ∀ row ∈ rows, born row.id = some row.tenantId

/-- What a transaction has written and was answered is its tenant's. -/
structure Transaction.Ok (born : UUID → Option (Option UUID)) (tx : Transaction A) : Prop where
  scope : tx.scope = tx.tenant ∨ tx.tenant = none
  pending : Owned born tx.tenant tx.pending
  answers : ∀ rows, .ok rows ∈ tx.answers → ∀ row ∈ rows,
    row.tenantId = tx.tenant ∨ tx.tenant = none ∧ row.tenantId = tx.scope

/-- Settings mean no tenant, rows and transactions are their tenants', and no connection is shared.
-/
structure Inv (s : State A) : Prop where
  settings : ∀ c, Means (s.settings c) none
  rows : Registered s.born s.rows
  transactions : ∀ t tx, s.transactions t = some tx → tx.Ok s.born
  busy : ∀ t tx, s.transactions t = some tx → s.busy tx.connection = true
  exclusive : ∀ t t' tx tx', s.transactions t = some tx → s.transactions t' = some tx' →
    tx.connection = tx'.connection → t = t'

/-- A transaction reads its own scope from its connection. -/
theorem Inv.means (h : Inv s) (tx : Transaction A) : Means (s.setting tx) tx.scope := by
  rw [State.setting]
  cases tx.scope with
  | none => exact h.settings tx.connection
  | some u => rfl

/-! ### Writes -/

section Writes

variable {born born' : UUID → Option (Option UUID)} {rows : List (Row A)} {ids : List UUID}
  {tenant x : Option UUID} {w : Write A} {writes : List (Write A)}

/-- What a deletion leaves, and what it clears of it. -/
theorem mem_remove {row : Row A} : row ∈ S.remove ids rows ↔
    ∃ old ∈ rows, old.id ∉ S.doomed rows S.depth ids ∧
      { old with columns := S.setNull (S.doomed rows S.depth ids) old } = row := by
  rw [Schema.remove, List.mem_map]
  constructor
  · rintro ⟨old, hold, rfl⟩
    obtain ⟨hmem, hstays⟩ := List.mem_filter.1 hold
    exact ⟨old, hmem, of_decide_eq_true hstays, rfl⟩
  · rintro ⟨old, hmem, hstays, rfl⟩
    exact ⟨old, List.mem_filter.2 ⟨hmem, decide_eq_true hstays⟩, rfl⟩

theorem Registered.mono (h : Registered born rows)
    (hborn : ∀ i y, born i = some y → born' i = some y) : Registered born' rows :=
  fun row hrow => hborn _ _ (h row hrow)

theorem Write.OwnedBy.mono (h : w.OwnedBy born tenant)
    (hborn : ∀ i y, born i = some y → born' i = some y) : w.OwnedBy born' tenant := by
  cases w with
  | insert row | update row | delete row => exact ⟨h.1, hborn _ _ h.2⟩
  | purge tenantId | drop month => exact h

/-- A deletion moves no row to another tenant. -/
theorem Registered.remove (h : Registered born rows) : Registered born (S.remove ids rows) := by
  intro row hrow
  obtain ⟨old, hold, -, rfl⟩ := mem_remove.1 hrow
  exact h old hold

theorem Registered.apply (h : Registered born rows) (hw : w.OwnedBy born tenant) :
    Registered born (w.apply S rows) := by
  intro row hrow
  cases w with
  | insert new =>
    rcases List.mem_append.1 hrow with hold | hnew
    · exact h row hold
    · rw [List.mem_singleton.1 hnew]
      exact hw.2.trans (congrArg some hw.1.symm)
  | update new =>
    obtain ⟨old, hold, rfl⟩ := List.mem_map.1 hrow
    split
    · exact hw.2.trans (congrArg some hw.1.symm)
    · exact h old hold
  | delete old => exact h.remove row hrow
  | purge tenantId => exact h.remove row hrow
  | drop month => exact h row (List.mem_filter.1 hrow).1

theorem Registered.applyAll : ∀ {rows : List (Row A)}, Registered born rows →
    Owned born tenant writes → Registered born (applyAll S writes rows) := by
  induction writes with
  | nil => exact fun h _ => h
  | cons w writes ih =>
    intro rows h hw
    exact ih (h.apply (hw w List.mem_cons_self)) fun v hv => hw v (List.mem_cons_of_mem _ hv)

/-- An update of a tenant leaves the tenants of all rows. -/
theorem filter_update_rows {new : Row A} (h : Registered born rows)
    (hw : Write.OwnedBy born tenant (.update new)) :
    (Write.apply S rows (.update new)).filter (·.tenantId = x) =
      (rows.filter (·.tenantId = x)).map fun row => if row.id = new.id then new else row := by
  have hkeep : ∀ row ∈ rows, (if row.id = new.id then new else row).tenantId = row.tenantId := by
    intro row hrow
    split
    · next hid => exact hw.1.trans (Option.some.inj ((h row hrow).symm.trans (hid ▸ hw.2))).symm
    · rfl
  rw [Write.apply, List.filter_map]
  refine congrArg _ (List.filter_congr fun row hrow => ?_)
  rw [Function.comp_apply, hkeep row hrow]

/-! ### What a write is to the other tenants -/

/-- No row of a tenant refers to a row of another. -/
def Local (S : Schema A) (born : UUID → Option (Option UUID)) (x : Option UUID)
    (rows : List (Row A)) : Prop :=
  ∀ row ∈ rows, row.tenantId = x → ∀ r ∈ S.references row, ∀ y, born r.target = some y → y = x

-- not by going through all UUIDs
/-- Over the targets that were drawn. -/
instance decidableLocal : Decidable (Local S born x rows) :=
  decidable_of_iff (∀ row ∈ rows, row.tenantId = x → ∀ r ∈ S.references row,
      (born r.target).all (· = x) = true) <| by
    simp only [Local, Option.all_eq_true, decide_eq_true_eq]

/-- Cascades do not reach a tenant whose rows refer to nobody else's. -/
theorem doomed_of_local (h : Registered born rows) (hlocal : Local S born x rows) :
    ∀ {k : Nat} {ids : List UUID}, (∀ i ∈ ids, ∃ y, born i = some y ∧ y ≠ x) →
      ∀ i ∈ S.doomed rows k ids, ∃ y, born i = some y ∧ y ≠ x
  | 0, _, hids, i, hi => hids i hi
  | k + 1, ids, hids, i, hi => by
    have hmore : ∀ j ∈ ids ++ (rows.filter (S.refersTo .cascade ids)).map (·.id),
        ∃ y, born j = some y ∧ y ≠ x := by
      intro j hj
      rcases List.mem_append.1 hj with hold | hnew
      · exact hids j hold
      · obtain ⟨row, hrow, rfl⟩ := List.mem_map.1 hnew
        obtain ⟨hmem, hrefers⟩ := List.mem_filter.1 hrow
        obtain ⟨r, hr, htarget⟩ := List.any_eq_true.1 hrefers
        obtain ⟨y, hy, hne⟩ := hids _ (of_decide_eq_true (Bool.and_eq_true_iff.1 htarget).2)
        exact ⟨_, h row hmem, fun htenant => hne (hlocal row hmem htenant r hr y hy)⟩
    exact doomed_of_local h hlocal hmore i hi

/-- A deletion of others' rows leaves a tenant that refers to none of them. -/
theorem remove_filter_of_local (h : Registered born rows) (hlocal : Local S born x rows)
    (hids : ∀ i ∈ ids, ∃ y, born i = some y ∧ y ≠ x) :
    (S.remove ids rows).filter (·.tenantId = x) = rows.filter (·.tenantId = x) := by
  have hgone := doomed_of_local h hlocal (k := S.depth) hids
  rw [Schema.remove]
  generalize S.doomed rows S.depth ids = gone at hgone
  -- No row of the tenant is deleted: its ids are registered under it alone.
  have hstays : ∀ row ∈ rows, row.tenantId = x → row.id ∉ gone := by
    intro row hrow htenant hmem
    obtain ⟨y, hy, hne⟩ := hgone _ hmem
    exact hne ((Option.some.inj ((h row hrow).symm.trans hy)).symm.trans htenant)
  -- No column of the tenant's rows is set to NULL: its references stay with it.
  have hsame : ∀ row ∈ rows, row.tenantId = x → S.setNull gone row = row.columns := by
    intro row hrow htenant
    refine S.setNull_eq_self gone row fun r hr hmem => ?_
    obtain ⟨y, hy, hne⟩ := hgone _ hmem
    exact hne (hlocal row hrow htenant r hr y hy)
  rw [List.filter_map, List.filter_filter]
  have hfilter : (rows.filter fun row => ((fun row : Row A => decide (row.tenantId = x)) ∘
      fun row => { row with columns := S.setNull gone row }) row && decide (row.id ∉ gone)) =
      rows.filter (·.tenantId = x) := by
    refine List.filter_congr fun row hrow => ?_
    rw [Function.comp_apply]
    by_cases htenant : row.tenantId = x
    · rw [decide_eq_true (hstays row hrow htenant), Bool.and_true]
    · rw [decide_eq_false htenant, Bool.false_and]
  rw [hfilter]
  refine (List.map_congr_left fun row hrow => ?_).trans (List.map_id _)
  obtain ⟨hmem, htenant⟩ := List.mem_filter.1 hrow
  rw [hsame row hmem (of_decide_eq_true htenant)]
  rfl

/-- Others cannot make a tenant's rows refer to theirs. -/
theorem Local.apply (hlocal : Local S born x rows) (hw : w.OwnedBy born tenant)
    (hne : tenant ≠ x) : Local S born x (w.apply S rows) := by
  have hremove : ∀ ids, Local S born x (S.remove ids rows) := by
    intro ids row hrow htenant r hr
    obtain ⟨old, hold, -, rfl⟩ := mem_remove.1 hrow
    exact hlocal old hold htenant r (S.setNull_references _ old hr)
  intro row hrow htenant
  cases w with
  | insert new =>
    rcases List.mem_append.1 hrow with hold | hnew
    · exact hlocal row hold htenant
    · rw [List.mem_singleton.1 hnew] at htenant
      exact absurd (hw.1.symm.trans htenant) hne
  | update new =>
    obtain ⟨old, hold, rfl⟩ := List.mem_map.1 hrow
    split at htenant
    · exact absurd (hw.1.symm.trans htenant) hne
    · next hid =>
      rw [if_neg hid]
      exact hlocal old hold htenant
  | delete old => exact hremove _ row hrow htenant
  | purge tenantId => exact hremove _ row hrow htenant
  | drop month => exact hlocal row (List.mem_filter.1 hrow).1 htenant

/-- A tenant is deleted, or a part of a table that all tenants share is dropped. -/
def Write.removes (x : Option UUID) : Write A → Bool
  | .purge tenantId => x = some tenantId
  | .drop _ => true
  | .insert _ | .update _ | .delete _ => false

/-- A write changes no row of another tenant, if no row of that tenant refers to others. -/
theorem filter_apply_of_local (h : Registered born rows) (hlocal : Local S born x rows)
    (hw : w.OwnedBy born tenant) (hne : tenant ≠ x) (hkeeps : w.removes x = false) :
    (w.apply S rows).filter (·.tenantId = x) = rows.filter (·.tenantId = x) := by
  cases w with
  | insert new =>
    -- An inserted row carries the writer's tenant, so the filter drops it.
    have htenant : new.tenantId ≠ x := fun heq => hne (hw.1.symm.trans heq)
    have hnew : [new].filter (·.tenantId = x) = [] :=
      List.filter_cons_of_neg (by rw [decide_eq_false htenant]; exact Bool.false_ne_true)
    rw [Write.apply, List.filter_append, hnew, List.append_nil]
  | update new =>
    rw [filter_update_rows h hw]
    refine (List.map_congr_left fun row hrow => ?_).trans (List.map_id _)
    obtain ⟨hmem, hrow⟩ := List.mem_filter.1 hrow
    -- An id names one tenant, so the updated row is none of the filtered ones.
    refine if_neg fun hid => hne ?_
    exact (Option.some.inj ((h row hmem).symm.trans (hid ▸ hw.2))).symm.trans
      (of_decide_eq_true hrow)
  | delete old =>
    refine remove_filter_of_local h hlocal fun i hi => ?_
    rw [List.mem_singleton.1 hi]
    exact ⟨tenant, hw.2, hne⟩
  | purge tenantId =>
    refine remove_filter_of_local h hlocal fun i hi => ?_
    obtain ⟨row, hrow, rfl⟩ := List.mem_map.1 hi
    obtain ⟨hmem, htenant⟩ := List.mem_filter.1 hrow
    refine ⟨_, h row hmem, fun heq => of_decide_eq_false hkeeps ?_⟩
    exact heq.symm.trans (of_decide_eq_true htenant)
  | drop month => cases hkeeps

theorem filter_applyAll_of_local (hne : tenant ≠ x) : ∀ {rows : List (Row A)},
    Registered born rows → Local S born x rows → Owned born tenant writes →
    (∀ w ∈ writes, w.removes x = false) →
    (applyAll S writes rows).filter (·.tenantId = x) = rows.filter (·.tenantId = x) := by
  induction writes with
  | nil => exact fun _ _ _ _ => rfl
  | cons w writes ih =>
    intro rows h hlocal hw hkeeps
    have hown := hw w List.mem_cons_self
    have hstep := filter_apply_of_local h hlocal hown hne (hkeeps w List.mem_cons_self)
    refine (ih (h.apply hown) (hlocal.apply hown hne)
      (fun v hv => hw v (List.mem_cons_of_mem _ hv)) fun v hv =>
        hkeeps v (List.mem_cons_of_mem _ hv)).trans hstep

/-- What referential actions may leave of a row: the row, without some of its references. -/
inductive Schema.Pruned (S : Schema A) (row : Row A) : Row A → Prop where
  | refl : S.Pruned row row
  | setNull {row' : Row A} (ids : List UUID) : S.Pruned row row' →
      S.Pruned row { row' with columns := S.setNull ids row' }

theorem Schema.Pruned.trans {a b c : Row A} (hab : S.Pruned a b) (hbc : S.Pruned b c) :
    S.Pruned a c := by
  induction hbc with
  | refl => exact hab
  | setNull ids _ ih => exact .setNull ids ih

/-- **A write brings no row of another tenant**, and changes none but by referential actions. -/
theorem pruned_of_apply (hw : w.OwnedBy born tenant) (hne : tenant ≠ x)
    {row : Row A} (hrow : row ∈ w.apply S rows) (htenant : row.tenantId = x) :
    ∃ old ∈ rows, old.tenantId = x ∧ S.Pruned old row := by
  have hremove : ∀ {ids}, row ∈ S.remove ids rows → ∃ old ∈ rows, old.tenantId = x ∧
      S.Pruned old row := by
    intro ids hmem
    obtain ⟨old, hold, -, rfl⟩ := mem_remove.1 hmem
    exact ⟨old, hold, htenant, .setNull _ .refl⟩
  cases w with
  | insert new =>
    rcases List.mem_append.1 hrow with hold | hnew
    · exact ⟨row, hold, htenant, .refl⟩
    · rw [List.mem_singleton.1 hnew] at htenant
      exact absurd (hw.1.symm.trans htenant) hne
  | update new =>
    obtain ⟨old, hold, rfl⟩ := List.mem_map.1 hrow
    split at htenant
    · exact absurd (hw.1.symm.trans htenant) hne
    · next hid =>
      rw [if_neg hid]
      exact ⟨old, hold, htenant, .refl⟩
  | delete old => exact hremove hrow
  | purge tenantId => exact hremove hrow
  | drop month => exact ⟨row, (List.mem_filter.1 hrow).1, htenant, .refl⟩

theorem pruned_of_applyAll (hne : tenant ≠ x) {row : Row A} (htenant : row.tenantId = x) :
    ∀ {rows : List (Row A)}, Owned born tenant writes → row ∈ applyAll S writes rows →
      ∃ old ∈ rows, old.tenantId = x ∧ S.Pruned old row := by
  induction writes with
  | nil => exact fun _ hrow => ⟨row, hrow, htenant, .refl⟩
  | cons w writes ih =>
    intro rows hw hrow
    obtain ⟨mid, hmid, hmidTenant, hlater⟩ := ih
      (fun v hv => hw v (List.mem_cons_of_mem _ hv)) hrow
    obtain ⟨old, hold, holdTenant, hsooner⟩ :=
      pruned_of_apply (hw w List.mem_cons_self) hne hmid hmidTenant
    exact ⟨old, hold, holdTenant, hsooner.trans hlater⟩

end Writes

/-! ### The invariant -/

theorem Inv.start : Inv (.start : State A) where
  settings _ := .inl rfl
  rows _ hrow := absurd hrow List.not_mem_nil
  transactions _ _ ht := by cases ht
  busy _ _ ht := by cases ht
  exclusive _ _ _ _ ht := by cases ht

/-- A transaction begins on an idle connection. -/
theorem Inv.begin (h : Inv s) {connection : Nat} {tenant : Option UUID}
    (hst : s.step S (.begin t connection tenant) = some s') : Inv s' := by
  obtain ⟨hfree, hst⟩ := Option.ite_none_left_eq_some.1 hst
  cases hst
  -- The connection was free, so no other transaction runs on it.
  obtain ⟨-, hidle⟩ := not_or.1 (mt Bool.or_eq_true_iff.2 hfree)
  have hother : ∀ n tx, s.transactions n = some tx → tx.connection ≠ connection :=
    fun n tx hn hc => hidle (hc ▸ h.busy n tx hn)
  refine ⟨h.settings, h.rows, fun n tx hn => ?_, fun n tx hn => ?_, fun n n' tx tx' hn hn' hc => ?_⟩
  · rcases Machine.update_cases hn with ⟨-, hnew⟩ | ⟨-, hold⟩
    · cases hnew
      exact ⟨.inl rfl, fun w hw => absurd hw List.not_mem_nil,
        fun rows hrows => absurd hrows List.not_mem_nil⟩
    · exact h.transactions n tx hold
  · rcases Machine.update_cases hn with ⟨-, hnew⟩ | ⟨-, hold⟩
    · cases hnew
      exact Function.update_self ..
    · exact (Function.update_of_ne (hother n tx hold) ..).trans (h.busy n tx hold)
  · rcases Machine.update_cases hn with ⟨rfl, hnew⟩ | ⟨-, hold⟩
    · cases hnew
      rcases Machine.update_cases hn' with ⟨rfl, -⟩ | ⟨-, hold'⟩
      · rfl
      · exact absurd hc.symm (hother n' tx' hold')
    · rcases Machine.update_cases hn' with ⟨-, hnew'⟩ | ⟨-, hold'⟩
      · cases hnew'
        exact absurd hc (hother n tx hold)
      · exact h.exclusive n n' tx tx' hold hold' hc

/-- A transaction goes on, on its connection. -/
theorem Inv.update (h : Inv s) {tx' : Transaction A} {born : UUID → Option (Option UUID)}
    (ht : s.transactions t = some tx) (hconnection : tx'.connection = tx.connection)
    (hborn : ∀ i x, s.born i = some x → born i = some x) (hok : tx'.Ok born) :
    Inv { s with born, transactions := Function.update s.transactions t (some tx') } := by
  have hold : ∀ n tx₁, Function.update s.transactions t (some tx') n = some tx₁ →
      ∃ tx₀, s.transactions n = some tx₀ ∧ tx₁.connection = tx₀.connection := by
    intro n tx₁ hn
    rcases Machine.update_cases hn with ⟨rfl, hnew⟩ | ⟨-, hold⟩
    · cases hnew
      exact ⟨tx, ht, hconnection⟩
    · exact ⟨tx₁, hold, rfl⟩
  refine ⟨h.settings, fun row hrow => hborn _ _ (h.rows row hrow), fun n tx₁ hn => ?_,
    fun n tx₁ hn => ?_, fun n n' tx₁ tx₂ hn hn' hc => ?_⟩
  · rcases Machine.update_cases hn with ⟨-, hnew⟩ | ⟨-, hold⟩
    · cases hnew
      exact hok
    · obtain ⟨hscope, hpending, hanswers⟩ := h.transactions n tx₁ hold
      exact ⟨hscope, fun w hw => (hpending w hw).mono hborn, hanswers⟩
  · obtain ⟨tx₀, hn₀, hc⟩ := hold n tx₁ hn
    exact hc ▸ h.busy n tx₀ hn₀
  · obtain ⟨tx₀, hn₀, hc₀⟩ := hold n tx₁ hn
    obtain ⟨tx₀', hn₀', hc₀'⟩ := hold n' tx₂ hn'
    exact h.exclusive n n' tx₀ tx₀' hn₀ hn₀' (hc₀.symm.trans (hc.trans hc₀'))

/-- The platform looks into a tenant. -/
theorem Inv.scope (h : Inv s) {tenantId : UUID} (hst : s.step S (.scope t tenantId) = some s') :
    Inv s' := by
  obtain ⟨tx, ht, rfl⟩ := Option.map_eq_some_iff.1 hst
  obtain ⟨ht, hscope⟩ := Option.filter_eq_some_iff.1 ht
  have hnone : tx.scope = none := Option.isNone_iff_eq_none.1 (Bool.and_eq_true_iff.1 hscope).1
  obtain ⟨hkeep, hpending, hanswers⟩ := h.transactions t tx ht
  have htenant : tx.tenant = none := hkeep.elim (fun heq => heq.symm.trans hnone) id
  refine h.update ht rfl (fun i x hi => hi) ⟨.inr htenant, hpending, fun rows hrows row hrow => ?_⟩
  refine (hanswers rows hrows row hrow).elim .inl fun hold => .inl ?_
  exact hold.2.trans (hnone.trans htenant.symm)

theorem born_mono {statement : Statement A} (hfresh : statement.fresh s.born = true) (i : UUID)
    (x : Option UUID) (hi : s.born i = some x) : statement.born s.born i = some x := by
  cases statement with
  | insert row =>
    have hne : i ≠ row.id := by
      rintro rfl
      have hnone : (s.born row.id).isNone = true := hfresh
      rw [hi] at hnone
      cases hnone
    exact (Function.update_of_ne hne ..).trans hi
  | select | update | delete | purgeTenant | dropPartition => exact hi

/-- What a transaction sees is registered. -/
theorem Inv.view (h : Inv s) (ht : s.transactions t = some tx) :
    Registered s.born (tx.view S s.rows) :=
  h.rows.applyAll (h.transactions t tx ht).pending

/-- What a statement writes is its tenant's. -/
theorem Inv.owned (h : Inv s) {statement : Statement A} (ht : s.transactions t = some tx)
    (hallows : tx.allows statement = true) (hfresh : statement.fresh s.born = true)
    {writes : List (Write A)} {rows : List (Row A)}
    (hattempt : attempt (s.setting tx) (tx.view S s.rows) statement = .ok (writes, rows)) :
    Owned (statement.born s.born) tx.tenant writes := by
  obtain ⟨hallows, hplatform⟩ := Bool.and_eq_true_iff.1 hallows
  have hscope := (Bool.and_eq_true_iff.1 hallows).2
  have hborn := born_mono hfresh
  intro w hw
  obtain ⟨hwriting, hfrom⟩ := (attempt_spec (h.means tx) hattempt).2 w hw
  -- A writing transaction has its scope, and that is the tenant of the setting.
  have heq : tx.scope = tx.tenant := by
    rw [hwriting, Bool.false_or] at hscope
    exact of_decide_eq_true hscope
  cases hfrom with
  | insert htenant hstatement =>
    subst hstatement
    exact ⟨htenant.trans heq, (Function.update_self ..).trans (congrArg some (htenant.trans heq))⟩
  | update htenant hview hid hold =>
    refine ⟨htenant.trans heq, hborn _ _ ?_⟩
    rw [← hid, h.view ht _ hview, hold, heq]
  | delete hview htenant =>
    refine ⟨htenant.trans heq, hborn _ _ ?_⟩
    rw [h.view ht _ hview, htenant, heq]
  | purge hstatement | drop hstatement =>
    -- Only the platform purges and drops, and it has no tenant.
    subst hstatement
    exact Option.isNone_iff_eq_none.1 hplatform

/-- A statement writes rows of its tenant and is answered rows of its scope. -/
theorem Inv.run (h : Inv s) {statement : Statement A}
    (hst : s.step S (.run t statement) = some s') : Inv s' := by
  obtain ⟨tx, ht, rfl⟩ := Option.map_eq_some_iff.1 hst
  obtain ⟨ht, hallowed⟩ := Option.filter_eq_some_iff.1 ht
  obtain ⟨hallows, hfresh⟩ := Bool.and_eq_true_iff.1 hallowed
  obtain ⟨hkeep, hpending, hanswers⟩ := h.transactions t tx ht
  have hborn := born_mono hfresh
  have hpending' : Owned (statement.born s.born) tx.tenant tx.pending := fun w hw =>
    (hpending w hw).mono hborn
  cases hex : execute S (s.setting tx) (tx.view S s.rows) statement with
  | error e =>
    refine h.update ht rfl hborn ⟨hkeep, hpending', fun rows hrows => ?_⟩
    rcases List.mem_append.1 hrows with hold | hnew
    · exact hanswers rows hold
    · cases List.mem_singleton.1 hnew
  | ok result =>
    obtain ⟨writes, rows⟩ := result
    obtain ⟨hattempt, -⟩ := execute_eq_ok hex
    have howned := h.owned ht hallows hfresh hattempt
    refine h.update ht rfl hborn ⟨hkeep, fun w hw => ?_, fun rows' hrows' row hrow => ?_⟩
    · rcases List.mem_append.1 hw with hold | hnew
      · exact hpending' w hold
      · exact howned w hnew
    · rcases List.mem_append.1 hrows' with hold | hnew
      · exact hanswers rows' hold row hrow
      · cases List.mem_singleton.1 hnew
        have hrow := (attempt_spec (h.means tx) hattempt).1 row hrow
        exact hkeep.imp (fun heq => hrow.trans heq) fun hnone => ⟨hnone, hrow⟩

/-- A transaction ends, and leaves an empty setting. -/
theorem Inv.finish (h : Inv s) (ht : s.transactions t = some tx) {rows : List (Row A)}
    (hrows : Registered s.born rows) : Inv { s.finish t tx with rows } := by
  have hold : ∀ n tx₁, Function.update s.transactions t none n = some tx₁ →
      n ≠ t ∧ s.transactions n = some tx₁ := fun n tx₁ hn =>
    Machine.old_of_update hn (Option.some_ne_none tx₁).symm
  refine ⟨fun c => ?_, hrows, fun n tx₁ hn => h.transactions n tx₁ (hold n tx₁ hn).2,
    fun n tx₁ hn => ?_, fun n n' tx₁ tx₂ hn hn' => ?_⟩
  · show Means ((if tx.scope.isSome then Function.update s.settings tx.connection (some [])
      else s.settings) c) none
    split
    · by_cases hc : c = tx.connection
      · rw [hc, Function.update_self]
        exact .inr rfl
      · rw [Function.update_of_ne hc]
        exact h.settings c
    · exact h.settings c
  · obtain ⟨hne, hn⟩ := hold n tx₁ hn
    have hc : tx₁.connection ≠ tx.connection := fun hc => hne (h.exclusive n t tx₁ tx hn ht hc)
    exact (Function.update_of_ne hc ..).trans (h.busy n tx₁ hn)
  · exact h.exclusive n n' tx₁ tx₂ (hold n tx₁ hn).2 (hold n' tx₂ hn').2

/-- One step keeps the invariant. -/
theorem Inv.step (h : Inv s) {l : Label A} (hst : s.step S l = some s') : Inv s' := by
  cases l with
  | begin t connection tenant => exact h.begin hst
  | scope t tenantId => exact h.scope hst
  | run t statement => exact h.run hst
  | commit t =>
    obtain ⟨tx, ht, rfl⟩ := Option.map_eq_some_iff.1 hst
    refine h.finish ht ?_
    split
    · exact h.rows
    · exact h.view ht
  | rollback t =>
    obtain ⟨tx, ht, rfl⟩ := Option.map_eq_some_iff.1 hst
    exact h.finish ht h.rows

theorem inductive_inv : (machine S).Inductive (fun _ _ => True) Inv where
  init s hs := by
    cases hs
    exact Inv.start
  step _ _ _ h _ hst := h.step hst

/-- The platform deletes a tenant, or drops events of all tenants. -/
def Label.removes (s : State A) (x : Option UUID) : Label A → Bool
  | .commit t => (s.transactions t).any fun tx => tx.pending.any (·.removes x)
  | .begin _ _ _ | .scope _ _ | .run _ _ | .rollback _ => false

/-- What a step is to the rows of another tenant. -/
theorem rows_of_step (h : Inv s) {l : Label A} (hst : s.step S l = some s') {x : Option UUID}
    (hx : l.tenant s ≠ x) :
    (∀ row ∈ s'.rows, row.tenantId = x →
      ∃ old ∈ s.rows, old.tenantId = x ∧ S.Pruned old row) ∧
    (Local S s.born x s.rows → l.removes s x = false →
      s'.rows.filter (·.tenantId = x) = s.rows.filter (·.tenantId = x)) := by
  cases l with
  | begin t connection tenant =>
    obtain ⟨-, hst⟩ := Option.ite_none_left_eq_some.1 hst
    cases hst
    exact ⟨fun row hrow htenant => ⟨row, hrow, htenant, .refl⟩, fun _ _ => rfl⟩
  | scope t tenantId | run t statement | rollback t =>
    -- Nothing but a commit changes the rows.
    obtain ⟨tx, -, rfl⟩ := Option.map_eq_some_iff.1 hst
    exact ⟨fun row hrow htenant => ⟨row, hrow, htenant, .refl⟩, fun _ _ => rfl⟩
  | commit t =>
    obtain ⟨tx, ht, rfl⟩ := Option.map_eq_some_iff.1 hst
    have hx : tx.tenant ≠ x := by
      rw [Label.tenant, ht] at hx
      exact hx
    have howned := (h.transactions t tx ht).pending
    -- A commit whose checks fail leaves the rows as they are.
    dsimp only
    split
    · exact ⟨fun row hrow htenant => ⟨row, hrow, htenant, .refl⟩, fun _ _ => rfl⟩
    · refine ⟨fun row hrow htenant => pruned_of_applyAll hx htenant howned hrow,
        fun hlocal hkeeps => filter_applyAll_of_local hx h.rows hlocal howned fun w hw => ?_⟩
      rw [Label.removes, ht, Option.any_some] at hkeeps
      exact Bool.eq_false_of_not_eq_true fun hw' =>
        Bool.false_ne_true (hkeeps.symm.trans (List.any_eq_true.2 ⟨w, hw, hw'⟩))

/-- Photos go with their listing, and a lead outlives it. -/
def listingSchema : Schema (String × Option UUID) where
  references row := row.columns.2.toList.map fun listingId =>
    ⟨listingId, if row.table = "listing_media" then .cascade else .setNull⟩
  clash row other := row.table = other.table && row.columns.1 = other.columns.1
  setNull ids row := (row.columns.1, row.columns.2.filter (!ids.contains ·))
  depth := 1
  setNull_references ids row := by
    refine List.map_subset _ fun i hi => ?_
    exact Option.mem_toList.2 (Option.filter_eq_some_iff.1 (Option.mem_toList.1 hi)).1
  setNull_eq_self ids row h := by
    obtain ⟨table, id, tenantId, name, listingId⟩ := row
    cases listingId with
    | none => rfl
    | some listingId =>
      have hother : listingId ∉ ids := h _ (List.mem_singleton.2 rfl)
      exact congrArg (name, ·) (Option.filter_some_pos (by simpa using hother))

/-- Two agencies on one connection. The second changes and deletes all listings that there are, and
is purged while the first looks at its own. -/
def twoAgencies : List (Label (String × Option UUID)) :=
  [.begin 0 0 (some 1), .run 0 (.insert ⟨"listings", 10, some 1, "riad", none⟩),
    .run 0 (.insert ⟨"listing_media", 12, some 1, "front", some 10⟩), .commit 0,
    .begin 1 0 (some 2), .run 1 (.insert ⟨"listings", 11, some 2, "villa", none⟩),
    .run 1 (.insert ⟨"listing_media", 13, some 2, "pool", some 11⟩),
    .run 1 (.insert ⟨"leads", 14, some 2, "call", some 11⟩),
    .run 1 (.update "listings" (fun _ => true) fun row => (row.tenantId, "sold", none)),
    .run 1 (.delete "listings" fun _ => true), .commit 1,
    .begin 2 0 (some 1), .run 2 (.select "listings"),
    .begin 3 1 none, .run 3 (.purgeTenant 2 false)]

/-- One of the answers lists rows of these names. -/
def answered (tx : Transaction (String × Option UUID)) (names : List String) : Bool :=
  tx.answers.any fun answer => answer.toOption.any fun rows => rows.map (·.columns.1) = names

end RowSecurity

end Core

end RealEstate
