import RealEstate.Tenants.Domains

/-!
# One primary domain

- `Stage`: how far a session has come, by what it has written and what is ahead of it.
  A session that adds a primary domain holds the row of the old one until it commits, and so is
  alone with its tenant.
- `Settled`: what is about to be removed is not primary, and no session is making it so.
- `one_primary`: sessions whose demotions meet a domain that is still primary.
- `two_primaries`: two additions that have read the same primary domain.
-/

namespace RealEstate

namespace Tenants

namespace Domains

open RealEstate.Core Systems

/-! ### Sessions -/

/-- The row versions of a session, the last written first. -/
abbrev Written := List (Key × Option Row)

/-- The demotion of a domain of the tenant that was primary when it was read. -/
def Demotion (tenantId : Uuid) (w : Write Key Row Empty) : Prop :=
  ∃ id row, w = ⟨.domain tenantId id, .update row row.demoted, []⟩ ∧ row.isPrimary = true

/-- What a session has written over the committed rows, and what it has yet to write. -/
inductive Stage (rows : Key → Option Row) : Written → Writes → Prop where
  | creating {id domainId : Uuid} {tenant domain : Row} (h : domain.isPrimary = true) :
    Stage rows [] [inserted (.tenant id) tenant, inserted (.domain id domainId) domain]
  | tenant {id domainId : Uuid} {tenant domain : Row} (h : domain.isPrimary = true)
    (hfree : rows (.tenant id) = none) :
    Stage rows [(.tenant id, some tenant)] [inserted (.domain id domainId) domain]
  | created {id domainId : Uuid} {tenant domain : Row} (h : domain.isPrimary = true)
    (hfree : rows (.tenant id) = none) :
    Stage rows [(.domain id domainId, some domain), (.tenant id, some tenant)] []
  | adding {tenantId id : Uuid} {domain : Row} {demotions : Writes}
    (htenant : (rows (.tenant tenantId)).isSome = true)
    (hdemotions : ∀ w ∈ demotions, Demotion tenantId w)
    (h : domain.isPrimary = true ↔ demotions ≠ []) :
    Stage rows [] (demotions ++ [inserted (.domain tenantId id) domain])
  | demoted {tenantId id old : Uuid} {domain version : Row} {demotions : Writes}
    (htenant : (rows (.tenant tenantId)).isSome = true)
    (hdemotions : ∀ w ∈ demotions, Demotion tenantId w) (h : domain.isPrimary = true)
    (hold : Primary rows tenantId old) (hversion : version.isPrimary = false) :
    Stage rows [(.domain tenantId old, some version)]
      (demotions ++ [inserted (.domain tenantId id) domain])
  | added {tenantId id : Uuid} {domain : Row} (htenant : (rows (.tenant tenantId)).isSome = true)
    (h : domain.isPrimary = false) (hfree : rows (.domain tenantId id) = none) :
    Stage rows [(.domain tenantId id, some domain)] []
  | replaced {tenantId id old : Uuid} {domain version : Row}
    (htenant : (rows (.tenant tenantId)).isSome = true) (h : domain.isPrimary = true)
    (hold : Primary rows tenantId old) (hversion : version.isPrimary = false)
    (hfree : rows (.domain tenantId id) = none) :
    Stage rows [(.domain tenantId id, some domain), (.domain tenantId old, some version)] []
  | removing {tenantId id : Uuid} : Stage rows [] [⟨.domain tenantId id, .delete, []⟩]
  | removed {tenantId id : Uuid} (h : ¬ Primary rows tenantId id) :
    Stage rows [(.domain tenantId id, none)] []

/-- The row is there, is no primary domain, and no session is making it one. -/
structure Settled (tb : Table Key Row Nat) (k : Key) : Prop where
  mem_keys : k ∈ tb.keys
  committed : (tb.rows k).any Row.isPrimary = false
  pending : ∀ t row, tb.dirty t k = some (some row) → row.isPrimary = false

/-- A domain has its tenant. -/
def Owned (rows : Key → Option Row) : Prop :=
  ∀ tenantId id, (rows (.domain tenantId id)).isSome = true →
    (rows (.tenant tenantId)).isSome = true

/-- Idle transactions are clean, each tenant has one primary domain, and domains have tenants. -/
structure Inv (s : State) : Prop where
  clean : Table.Clean s.txns s.table
  one : OnePrimary s.table.rows
  owned : Owned s.table.rows
  stage : ∀ t session, s.txns t = some session → ∃ written : Written,
    (∀ k, s.table.dirty t k = written.lookup k) ∧ Stage s.table.rows written session.todo
  settled : ∀ t session, s.txns t = some session →
    ∀ w ∈ session.todo, w.change = .delete → Settled s.table w.key

/-! ### What a session may have written -/

section Stage

variable {rows rows' : Key → Option Row} {written : Written} {todo : Writes} {k : Key}
  {v : Option Row}

theorem mem_of_lookup (h : written.lookup k = some v) : (k, v) ∈ written := by
  obtain ⟨before, after, rfl, -⟩ := List.lookup_eq_some_iff.1 h
  exact List.mem_append_right _ List.mem_cons_self

/-- A tenant that does not exist has no domains. -/
theorem Owned.free (h : Owned rows) {tenantId id : Uuid} (hfree : rows (.tenant tenantId) = none) :
    rows (.domain tenantId id) = none := by
  cases hrow : rows (.domain tenantId id) with
  | none => rfl
  | some row =>
    have htenant := h tenantId id (by rw [hrow]; rfl)
    rw [hfree] at htenant
    cases htenant

/-- No tenant is deleted. -/
theorem Stage.tenant_kept (h : Stage rows written todo) (id : Uuid) :
    (.tenant id, none) ∉ written := by
  cases h <;> simp

/-- A primary row that was written is a new one. -/
theorem Stage.primary_free (h : Stage rows written todo) (howned : Owned rows) {row : Row}
    (hmem : (k, some row) ∈ written) (hrow : row.isPrimary = true)
    (hk : ∀ id, k ≠ .tenant id) : rows k = none := by
  cases h with
  | creating | adding | removing => cases hmem
  | tenant => 
    cases List.mem_singleton.1 hmem
    exact absurd rfl (hk _)
  | created h hfree =>
    rcases List.mem_cons.1 hmem with heq | hmem
    · cases heq
      -- The tenant's row is not there, so none of its domains is.
      exact howned.free hfree
    · cases List.mem_singleton.1 hmem
      exact absurd rfl (hk _)
  | demoted _ _ _ _ hversion =>
    cases List.mem_singleton.1 hmem
    -- The demoted domain is stored already, and this row is new.
    rw [hversion] at hrow
    cases hrow
  | added _ h _ =>
    cases List.mem_singleton.1 hmem
    rw [h] at hrow
    cases hrow
  | replaced _ _ _ hversion hfree =>
    rcases List.mem_cons.1 hmem with heq | hmem
    · cases heq
      exact hfree
    · cases List.mem_singleton.1 hmem
      rw [hversion] at hrow
      cases hrow
  | removed => cases List.mem_singleton.1 hmem

/-- The commits of the others do not reach the rows a session has written, nor delete tenants. -/
theorem Stage.of_rows (h : Stage rows written todo)
    (hwritten : ∀ k, (written.lookup k).isSome = true → rows' k = rows k)
    (htenants : ∀ id, (rows (.tenant id)).isSome = true → (rows' (.tenant id)).isSome = true) :
    Stage rows' written todo := by
  cases h with
  | creating h => exact .creating h
  | tenant h hfree => exact .tenant h ((hwritten _ (by simp)).trans hfree)
  | created h hfree => exact .created h ((hwritten _ (by simp)).trans hfree)
  | adding htenant hdemotions h => exact .adding (htenants _ htenant) hdemotions h
  | demoted htenant hdemotions h hold hversion =>
    refine .demoted (htenants _ htenant) hdemotions h ?_ hversion
    rw [Primary, hwritten _ (by simp)]
    exact hold
  | added htenant h hfree =>
    exact .added (htenants _ htenant) h ((hwritten _ (by simp)).trans hfree)
  | @replaced tenantId id old domain version htenant h hold hversion hfree =>
    refine .replaced (htenants _ htenant) h ?_ hversion ((hwritten _ (by simp)).trans hfree)
    rw [Primary, hwritten _ ?_]
    · exact hold
    · rw [List.lookup_cons]
      split
      · rfl
      · simp
  | removing => exact .removing
  | removed h =>
    refine .removed ?_
    rw [Primary, hwritten _ (by simp)]
    exact h

end Stage

/-! ### Steps -/

/-- A demotion demotes whatever the row has become. -/
theorem isPrimary_overlay_demoted {read current : Row} (h : read.isPrimary = true) :
    (overlay read read.demoted current).isPrimary = false := by
  cases read with
  | tenant t => cases h
  | domain d =>
    cases current with
    | tenant t => rfl
    | domain current =>
      have hread : d.isPrimary = true := h
      show column d.isPrimary false _ = false
      rw [hread]
      rfl

section Steps

variable {s s' : State} {t : Nat} {op : Op} {w : Write Key Row Empty} {written : Written}
  {todo : Writes} {v : Option Row} {tb tb' : Table Key Row Nat}

/-- One statement of a session. -/
theorem Stage.flush (h : Stage tb.rows written (w :: todo)) (hone : OnePrimary tb.rows)
    (hdirty : ∀ k, tb.dirty t k = written.lookup k)
    (hfits : ∀ current ∈ tb.visible t w.key, StillPrimary op w current)
    (hsettled : w.change = .delete → Settled tb w.key)
    (hproduces : domains.Produces tb t w v) : Stage tb.rows ((w.key, v) :: written) todo := by
  generalize htodo : w :: todo = writes at h
  cases h with
  | creating h =>
    cases htodo
    cases hproduces with
    | insert hchange hkey =>
      cases hchange
      exact .tenant h (Table.rows_of_not_mem hkey)
    | update hchange | delete hchange => cases hchange
  | tenant h hfree =>
    cases htodo
    cases hproduces with
    | insert hchange hkey =>
      cases hchange
      exact .created h hfree
    | update hchange | delete hchange => cases hchange
  | created | added | replaced | removed => cases htodo
  | @adding tenantId id domain demotions htenant hdemotions h =>
    cases demotions with
    | nil =>
      cases htodo
      cases hproduces with
      | insert hchange hkey =>
        cases hchange
        refine .added htenant ?_ (Table.rows_of_not_mem hkey)
        exact Bool.eq_false_iff.2 fun hprimary => h.1 hprimary rfl
      | update hchange | delete hchange => cases hchange
    | cons demotion demotions =>
      cases htodo
      obtain ⟨old, row, rfl, hrow⟩ := hdemotions _ List.mem_cons_self
      cases hproduces with
      | insert hchange | delete hchange => cases hchange
      | update hchange hcurrent =>
        cases hchange
        have hprimary := hfits _ hcurrent
        rw [Table.visible_of_clean (hdirty _)] at hcurrent
        refine .demoted htenant (fun w hw => hdemotions w (List.mem_cons_of_mem _ hw))
          (h.2 (List.cons_ne_nil _ _)) ?_ (isPrimary_overlay_demoted hrow)
        rw [Primary, hcurrent]
        exact hprimary
  | @demoted tenantId id old domain version demotions htenant hdemotions h hold hversion =>
    cases demotions with
    | nil =>
      cases htodo
      cases hproduces with
      | insert hchange hkey =>
        cases hchange
        exact .replaced htenant h hold hversion (Table.rows_of_not_mem hkey)
      | update hchange | delete hchange => cases hchange
    | cons demotion demotions =>
      cases htodo
      obtain ⟨other, row, rfl, hrow⟩ := hdemotions _ List.mem_cons_self
      cases hproduces with
      | insert hchange | delete hchange => cases hchange
      | @update _ _ current hchange hcurrent =>
        -- the only primary domain has been demoted already
        have hprimary : current.isPrimary = true := hfits current hcurrent
        exfalso
        by_cases hother : other = old
        · subst hother
          have hd := hdirty (.domain tenantId other)
          rw [List.lookup_cons, beq_self_eq_true] at hd
          rw [Table.visible_of_dirty hd] at hcurrent
          cases hcurrent
          rw [hversion] at hprimary
          cases hprimary
        · have hd := hdirty (.domain tenantId other)
          rw [List.lookup_cons, beq_false_of_ne (by simpa using hother)] at hd
          rw [Table.visible_of_clean hd] at hcurrent
          refine hother ((hone tenantId htenant).unique ?_ hold)
          rw [Primary, hcurrent]
          exact hprimary
  | removing =>
    cases htodo
    cases hproduces with
    | insert hchange | update hchange => cases hchange
    | delete hchange =>
      refine .removed fun hprimary => ?_
      have hcommitted := (hsettled hchange).committed
      rw [Primary] at hprimary
      rw [hprimary] at hcommitted
      cases hcommitted

end Steps

/-! ### Commits -/

section Commits

variable {rows : Key → Option Row} {written : Written} {tenantId id : Uuid}

/-- The committed rows once a session has published what it wrote. -/
def published (rows : Key → Option Row) (written : Written) : Key → Option Row :=
  fun k => (written.lookup k).getD (rows k)

theorem published_cons_self (k : Key) (v : Option Row) :
    published rows ((k, v) :: written) k = v := by
  rw [published, List.lookup_cons_self]
  rfl

theorem published_cons_of_ne {j k : Key} (h : j ≠ k) (v : Option Row) :
    published rows ((k, v) :: written) j = published rows written j := by
  rw [published, List.lookup_cons, beq_false_of_ne h]
  rfl

/-- Whether a domain is primary is a matter of its row. -/
theorem primary_congr {rows' : Key → Option Row}
    (h : rows' (.domain tenantId id) = rows (.domain tenantId id)) :
    Primary rows' tenantId id ↔ Primary rows tenantId id := by
  rw [Primary, Primary, h]

/-- The row just written, whatever stood there. -/
theorem primary_cons_self {row : Row} : Primary
    (published rows ((.domain tenantId id, some row) :: written)) tenantId id ↔
      row.isPrimary = true := by
  rw [Primary, published_cons_self]
  rfl

/-- The other domains of the tenant. -/
theorem primary_cons_of_ne {j : Uuid} (h : j ≠ id) (v : Option Row) :
    Primary (published rows ((.domain tenantId id, v) :: written)) tenantId j ↔
      Primary (published rows written) tenantId j :=
  primary_congr (published_cons_of_ne (by simpa using h) v)

/-- No row, no primary domain. -/
theorem not_primary_of_none {row : Key → Option Row} (h : row (.domain tenantId id) = none) :
    ¬ Primary row tenantId id := by
  rw [Primary, h]
  exact Bool.false_ne_true

/-- Versions of one tenant's rows leave the other tenants alone. -/
theorem OnePrimary.published (hone : OnePrimary rows) (tenantId : Uuid)
    (hwritten : ∀ k ∈ written.map Prod.fst, k = .tenant tenantId ∨ ∃ id, k = .domain tenantId id)
    (hself : (published rows written (.tenant tenantId)).isSome = true →
      ∃! id, Primary (published rows written) tenantId id) :
    OnePrimary (published rows written) := by
  intro other hsome
  by_cases hother : other = tenantId
  · subst hother
    exact hself hsome
  · have hrest : ∀ k, (k = .tenant other ∨ ∃ id, k = .domain other id) →
        Domains.published rows written k = rows k := by
      intro k hk
      have hnone : written.lookup k = none := by
        cases hlookup : written.lookup k with
        | none => rfl
        | some v =>
          have hmem := hwritten k (List.mem_map_of_mem (mem_of_lookup hlookup))
          rcases hk with rfl | ⟨i, rfl⟩ <;> rcases hmem with heq | ⟨j, heq⟩ <;> cases heq <;>
            exact absurd rfl hother
      rw [Domains.published, hnone]
      rfl
    rw [hrest _ (.inl rfl)] at hsome
    exact (existsUnique_congr fun q => primary_congr (hrest _ (.inr ⟨q, rfl⟩))).2 (hone other hsome)

/-- With everything written there is one primary domain. -/
theorem Stage.one (h : Stage rows written []) (hone : OnePrimary rows) (howned : Owned rows) :
    OnePrimary (published rows written) := by
  generalize htodo : ([] : Writes) = todo at h
  cases h with
  | creating | tenant | removing => cases htodo
  | adding | demoted => exact absurd htodo (by simp)
  | @created tenantId id tenant domain h hfree =>
    refine hone.published tenantId (by simp) fun _ =>
      ⟨id, primary_cons_self.2 h, fun j hj => ?_⟩
    by_contra hne
    have hold := (primary_congr (published_cons_of_ne (by simp) _)).1
      ((primary_cons_of_ne hne _).1 hj)
    exact not_primary_of_none (howned.free hfree) hold
  | @added tenantId id domain htenant h hfree =>
    refine hone.published tenantId (by simp) fun _ =>
      (existsUnique_congr fun j => ?_).2 (hone tenantId htenant)
    -- The domain added is not primary, so the primary one is who it was.
    by_cases hj : j = id
    · subst hj
      rw [primary_cons_self, h]
      exact iff_of_false Bool.false_ne_true (not_primary_of_none hfree)
    · exact primary_cons_of_ne hj _
  | @replaced tenantId id old domain version htenant h hold hversion hfree =>
    refine hone.published tenantId (by simp) fun _ =>
      ⟨id, primary_cons_self.2 h, fun j hj => ?_⟩
    by_contra hne
    have hj := (primary_cons_of_ne hne _).1 hj
    -- The domain added is primary, and the old one was demoted before it.
    by_cases hjold : j = old
    · subst hjold
      rw [primary_cons_self, hversion] at hj
      cases hj
    · exact hjold ((hone tenantId htenant).unique ((primary_cons_of_ne hjold _).1 hj) hold)
  | @removed tenantId id h =>
    refine hone.published tenantId (by simp) fun hsome => ?_
    rw [published_cons_of_ne (by simp)] at hsome
    refine (existsUnique_congr fun j => ?_).2 (hone tenantId hsome)
    -- The domain removed is not the primary one.
    by_cases hj : j = id
    · subst hj
      exact iff_of_false (not_primary_of_none (published_cons_self ..)) h
    · exact primary_cons_of_ne hj _

/-- Every stage of a session leaves the tenants where they are. -/
theorem Stage.tenants {todo : Writes} (h : Stage rows written todo)
    (hsome : (rows (.tenant id)).isSome = true) :
    (published rows written (.tenant id)).isSome = true := by
  unfold published
  cases hlookup : written.lookup (.tenant id) with
  | none => exact hsome
  | some v =>
    cases v with
    | none => exact absurd (mem_of_lookup hlookup) (h.tenant_kept id)
    | some row => rfl

theorem Stage.owned (h : Stage rows written []) (howned : Owned rows) :
    Owned (published rows written) := by
  intro tenantId id hsome
  cases hlookup : written.lookup (.domain tenantId id) with
  | none =>
    rw [published, hlookup] at hsome
    exact h.tenants (howned tenantId id hsome)
  | some v =>
    have hmem := mem_of_lookup hlookup
    generalize htodo : ([] : Writes) = todo at h
    have htenants : (rows (.tenant tenantId)).isSome = true →
        (published rows written (.tenant tenantId)).isSome = true := h.tenants
    cases h with
    | creating | tenant | removing => cases htodo
    | adding | demoted => exact absurd htodo (by simp)
    | created h hfree =>
      rcases List.mem_cons.1 hmem with heq | hmem
      · cases heq
        rw [published_cons_of_ne (by simp), published_cons_self]
        rfl
      · cases List.mem_singleton.1 hmem
    | added htenant =>
      cases List.mem_singleton.1 hmem
      exact htenants htenant
    | replaced htenant =>
      rcases List.mem_cons.1 hmem with heq | hmem
      · cases heq
        exact htenants htenant
      · cases List.mem_singleton.1 hmem
        exact htenants htenant
    | removed =>
      cases List.mem_singleton.1 hmem
      rw [published_cons_self] at hsome
      cases hsome

end Commits

/-! ### Loads -/

section Loads

variable {tb : Table Key Row Nat} {t : Nat} {op : Op} {writes : Writes}

/-- A demotion writes something for primary domains only. -/
theorem ne_demoted_iff {row : Row} : row ≠ row.demoted ↔ row.isPrimary = true := by
  cases row with
  | tenant t => exact iff_of_false (fun h => h rfl) Bool.false_ne_true
  | domain d =>
    obtain ⟨domain, isPrimary, verificationToken⟩ := d
    cases isPrimary with
    | true => exact iff_of_true nofun rfl
    | false => exact iff_of_false (fun h => h rfl) Bool.false_ne_true

/-- The tenant's own domains among the rows. -/
theorem mem_domainsOf {tenantId : Uuid} {rows : Rows} {row : Key × Row}
    (h : row ∈ domainsOf tenantId rows) : row ∈ rows ∧ ∃ id, row.1 = .domain tenantId id := by
  obtain ⟨hmem, hkey⟩ := List.mem_filter.1 h
  refine ⟨hmem, ?_⟩
  obtain ⟨key, row⟩ := row
  cases key with
  | tenant id => cases hkey
  | domain tenant id =>
    obtain rfl := of_decide_eq_true hkey
    exact ⟨id, rfl⟩

/-- What the demotions come to, once the rows that are not primary are left out. -/
theorem demotion_of_mem {tenantId : Uuid} {rows : Rows} {w : Write Key Row Empty}
    (h : w ∈ ((domainsOf tenantId rows).map fun row =>
      (⟨row.1, .update row.2 row.2.demoted, []⟩ : Write Key Row Empty)).filter Write.emits) :
    Demotion tenantId w := by
  obtain ⟨hmem, hemits⟩ := List.mem_filter.1 h
  obtain ⟨⟨key, row⟩, hrow, rfl⟩ := List.mem_map.1 hmem
  obtain ⟨-, id, rfl⟩ := mem_domainsOf hrow
  exact ⟨id, row, rfl, ne_demoted_iff.1 (of_decide_eq_true hemits)⟩

/-- All of the tenant's domains stop being primary. -/
def demotions (tenantId : Uuid) (rows : Rows) : Writes :=
  (domainsOf tenantId rows).map fun row => ⟨row.1, .update row.2 row.2.demoted, []⟩

/-- A new tenant comes with one primary domain. -/
theorem create_eq_ok {id domainId : Uuid} {data : TenantCreate} {trialEndsAt : DateTime}
    {verificationToken : String} {rows : Rows}
    (h : create id domainId data trialEndsAt verificationToken rows = .ok writes) :
    ∃ tenant domain, domain.isPrimary = true ∧
      writes = [inserted (.tenant id) tenant, inserted (.domain id domainId) domain] := by
  unfold create at h
  split at h
  · cases h
  · split at h
    · cases h
    · cases h
      exact ⟨_, _, rfl, rfl⟩

/-- A new primary domain demotes the others first. -/
theorem addDomain_eq_ok {tenantId domainId : Uuid} {data : TenantDomainCreate}
    {verificationToken : String} {rows : Rows}
    (h : addDomain tenantId domainId data verificationToken rows = .ok writes) :
    (∃ row, (.tenant tenantId, row) ∈ rows) ∧ ∃ domain, domain.isPrimary = data.isPrimary ∧
      writes = (if data.isPrimary then demotions tenantId rows else []) ++
        [inserted (.domain tenantId domainId) domain] := by
  unfold addDomain at h
  split at h
  · cases h
  · next htenant =>
    split at h
    · cases h
    · cases h
      refine ⟨?_, _, rfl, rfl⟩
      simp only [List.all_eq_true, not_forall, decide_eq_true_eq, not_not] at htenant
      obtain ⟨⟨key, row⟩, hrow, rfl⟩ := htenant
      exact ⟨row, hrow⟩

/-- A primary domain is not removed. -/
theorem removeDomain_eq_ok {tenantId domainId : Uuid} {rows : Rows}
    (h : removeDomain tenantId domainId rows = .ok writes) :
    ∃ row, (.domain tenantId domainId, row) ∈ rows ∧ row.isPrimary = false ∧
      writes = [⟨.domain tenantId domainId, .delete, []⟩] := by
  unfold removeDomain at h
  split at h
  · cases h
  · split at h
    · cases h
    · next key row hfind =>
      split at h
      · cases h
      · next hprimary =>
        cases h
        have hkey := List.find?_some hfind
        obtain rfl : key = .domain tenantId domainId := of_decide_eq_true hkey
        exact ⟨row, List.mem_of_find?_eq_some hfind, Bool.eq_false_iff.2 hprimary, rfl⟩

/-- A session that adds a primary domain has read the one it demotes. -/
theorem demotions_ne_nil {tenantId domainId : Uuid} {data : TenantDomainCreate}
    {verificationToken : String} (hone : OnePrimary tb.rows)
    (hvisible : ∀ k, tb.visible t k = tb.rows k)
    (htenant : (tb.rows (.tenant tenantId)).isSome = true) :
    (demotions tenantId (domains.loaded tb t
      (.addDomain tenantId domainId data verificationToken))).filter Write.emits ≠ [] := by
  obtain ⟨p, hp, -⟩ := hone tenantId htenant
  obtain ⟨row, hrow, hprimary⟩ := (Option.any_eq_true _ _).1 hp
  have hloaded : (Key.domain tenantId p, row) ∈
      domains.loaded tb t (.addDomain tenantId domainId data verificationToken) :=
    UnitOfWork.mem_loaded_of_visible ((hvisible _).trans hrow)
      (Bool.or_eq_true_iff.2 (.inl (decide_eq_true rfl)))
  refine List.ne_nil_of_mem (a := ⟨.domain tenantId p, .update row row.demoted, []⟩) ?_
  refine List.mem_filter.2 ⟨List.mem_map.2 ⟨(.domain tenantId p, row), ?_, rfl⟩,
    decide_eq_true (ne_demoted_iff.2 hprimary)⟩
  exact List.mem_filter.2 ⟨hloaded, decide_eq_true rfl⟩

/-- What a request plans begins with the tenants as they stand. -/
theorem stage_of_plan (hclean : ∀ k, tb.dirty t k = none) (hone : OnePrimary tb.rows)
    (hplan : plan op (domains.loaded tb t op) = some writes) :
    Stage tb.rows [] (writes.filter Write.emits) := by
  have hvisible : ∀ k, tb.visible t k = tb.rows k := fun k => Table.visible_of_clean (hclean k)
  cases op with
  | create id domainId data trialEndsAt verificationToken =>
    obtain ⟨tenant, domain, hprimary, rfl⟩ := create_eq_ok (toOption_eq_some hplan)
    exact .creating hprimary
  | addDomain tenantId domainId data verificationToken =>
    obtain ⟨⟨tenant, htenant⟩, domain, hprimary, rfl⟩ := addDomain_eq_ok (toOption_eq_some hplan)
    have hsome : (tb.rows (.tenant tenantId)).isSome = true := by
      rw [← hvisible, (UnitOfWork.mem_loaded htenant).1]
      rfl
    rw [List.filter_append]
    cases hdata : data.isPrimary with
    | true =>
      rw [hdata] at hprimary
      refine .adding hsome (fun w hw => demotion_of_mem hw) (iff_of_true hprimary ?_)
      -- A tenant always has a primary domain, so a new one demotes it.
      exact demotions_ne_nil hone hvisible hsome
    | false =>
      rw [hdata] at hprimary
      refine .adding hsome (fun w hw => nomatch hw) (iff_of_false ?_ fun hne => hne rfl)
      rw [hprimary]
      exact Bool.false_ne_true
  | removeDomain tenantId domainId =>
    obtain ⟨row, -, -, rfl⟩ := removeDomain_eq_ok (toOption_eq_some hplan)
    exact .removing

/-- What a removal has read is settled. -/
theorem settled_of_plan (hclean : ∀ k, tb.dirty t k = none)
    (hfree : ∀ u k row, tb.dirty u k = some (some row) → row.isPrimary = true →
      (∀ id, k ≠ .tenant id) → tb.rows k = none)
    (hplan : plan op (domains.loaded tb t op) = some writes) {w : Write Key Row Empty}
    (hw : w ∈ writes) (hdelete : w.change = .delete) : Settled tb w.key := by
  cases op with
  | create id domainId data trialEndsAt verificationToken =>
    obtain ⟨tenant, domain, -, rfl⟩ := create_eq_ok (toOption_eq_some hplan)
    rcases List.mem_cons.1 hw with rfl | hw
    · cases hdelete
    · cases List.mem_singleton.1 hw
      cases hdelete
  | addDomain tenantId domainId data verificationToken =>
    obtain ⟨-, domain, -, rfl⟩ := addDomain_eq_ok (toOption_eq_some hplan)
    rcases List.mem_append.1 hw with hw | hw
    · split at hw
      · obtain ⟨row, -, rfl⟩ := List.mem_map.1 hw
        cases hdelete
      · cases hw
    · cases List.mem_singleton.1 hw
      cases hdelete
  | removeDomain tenantId domainId =>
    obtain ⟨row, hrow, hprimary, rfl⟩ := removeDomain_eq_ok (toOption_eq_some hplan)
    obtain rfl := List.mem_singleton.1 hw
    have hvisible := (UnitOfWork.mem_loaded hrow).1
    have hrows := (Table.visible_of_clean (hclean _)).symm.trans hvisible
    refine ⟨Table.visible_keys hvisible, ?_, fun u version hd => ?_⟩
    · -- The service refuses to remove the primary domain.
      show (tb.rows (.domain tenantId domainId)).any Row.isPrimary = false
      rw [hrows]
      exact hprimary
    · cases hversion : version.isPrimary with
      | false => rfl
      | true => cases (hfree u _ version hd hversion (by simp)).symm.trans hrows

end Loads

/-! ### Every run -/

section Runs

variable {s s' : State} {t : Nat} {tb tb' : Table Key Row Nat} {k : Key}

/-- What a session sees once it is done is what it publishes. -/
theorem visible_eq {written : Written} (hdirty : ∀ k, tb.dirty t k = written.lookup k) (k : Key) :
    tb.visible t k = published tb.rows written k := by
  rw [Table.visible, hdirty, published]

/-- A statement that makes no row primary that was there before. -/
theorem Settled.wrote (h : Settled tb k) {j : Key} {v : Option Row}
    (hwrote : Table.Wrote t j v tb tb')
    (hv : ∀ row, v = some row → row.isPrimary = true → j ∉ tb.keys) : Settled tb' k where
  mem_keys := by
    rcases hwrote.keys with hkeys | ⟨-, hkeys⟩
    · exact hkeys ▸ h.mem_keys
    · exact hkeys ▸ List.mem_cons_of_mem _ h.mem_keys
  committed := hwrote.rows ▸ h.committed
  pending u row hd := by
    by_cases hu : u = t
    · subst hu
      by_cases hk : k = j
      · subst hk
        cases hprimary : row.isPrimary with
        | false => rfl
        | true =>
          obtain rfl := Option.some.inj (hwrote.self.symm.trans hd)
          exact absurd h.mem_keys (hv row rfl hprimary)
      · exact h.pending u row ((hwrote.rest k hk).symm.trans hd)
    · exact h.pending u row (((hwrote.other u hu).dirty k).symm.trans hd)

theorem Settled.commit (h : Settled tb k) (t : Nat) : Settled (tb.commit t) k where
  mem_keys := h.mem_keys
  committed := by
    show (tb.visible t k).any Row.isPrimary = false
    cases hd : tb.dirty t k with
    | none =>
      rw [Table.visible_of_clean hd]
      exact h.committed
    | some v =>
      rw [Table.visible_of_dirty hd]
      cases v with
      | none => rfl
      | some row => exact h.pending t row hd
  pending u row hd := h.pending u row (Table.commit_dirty.1 hd).2

theorem Settled.rollback (h : Settled tb k) (t : Nat) : Settled (tb.rollback t) k where
  mem_keys := h.mem_keys
  committed := h.committed
  pending u row hd := h.pending u row (Table.rollback_dirty.1 hd).2

/-- An `UPDATE` demotes a domain. -/
theorem Stage.demotes {rows : Key → Option Row} {written : Written} {w : Write Key Row Empty}
    {todo : Writes} (h : Stage rows written (w :: todo)) {read edited : Row}
    (hchange : w.change = .update read edited) : ∃ tenantId, Demotion tenantId w := by
  have hfirst : ∀ {tenantId id : Uuid} {domain : Row} {demotions : Writes},
      (∀ w ∈ demotions, Demotion tenantId w) →
        w :: todo = demotions ++ [inserted (.domain tenantId id) domain] →
          ∃ tenantId, Demotion tenantId w := by
    intro tenantId id domain demotions hdemotions htodo
    cases demotions with
    | nil =>
      cases htodo
      cases hchange
    | cons demotion demotions =>
      cases htodo
      exact ⟨tenantId, hdemotions _ List.mem_cons_self⟩
  generalize htodo : w :: todo = writes at h
  cases h with
  | creating | tenant | removing =>
    cases htodo
    cases hchange
  | created | added | replaced | removed => cases htodo
  | adding _ hdemotions => exact hfirst hdemotions htodo
  | demoted _ hdemotions => exact hfirst hdemotions htodo

/-- A primary domain being written is a new one. -/
theorem Inv.primary_free (h : Inv s) {u : Nat} {row : Row}
    (hd : s.table.dirty u k = some (some row)) (hrow : row.isPrimary = true)
    (hk : ∀ id, k ≠ .tenant id) : s.table.rows k = none := by
  cases hu : s.txns u with
  | none => cases (h.clean u hu k).symm.trans hd
  | some session =>
    obtain ⟨written, hdirty, hstage⟩ := h.stage u session hu
    exact hstage.primary_free h.owned (mem_of_lookup ((hdirty k).symm.trans hd)) hrow hk

/-- A commit keeps the tenants. -/
theorem Inv.tenants (h : Inv s) (t : Nat) {id : Uuid}
    (hsome : (s.table.rows (.tenant id)).isSome = true) :
    (s.table.visible t (.tenant id)).isSome = true := by
  cases ht : s.txns t with
  | none =>
    rw [Table.visible_of_clean (h.clean t ht _)]
    exact hsome
  | some session =>
    obtain ⟨written, hdirty, hstage⟩ := h.stage t session ht
    rw [visible_eq hdirty]
    exact hstage.tenants hsome

/-- A row that a statement makes primary is a new one. -/
theorem new_of_produces {rows : Key → Option Row} {written : Written} {w : Write Key Row Empty}
    {todo : Writes} (h : Stage rows written (w :: todo)) {v : Option Row}
    (hproduces : domains.Produces tb t w v) {row : Row} (hv : v = some row)
    (hprimary : row.isPrimary = true) : w.key ∉ tb.keys := by
  cases hproduces with
  | insert hchange hkey => exact hkey
  | update hchange hcurrent =>
    obtain ⟨tenantId, id, loaded, rfl, hread⟩ := h.demotes hchange
    obtain ⟨rfl, rfl⟩ := Change.update.inj hchange
    cases hv
    cases (isPrimary_overlay_demoted hread).symm.trans hprimary
  | delete hchange => cases hv

/-- A flush of one planned row. -/
theorem Inv.flush (h : Inv s) {op : Op} {w : Write Key Row Empty} {todo : Writes}
    {effects : List (Key × Empty)} {v : Option Row}
    (hfits : ∀ current ∈ s.table.visible t w.key, StillPrimary op w current)
    (ht : s.txns t = some ⟨op, w :: todo, effects⟩) (hproduces : domains.Produces s.table t w v)
    (hwrote : Table.Wrote t w.key v s.table tb) {effects' : List (Key × Empty)} :
    Inv (s.goes t tb ⟨op, todo, effects'⟩) := by
  obtain ⟨written, hdirty, hstage⟩ := h.stage t _ ht
  have hnew : ∀ row, v = some row → row.isPrimary = true → w.key ∉ s.table.keys :=
    fun row hv hprimary => new_of_produces hstage hproduces hv hprimary
  refine ⟨h.clean.goes hwrote.other, ?_, ?_, ?_, ?_⟩
  · show OnePrimary tb.rows
    rw [hwrote.rows]
    exact h.one
  · show Owned tb.rows
    rw [hwrote.rows]
    exact h.owned
  · show ∀ u session, Function.update s.txns t _ u = some session → ∃ written : Written,
      (∀ k, tb.dirty u k = written.lookup k) ∧ Stage tb.rows written session.todo
    rw [hwrote.rows]
    refine Machine.each_goes h.stage (fun u session hu ⟨written, hdirty, hstage⟩ => ?_) ?_
    · exact ⟨written, fun k => ((hwrote.other u hu).dirty k).trans (hdirty k), hstage⟩
    · refine ⟨(w.key, v) :: written, fun k => ?_, hstage.flush h.one hdirty hfits
        (fun hdelete => h.settled t _ ht w List.mem_cons_self hdelete) hproduces⟩
      by_cases hk : k = w.key
      · rw [hk, List.lookup_cons_self, hwrote.self]
      · rw [List.lookup_cons, beq_false_of_ne hk, hwrote.rest k hk]
        exact hdirty k
  · refine Machine.each_goes h.settled (fun u session _ hsettled w' hw' hdelete => ?_)
      fun w' hw' hdelete => ?_
    · exact (hsettled w' hw' hdelete).wrote hwrote hnew
    · exact (h.settled t _ ht w' (List.mem_cons_of_mem _ hw') hdelete).wrote hwrote hnew

/-- A commit publishes a finished plan. -/
theorem Inv.commit (h : Inv s) {op : Op} {effects : List (Key × Empty)}
    (ht : s.txns t = some ⟨op, [], effects⟩) : Inv (s.ends t (s.table.commit t) effects) := by
  obtain ⟨written, hdirty, hstage⟩ := h.stage t _ ht
  have hrows : (s.table.commit t).rows = published s.table.rows written :=
    funext fun k => visible_eq hdirty k
  refine ⟨h.clean.ends (fun k => if_pos rfl) fun u hu => Table.commit_sameFor hu, ?_, ?_, ?_, ?_⟩
  · show OnePrimary (s.table.commit t).rows
    rw [hrows]
    exact hstage.one h.one h.owned
  · show Owned (s.table.commit t).rows
    rw [hrows]
    exact hstage.owned h.owned
  · refine Machine.each_ends h.stage fun u session hu ⟨written, hdirty, hstage⟩ => ?_
    have hsame : Table.SameFor u s.table (s.table.commit t) := Table.commit_sameFor hu
    refine ⟨written, fun k => (hsame.dirty k).trans (hdirty k),
      hstage.of_rows (fun k hk => ?_) fun id hsome => h.tenants t hsome⟩
    obtain ⟨v, hv⟩ := Option.isSome_iff_exists.1 hk
    exact hsame.rows k (s.table.dirty_lock ((hdirty k).trans hv))
  · exact Machine.each_ends h.settled fun u session _ hsettled w hw hdelete =>
      (hsettled w hw hdelete).commit t

/-- One step keeps the invariant. -/
theorem Inv.step {l : UnitOfWork.Label Op} (h : Inv s) (hmeets : UnitOfWork.Meets StillPrimary s l)
    (hst : domains.step s l = some s') : Inv s' := by
  cases UnitOfWork.stepped_of_step hst with
  | @load t op writes ht hplan =>
    have hclean := h.clean t ht
    refine ⟨h.clean.goes fun u _ => Table.SameFor.refl u _, h.one, h.owned,
      Machine.each_goes h.stage (fun _ _ _ hu => hu) ?_,
      Machine.each_goes h.settled (fun _ _ _ hu => hu) fun w hw hdelete => ?_⟩
    · exact ⟨[], fun k => hclean k, stage_of_plan hclean h.one hplan⟩
    · exact settled_of_plan hclean (fun u k row hd hrow hk => h.primary_free hd hrow hk) hplan
        (List.mem_of_mem_filter hw) hdelete
  | @flush t op w todo effects v table ht hproduces hwrote =>
    refine h.flush (fun current hcurrent => ?_) ht hproduces hwrote
    rw [UnitOfWork.Meets, ht] at hmeets
    exact hmeets current hcurrent
  | @commit t op effects ht => exact h.commit ht
  | @rollback t session ht =>
    refine ⟨h.clean.ends (fun k => if_pos rfl) fun u hu => Table.rollback_sameFor hu, h.one,
      h.owned, ?_, ?_⟩
    · refine Machine.each_ends h.stage fun u session hu hwritten => ?_
      obtain ⟨written, hdirty, hstage⟩ := hwritten
      exact ⟨written, fun k => ((Table.rollback_sameFor hu).dirty k).trans (hdirty k), hstage⟩
    · exact Machine.each_ends h.settled fun u session _ hsettled w hw hdelete =>
        (hsettled w hw hdelete).rollback t

/-- So it holds in every state of a run whose demotions meet what they read. -/
theorem inv (h : domains.machine.ReachVia (UnitOfWork.Meets StillPrimary) s) : Inv s := by
  refine Machine.Inductive.always ⟨?_, fun s l s' hs hmeets hst => hs.step hmeets hst⟩ h
  rintro _ rfl
  exact ⟨fun _ _ _ => rfl, (fun _ h => nomatch h), (fun _ _ h => nomatch h),
    (fun _ _ h => nomatch h), (fun _ _ h => nomatch h)⟩

end Runs

/-- **One primary domain.** Where each demotion meets a domain that is still primary, every
tenant has exactly one primary domain. -/
theorem one_primary {s : State}
    (h : domains.machine.ReachVia (UnitOfWork.Meets StillPrimary) s) : OnePrimary s.table.rows :=
  (inv h).one

/-! ### Two additions -/

/-- A new agency. -/
def agency : Op := .create 1 0 ⟨"Agency", "agency", "agency.test", []⟩ 100 "v0"

/-- Another primary domain. -/
def addition (id : Uuid) (domain : String) : Op := .addDomain 1 id ⟨domain, true⟩ "v"

/-- The agency is created. -/
def founded : List (UnitOfWork.Label Op) := [.load 0 agency, .flush 0, .flush 0, .commit 0]

/-- **Two more primary domains**, one after the other. -/
theorem one_primary_sequential : ∃ s : State, (s.table.rows (.tenant 1)).isSome = true ∧
    OnePrimary s.table.rows := by
  obtain ⟨s, hs, hp⟩ := Machine.exists_reachVia_of_run (M := domains.machine)
    (G := UnitOfWork.Meets StillPrimary) (s := .empty)
    (founded ++ [.load 1 (addition 2 "new.test"), .flush 1, .flush 1, .commit 1])
    (fun s => (s.table.rows (.tenant 1)).isSome) rfl (by decide)
  exact ⟨s, hp, one_primary hs⟩

/-- Two additions have read the same primary domain: the second demotes it once more, and
leaves the first one's domain primary beside its own. -/
theorem two_primaries : ¬ ∀ s, domains.machine.Reachable s → OnePrimary s.table.rows := by
  intro hclaim
  obtain ⟨s, hs, hp⟩ := Machine.exists_reachable_of_run (M := domains.machine) (s := .empty)
    (founded ++ [.load 1 (addition 2 "new.test"), .load 2 (addition 3 "other.test"), .flush 1,
      .flush 1, .commit 1, .flush 2, .flush 2, .commit 2])
    (fun s => (s.table.rows (.tenant 1)).isSome &&
      ((s.table.rows (.domain 1 2)).any Row.isPrimary &&
        (s.table.rows (.domain 1 3)).any Row.isPrimary)) rfl (by decide)
  obtain ⟨htenant, hp⟩ := Bool.and_eq_true_iff.1 hp
  obtain ⟨hsecond, hthird⟩ := Bool.and_eq_true_iff.1 hp
  exact absurd ((hclaim s hs 1 htenant).unique hsecond hthird) (by decide)

end Domains

end Tenants

end RealEstate
