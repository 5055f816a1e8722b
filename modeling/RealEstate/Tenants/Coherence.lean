import RealEstate.Tenants.Resolution

/-!
# Fresh tenant facts

When a request is served no tenant facts older than a change whose invalidations had
finished when it started.

- `Coherent`: the property, of the context a request runs under and of the site
  configuration it is served.
- `FillsCurrent`: the condition on a step. A cache is filled with facts no older than the
  changes that were already invalidated there, and an invalidation reaches Redis.
- `coherent_of_fills`: runs of such steps only reach states with `Coherent`.
- `stale_refills`: a late refill of either cache outlives the invalidation.
-/

namespace RealEstate

namespace Tenants

namespace Resolution

open RealEstate.Core Systems Cache

/-- No request runs under a context, or is served a site configuration, older than a change
whose invalidations had finished when it started. -/
structure Coherent (s : State) : Prop where
  tenant : ∀ n request, s.requests.row n = some request →
    ∀ tenant ∈ request.progress.tenant, ∀ c ∈ request.after, c ≤ tenant.loadedAt
  config : ∀ n request, s.requests.row n = some request →
    ∀ tenant config, request.progress = .served tenant config →
      ∀ c ∈ request.configAfter, c ≤ config.loadedAt

/-- What is stored is no older than the changes already invalidated where it is stored, and
invalidations succeed. -/
def FillsCurrent (s : State) : Label → Prop
  | .invalidate _ ok => ok = true
  | .keep n true =>
    match (s.requests.row n).map Request.progress with
    | some (.keeping tenant) => ∀ c ∈ s.dropped tenant.value.id, c ≤ tenant.loadedAt
    | _ => True
  | .store n true =>
    match (s.requests.row n).map Request.progress with
    | some (.storing tenant version _) =>
      ∀ c ∈ (s.bumped (siteConfigGroup tenant.value.id)).take version, c ≤ tenant.loadedAt
    | _ => True
  | _ => True

/-- Whether a fill is current is read off the state. -/
instance (s : State) (l : Label) : Decidable (FillsCurrent s l) := by
  unfold FillsCurrent
  split
  · infer_instance
  · split <;> infer_instance
  · split <;> infer_instance
  · infer_instance

/-! ### Keys -/

theorem domainCacheKey_inj {domain domain' : String}
    (h : domainCacheKey domain = domainCacheKey domain') : domain = domain' := by
  have hlist : ("tenant:domain:" ++ domain).toList = ("tenant:domain:" ++ domain').toList :=
    congrArg String.toList h
  rw [String.toList_append, String.toList_append] at hlist
  exact String.toList_injective (List.append_cancel_left hlist)

/-- A domain's key begins unlike those of `core/cache.py`. -/
theorem head?_domainCacheKey (domain : String) :
    (domainCacheKey domain).toList.head? = some 't' := by
  show ("tenant:domain:" ++ domain).toList.head? = some 't'
  rw [String.toList_append, List.head?_append_of_ne_nil _ (by decide)]
  decide

/-- A domain's key is no version. -/
theorem domainCacheKey_ne_versionKey (domain : String) (g : Group) :
    domainCacheKey domain ≠ versionKey g := by
  intro h
  have hhead := head?_versionKey g
  rw [← h, head?_domainCacheKey] at hhead
  cases hhead

/-- Nor is it a stored value. -/
theorem domainCacheKey_ne_valueKey (domain : String) (g : Group) (ident : String) (v : Nat) :
    domainCacheKey domain ≠ valueKey g ident v := by
  intro h
  have hhead := head?_valueKey g ident v
  rw [← h, head?_domainCacheKey] at hhead
  cases hhead

theorem siteConfigGroup_inj {t t' : Uuid} (h : siteConfigGroup t = siteConfigGroup t') :
    t = t' :=
  repr_injective (congrArg (fun g => g.tenantId.toList) h)

/-! ### Dropping domains -/

/-- Dropping domain keys leaves versions and values as they are. -/
theorem dropDomains_versioned {redis : Store String (Cached Payload)}
    {bumped : Group → List Nat} (h : Versioned redis bumped) (domains : List String) :
    Versioned (dropDomains redis domains) bumped := by
  induction domains generalizing redis with
  | nil => exact h
  | cons domain domains ih => exact ih (h.del (domainCacheKey_ne_versionKey domain))

/-- What is left under a domain's key was there before, and the domain is not dropped. -/
theorem get_dropDomains {redis : Store String (Cached Payload)} {domains : List String}
    {domain : String} {v : Cached Payload}
    (h : (dropDomains redis domains).get (domainCacheKey domain) = some v) :
    redis.get (domainCacheKey domain) = some v ∧ domain ∉ domains := by
  induction domains generalizing redis with
  | nil => exact ⟨h, List.not_mem_nil⟩
  | cons d domains ih =>
    obtain ⟨hget, hmem⟩ := ih h
    by_cases hd : domainCacheKey domain = domainCacheKey d
    · rw [hd, Store.get_del_self] at hget
      cases hget
    · rw [Store.get_del_of_ne _ hd] at hget
      refine ⟨hget, fun hm => ?_⟩
      rcases List.mem_cons.mp hm with rfl | hm
      · exact hd rfl
      · exact hmem hm

/-! ### The invariant -/

variable {directory : Directory}

/-- The context is that of the host's tenant, read after every change in `after`. -/
def Known (directory : Directory) (host : String) (after : List Nat)
    (tenant : Stamped TenantContext) : Prop :=
  directory.owner host = some tenant.value.id ∧ ∀ c ∈ after, c ≤ tenant.loadedAt

/-- What a request may rely on where it stands. -/
def Progress.Sound (directory : Directory) (bumped : Group → List Nat) (host : String)
    (after configAfter : List Nat) : Progress → Prop
  | .asking | .querying | .resolved none => True
  | .keeping tenant | .resolved (some tenant) | .rendering tenant none =>
    Known directory host after tenant
  | .versioned tenant version | .rendering tenant (some version) | .storing tenant version _ =>
    Known directory host after tenant ∧ configAfter.length ≤ version ∧
      version ≤ (bumped (siteConfigGroup tenant.value.id)).length
  | .served tenant config =>
    Known directory host after tenant ∧ ∀ c ∈ configAfter, c ≤ config.loadedAt

/-- What had been invalidated when a request started still counts as invalidated. -/
structure Started (directory : Directory) (dropped : Uuid → List Nat)
    (bumped : Group → List Nat) (request : Request) : Prop where
  after : ∀ t, directory.owner request.host = some t → request.after ⊆ dropped t
  config : ∀ t, directory.owner request.host = some t →
    request.configAfter <+: bumped (siteConfigGroup t)
  config_after : request.configAfter ⊆ request.after

/-- A tenant is bumped only once its domains are dropped, as they are for those in `done`. -/
def BumpsFollow (directory : Directory) : (done : Uuid → Prop) → List Invalidation → Prop
  | _, [] => True
  | done, .domains t :: todo => BumpsFollow directory (fun u => u = t ∨ done u) todo
  | done, .siteConfig t :: todo =>
    (directory.domains t = [] ∨ done t) ∧ BumpsFollow directory done todo

/-- With more done, what is left is still enough. -/
theorem BumpsFollow.mono {todo : List Invalidation} {done done' : Uuid → Prop}
    (hmono : ∀ t, done t → done' t) (h : BumpsFollow directory done todo) :
    BumpsFollow directory done' todo := by
  induction todo generalizing done done' with
  | nil => trivial
  | cons callback todo ih =>
    cases callback with
    | domains t =>
      have htail : BumpsFollow directory (fun u => u = t ∨ done u) todo := h
      exact ih (fun u hu => hu.imp id (hmono u)) htail
    | siteConfig t => exact ⟨h.1.imp id (hmono t), ih hmono h.2⟩

/-- One list of invalidations after another. -/
theorem BumpsFollow.append {todo rest : List Invalidation} {done : Uuid → Prop}
    (h : BumpsFollow directory done todo) (hrest : BumpsFollow directory done rest) :
    BumpsFollow directory done (todo ++ rest) := by
  induction todo generalizing done with
  | nil => exact hrest
  | cons callback todo ih =>
    cases callback with
    | domains t =>
      have htail : BumpsFollow directory (fun u => u = t ∨ done u) todo := h
      exact ih htail (hrest.mono fun u hu => .inr hu)
    | siteConfig t => exact ⟨h.1, ih h.2 hrest⟩

/-- The domains' keys first, then the version of the configuration. -/
theorem bumpsFollow_domainInvalidations (directory : Directory) (done : Uuid → Prop) (t : Uuid) :
    BumpsFollow directory done (domainInvalidations directory t ++ [.siteConfig t]) := by
  unfold domainInvalidations
  by_cases hd : directory.domains t = []
  · rw [if_pos hd]
    exact ⟨.inl hd, trivial⟩
  · rw [if_neg hd]
    exact ⟨.inr (.inl rfl), trivial⟩

/-- Every change registers its `DEL` before its bump. -/
theorem bumpsFollow_invalidations (directory : Directory) (done : Uuid → Prop)
    (changes : List (Uuid × Change)) :
    BumpsFollow directory done (changes.flatMap (invalidations directory)) := by
  induction changes with
  | nil => trivial
  | cons c changes ih =>
    rw [List.flatMap_cons]
    refine BumpsFollow.append ?_ ih
    obtain ⟨t, change⟩ := c
    cases change with
    | status value =>
      show BumpsFollow directory done (domainInvalidations directory t)
      unfold domainInvalidations
      split <;> trivial
    | details name settings => exact bumpsFollow_domainInvalidations directory done t
    | plan value => exact bumpsFollow_domainInvalidations directory done t

/-- Whatever is cached is current, unless its invalidation is still to come. -/
structure Inv (directory : Directory) (s : State) : Prop where
  ids : ∀ t tenant, s.tenants.row t = some tenant → tenant.id = t
  versioned : Versioned s.redis s.bumped
  /-- A cached context is that of its domain's tenant, and fresh. -/
  domains : ∀ domain b, s.redis.get (domainCacheKey domain) = some (.blob b) →
    ∃ tenant, b.value = .context tenant ∧
      Known directory domain (s.dropped tenant.id) ⟨tenant, b.loadedAt⟩
  dropped : ∀ t, ∀ c ∈ s.dropped t, c ≤ s.commits
  bumped : ∀ t, directory.domains t ≠ [] →
    s.bumped (siteConfigGroup t) ⊆ s.dropped t
  committed : ∀ n writer, s.writers.row n = some writer → writer.committedAt ≤ s.commits
  ordered : ∀ n writer, s.writers.row n = some writer →
    BumpsFollow directory (fun t => writer.committedAt ∈ s.dropped t) writer.todo
  started : ∀ n request, s.requests.row n = some request →
    Started directory s.dropped s.bumped request
  sound : ∀ n request, s.requests.row n = some request →
    request.progress.Sound directory s.bumped request.host request.after request.configAfter

/-- A resolved tenant is the one of the host. -/
theorem Progress.Sound.known {bumped : Group → List Nat} {host : String}
    {after configAfter : List Nat} {progress : Progress}
    (h : progress.Sound directory bumped host after configAfter) :
    ∀ tenant ∈ progress.tenant, Known directory host after tenant := by
  intro tenant htenant
  cases progress with
  | asking | querying => cases htenant
  | keeping =>
    cases htenant
    exact h
  | resolved resolved =>
    cases resolved with
    | none => cases htenant
    | some =>
      cases htenant
      exact h
  | rendering _ version =>
    cases version with
    | none =>
      cases htenant
      exact h
    | some =>
      cases htenant
      exact h.1
  | versioned | storing | served =>
    -- From here on the request has its version and its tenant.
    cases htenant
    exact h.1

/-- The invariant contains that what is served is current. -/
theorem Inv.coherent {s : State} (h : Inv directory s) : Coherent s where
  tenant n request hrow tenant htenant :=
    ((h.sound n request hrow).known tenant htenant).2
  config n request hrow tenant config hserved := by
    have hsound := h.sound n request hrow
    rw [hserved] at hsound
    exact hsound.2

/-- It holds with nothing cached and nobody at work. -/
theorem Inv.init {s : State}
    (hids : ∀ t tenant, s.tenants.row t = some tenant → tenant.id = t)
    (hredis : s.redis = .empty) (hrequests : s.requests = .empty) (hwriters : s.writers = .empty)
    (hdropped : s.dropped = fun _ => []) (hbumped : s.bumped = fun _ => []) :
    Inv directory s where
  ids := hids
  versioned := by
    rw [hredis, hbumped]
    exact .empty
  domains domain b hget := by
    rw [hredis] at hget
    cases hget
  dropped t c hc := by
    rw [hdropped] at hc
    cases hc
  bumped t ht c hc := by
    rw [hbumped] at hc
    cases hc
  committed n writer hrow := by
    rw [hwriters] at hrow
    cases hrow
  ordered n writer hrow := by
    rw [hwriters] at hrow
    cases hrow
  started n request hrow := by
    rw [hrequests] at hrow
    cases hrow
  sound n request hrow := by
    rw [hrequests] at hrow
    cases hrow

/-! ### Steps of a request -/

section Requests

variable {s t : State} {n : Nat} {request : Request}

/-- A request moves on to where it may rely on what it has. -/
theorem Inv.move (h : Inv directory s) (hrow : s.requests.row n = some request)
    {progress : Progress} (hsound : progress.Sound directory s.bumped request.host request.after
      request.configAfter) : Inv directory (s.move n request progress) where
  ids := h.ids
  versioned := h.versioned
  domains := h.domains
  dropped := h.dropped
  bumped := h.bumped
  committed := h.committed
  ordered := h.ordered
  started m request' hm := by
    have hstarted := h.started n request hrow
    rcases Rows.row_put hm with ⟨-, rfl⟩ | ⟨-, hm⟩
    · exact ⟨hstarted.after, hstarted.config, hstarted.config_after⟩
    · exact h.started m request' hm
  sound m request' hm := by
    rcases Rows.row_put hm with ⟨-, rfl⟩ | ⟨-, hm⟩
    · exact hsound
    · exact h.sound m request' hm

/-- A request asks the cache for the domain. -/
theorem Inv.ask (h : Inv directory s) {ok : Bool} (hrow : s.requests.row n = some request)
    (hst : s.ask n ok request = some t) : Inv directory t := by
  unfold State.ask at hst
  split at hst
  · split at hst
    · cases hst
      exact h.move hrow trivial
    · split at hst
      · cases hst
        exact h.move hrow trivial
      · next tenant loadedAt hget =>
        cases hst
        refine h.move hrow ?_
        -- A hit is fresh for every change dropped so far, so for those the request knew of.
        obtain ⟨tenant', hpayload, howner, hfresh⟩ := h.domains _ _ (lookup_eq_some.mp hget)
        cases hpayload
        have hafter := (h.started n request hrow).after _ howner
        exact ⟨howner, fun c hc => hfresh c (hafter hc)⟩
      · cases hst
  · cases hst

/-- On a miss the database is asked. -/
theorem Inv.query (h : Inv directory s) (hrow : s.requests.row n = some request)
    (hst : s.query directory n request = some t) : Inv directory t := by
  unfold State.query at hst
  split at hst
  · split at hst
    · cases hst
      exact h.move hrow trivial
    · next tenant hget =>
      cases hst
      refine h.move hrow ?_
      -- The row read is that of the latest commit.
      obtain ⟨u, howner, htenant⟩ := Option.bind_eq_some_iff.mp hget
      have hid := h.ids u tenant htenant
      have hafter := (h.started n request hrow).after u howner
      exact ⟨howner.trans (congrArg some hid.symm), fun c hc => h.dropped u c (hafter hc)⟩
  · cases hst

/-- Redis changes as the caches allow. -/
theorem Inv.withRedis (h : Inv directory s) {redis : Store String (Cached Payload)}
    (hversioned : Versioned redis s.bumped)
    (hdomains : ∀ domain b, redis.get (domainCacheKey domain) = some (.blob b) →
      ∃ tenant, b.value = .context tenant ∧
        Known directory domain (s.dropped tenant.id) ⟨tenant, b.loadedAt⟩) :
    Inv directory { s with redis } where
  ids := h.ids
  versioned := hversioned
  domains := hdomains
  dropped := h.dropped
  bumped := h.bumped
  committed := h.committed
  ordered := h.ordered
  started := h.started
  sound := h.sound

/-- A context read after every change dropped so far may be cached. -/
theorem Inv.remember_context (h : Inv directory s) {host : String}
    {tenant : Stamped TenantContext} {ttl : Nat}
    (hknown : Known directory host (s.dropped tenant.value.id) tenant) :
    Inv directory { s with
      redis := remember s.redis (domainCacheKey host) ⟨.context tenant.value, tenant.loadedAt⟩
        ttl } := by
  refine h.withRedis (h.versioned.set (domainCacheKey_ne_versionKey _) ?_) ?_
  · intro g ident v hkey
    exact (domainCacheKey_ne_valueKey _ _ _ _ hkey).elim
  · intro domain b hget
    by_cases hd : domainCacheKey domain = domainCacheKey host
    · rw [domainCacheKey_inj hd] at hget ⊢
      rcases s.redis.get_set_cases (domainCacheKey host)
        (.blob ⟨.context tenant.value, tenant.loadedAt⟩) (some ttl) with hset | hset
      · cases hset.symm.trans hget
        exact ⟨tenant.value, rfl, hknown⟩
      · cases hset.symm.trans hget
    · exact h.domains domain b ((Store.get_set_of_ne _ _ _ hd).symm.trans hget)

theorem Inv.keep (h : Inv directory s) {domainTtl : Nat} {ok : Bool}
    (hrow : s.requests.row n = some request) (hfills : FillsCurrent s (.keep n ok))
    (hst : s.keep domainTtl n ok request = some t) : Inv directory t := by
  unfold State.keep at hst
  split at hst
  · next tenant hprogress =>
    cases hst
    have hknown := h.sound n request hrow
    rw [hprogress] at hknown
    have hmove : Inv directory (s.move n request (.resolved (some tenant))) :=
      h.move hrow hknown
    cases ok with
    | false => exact hmove
    | true =>
      simp only [FillsCurrent, hrow, Option.map_some, hprogress] at hfills
      exact hmove.remember_context ⟨hknown.1, hfills⟩
  · cases hst

/-- The version of the configuration is read. -/
theorem Inv.version (h : Inv directory s) {ok : Bool} (hrow : s.requests.row n = some request)
    (hst : s.version n ok request = some t) : Inv directory t := by
  unfold State.version at hst
  split at hst
  · next tenant hprogress =>
    rw [Option.ite_none_left_eq_some] at hst
    obtain ⟨-, hst⟩ := hst
    cases hst
    have hknown : Known directory request.host request.after tenant := by
      have hsound := h.sound n request hrow
      rw [hprogress] at hsound
      exact hsound
    refine h.move hrow ?_
    cases ok with
    | false => exact hknown
    | true =>
      -- The version counts every bump so far.
      have hversion := h.versioned.currentVersion (siteConfigGroup tenant.value.id)
      have hprefix := (h.started n request hrow).config _ hknown.1
      refine ⟨hknown, ?_, ?_⟩
      · rw [hversion]
        exact hprefix.length_le
      · exact Nat.le_of_eq hversion
  · cases hst

/-- A site configuration found under a version is as fresh as the version. -/
theorem Inv.cachedConfig_fresh (h : Inv directory s) {tenantId : Uuid} {version : Nat}
    {config : Stamped SiteConfig} (hget : cachedConfig s.redis tenantId version = some config) :
    ∀ c ∈ (s.bumped (siteConfigGroup tenantId)).take version, c ≤ config.loadedAt := by
  unfold cachedConfig at hget
  split at hget
  · next hlookup =>
    cases hget
    exact (h.versioned.fresh _ _ _ _ (lookup_eq_some.mp hlookup)).2
  · cases hget

/-- The configuration is looked up under that version. -/
theorem Inv.look (h : Inv directory s) {ok : Bool} (hrow : s.requests.row n = some request)
    (hst : s.look n ok request = some t) : Inv directory t := by
  unfold State.look at hst
  split at hst
  · next tenant version hprogress =>
    have hsound := h.sound n request hrow
    rw [hprogress] at hsound
    obtain ⟨hknown, hlen, hversion⟩ := hsound
    split at hst
    · cases hst
      exact h.move hrow hknown
    · split at hst
      · next config hget =>
        cases hst
        have hprefix := (h.started n request hrow).config _ hknown.1
        refine h.move hrow ⟨hknown, fun c hc => ?_⟩
        exact h.cachedConfig_fresh hget c (mem_take_of_initial hprefix hlen hc)
      · cases hst
        exact h.move hrow ⟨hknown, hlen, hversion⟩
  · cases hst

/-- What a request renders is as fresh as the context it came with. -/
theorem Inv.rendered (h : Inv directory s) (hrow : s.requests.row n = some request)
    {tenant : Stamped TenantContext} (hknown : Known directory request.host request.after tenant)
    (config : SiteConfig) :
    Inv directory (s.move n request (.served tenant ⟨config, tenant.loadedAt⟩)) :=
  h.move hrow ⟨hknown, fun c hc =>
    hknown.2 c ((h.started n request hrow).config_after hc)⟩

/-- On a miss it is rendered. -/
theorem Inv.render (h : Inv directory s) {usage : UsageSnapshot}
    (hrow : s.requests.row n = some request) (hst : s.render n usage request = some t) :
    Inv directory t := by
  have hsound := h.sound n request hrow
  unfold State.render at hst
  split at hst
  · next hprogress =>
    cases hst
    rw [hprogress] at hsound
    exact h.rendered hrow hsound _
  · next hprogress =>
    cases hst
    rw [hprogress] at hsound
    exact h.move hrow hsound
  · cases hst

/-- And stored under the version read before. -/
theorem Inv.store (h : Inv directory s) {configTtl : Nat} {ok : Bool}
    (hrow : s.requests.row n = some request) (hfills : FillsCurrent s (.store n ok))
    (hst : s.store configTtl n ok request = some t) : Inv directory t := by
  unfold State.store at hst
  split at hst
  · next tenant version config hprogress =>
    cases hst
    have hsound := h.sound n request hrow
    rw [hprogress] at hsound
    obtain ⟨hknown, -, hversion⟩ := hsound
    have hserved := h.rendered hrow hknown config
    cases ok with
    | false => exact hserved
    | true =>
      simp only [FillsCurrent, hrow, Option.map_some, hprogress] at hfills
      -- What is stored lies under no domain's key.
      refine hserved.withRedis (h.versioned.remember hversion hfills) fun domain b hget => ?_
      have hkey := domainCacheKey_ne_valueKey domain (siteConfigGroup tenant.value.id) "_" version
      exact h.domains domain b ((Store.get_set_of_ne _ _ _ hkey).symm.trans hget)
  · cases hst

/-- What had been invalidated when a request starts is all that was invalidated so far. -/
theorem Inv.start (h : Inv directory s) (n : Nat) (host : String) (siteConfig : Bool) :
    Inv directory (s.start directory n host siteConfig) where
  ids := h.ids
  versioned := h.versioned
  domains := h.domains
  dropped := h.dropped
  bumped := h.bumped
  committed := h.committed
  ordered := h.ordered
  started m request hm := by
    rcases Rows.row_put hm with ⟨-, rfl⟩ | ⟨-, hm⟩
    · cases howner : directory.owner host with
      | none =>
        -- A host without an owner has nothing to be stale.
        have hno : ∀ t, directory.owner host ≠ some t := fun t ht => by
          cases howner.symm.trans ht
        exact ⟨fun t ht => (hno t ht).elim, fun t ht => (hno t ht).elim, List.Subset.refl _⟩
      | some u =>
        refine ⟨fun t ht => ?_, fun t ht => ?_, ?_⟩
        · cases howner.symm.trans ht
          exact List.Subset.refl _
        · cases howner.symm.trans ht
          exact List.prefix_refl _
        · -- The tenant has a domain, so its bumps came after its drops.
          have hmem : host ∈ directory.domains u := (directory.mem_domains host u).mpr howner
          exact h.bumped u (List.ne_nil_of_mem hmem)
    · exact h.started m request hm
  sound m request hm := by
    rcases Rows.row_put hm with ⟨-, rfl⟩ | ⟨-, hm⟩
    · trivial
    · exact h.sound m request hm

end Requests

/-! ### Steps of a transaction -/

section Writers

variable {s t : State} {n : Nat}

/-- A change keeps the tenants' own ids. -/
theorem applyChange_id {tenants tenants' : Rows Uuid Tenant} {c : Uuid × Change}
    (hids : ∀ t tenant, tenants.row t = some tenant → tenant.id = t)
    (h : applyChange tenants c = some tenants') :
    ∀ t tenant, tenants'.row t = some tenant → tenant.id = t := by
  obtain ⟨tenant, hrow, rfl⟩ := Option.map_eq_some_iff.mp h
  intro t tenant' ht
  rcases Rows.row_put ht with ⟨rfl, rfl⟩ | ⟨-, ht⟩
  · have hid := hids c.1 tenant hrow
    cases c.2 <;> exact hid
  · exact hids t tenant' ht

theorem applyChanges_id {changes : List (Uuid × Change)} {tenants tenants' : Rows Uuid Tenant}
    (hids : ∀ t tenant, tenants.row t = some tenant → tenant.id = t)
    (h : changes.foldlM applyChange tenants = some tenants') :
    ∀ t tenant, tenants'.row t = some tenant → tenant.id = t := by
  induction changes generalizing tenants with
  | nil =>
    cases h
    exact hids
  | cons c changes ih =>
    rw [List.foldlM_cons] at h
    obtain ⟨mid, hmid, hrest⟩ := Option.bind_eq_some_iff.mp h
    exact ih (applyChange_id hids hmid) hrest

/-- A writer commits; its invalidations are still to come. -/
theorem Inv.commit (h : Inv directory s) {changes : List (Uuid × Change)}
    (hst : s.commit directory n changes = some t) : Inv directory t := by
  obtain ⟨tenants, htenants, rfl⟩ := Option.map_eq_some_iff.mp hst
  refine { h with
    ids := applyChanges_id h.ids htenants
    dropped := fun t c hc => Nat.le_succ_of_le (h.dropped t c hc)
    committed := fun m writer hm => ?_
    ordered := fun m writer hm => ?_ }
  · rcases Rows.row_put hm with ⟨-, rfl⟩ | ⟨-, hm⟩
    · exact Nat.le_refl _
    · exact Nat.le_succ_of_le (h.committed m writer hm)
  · rcases Rows.row_put hm with ⟨-, rfl⟩ | ⟨-, hm⟩
    · exact bumpsFollow_invalidations directory _ changes
    · exact h.ordered m writer hm

theorem Inv.drop (h : Inv directory s) {writer : Writer} {tenantId : Uuid}
    {todo : List Invalidation} (hrow : s.writers.row n = some writer)
    (htodo : writer.todo = .domains tenantId :: todo) :
    Inv directory { s with
      redis := dropDomains s.redis (directory.domains tenantId)
      writers := s.writers.put n { writer with todo }
      dropped := Function.update s.dropped tenantId
        (s.dropped tenantId ++ [writer.committedAt]) } := by
  have hgrows := fun t =>
    (prefix_update_append s.dropped tenantId t writer.committedAt).subset
  refine { h with
    versioned := dropDomains_versioned h.versioned _
    domains := fun domain b hget => ?_
    dropped := fun t c hc => ?_
    bumped := fun t ht => List.Subset.trans (h.bumped t ht) (hgrows t)
    committed := fun m writer' hm => ?_
    ordered := fun m writer' hm => ?_
    started := fun m request hm => ?_ }
  · -- What is left belongs to other tenants.
    obtain ⟨hget, hnot⟩ := get_dropDomains hget
    obtain ⟨tenant, hvalue, howner, hfresh⟩ := h.domains domain b hget
    have hne : tenant.id ≠ tenantId := fun he =>
      hnot ((directory.mem_domains domain tenantId).mpr (he ▸ howner))
    refine ⟨tenant, hvalue, howner, fun c hc => ?_⟩
    rcases mem_update_append hc with hc | ⟨he, -⟩
    · exact hfresh c hc
    · exact absurd he hne
  · rcases mem_update_append hc with hc | ⟨-, rfl⟩
    · exact h.dropped t c hc
    · exact h.committed n writer hrow
  · rcases Rows.row_put hm with ⟨-, rfl⟩ | ⟨-, hm⟩
    · exact h.committed n writer hrow
    · exact h.committed m writer' hm
  · rcases Rows.row_put hm with ⟨-, rfl⟩ | ⟨-, hm⟩
    · have htail := h.ordered n writer hrow
      rw [htodo] at htail
      -- The bump of the same tenant comes behind this drop.
      refine BumpsFollow.mono ?_ htail
      rintro t (rfl | ht)
      · dsimp only
        rw [Function.update_self]
        exact List.mem_append_right _ List.mem_cons_self
      · exact hgrows t ht
    · exact (h.ordered m writer' hm).mono fun t ht => hgrows t ht
  · have hstarted := h.started m request hm
    exact ⟨fun t ht => List.Subset.trans (hstarted.after t ht) (hgrows t), hstarted.config,
      hstarted.config_after⟩

/-- A later bump takes nothing away from a request. -/
theorem Progress.Sound.later {bumped bumped' : Group → List Nat} {host : String}
    {after configAfter : List Nat} {progress : Progress}
    (hgrows : ∀ g, (bumped g).length ≤ (bumped' g).length)
    (h : progress.Sound directory bumped host after configAfter) :
    progress.Sound directory bumped' host after configAfter := by
  cases progress with
  | asking | querying => trivial
  | keeping | served => exact h
  | resolved resolved =>
    cases resolved with
    | none => trivial
    | some => exact h
  | rendering _ version =>
    cases version with
    | none => exact h
    | some => exact ⟨h.1, h.2.1, Nat.le_trans h.2.2 (hgrows _)⟩
  | versioned | storing => exact ⟨h.1, h.2.1, Nat.le_trans h.2.2 (hgrows _)⟩

theorem Inv.bump (h : Inv directory s) {writer : Writer} {tenantId : Uuid}
    {todo : List Invalidation} (hrow : s.writers.row n = some writer)
    (htodo : writer.todo = .siteConfig tenantId :: todo) :
    Inv directory { s with
      redis := bumpVersion s.redis (siteConfigGroup tenantId)
      writers := s.writers.put n { writer with todo }
      bumped := Function.update s.bumped (siteConfigGroup tenantId)
        (s.bumped (siteConfigGroup tenantId) ++ [writer.committedAt]) } := by
  have hgrows := fun g =>
    prefix_update_append s.bumped (siteConfigGroup tenantId) g writer.committedAt
  have hordered := h.ordered n writer hrow
  rw [htodo] at hordered
  refine { h with
    versioned := h.versioned.bump _ _
    domains := fun domain b hget => ?_
    bumped := fun t ht c hc => ?_
    committed := fun m writer' hm => ?_
    ordered := fun m writer' hm => ?_
    started := fun m request hm => ?_
    sound := fun m request hm => (h.sound m request hm).later fun g => (hgrows g).length_le }
  · -- A version is no domain's entry.
    have hkey := domainCacheKey_ne_versionKey domain (siteConfigGroup tenantId)
    rw [(h.versioned.counts _).bumpVersion_eq] at hget
    exact h.domains domain b ((Store.get_set_of_ne _ _ _ hkey).symm.trans hget)
  · rcases mem_update_append hc with hc | ⟨hg, rfl⟩
    · exact h.bumped t ht hc
    · -- The domains were dropped first.
      obtain rfl := siteConfigGroup_inj hg
      exact hordered.1.resolve_left ht
  · rcases Rows.row_put hm with ⟨-, rfl⟩ | ⟨-, hm⟩
    · exact h.committed n writer hrow
    · exact h.committed m writer' hm
  · rcases Rows.row_put hm with ⟨-, rfl⟩ | ⟨-, hm⟩
    · exact hordered.2
    · exact h.ordered m writer' hm
  · have hstarted := h.started m request hm
    exact ⟨hstarted.after, fun t ht => (hstarted.config t ht).trans (hgrows _),
      hstarted.config_after⟩

/-- The next invalidation, whichever it is. -/
theorem Inv.invalidate (h : Inv directory s) {writer : Writer}
    (hrow : s.writers.row n = some writer)
    (hst : s.invalidate directory n true writer = some t) : Inv directory t := by
  unfold State.invalidate at hst
  split at hst
  · next htodo =>
    cases hst
    exact h.drop hrow htodo
  · next htodo =>
    cases hst
    exact h.bump hrow htodo
  · cases hst

end Writers

/-! ### Runs -/

section Runs

variable {domainTtl configTtl : Nat} {s t : State}

/-- One step keeps the invariant. -/
theorem Inv.step {l : Label} (h : Inv directory s) (hfills : FillsCurrent s l)
    (hst : step directory domainTtl configTtl s l = some t) : Inv directory t := by
  cases l with
  | wait seconds =>
    cases hst
    exact h.withRedis (h.versioned.wait seconds) fun domain b hget =>
      h.domains domain b (Store.get_of_get_wait hget)
  | commit n changes =>
    simp only [Resolution.step, Option.ite_none_left_eq_some] at hst
    exact h.commit hst.2
  | invalidate n ok =>
    -- The guard: an invalidation that fails is excluded.
    obtain rfl : ok = true := hfills
    obtain ⟨writer, hrow, hst⟩ := Option.bind_eq_some_iff.mp hst
    exact h.invalidate hrow hst
  | start n host siteConfig =>
    simp only [Resolution.step, Option.ite_none_left_eq_some] at hst
    obtain ⟨-, hst⟩ := hst
    cases hst
    exact h.start n host siteConfig
  | ask n ok =>
    obtain ⟨request, hrow, hst⟩ := Option.bind_eq_some_iff.mp hst
    exact h.ask hrow hst
  | query n =>
    obtain ⟨request, hrow, hst⟩ := Option.bind_eq_some_iff.mp hst
    exact h.query hrow hst
  | keep n ok =>
    obtain ⟨request, hrow, hst⟩ := Option.bind_eq_some_iff.mp hst
    -- The guard: what is kept was read after the last drop.
    exact h.keep hrow hfills hst
  | version n ok =>
    obtain ⟨request, hrow, hst⟩ := Option.bind_eq_some_iff.mp hst
    exact h.version hrow hst
  | look n ok =>
    obtain ⟨request, hrow, hst⟩ := Option.bind_eq_some_iff.mp hst
    exact h.look hrow hst
  | render n usage =>
    obtain ⟨request, hrow, hst⟩ := Option.bind_eq_some_iff.mp hst
    exact h.render hrow hst
  | store n ok =>
    obtain ⟨request, hrow, hst⟩ := Option.bind_eq_some_iff.mp hst
    exact h.store hrow hfills hst

/-- So it holds in every state of a run whose fills are current. -/
theorem inductive_inv :
    (resolution directory domainTtl configTtl).Inductive FillsCurrent (Inv directory) where
  init s hs := by
    obtain ⟨hids, -, hredis, hrequests, hwriters, hdropped, hbumped⟩ := hs
    exact .init hids hredis hrequests hwriters hdropped hbumped
  step _ _ _ h hfills hst := h.step hfills hst

end Runs

/-- While no cache is filled with facts older than what was invalidated there, a request that
starts once a change's invalidations have finished never sees the facts before it. -/
theorem coherent_of_fills (directory : Directory) (domainTtl configTtl : Nat) {s : State}
    (h : (resolution directory domainTtl configTtl).ReachVia FillsCurrent s) : Coherent s :=
  (inductive_inv.always h).coherent

/-- One tenant with one domain. -/
def oneDomain : Directory where
  owner domain := if domain = "agency.test" then some 1 else none
  domains tenantId := if tenantId = 1 then ["agency.test"] else []
  mem_domains domain tenantId := by
    by_cases hd : domain = "agency.test"
    · by_cases ht : tenantId = 1 <;> simp [hd, ht, eq_comm]
    · by_cases ht : tenantId = 1 <;> simp [hd, ht]

/-- The tenant is on trial. -/
def onTrial : State where
  tenants := Rows.empty.put 1 { id := 1, name := "Agency", slug := "agency" }
  commits := 0
  redis := .empty
  requests := .empty
  writers := .empty
  dropped _ := []
  bumped _ := []

/-- The runs below begin with a tenant on trial. -/
theorem onTrial_init (domainTtl configTtl : Nat) :
    (resolution oneDomain domainTtl configTtl).init onTrial := by
  refine ⟨fun t tenant hrow => ?_, rfl, rfl, rfl, rfl, rfl, rfl⟩
  rcases Rows.row_put hrow with ⟨rfl, rfl⟩ | ⟨-, hrow⟩
  · rfl
  · cases hrow

/-- A tenant is resolved, upgraded and suspended; the next request sees both. -/
theorem coherent_of_fills_upgrade : ∃ s,
    (resolution oneDomain 300 300).ReachVia FillsCurrent s ∧ Coherent s ∧
      (((s.requests.row 1).bind (·.progress.tenant)).map fun tenant =>
        (tenant.value.plan, tenant.value.status)) = some ("growth", "suspended") := by
  obtain ⟨s, hs, hp⟩ := Machine.exists_reachVia_of_run (M := resolution oneDomain 300 300)
    (G := FillsCurrent) (s := onTrial)
    [.start 0 "agency.test" true, .ask 0 true, .query 0, .keep 0 true, .version 0 true,
      .look 0 true, .render 0 {}, .store 0 true,
      .commit 0 [(1, .plan "growth"), (1, .status .suspended)], .invalidate 0 true,
      .invalidate 0 true, .invalidate 0 true, .start 1 "agency.test" true, .ask 1 true, .query 1,
      .keep 1 true]
    (fun s => (((s.requests.row 1).bind (·.progress.tenant)).map fun tenant =>
      (tenant.value.plan, tenant.value.status)) = some ("growth", "suspended"))
    (onTrial_init 300 300) (by decide)
  exact ⟨s, hs, coherent_of_fills _ _ _ hs, of_decide_eq_true hp⟩

/-- Request `n` runs under a context older than a change invalidated before it started. -/
def staleTenant (s : State) (n : Nat) : Bool :=
  (s.requests.row n).any fun request => request.progress.tenant.any fun tenant =>
    request.after.any (tenant.loadedAt < ·)

/-- Request `n` was served a site configuration older than such a change. -/
def staleConfig (s : State) (n : Nat) : Bool :=
  (s.requests.row n).any fun request =>
    match request.progress with
    | .served _ config => request.configAfter.any (config.loadedAt < ·)
    | _ => false

/-- A stale tenant served is enough. -/
theorem not_coherent_of_staleTenant {s : State} {n : Nat} (h : staleTenant s n = true) :
    ¬Coherent s := by
  intro hcoherent
  obtain ⟨request, hrow, h⟩ := (Option.any_eq_true ..).mp h
  obtain ⟨tenant, htenant, h⟩ := (Option.any_eq_true ..).mp h
  obtain ⟨c, hc, hlt⟩ := List.any_eq_true.mp h
  have hle := hcoherent.tenant n request hrow tenant htenant c hc
  have hlt := of_decide_eq_true hlt
  omega

theorem not_coherent_of_staleConfig {s : State} {n : Nat} (h : staleConfig s n = true) :
    ¬Coherent s := by
  intro hcoherent
  obtain ⟨request, hrow, h⟩ := (Option.any_eq_true ..).mp h
  split at h
  · next tenant config hserved =>
    obtain ⟨c, hc, hlt⟩ := List.any_eq_true.mp h
    have hle := hcoherent.config n request hrow tenant config hserved c hc
    have hlt := of_decide_eq_true hlt
    omega
  · cases h

/-- A resolver reads the database, the tenant is suspended and its domain's key deleted, and
only then the resolver stores what it read: the next request runs for a tenant on trial. And a
site-config request that resolved before an upgrade stores its rendering under the version
after it: the next one is served the plan before. -/
theorem stale_refills :
    (∃ s, (resolution oneDomain 300 300).Reachable s ∧ ¬Coherent s ∧
      (s.tenants.row 1).map Tenant.status = some .suspended ∧
      ((s.requests.row 1).bind (·.progress.tenant)).map (·.value.status) = some "trial") ∧
    (∃ s, (resolution oneDomain 300 300).Reachable s ∧ ¬Coherent s ∧
      (s.tenants.row 1).map Tenant.plan = some "growth" ∧
      ((s.requests.row 1).bind fun request =>
        match request.progress with
        | .served _ config => some config.value.plan
        | _ => none) = some "trial") := by
  constructor
  · -- The tenant is read, then suspended, and the stale copy is kept behind the drop.
    obtain ⟨s, hs, hp⟩ := Machine.exists_reachable_of_run (M := resolution oneDomain 300 300)
      (s := onTrial)
      [.start 0 "agency.test" false, .ask 0 true, .query 0, .commit 0 [(1, .status .suspended)],
        .invalidate 0 true, .keep 0 true, .start 1 "agency.test" false, .ask 1 true]
      (fun s => staleTenant s 1 ∧ (s.tenants.row 1).map Tenant.status = some .suspended ∧
        ((s.requests.row 1).bind (·.progress.tenant)).map (·.value.status) = some "trial")
      (onTrial_init 300 300) (by decide)
    obtain ⟨hstale, hrest⟩ := of_decide_eq_true hp
    exact ⟨s, hs, not_coherent_of_staleTenant hstale, hrest⟩
  · -- The same of the site's configuration, rendered from the tenant as read before.
    obtain ⟨s, hs, hp⟩ := Machine.exists_reachable_of_run (M := resolution oneDomain 300 300)
      (s := onTrial)
      [.start 0 "agency.test" true, .ask 0 true, .query 0, .keep 0 true,
        .commit 0 [(1, .plan "growth")], .invalidate 0 true, .invalidate 0 true,
        .version 0 true, .look 0 true, .render 0 {}, .store 0 true,
        .start 1 "agency.test" true, .ask 1 true, .query 1, .keep 1 true, .version 1 true,
        .look 1 true]
      (fun s => staleConfig s 1 ∧ (s.tenants.row 1).map Tenant.plan = some "growth" ∧
        ((s.requests.row 1).bind fun request =>
          match request.progress with
          | .served _ config => some config.value.plan
          | _ => none) = some "trial")
      (onTrial_init 300 300) (by decide)
    obtain ⟨hstale, hrest⟩ := of_decide_eq_true hp
    exact ⟨s, hs, not_coherent_of_staleConfig hstale, hrest⟩

end Resolution

end Tenants

end RealEstate
