import Mathlib.Data.List.ProdSigma
import RealEstate.Favorites.Digests

/-!
# Each listing in one digest

A search and a listing. `undisturbed` runs are those the search's owner may expect
something of: once the listing is being published the search is there, active, daily
or weekly, with a recipient; the listing stays published and matches.

- `Delivered`: the listing is in no two digests of the search, and in one as soon as
  a due sweep that started with it published has finished.
- `timely`: a publication commits with a timestamp later than the search's watermark,
  and a digest that has the listing ahead of it is not older than its timestamp, is for
  filters it matches and finds fewer than ten matches that come before it.
- `delivered`: undisturbed runs whose steps are timely deliver.
- `digest_boundaries`: undisturbed runs that do not, one for each part of `timely`.
-/

namespace RealEstate

namespace Favorites

open RealEstate.Core Systems Listings Users

namespace Digests

variable (q : PublicSearch) (tenantId : Uuid) (order : OrderBy newest)
  (listingId searchId : Uuid)

/-! ### What is expected, and of which runs -/

/-- When the listing was published. -/
def stamp (s : State) : Option DateTime :=
  (s.listings.row listingId).bind (·.listing.publishedAt)

/-- The digests of the search that hold the listing. -/
def count (s : State) : Nat :=
  s.mails.countP fun mail => mail.1 = searchId ∧ listingId ∈ mail.2

/-- What the claim says of a listing and a search. -/
structure Delivered (s : State) : Prop where
  at_most_once : count listingId searchId s ≤ 1
  once : (listingId, searchId) ∈ s.settled → count listingId searchId s = 1

/-- The search is active, for digests, and has a recipient. -/
def searchReady (s : State) : Bool :=
  (s.searches.row searchId).any fun row =>
    row.isActive && row.frequency ≠ .instant && (recipientFor tenantId s.users row).isSome

/-- The listing is published and matches the search. -/
def listingReady (s : State) : Bool :=
  (s.searches.row searchId).any fun row =>
    (q.parse row.filters).any fun filters =>
      (s.listings.row listingId).any (matchesFilters q filters row.locale)

/-- The search is there when the listing is published, and neither is withdrawn. -/
def steady (s : State) : Bool :=
  (!(s.locked listingId || (stamp listingId s).isSome) || searchReady tenantId searchId s) &&
    (!(stamp listingId s).isSome || listingReady q listingId searchId s)

/-- Search and listing stay `steady`. -/
def undisturbed (s : State) (l : Label) : Bool :=
  (step q tenantId order s l).all (steady q tenantId listingId searchId)

/-- The matches that come before the listing. -/
def ahead (s : State) (filters : q.Filters) (row : SavedSearch) (r : ListingRow) : Nat :=
  (newMatches q s filters row).countP fun p => p.1 ≠ listingId ∧ newest p (listingId, r)

/-- A publication is later than the watermark when it commits. When a digest is made with the
listing later than the watermark, the listing matches the filters that the scan read and is not
later than the sweep, and fewer than ten matches come before it. -/
def timely (s : State) : Label → Bool
  | .commit id =>
    id ≠ listingId ||
      match s.publishing.find? fun p => p.1 = id, s.searches.row searchId with
      | some p, some row => p.2.listing.publishedAt.any (watermark row < ·)
      | _, _ => true
  | .digest =>
    match s.sweep with
    | some ⟨now, some ((id, row) :: _), _, _⟩ =>
      id ≠ searchId ||
        (s.listings.row listingId).all fun r =>
          !r.listing.publishedAt.any (watermark row < ·) ||
            (q.parse row.filters).any fun filters =>
              matchesFilters q filters row.locale r && r.listing.publishedAt.all (· ≤ now) &&
                ahead q listingId s filters row r < digestMaxListings
    | _ => true
  | _ => true

/-! ### The invariant -/

/-- What no edit changes of a search. -/
structure SameSearch (row row' : SavedSearch) : Prop where
  lastRunAt : row'.lastRunAt = row.lastRunAt
  createdAt : row'.createdAt = row.createdAt
  owner : row'.owner = row.owner

/-- What is left of a scan, for the search: read once, and not run since. A listing that was
published when the sweep started is in a digest, or the search is still ahead. -/
structure Pending (s : State) (sweep : Sweep) (rows : List (Uuid × SavedSearch)) : Prop where
  nodup : (rows.map (·.1)).Nodup
  known : ∀ p ∈ rows, p.1 ∈ s.searches.keys
  same : ∀ row, (searchId, row) ∈ rows → ∀ current, s.searches.row searchId = some current →
    SameSearch row current
  ahead : listingId ∈ sweep.atStart → searchId ∈ sweep.due →
    count listingId searchId s = 1 ∨ ∃ row, (searchId, row) ∈ rows

/-- No sweep ran later than this. -/
def horizon (s : State) : DateTime := (s.sweep.map (·.now)).getD s.now

/-- The listing is in no digest and later than the watermark, or in one and not later. -/
def Placed (s : State) (row : SavedSearch) (published : DateTime) : Prop :=
  (count listingId searchId s = 0 ∧ watermark row < published) ∨
    (count listingId searchId s = 1 ∧ ∃ ran, row.lastRunAt = some ran ∧ published ≤ ran)

/-- The invariant, for one listing and one search. -/
structure Inv (s : State) : Prop where
  keys : s.searches.keys.Nodup
  ran : ∀ id row, s.searches.row id = some row → ∀ ran, row.lastRunAt = some ran →
    ran ≤ horizon s
  sweep_now : ∀ sweep, s.sweep = some sweep → sweep.now ≤ s.now
  publishing : ∀ p ∈ s.publishing, p.1 = listingId →
    stamp listingId s = none ∧ p.2.listing.publishedAt.isSome = true
  unpublished : stamp listingId s = none → count listingId searchId s = 0
  placed : ∀ published, stamp listingId s = some published →
    ∀ row, s.searches.row searchId = some row → Placed listingId searchId s row published
  atStart : ∀ sweep, s.sweep = some sweep → listingId ∈ sweep.atStart →
    (stamp listingId s).isSome = true
  pending : ∀ sweep, s.sweep = some sweep → ∀ rows, sweep.pending = some rows →
    Pending listingId searchId s sweep rows
  settled : (listingId, searchId) ∈ s.settled →
    (stamp listingId s).isSome = true ∧ count listingId searchId s = 1

/-- A step that sends no digest and publishes nothing. -/
structure Quiet (s s' : State) : Prop where
  now : s.now ≤ s'.now
  keys : s.searches.keys.Nodup → s'.searches.keys.Nodup
  known : ∀ id ∈ s.searches.keys, id ∈ s'.searches.keys
  search : ∀ id row', s'.searches.row id = some row' →
    (∃ row, s.searches.row id = some row ∧ SameSearch row row') ∨
    (id ∉ s.searches.keys ∧ row'.lastRunAt = none)
  stamp : stamp listingId s' = stamp listingId s
  publishing : ∀ p ∈ s'.publishing, p.1 = listingId → p ∈ s.publishing ∨
    (Digests.stamp listingId s = none ∧ p.2.listing.publishedAt.isSome = true)
  sweep : s'.sweep = s.sweep
  mails : s'.mails = s.mails
  settled : s'.settled = s.settled

variable {q tenantId order listingId searchId}

theorem SameSearch.refl (row : SavedSearch) : SameSearch row row := ⟨rfl, rfl, rfl⟩

theorem SameSearch.trans {row row' row'' : SavedSearch} (h : SameSearch row row')
    (h' : SameSearch row' row'') : SameSearch row row'' :=
  ⟨h'.lastRunAt.trans h.lastRunAt, h'.createdAt.trans h.createdAt, h'.owner.trans h.owner⟩

/-- An edit of a search leaves its watermark. -/
theorem SameSearch.watermark {row row' : SavedSearch} (h : SameSearch row row') :
    watermark row' = watermark row := by
  unfold Digests.watermark
  rw [h.lastRunAt, h.createdAt]

theorem SameSearch.recipientFor {row row' : SavedSearch} (h : SameSearch row row')
    (users : List User) : recipientFor tenantId users row' = recipientFor tenantId users row := by
  unfold Digests.recipientFor
  rw [h.owner]

section Steady

variable {s : State}

/-- The search is there, active, and not of the instant kind. -/
theorem search_of_steady (h : steady q tenantId listingId searchId s = true)
    (hup : s.locked listingId = true ∨ (stamp listingId s).isSome = true) :
    ∃ row, s.searches.row searchId = some row ∧ row.isActive = true ∧
      row.frequency ≠ .instant ∧ (recipientFor tenantId s.users row).isSome = true := by
  simp only [steady, Bool.and_eq_true, Bool.or_eq_true, Bool.not_eq_true'] at h
  have hready : searchReady tenantId searchId s = true := by
    rcases h.1 with hnot | hready
    · rw [Bool.or_eq_false_iff] at hnot
      rcases hup with hlocked | hstamp
      · rw [hnot.1] at hlocked
        cases hlocked
      · rw [hnot.2] at hstamp
        cases hstamp
    · exact hready
  obtain ⟨row, hrow, hall⟩ := (Option.any_eq_true ..).mp hready
  simp only [Bool.and_eq_true, decide_eq_true_eq] at hall
  exact ⟨row, hrow, hall.1.1, hall.1.2, hall.2⟩

/-- The published listing is there, and matches. -/
theorem listing_of_steady (h : steady q tenantId listingId searchId s = true)
    (hstamp : (stamp listingId s).isSome = true) :
    ∃ row filters r, s.searches.row searchId = some row ∧ q.parse row.filters = some filters ∧
      s.listings.row listingId = some r ∧ matchesFilters q filters row.locale r = true := by
  simp only [steady, Bool.and_eq_true, Bool.or_eq_true, Bool.not_eq_true'] at h
  have hready : listingReady q listingId searchId s = true := by
    rcases h.2 with hnot | hready
    · rw [hnot] at hstamp
      cases hstamp
    · exact hready
  obtain ⟨row, hrow, hfilters⟩ := (Option.any_eq_true ..).mp hready
  obtain ⟨filters, hparse, hlisting⟩ := (Option.any_eq_true ..).mp hfilters
  obtain ⟨r, hr, hmatches⟩ := (Option.any_eq_true ..).mp hlisting
  exact ⟨row, filters, r, hrow, hparse, hr, hmatches⟩

end Steady

/-! ### Quiet steps -/

section Quiet

variable {s s' : State}

/-- A quiet step sends no mail. -/
theorem Quiet.count (h : Quiet listingId s s') :
    count listingId searchId s' = count listingId searchId s := by
  unfold Digests.count
  rw [h.mails]

theorem Quiet.horizon (h : Quiet listingId s s') : horizon s ≤ horizon s' := by
  unfold Digests.horizon
  rw [h.sweep]
  cases s.sweep with
  | none => exact h.now
  | some sweep => exact Int.le_refl _

/-- A listing that is up has a search, so no search of that id is made now. -/
theorem Quiet.search_of_stamp (h : Quiet listingId s s')
    (hsteady : steady q tenantId listingId searchId s = true)
    (hstamp : (Digests.stamp listingId s).isSome = true) {row' : SavedSearch}
    (hrow' : s'.searches.row searchId = some row') :
    ∃ row, s.searches.row searchId = some row ∧ SameSearch row row' := by
  rcases h.search searchId row' hrow' with ⟨row, hrow, hsame⟩ | ⟨hnew, -⟩
  · exact ⟨row, hrow, hsame⟩
  · obtain ⟨row, hrow, -⟩ := search_of_steady hsteady (.inr hstamp)
    exact absurd (s.searches.row_keys hrow) hnew

theorem Inv.quiet (hI : Inv listingId searchId s)
    (hsteady : steady q tenantId listingId searchId s = true)
    (h : Quiet listingId s s') : Inv listingId searchId s' where
  keys := h.keys hI.keys
  ran := by
    intro id row' hrow' ran hran
    -- A search that was there before, or a new one, which has not run.
    rcases h.search id row' hrow' with ⟨row, hrow, hsame⟩ | ⟨-, hnone⟩
    · exact Int.le_trans (hI.ran id row hrow ran (hsame.lastRunAt ▸ hran)) h.horizon
    · rw [hnone] at hran
      cases hran
  sweep_now := by
    intro sweep hsweep
    exact Int.le_trans (hI.sweep_now sweep (h.sweep ▸ hsweep)) h.now
  publishing := by
    intro p hp hid
    rw [h.stamp]
    rcases h.publishing p hp hid with hold | hnew
    · exact hI.publishing p hold hid
    · exact hnew
  unpublished := by
    intro hstamp
    rw [h.count]
    exact hI.unpublished (h.stamp ▸ hstamp)
  placed := by
    intro published hstamp row' hrow'
    rw [h.stamp] at hstamp
    -- The listing is up, so its search is the one that was there.
    have hup : (Digests.stamp listingId s).isSome = true := by rw [hstamp]; rfl
    obtain ⟨row, hrow, hsame⟩ := h.search_of_stamp hsteady hup hrow'
    unfold Placed
    rw [h.count, hsame.watermark, hsame.lastRunAt]
    exact hI.placed published hstamp row hrow
  atStart := by
    intro sweep hsweep hmem
    rw [h.stamp]
    exact hI.atStart sweep (h.sweep ▸ hsweep) hmem
  pending := by
    intro sweep hsweep rows hrows
    have hP := hI.pending sweep (h.sweep ▸ hsweep) rows hrows
    constructor
    · exact hP.nodup
    · exact fun p hp => h.known _ (hP.known p hp)
    · intro row hrow current hcurrent
      rcases h.search searchId current hcurrent with ⟨old, hold, hsame⟩ | ⟨hnew, -⟩
      · exact (hP.same row hrow old hold).trans hsame
      · exact absurd (hP.known _ hrow) hnew
    · rw [h.count]
      exact hP.ahead
  settled := by
    rw [h.settled, h.stamp, h.count]
    exact hI.settled

end Quiet

/-! ### Which steps are quiet -/

theorem quiet_of_clock {s : State} {now : DateTime} (hnow : s.now ≤ now) (users : List User) :
    Quiet listingId s { s with now, users } where
  now := hnow
  keys h := h
  known _ h := h
  search _ row h := .inl ⟨row, h, .refl row⟩
  stamp := rfl
  publishing _ hp _ := .inl hp
  sweep := rfl
  mails := rfl
  settled := rfl

theorem quiet_of_searches {s : State} {rows : Rows Uuid SavedSearch}
    (hkeys : s.searches.keys.Nodup → rows.keys.Nodup)
    (hknown : ∀ id ∈ s.searches.keys, id ∈ rows.keys)
    (hsearch : ∀ id row', rows.row id = some row' →
      (∃ row, s.searches.row id = some row ∧ SameSearch row row') ∨
      (id ∉ s.searches.keys ∧ row'.lastRunAt = none)) :
    Quiet listingId s { s with searches := rows } where
  now := Int.le_refl _
  keys := hkeys
  known := hknown
  search := hsearch
  stamp := rfl
  publishing _ hp _ := .inl hp
  sweep := rfl
  mails := rfl
  settled := rfl

/-- Searches apart, nothing the search is judged by changes. -/
theorem quiet_of_listings {s : State} {rows : Rows Uuid ListingRow}
    {publishing : List (Uuid × ListingRow)}
    (hstamp : (rows.row listingId).bind (·.listing.publishedAt) = stamp listingId s)
    (hpublishing : ∀ p ∈ publishing, p.1 = listingId → p ∈ s.publishing ∨
      (stamp listingId s = none ∧ p.2.listing.publishedAt.isSome = true)) :
    Quiet listingId s { s with listings := rows, publishing := publishing } where
  now := Int.le_refl _
  keys h := h
  known _ h := h
  search _ row h := .inl ⟨row, h, .refl row⟩
  stamp := hstamp
  publishing := hpublishing
  sweep := rfl
  mails := rfl
  settled := rfl

theorem quiet_of_publishing {s : State} {publishing : List (Uuid × ListingRow)}
    (hpublishing : ∀ p ∈ publishing, p.1 = listingId → p ∈ s.publishing ∨
      (stamp listingId s = none ∧ p.2.listing.publishedAt.isSome = true)) :
    Quiet listingId s { s with publishing := publishing } := by
  show Quiet listingId s { s with listings := s.listings, publishing := publishing }
  exact quiet_of_listings rfl hpublishing

theorem stamp_put_of_ne {s : State} {id : Uuid} {r : ListingRow} (h : id ≠ listingId) :
    ((s.listings.put id r).row listingId).bind (·.listing.publishedAt) = stamp listingId s := by
  rw [Rows.row_put_of_ne _ _ (Ne.symm h)]
  rfl

/-- No change but a publication touches the timestamp. -/
theorem publishedAt_apply {now : DateTime} {change : ListingChange} {r r' : ListingRow}
    (h : change.apply now r = some r') : r'.listing.publishedAt = r.listing.publishedAt := by
  cases change with
  | update content remains =>
    obtain ⟨p, hp, rfl⟩ := Option.map_eq_some_iff.mp h
    have hok := toOption_eq_some hp
    unfold Listing.update at hok
    -- No update sets the publication time.
    split at hok
    · cases hok
    · cases hok
      rfl
  | feature featured =>
    obtain rfl := Option.some.inj h
    rfl
  | transition toStatus =>
    simp only [ListingChange.apply] at h
    split at h
    · cases h
    · -- Nor does a transition: publishing goes through its own request.
      obtain ⟨p, hp, rfl⟩ := Option.map_eq_some_iff.mp h
      have hok := toOption_eq_some hp
      unfold Listing.transition at hok
      split at hok
      · cases hok
      · split at hok
        · cases hok
        · split at hok
          · cases hok
          · cases hok
            rfl
  | softDelete =>
    obtain ⟨p, hp, rfl⟩ := Option.map_eq_some_iff.mp h
    have hok := toOption_eq_some hp
    unfold Listing.softDelete at hok
    split at hok
    · cases hok
    · split at hok
      · cases hok
      · cases hok
        rfl

/-- What a publication takes: a timestamp, and a listing that was not published. -/
theorem transition_published {listing listing' : Listing} {now : DateTime}
    {action : Option PortalAction}
    (h : listing.transition now .published true = .ok (listing', action)) :
    listing.status ≠ .published ∧ listing'.publishedAt = some now := by
  unfold Listing.transition at h
  split at h
  · cases h
  · split at h
    · cases h
    · next hallowed =>
      split at h
      · cases h
      · cases h
        refine ⟨fun hst => hallowed ?_, rfl⟩
        rw [hst]
        decide

section QuietSteps

variable {s s' : State}

theorem quiet_createSearch {id : Uuid} {row : SavedSearch} (hnew : id ∉ s.searches.keys)
    (hran : row.lastRunAt = none) :
    Quiet listingId s { s with searches := s.searches.put id row } := by
  refine quiet_of_searches (fun h => Rows.nodup_keys_put h _ _)
    (fun j hj => Rows.mem_keys_put.mpr (.inr hj)) fun j row' hrow' => ?_
  rcases Rows.row_put hrow' with ⟨rfl, rfl⟩ | ⟨-, hold⟩
  · exact .inr ⟨hnew, hran⟩
  · exact .inl ⟨row', hold, .refl row'⟩

theorem quiet_editSearch {id : Uuid} {patch : SearchUpdate} {row : SavedSearch}
    (hrow : s.searches.row id = some row) :
    Quiet listingId s
      { s with searches := s.searches.put id (patch.apply row) } := by
  refine quiet_of_searches (fun h => Rows.nodup_keys_put h _ _)
    (fun id hid => Rows.mem_keys_put.mpr (.inr hid)) fun j row' hrow' => ?_
  rcases Rows.row_put hrow' with ⟨rfl, rfl⟩ | ⟨-, hold⟩
  · exact .inl ⟨row, hrow, rfl, rfl, rfl⟩
  · exact .inl ⟨row', hold, .refl row'⟩

theorem quiet_deleteSearch (id : Uuid) :
    Quiet listingId s { s with searches := s.searches.delete id } :=
  quiet_of_searches (fun h => h) (fun _ h => h) fun _ row' hrow' =>
    .inl ⟨row', (Rows.row_delete hrow').2, .refl row'⟩

/-- Listings are created. -/
theorem quiet_createListing {id : Uuid} {content : Json} (hnew : id ∉ s.listings.keys) :
    Quiet listingId s
      { s with listings := s.listings.put id { listing := { content } } } := by
  refine quiet_of_listings ?_ fun p hp _ => .inl hp
  by_cases hid : id = listingId
  · subst hid
    have hnone : s.listings.row id = none := by
      cases hrow : s.listings.row id with
      | none => rfl
      | some r => exact absurd (s.listings.row_keys hrow) hnew
    rw [Rows.row_put_self, stamp, hnone]
    rfl
  · exact stamp_put_of_ne hid

/-- And changed, as long as the listing's publication stays. -/
theorem quiet_changeListing {id : Uuid} {change : ListingChange} {r r' : ListingRow}
    (hr : s.listings.row id = some r) (happly : change.apply s.now r = some r') :
    Quiet listingId s { s with listings := s.listings.put id r' } := by
  refine quiet_of_listings ?_ fun p hp _ => .inl hp
  by_cases hid : id = listingId
  · subst hid
    rw [Rows.row_put_self, stamp, hr]
    exact publishedAt_apply happly
  · exact stamp_put_of_ne hid

/-- A publication only starts while the listing is not published. -/
theorem quiet_publish (hsteady : steady q tenantId listingId searchId s = true) {id : Uuid}
    {r : ListingRow} {p : Listing × Option PortalAction} (hr : s.listings.row id = some r)
    (hp : r.listing.transition s.now .published true = .ok p) :
    Quiet listingId s
      { s with publishing := (id, { r with listing := p.1 }) :: s.publishing } := by
  obtain ⟨hstatus, hstamp⟩ := transition_published hp
  refine quiet_of_publishing fun p' hp' hid => ?_
  rcases List.mem_cons.mp hp' with rfl | hp'
  · obtain rfl : id = listingId := hid
    refine .inr ⟨?_, by rw [hstamp]; rfl⟩
    by_contra hne
    obtain ⟨_, _, r', _, _, hr', hmatches⟩ :=
      listing_of_steady hsteady (Option.isSome_iff_ne_none.mpr hne)
    obtain rfl := Option.some.inj (hr.symm.trans hr')
    simp only [matchesFilters, Bool.and_eq_true, decide_eq_true_eq] at hmatches
    exact hstatus hmatches.1.2
  · exact .inl hp'

theorem quiet_rollback (id : Uuid) : Quiet listingId s
    { s with publishing := s.publishing.filter fun p => p.1 ≠ id } :=
  quiet_of_publishing fun _ hp _ => .inl (List.mem_of_mem_filter hp)

end QuietSteps

/-! ### A publication commits -/

/-- **The listing's publication commits**, before any sweep could miss it. -/
theorem Inv.commit {s : State} (hI : Inv listingId searchId s)
    (hsteady : steady q tenantId listingId searchId s = true) {id : Uuid}
    {p : Uuid × ListingRow} (hfind : s.publishing.find? (fun p => p.1 = id) = some p)
    (htimely : id = listingId → ∀ row, s.searches.row searchId = some row →
      p.2.listing.publishedAt.any (watermark row < ·) = true) :
    Inv listingId searchId
      { s with
        listings := s.listings.put id p.2
        publishing := s.publishing.filter fun p => p.1 ≠ id } := by
  have hp : p ∈ s.publishing := List.mem_of_find?_eq_some hfind
  have hid : p.1 = id := by
    have := List.find?_some hfind
    simpa using this
  by_cases hl : id = listingId
  · subst hl
    -- It was not up before, so nothing of it had been counted.
    obtain ⟨hnone, hsome⟩ := hI.publishing p hp hid
    obtain ⟨published, hpublished⟩ := Option.isSome_iff_exists.mp hsome
    have hzero : Digests.count id searchId s = 0 := hI.unpublished hnone
    have hstamp : Digests.stamp id { s with
        listings := s.listings.put id p.2
        publishing := s.publishing.filter fun p => p.1 ≠ id } = some published := by
      show ((s.listings.put id p.2).row id).bind _ = _
      rw [Rows.row_put_self]
      exact hpublished
    constructor
    · exact hI.keys
    · exact hI.ran
    · exact hI.sweep_now
    · intro p' hp' hid'
      exact absurd hid' (of_decide_eq_true (List.mem_filter.mp hp').2)
    · intro hnone'
      rw [hstamp] at hnone'
      cases hnone'
    · intro published' hstamp' row hrow
      obtain rfl := Option.some.inj (hstamp.symm.trans hstamp')
      -- A publication is later than every watermark read before it committed.
      have hlater := htimely rfl row hrow
      rw [hpublished] at hlater
      exact .inl ⟨hzero, of_decide_eq_true hlater⟩
    · intro sweep hsweep hmem
      rw [hstamp]
      rfl
    · intro sweep hsweep rows hrows
      have hP := hI.pending sweep hsweep rows hrows
      exact ⟨hP.nodup, hP.known, hP.same, hP.ahead⟩
    · intro hmem
      have hup := (hI.settled hmem).1
      rw [hnone] at hup
      cases hup
  · -- Another listing's commit moves neither stamp nor count.
    refine hI.quiet hsteady (quiet_of_listings (stamp_put_of_ne hl) fun p' hp' _ => ?_)
    exact .inl (List.mem_of_mem_filter hp')

/-! ### A sweep -/

theorem mem_entries {V : Type} {rows : Rows Uuid V} {p : V → Bool} {id : Uuid} {r : V} :
    (id, r) ∈ entries rows p ↔ rows.row id = some r ∧ p r = true := by
  unfold entries
  rw [List.mem_filterMap]
  constructor
  · rintro ⟨j, hj, hmap⟩
    obtain ⟨r', hr', heq⟩ := Option.map_eq_some_iff.mp hmap
    cases heq
    obtain ⟨r'', hr'', hp⟩ := Rows.mem_select.mp hj
    obtain rfl := Option.some.inj (hr'.symm.trans hr'')
    exact ⟨hr', hp⟩
  · rintro ⟨hr, hp⟩
    exact ⟨id, Rows.mem_select.mpr ⟨r, hr, hp⟩, by rw [hr]; rfl⟩

/-- Every row is read once. -/
theorem nodup_entries {V : Type} {rows : Rows Uuid V} (h : rows.keys.Nodup) (p : V → Bool) :
    ((entries rows p).map (·.1)).Nodup := by
  have hsub : ∀ ids : List Uuid, List.Sublist
      ((ids.filterMap fun id => (rows.row id).map fun r => (id, r)).map (·.1)) ids := by
    intro ids
    induction ids with
    | nil => exact List.Sublist.refl []
    | cons id ids ih =>
      cases hrow : rows.row id with
      | none =>
        rw [List.filterMap_cons_none (by rw [hrow]; rfl)]
        exact ih.cons id
      | some r =>
        rw [List.filterMap_cons_some (by rw [hrow]; rfl), List.map_cons]
        exact ih.cons_cons id
  exact (h.filter _).sublist (hsub _)

section Sweeps

variable {s : State}

/-- No search ran later than the sweep that is going. -/
theorem Inv.ran_le (hI : Inv listingId searchId s) {sweep : Sweep} (hsweep : s.sweep = some sweep)
    {id : Uuid} {row : SavedSearch} (hrow : s.searches.row id = some row) {ran : DateTime}
    (hran : row.lastRunAt = some ran) : ran ≤ sweep.now := by
  have hle := hI.ran id row hrow ran hran
  rw [horizon, hsweep] at hle
  exact hle

/-- A sweep takes the searches that are due. -/
theorem Inv.startSweep (hI : Inv listingId searchId s) (hidle : s.sweep = none) :
    Inv listingId searchId { s with
      sweep := some
        { now := s.now
          atStart := s.listings.select fun r => r.listing.publishedAt.isSome } } where
  keys := hI.keys
  ran := by
    intro id row hrow ran hran
    have hle := hI.ran id row hrow ran hran
    rw [horizon, hidle] at hle
    exact hle
  sweep_now := by
    intro sweep hsweep
    cases hsweep
    exact Int.le_refl _
  publishing := hI.publishing
  unpublished := hI.unpublished
  placed := hI.placed
  atStart := by
    intro sweep hsweep hmem
    cases hsweep
    obtain ⟨r, hr, hpublished⟩ := Rows.mem_select.mp hmem
    show ((s.listings.row listingId).bind _).isSome = true
    rw [hr]
    exact hpublished
  pending := by
    intro sweep hsweep rows hrows
    cases hsweep
    cases hrows
  settled := hI.settled

/-- It reads the searches. -/
theorem Inv.scan (hI : Inv listingId searchId s)
    (hsteady : steady q tenantId listingId searchId s = true) {now : DateTime}
    {atStart due : List Uuid} (hsweep : s.sweep = some ⟨now, none, atStart, due⟩) :
    Inv listingId searchId { s with
      sweep := some
        { now, atStart
          pending := entries s.searches fun row => row.isActive && dueAt now row.frequency
          due := s.searches.select fun row => dueAt now row.frequency } } where
  keys := hI.keys
  ran := by
    intro id row hrow ran hran
    exact hI.ran_le hsweep hrow hran
  sweep_now := by
    intro sweep hsweep'
    cases hsweep'
    have hle : now ≤ s.now := hI.sweep_now ⟨now, none, atStart, due⟩ hsweep
    exact hle
  publishing := hI.publishing
  unpublished := hI.unpublished
  placed := hI.placed
  atStart := by
    intro sweep hsweep'
    cases hsweep'
    have hstart := hI.atStart ⟨now, none, atStart, due⟩ hsweep
    exact hstart
  pending := by
    intro sweep hsweep' rows hrows
    cases hsweep'
    cases hrows
    constructor
    · exact nodup_entries hI.keys _
    · rintro ⟨id, row⟩ hp
      exact s.searches.row_keys (mem_entries.mp hp).1
    · intro row hp current hcurrent
      obtain rfl := Option.some.inj ((mem_entries.mp hp).1.symm.trans hcurrent)
      exact .refl row
    · -- The search of a published listing is active, so the scan returns it.
      intro hmem hdue
      obtain ⟨row, hrow, hactive, -⟩ :=
        search_of_steady hsteady (.inr (hI.atStart _ hsweep hmem))
      obtain ⟨row', hrow', hdue⟩ := Rows.mem_select.mp hdue
      obtain rfl := Option.some.inj (hrow.symm.trans hrow')
      refine .inr ⟨row, mem_entries.mpr ⟨hrow, ?_⟩⟩
      rw [hactive, hdue]
      rfl
  settled := hI.settled

/-- It has gone through all of them. -/
theorem Inv.finish (hI : Inv listingId searchId s) {now : DateTime} {atStart due : List Uuid}
    (hsweep : s.sweep = some ⟨now, some [], atStart, due⟩) :
    Inv listingId searchId
      { s with sweep := none, settled := (atStart ×ˢ due) ++ s.settled } where
  keys := hI.keys
  ran := by
    intro id row hrow ran hran
    exact Int.le_trans (hI.ran_le hsweep hrow hran) (hI.sweep_now _ hsweep)
  sweep_now := by
    intro sweep hsweep'
    cases hsweep'
  publishing := hI.publishing
  unpublished := hI.unpublished
  placed := hI.placed
  atStart := by
    intro sweep hsweep'
    cases hsweep'
  pending := by
    intro sweep hsweep'
    cases hsweep'
  settled := by
    -- The pair settles now: the sweep is through, and nothing of it is left to come.
    intro hmem
    rcases List.mem_append.mp hmem with hnew | hold
    · obtain ⟨hstart, hdue⟩ := List.mem_product.mp hnew
      refine ⟨hI.atStart _ hsweep hstart, ?_⟩
      rcases (hI.pending _ hsweep [] rfl).ahead hstart hdue with hone | ⟨row, hrow⟩
      · exact hone
      · exact absurd hrow List.not_mem_nil
    · exact hI.settled hold

end Sweeps

/-! ### A digest -/

section Digest

variable {s s' : State} {now : DateTime} {id : Uuid} {row : SavedSearch}

/-- The digest of a search whose filters no longer parse deactivates it; any other advances the
watermark, and may send. -/
theorem digest_cases (h : digest q tenantId order s now id row = some s') :
    ∃ current, s.searches.row id = some current ∧
      ((q.parse row.filters = none ∧
          s' = { s with searches := s.searches.put id { current with isActive := false } }) ∨
        ∃ filters mails, q.parse row.filters = some filters ∧
          s' = { s with
            searches := s.searches.put id { current with lastRunAt := some now }
            mails := mails ++ s.mails } ∧
          (mails = [(id, (listPublic q order s filters row).map (·.1))] ∨
            mails = [] ∧ (listPublic q order s filters row = [] ∨
              recipientFor tenantId s.users row = none))) := by
  obtain ⟨current, hcurrent, hs'⟩ := Option.map_eq_some_iff.mp h
  refine ⟨current, hcurrent, ?_⟩
  cases hparse : q.parse row.filters with
  | none =>
    -- Filters that do not parse leave the search as it is.
    rw [hparse] at hs'
    exact .inl ⟨rfl, hs'.symm⟩
  | some filters =>
    rw [hparse] at hs'
    refine .inr ⟨filters, ?_⟩
    dsimp only at hs'
    -- No match, or nobody to write to: the run is recorded and no mail is sent.
    split at hs'
    · next hempty =>
      exact ⟨[], rfl, hs'.symm, .inr ⟨rfl, .inl (List.isEmpty_iff.mp hempty)⟩⟩
    · split at hs'
      · next hnone => exact ⟨[], rfl, hs'.symm, .inr ⟨rfl, .inr hnone⟩⟩
      · exact ⟨_, rfl, hs'.symm, .inl rfl⟩

/-- What a digest lists is published, matches and is later than the watermark. -/
theorem of_mem_listPublic {filters : q.Filters}
    (h : listingId ∈ (listPublic q order s filters row).map (·.1)) :
    ∃ r, s.listings.row listingId = some r ∧ newFor q filters row (listingId, r) = true := by
  obtain ⟨⟨j, r⟩, hmem, rfl⟩ := List.mem_map.mp h
  have hnew := OrderBy.mem_of_mem_page (List.mem_of_mem_take hmem)
  obtain ⟨hentry, hnewFor⟩ := List.mem_filter.mp hnew
  exact ⟨r, (mem_entries.mp hentry).1, hnewFor⟩

/-- A new match with fewer than ten before it is listed. -/
theorem mem_listPublic {filters : q.Filters} {r : ListingRow}
    (hr : s.listings.row listingId = some r)
    (hnew : newFor q filters row (listingId, r) = true)
    (hahead : ahead q listingId s filters row r < digestMaxListings) :
    listingId ∈ (listPublic q order s filters row).map (·.1) := by
  have hmem : (listingId, r) ∈ newMatches q s filters row :=
    List.mem_filter.mpr ⟨mem_entries.mpr ⟨hr, rfl⟩, hnew⟩
  have hpage : (listingId, r) ∈ order.page (newMatches q s filters row) digestMaxListings := by
    refine OrderBy.mem_page_of_countP_lt hmem (fun p hp hne hle => ?_) hahead
    refine decide_eq_true ⟨fun hid => hne ?_, hle⟩
    obtain ⟨hentry, -⟩ := List.mem_filter.mp hp
    obtain ⟨j, r'⟩ := p
    obtain rfl : j = listingId := hid
    rw [Option.some.inj ((mem_entries.mp hentry).1.symm.trans hr)]
  refine List.mem_map.mpr ⟨(listingId, r), ?_, rfl⟩
  rw [listPublic, OrderBy.page, List.take_take]
  exact hpage

/-- The searches that are left when one is done. -/
theorem Pending.rest {sweep sweep' : Sweep} {rest : List (Uuid × SavedSearch)}
    (hP : Pending listingId searchId s sweep ((id, row) :: rest)) {current : SavedSearch}
    (hsearches : s'.searches = s.searches.put id current)
    (hstart : listingId ∈ sweep'.atStart → listingId ∈ sweep.atStart)
    (hdue : searchId ∈ sweep'.due → searchId ∈ sweep.due)
    (hdone : listingId ∈ sweep.atStart → id = searchId → count listingId searchId s' = 1)
    (hone : listingId ∈ sweep.atStart → count listingId searchId s = 1 →
      count listingId searchId s' = 1) :
    Pending listingId searchId s' sweep' rest := by
  have hnodup := List.nodup_cons.mp hP.nodup
  constructor
  · exact hnodup.2
  · intro p hp
    rw [hsearches]
    exact Rows.mem_keys_put.mpr (.inr (hP.known p (List.mem_cons_of_mem _ hp)))
  · intro row' hrow' current' hcurrent'
    rw [hsearches] at hcurrent'
    rcases Rows.row_put hcurrent' with ⟨rfl, -⟩ | ⟨-, hold⟩
    · exact absurd (List.mem_map.mpr ⟨_, hrow', rfl⟩) hnodup.1
    · exact hP.same row' (List.mem_cons_of_mem _ hrow') current' hold
  · intro hmem hdue'
    have hmem := hstart hmem
    -- The pair was counted, or it is still ahead, or it is the one just digested.
    rcases hP.ahead hmem (hdue hdue') with hcount | ⟨row', hrow'⟩
    · exact .inl (hone hmem hcount)
    · rcases List.mem_cons.mp hrow' with heq | hrest
      · cases heq
        exact .inl (hdone hmem rfl)
      · exact .inr ⟨row', hrest⟩

/-- One search of a scan is done: its row is written, and its digest may have been sent. -/
theorem Inv.advance (hI : Inv listingId searchId s) {rest : List (Uuid × SavedSearch)}
    {atStart due : List Uuid}
    (hsweep : s.sweep = some ⟨now, some ((id, row) :: rest), atStart, due⟩)
    {current : SavedSearch} (hran : ∀ ran, current.lastRunAt = some ran → ran ≤ now)
    {s' : State} (hs' : s' = { s with
      searches := s.searches.put id current
      mails := s'.mails
      sweep := some ⟨now, some rest, atStart, due⟩ })
    (hother : id ≠ searchId → count listingId searchId s' = count listingId searchId s)
    (hnone : id = searchId → stamp listingId s = none → count listingId searchId s' = 0)
    (hsome : id = searchId → ∀ published, stamp listingId s = some published →
      count listingId searchId s' = 1 ∧ ∃ ran, current.lastRunAt = some ran ∧ published ≤ ran) :
    Inv listingId searchId s' := by
  have hstamp : stamp listingId s' = stamp listingId s := by rw [hs']; rfl
  have hsearches : s'.searches = s.searches.put id current := by rw [hs']
  have hsweep' : s'.sweep = some ⟨now, some rest, atStart, due⟩ := by rw [hs']
  have hnow : now ≤ s.now := hI.sweep_now _ hsweep
  have hone : (stamp listingId s).isSome = true → count listingId searchId s = 1 →
      count listingId searchId s' = 1 := by
    intro hup hcount
    by_cases hid : id = searchId
    · obtain ⟨published, hpublished⟩ := Option.isSome_iff_exists.mp hup
      exact (hsome hid published hpublished).1
    · rw [hother hid, hcount]
  constructor
  case keys =>
    rw [hsearches]
    exact Rows.nodup_keys_put hI.keys _ _
  case ran =>
    intro j row' hrow' ran hran'
    rw [horizon, hsweep']
    rw [hsearches] at hrow'
    rcases Rows.row_put hrow' with ⟨rfl, rfl⟩ | ⟨-, hold⟩
    · exact hran ran hran'
    · exact hI.ran_le hsweep hold hran'
  case sweep_now =>
    intro sweep hsweep''
    obtain rfl := Option.some.inj (hsweep'.symm.trans hsweep'')
    rw [hs']
    exact hnow
  case publishing =>
    rw [hstamp, hs']
    exact hI.publishing
  case unpublished =>
    intro hstamp'
    rw [hstamp] at hstamp'
    -- a listing that is not up is in no digest of the search
    by_cases hid : id = searchId
    · exact hnone hid hstamp'
    · rw [hother hid]
      exact hI.unpublished hstamp'
  case placed =>
    intro published hpublished row' hrow'
    rw [hstamp] at hpublished
    rw [hsearches] at hrow'
    rcases Rows.row_put hrow' with ⟨hid, rfl⟩ | ⟨hne, hold⟩
    · exact .inr (hsome hid.symm published hpublished)
    · unfold Placed
      rw [hother (Ne.symm hne)]
      exact hI.placed published hpublished row' hold
  case atStart =>
    intro sweep hsweep'' hmem
    obtain rfl := Option.some.inj (hsweep'.symm.trans hsweep'')
    rw [hstamp]
    exact hI.atStart _ hsweep hmem
  case pending =>
    intro sweep hsweep'' rows hrows
    obtain rfl := Option.some.inj (hsweep'.symm.trans hsweep'')
    obtain rfl := Option.some.inj hrows
    refine (hI.pending _ hsweep _ rfl).rest hsearches (fun h => h) (fun h => h) ?_ ?_
    · intro hmem hid
      obtain ⟨published, hpublished⟩ :=
        Option.isSome_iff_exists.mp (hI.atStart _ hsweep hmem)
      exact (hsome hid published hpublished).1
    · intro hmem
      exact hone (hI.atStart _ hsweep hmem)
  case settled =>
    intro hmem
    have hmem' : (listingId, searchId) ∈ s.settled := by
      rw [hs'] at hmem
      exact hmem
    obtain ⟨hup, hcount⟩ := hI.settled hmem'
    rw [hstamp]
    exact ⟨hup, hone hup hcount⟩

/-! ### What a digest adds to the count -/

/-- Mails that do not list it. -/
theorem count_unlisted {mails : List (Uuid × List Uuid)} (hmails : s'.mails = mails ++ s.mails)
    (h : ∀ mail ∈ mails, mail.1 = searchId → listingId ∉ mail.2) :
    count listingId searchId s' = count listingId searchId s := by
  have hzero : mails.countP (fun mail => mail.1 = searchId ∧ listingId ∈ mail.2) = 0 := by
    rw [List.countP_eq_zero]
    intro mail hmail hmem
    have hmem := of_decide_eq_true hmem
    exact h mail hmail hmem.1 hmem.2
  unfold count
  rw [hmails, List.countP_append, hzero, Nat.zero_add]

theorem count_listed {listings : List Uuid} (hmails : s'.mails = (searchId, listings) :: s.mails)
    (h : listingId ∈ listings) :
    count listingId searchId s' = count listingId searchId s + 1 := by
  unfold count
  rw [hmails, List.countP_cons_of_pos]
  exact decide_eq_true ⟨rfl, h⟩

/-- A listing the search has had is not new for it. -/
theorem not_newFor {published : DateTime} (hstamp : stamp listingId s = some published)
    (hwatermark : published ≤ watermark row) {filters : q.Filters} {r : ListingRow}
    (hr : s.listings.row listingId = some r) : newFor q filters row (listingId, r) ≠ true := by
  intro hnew
  rw [stamp, hr] at hstamp
  have hpublished : r.listing.publishedAt = some published := hstamp
  have hlater := (Bool.and_eq_true_iff.mp hnew).2
  rw [hpublished] at hlater
  exact absurd hwatermark (Int.not_le.mpr (of_decide_eq_true hlater))

/-- What a timely digest of the search does for a listing that is not in one yet. -/
theorem listed_of_timely {rest : List (Uuid × SavedSearch)} {atStart due : List Uuid}
    (hsweep : s.sweep = some ⟨now, some ((searchId, row) :: rest), atStart, due⟩)
    (htimely : timely q listingId searchId s .digest = true) {published : DateTime}
    (hstamp : stamp listingId s = some published) (hlater : watermark row < published) :
    ∃ filters, q.parse row.filters = some filters ∧
      listingId ∈ (listPublic q order s filters row).map (·.1) ∧ published ≤ now := by
  obtain ⟨r, hr, hpublished⟩ := Option.bind_eq_some_iff.mp hstamp
  have hguard : (q.parse row.filters).any (fun filters =>
      matchesFilters q filters row.locale r && r.listing.publishedAt.all (· ≤ now) &&
        ahead q listingId s filters row r < digestMaxListings) = true := by
    simpa [timely, hsweep, hr, hpublished, Int.not_le.mpr hlater] using htimely
  obtain ⟨filters, hparse, hall⟩ := (Option.any_eq_true ..).mp hguard
  simp only [Bool.and_eq_true, decide_eq_true_eq] at hall
  obtain ⟨⟨hmatches, hnow⟩, hahead⟩ := hall
  have hnew : newFor q filters row (listingId, r) = true := by
    rw [newFor, hpublished]
    exact Bool.and_eq_true_iff.mpr ⟨hmatches, decide_eq_true hlater⟩
  rw [hpublished] at hnow
  exact ⟨filters, hparse, mem_listPublic hr hnew hahead, of_decide_eq_true hnow⟩

/-- **One search of the sweep**: its digest lists what is newer than its watermark. -/
theorem Inv.digest (hI : Inv listingId searchId s)
    (hsteady : steady q tenantId listingId searchId s = true) {rest : List (Uuid × SavedSearch)}
    {atStart due : List Uuid}
    (hsweep : s.sweep = some ⟨now, some ((id, row) :: rest), atStart, due⟩)
    (htimely : timely q listingId searchId s .digest = true)
    (h : digest q tenantId order s now id row = some s') :
    Inv listingId searchId { s' with sweep := some ⟨now, some rest, atStart, due⟩ } := by
  obtain ⟨current, hcurrent, hcases⟩ := digest_cases h
  have hran : ∀ ran, current.lastRunAt = some ran → ran ≤ now := by
    intro ran hlast
    exact hI.ran_le hsweep hcurrent hlast
  have hsame : id = searchId → SameSearch row current := by
    rintro rfl
    exact (hI.pending _ hsweep _ rfl).same row List.mem_cons_self current hcurrent
  have hdue : id = searchId → ∀ {published}, stamp listingId s = some published →
      watermark current < published → ∃ filters, q.parse row.filters = some filters ∧
        listingId ∈ (listPublic q order s filters row).map (·.1) ∧ published ≤ now := by
    rintro rfl published hstamp hlater
    rw [(hsame rfl).watermark] at hlater
    exact listed_of_timely hsweep htimely hstamp hlater
  rcases hcases with ⟨hparse, rfl⟩ | ⟨filters, mails, hparse, rfl, hmails⟩
  · refine hI.advance hsweep ?_ rfl (fun _ => rfl) (fun _ => hI.unpublished) ?_
    · exact hran
    · rintro rfl published hpublished
      rcases hI.placed published hpublished current hcurrent with ⟨-, hlater⟩ | hhad
      · -- A timely digest of a listing still to come parses.
        obtain ⟨filters, hparse', -⟩ := hdue rfl hpublished hlater
        rw [hparse] at hparse'
        cases hparse'
      · exact hhad
  · -- A digest that does not list the listing adds nothing to its count.
    have hunlisted : (id = searchId → listingId ∉ (listPublic q order s filters row).map (·.1)) →
        ∀ mail ∈ mails, mail.1 = searchId → listingId ∉ mail.2 := by
      intro hnot mail hmail hid
      rcases hmails with rfl | ⟨rfl, -⟩
      · obtain rfl := List.mem_singleton.mp hmail
        exact hnot hid
      · cases hmail
    refine hI.advance hsweep ?_ rfl ?_ ?_ ?_
    · intro ran hlast
      obtain rfl := Option.some.inj hlast
      exact Int.le_refl _
    · intro hid
      exact count_unlisted rfl (hunlisted fun hid' => absurd hid' hid)
    · rintro rfl hstamp
      refine (count_unlisted rfl (hunlisted fun _ hmem => ?_)).trans (hI.unpublished hstamp)
      obtain ⟨r, hr, hnew⟩ := of_mem_listPublic hmem
      rw [stamp, hr] at hstamp
      have hnone : r.listing.publishedAt = none := hstamp
      rw [newFor, hnone, Option.any_none, Bool.and_false] at hnew
      cases hnew
    · rintro rfl published hpublished
      rcases hI.placed published hpublished current hcurrent with
        ⟨hzero, hlater⟩ | ⟨hone, ran, hlast, hle⟩
      · -- Still to come: this digest lists the listing, and its mail is the one.
        obtain ⟨filters', hparse', hmem, hnow⟩ := hdue rfl hpublished hlater
        obtain rfl := Option.some.inj (hparse.symm.trans hparse')
        obtain ⟨row', hrow', -, -, hrecipient⟩ :=
          search_of_steady hsteady (.inr (by rw [hpublished]; rfl))
        obtain rfl := Option.some.inj (hcurrent.symm.trans hrow')
        rcases hmails with rfl | ⟨-, hempty | hnone⟩
        · refine ⟨?_, now, rfl, hnow⟩
          rw [count_listed rfl hmem, hzero]
        · rw [hempty] at hmem
          cases hmem
        · rw [(hsame rfl).recipientFor, hnone] at hrecipient
          cases hrecipient
      · -- Already had: it is not new for this search any more.
        refine ⟨?_, now, rfl, Int.le_trans hle (hran ran hlast)⟩
        refine (count_unlisted rfl (hunlisted fun _ hmem => ?_)).trans hone
        obtain ⟨r, hr, hnew⟩ := of_mem_listPublic hmem
        refine not_newFor hpublished ?_ hr hnew
        rw [← (hsame rfl).watermark, watermark, hlast]
        exact hle

end Digest

/-! ### Runs -/

/-- One step keeps the invariant. -/
theorem Inv.step {s t : State} {l : Label} (hI : Inv listingId searchId s)
    (hsteady : steady q tenantId listingId searchId s = true)
    (hundisturbed : undisturbed q tenantId order listingId searchId s l = true)
    (htimely : timely q listingId searchId s l = true)
    (h : step q tenantId order s l = some t) : Inv listingId searchId t := by
  cases l with
  | wait seconds =>
    obtain rfl := Option.some.inj h
    have hle : s.now ≤ s.now + seconds :=
      Int.le_add_of_nonneg_right (Int.natCast_nonneg seconds)
    exact hI.quiet hsteady (quiet_of_clock hle s.users)
  | setUsers users =>
    obtain rfl := Option.some.inj h
    exact hI.quiet hsteady (quiet_of_clock (Int.le_refl _) users)
  | createSearch row =>
    simp only [Digests.step] at h
    split at h
    · cases h
    · next hnew =>
      obtain rfl := Option.some.inj h
      refine hI.quiet hsteady ?_
      exact quiet_createSearch hnew rfl
  | editSearch id patch =>
    obtain ⟨row, hrow, rfl⟩ := Option.map_eq_some_iff.mp h
    exact hI.quiet hsteady (quiet_editSearch hrow)
  | deleteSearch id =>
    obtain rfl := Option.some.inj h
    exact hI.quiet hsteady (quiet_deleteSearch id)
  | createListing id content =>
    simp only [Digests.step] at h
    split at h
    · cases h
    · next hnew =>
      obtain rfl := Option.some.inj h
      exact hI.quiet hsteady (quiet_createListing hnew)
  | changeListing id change =>
    simp only [Digests.step] at h
    split at h
    · cases h
    · obtain ⟨r', hr', rfl⟩ := Option.map_eq_some_iff.mp h
      obtain ⟨r, hr, happly⟩ := Option.bind_eq_some_iff.mp hr'
      exact hI.quiet hsteady (quiet_changeListing hr happly)
  | publish id =>
    simp only [Digests.step] at h
    split at h
    · cases h
    · obtain ⟨r, hr, hpublish⟩ := Option.bind_eq_some_iff.mp h
      obtain ⟨p, hp, rfl⟩ := Option.map_eq_some_iff.mp hpublish
      exact hI.quiet hsteady (quiet_publish hsteady hr (toOption_eq_some hp))
  | commit id =>
    obtain ⟨p, hfind, rfl⟩ := Option.map_eq_some_iff.mp h
    -- A commit is timely by the guard of the run.
    refine hI.commit hsteady hfind ?_
    rintro rfl row hrow
    simpa [timely, hfind, hrow] using htimely
  | rollback id =>
    obtain rfl := Option.some.inj h
    exact hI.quiet hsteady (quiet_rollback id)
  | startSweep =>
    simp only [Digests.step] at h
    split at h
    · cases h
    · next hidle =>
      obtain rfl := Option.some.inj h
      exact hI.startSweep hidle
  | scan =>
    simp only [Digests.step] at h
    split at h
    · next hsweep =>
      obtain rfl := Option.some.inj h
      exact hI.scan hsteady hsweep
    · cases h
  | digest =>
    simp only [Digests.step] at h
    split at h
    · next hsweep =>
      obtain ⟨s', hs', rfl⟩ := Option.map_eq_some_iff.mp h
      exact hI.digest hsteady hsweep htimely hs'
    · cases h
  | finish =>
    simp only [Digests.step] at h
    split at h
    · next hsweep =>
      obtain rfl := Option.some.inj h
      exact hI.finish hsweep
    · cases h

/-- An undisturbed step leaves things steady. -/
theorem steady_step {s t : State} {l : Label}
    (hundisturbed : undisturbed q tenantId order listingId searchId s l = true)
    (h : step q tenantId order s l = some t) : steady q tenantId listingId searchId t = true := by
  rw [undisturbed, h] at hundisturbed
  exact hundisturbed

theorem Inv.at_most_one_digest {s : State} (hI : Inv listingId searchId s)
    (hsteady : steady q tenantId listingId searchId s = true) : Delivered listingId searchId s where
  at_most_once := by
    cases hstamp : stamp listingId s with
    | none =>
      rw [hI.unpublished hstamp]
      exact Nat.zero_le 1
    | some published =>
      obtain ⟨row, hrow, -⟩ := search_of_steady hsteady (.inr (by rw [hstamp]; rfl))
      rcases hI.placed published hstamp row hrow with ⟨hzero, -⟩ | ⟨hone, -⟩
      · rw [hzero]
        exact Nat.zero_le 1
      · exact Nat.le_of_eq hone
  once hmem := (hI.settled hmem).2

theorem inductive_inv : (digests q tenantId order).Inductive
    (fun s l => undisturbed q tenantId order listingId searchId s l = true ∧
      timely q listingId searchId s l = true)
    fun s => Inv listingId searchId s ∧ steady q tenantId listingId searchId s = true where
  init := by
    rintro s ⟨hsearches, hlistings, hpublishing, hsweep, hmails, hsettled⟩
    have hstamp : stamp listingId s = none := by
      rw [stamp, hlistings]
      rfl
    refine ⟨⟨?_, ?_, ?_, ?_, ?_, ?_, ?_, ?_, ?_⟩, ?_⟩
    · rw [hsearches]
      exact List.nodup_nil
    · rw [hsearches]
      intro id row hrow
      cases hrow
    · rw [hsweep]
      intro sweep hsome
      cases hsome
    · rw [hpublishing]
      intro p hp
      cases hp
    · intro _
      rw [count, hmails]
      rfl
    · intro published hsome
      rw [hstamp] at hsome
      cases hsome
    · rw [hsweep]
      intro sweep hsome
      cases hsome
    · rw [hsweep]
      intro sweep hsome
      cases hsome
    · rw [hsettled]
      intro hmem
      cases hmem
    · simp [steady, State.locked, hpublishing, hstamp]
  step s l t hI hguard h :=
    ⟨hI.1.step hI.2 hguard.1 hguard.2 h, steady_step hguard.1 h⟩

/-- No filters. -/
def anyListing : PublicSearch where
  Filters := Unit
  parse _ := some ()
  matching _ _ _ := true

/-- No searches, no listings, no mails. -/
def nothingYet : State where
  now := 0
  users := []
  searches := .empty
  listings := .empty
  publishing := []
  sweep := none
  mails := []
  settled := []

/-- Someone who is no user asks for daily digests. -/
def daily : SavedSearch where
  id := 1
  tenantId := 0
  owner := .email "visitor@example.com"
  frequency := .daily
  createdAt := 0

/-- The steps of a sweep for one search. -/
def sweeping : List Label := [.startSweep, .scan, .digest, .finish]

variable (q tenantId order listingId searchId) in
/-- In every run of timely steps that leaves search and listing alone, the listing is in one
digest of the search. -/
theorem delivered {s : State} (h : (digests q tenantId order).ReachVia
      (fun s l => undisturbed q tenantId order listingId searchId s l = true ∧
        timely q listingId searchId s l = true) s) :
    Delivered listingId searchId s := by
  obtain ⟨hI, hsteady⟩ := inductive_inv.always h
  exact hI.at_most_one_digest hsteady

theorem delivered_next_day : ∃ s, Delivered 7 1 s ∧ (7, 1) ∈ s.settled ∧ count 7 1 s = 1 := by
  obtain ⟨s, hs, hp⟩ := Machine.exists_reachVia_of_run
    (M := digests anyListing 0 (.insertion newest))
    (G := fun s l => undisturbed anyListing 0 (.insertion newest) 7 1 s l = true ∧
      timely anyListing 7 1 s l = true) (s := nothingYet)
    (List.flatten [
      [.createSearch daily, .createListing 7 .null, .wait 5, .publish 7, .commit 7, .wait 5],
      sweeping]) (fun s => decide ((7, 1) ∈ s.settled)) ⟨rfl, rfl, rfl, rfl, rfl, rfl⟩
    (by decide)
  have hdelivered := delivered anyListing 0 (.insertion newest) 7 1 hs
  have hsettled : (7, 1) ∈ s.settled := of_decide_eq_true hp
  exact ⟨s, hdelivered, hsettled, hdelivered.once hsettled⟩

/-- Three runs: a publication that commits after the sweep its timestamp precedes is in no
digest, one that commits before the query of a sweep older than its timestamp is in two, and of
eleven one is in none. -/
theorem digest_boundaries :
    (∃ s, (digests anyListing 0 (.insertion newest)).ReachVia
        (fun s l => undisturbed anyListing 0 (.insertion newest) 7 1 s l = true) s ∧
      (7, 1) ∈ s.settled ∧ count 7 1 s = 0) ∧
    (∃ s, (digests anyListing 0 (.insertion newest)).ReachVia
        (fun s l => undisturbed anyListing 0 (.insertion newest) 7 1 s l = true) s ∧
      (7, 1) ∈ s.settled ∧ count 7 1 s = 2) ∧
    ∃ s, (digests anyListing 0 (.insertion newest)).ReachVia
        (fun s l => undisturbed anyListing 0 (.insertion newest) 7 1 s l = true) s ∧
      (7, 1) ∈ s.settled ∧ count 7 1 s = 0 := by
  have hrun : ∀ (ls : List Label) (n : Nat),
      (((digests anyListing 0 (.insertion newest)).runVia
        (fun s l => undisturbed anyListing 0 (.insertion newest) 7 1 s l = true) nothingYet ls).map
          fun s => decide ((7, 1) ∈ s.settled ∧ count 7 1 s = n)) = some true →
      ∃ s, (digests anyListing 0 (.insertion newest)).ReachVia
          (fun s l => undisturbed anyListing 0 (.insertion newest) 7 1 s l = true) s ∧
        (7, 1) ∈ s.settled ∧ count 7 1 s = n := by
    intro ls n hmap
    obtain ⟨s, hs, hp⟩ := Machine.exists_reachVia_of_run ls _
      (M := digests anyListing 0 (.insertion newest)) ⟨rfl, rfl, rfl, rfl, rfl, rfl⟩ hmap
    exact ⟨s, hs, of_decide_eq_true hp⟩
  refine ⟨hrun (List.flatten [
      [.createSearch daily, .createListing 7 .null, .wait 5, .publish 7, .wait 5], sweeping,
      [.commit 7], sweeping]) 0 (by decide),
    hrun (List.flatten [
      [.createSearch daily, .createListing 7 .null, .startSweep, .wait 5, .publish 7, .commit 7,
        .scan, .digest, .finish], sweeping]) 2 (by decide),
    hrun (List.flatten [
      [.createSearch daily, .wait 5],
      (List.range 11).flatMap fun k =>
        [.createListing (7 + k) .null, .publish (7 + k), .commit (7 + k)],
      sweeping]) 0 (by decide)⟩

end Digests

end Favorites

end RealEstate
