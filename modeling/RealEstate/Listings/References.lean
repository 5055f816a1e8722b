import RealEstate.Listings.Workflow
import RealEstate.Systems.Machine
import RealEstate.Systems.Numerals
import RealEstate.Systems.Transactions
import RealEstate.Systems.UniqueIndex
import Mathlib.Data.List.Nodup

/-!
# Reference codes

A new listing and a duplicate get a code from a counter of their tenant and year, which is
created on first use. Its row stays locked until their transaction ends.

- `referenceCode`: prefix, year and number; the last two can be told from it.
- `references`: the transactions of `create` and `duplicate`, statement by statement.
- `Drawn`: the number that an open transaction has drawn is the next one of its counter.
- `references_distinct`: no two committed listings of a tenant have one code, and the unique
  index on codes never refuses an insert.
-/

namespace RealEstate

namespace Listings

namespace References

open RealEstate.Core Systems Function

/-! ### Codes -/

/-- `_reference_prefix`; slugs are ASCII. -/
def referencePrefix (slug : Text) : Text :=
  let letters := ((slug.filter Char.isAlphanum).take 3).map Char.toUpper
  if letters = [] then "LST".toList else letters

/-- `f"{_reference_prefix(slug)}-{year}-{number:05d}"`. -/
def referenceCode (slug : Text) (year number : Nat) : String :=
  String.ofList (referencePrefix slug ++ '-' :: (numeral 10 1 year ++ '-' :: numeral 10 5 number))

example : referenceCode "atlas-immo".toList 2026 42 = "ATL-2026-00042" := by decide

/-- Year and number can be told from a code. -/
theorem referenceCode_inj {slug : Text} {year year' number number' : Nat}
    (h : referenceCode slug year number = referenceCode slug year' number') :
    year = year' ∧ number = number' := by
  have htail := List.append_cancel_left (String.ofList_injective h)
  have hsplit := congrArg (partition '-') (List.cons.inj htail).2
  rw [partition_append (not_mem_numeral (by omega) (by omega) (by decide)),
    partition_append (not_mem_numeral (by omega) (by omega) (by decide))] at hsplit
  obtain ⟨hyear, hsplit⟩ := Prod.mk.inj hsplit
  exact ⟨numeral_injective (by omega) (by omega) (by omega) hyear,
    numeral_injective (by omega) (by omega) (by omega) (Prod.mk.inj hsplit).2⟩

/-! ### Transactions -/

/-- A row of `listings`. -/
structure Row where
  tenantId : Uuid
  listing : Listing

/-- `UniqueConstraint("tenant_id", "reference_code")`. -/
def index (row : Row) : Option (Uuid × String) := some (row.tenantId, row.listing.referenceCode)

/-- What a new listing is made of; `visible` is whether the actor may see the source. -/
inductive Source where
  | create (content : Json) (expiresAt : Option DateTime)
  | duplicate (listingId : Uuid) (visible : Bool)

/-- The listing to insert, but for its code. -/
def Source.draft (listings : Table Uuid Row Nat) (t : Nat) (tenantId : Uuid) :
    Source → Except AppError Listing
  | .create content expiresAt => .ok { content, expiresAt }
  | .duplicate listingId visible =>
    match listings.visible t listingId with
    | some row =>
      if row.tenantId = tenantId ∧ row.listing.deletedAt.isNone ∧ visible then
        .ok { content := row.listing.content }
      else .error listingNotFound
    | none => .error listingNotFound

/-- Where a transaction stands. -/
inductive Phase where
  /-- Before `next_reference_number`. -/
  | minting (tenantId : Uuid) (year : Nat) (key : Uuid) (draft : Listing)
  /-- Before the insert. -/
  | adding (tenantId : Uuid) (year : Nat) (key : Uuid) (draft : Listing) (number : Nat)
  | done

/-- The counters, the listings and the requests under way. -/
structure State where
  /-- `listing_reference_counters`, by tenant and year. -/
  counters : Table (Uuid × Nat) Nat Nat
  listings : Table Uuid Row Nat
  txns : Nat → Option Phase

/-- A step of a request. -/
inductive Label where
  | begin (t : Nat) (tenantId : Uuid) (year : Nat) (key : Uuid) (source : Source)
  | advance (t : Nat)
  | commit (t : Nat)
  | rollback (t : Nat)

/-- `next_reference_number`: the counter and the value that the upsert returns. -/
def nextReferenceNumber (counters : Table (Uuid × Nat) Nat Nat) (t : Nat) (tenantId : Uuid)
    (year : Nat) : Option (Table (Uuid × Nat) Nat Nat × Nat) :=
  (counters.upsert t (tenantId, year) fun row => row.elim 1 (· + 1)).bind fun counters =>
    (counters.visible t (tenantId, year)).map (counters, ·)

section Machine

variable (slug : Uuid → Text)

/-- The listing that is inserted. -/
def newRow (tenantId : Uuid) (year : Nat) (draft : Listing) (number : Nat) : Row where
  tenantId
  listing := { draft with referenceCode := referenceCode (slug tenantId) year number }

namespace State

/-- Empty tables. -/
def start : State := ⟨.empty, .empty, fun _ => none⟩

/-- A request goes on. -/
def goes (s : State) (t : Nat) (phase : Phase) : State :=
  { s with txns := update s.txns t (some phase) }

/-- The next statement of transaction `t`. The checks of the agent and of the quota, before
the code is drawn, can only raise or wait. -/
def advance (s : State) (t : Nat) : Phase → Option State
  | .minting tenantId year key draft =>
    (nextReferenceNumber s.counters t tenantId year).map fun (counters, number) =>
      { s with counters }.goes t (.adding tenantId year key draft number)
  | .adding tenantId year key draft number =>
    let row := newRow slug tenantId year draft number
    if s.listings.Admits index t key row then
      (s.listings.insert t key row).map fun listings => { s with listings }.goes t .done
    else none
  | .done => none

/-- One step. -/
def step (s : State) : Label → Option State
  | .begin t tenantId year key source =>
    if (s.txns t).isNone then
      (source.draft s.listings t tenantId).toOption.map fun draft =>
        s.goes t (.minting tenantId year key draft)
    else none
  | .advance t => (s.txns t).bind (s.advance slug t)
  | .commit t =>
    match s.txns t with
    | some .done =>
      some ⟨s.counters.commit t, s.listings.commit t, update s.txns t none⟩
    | _ => none
  | .rollback t => some ⟨s.counters.rollback t, s.listings.rollback t, update s.txns t none⟩

/-- The codes of a tenant's committed listings. -/
def referenceCodes (s : State) (tenantId : Uuid) : List String :=
  s.listings.keys.filterMap fun k =>
    ((s.listings.rows k).filter (·.tenantId = tenantId)).map (·.listing.referenceCode)

end State

/-- The creations of listings, with the slugs of the tenants. -/
def references : Machine State Label where
  init s := s = .start
  step := State.step slug

end Machine

/-! ### Numbers and counters -/

section Invariant

variable (slug : Uuid → Text) (s : State) (t : Nat)

/-- The code of a committed listing, with a number that its counter has passed. -/
def Minted (row : Row) : Prop :=
  ∃ year number, row.listing.referenceCode = referenceCode (slug row.tenantId) year number ∧
    number ≤ (s.counters.rows (row.tenantId, year)).getD 0

/-- `t` has drawn the next number of a counter, and from no other. -/
structure Drawn (tenantId : Uuid) (year number : Nat) : Prop where
  dirty : s.counters.dirty t (tenantId, year) = some (some number)
  next : number = (s.counters.rows (tenantId, year)).getD 0 + 1
  rest : ∀ k, k ≠ (tenantId, year) → s.counters.dirty t k = none

/-- What the next statement of a transaction counts on. -/
def Phase.Sound : Phase → Prop
  | .minting .. => (∀ k, s.counters.dirty t k = none) ∧ ∀ k, s.listings.dirty t k = none
  | .adding tenantId year _ _ number =>
    Drawn s t tenantId year number ∧ ∀ k, s.listings.dirty t k = none
  | .done => ∃ key row year number, Drawn s t row.tenantId year number ∧
      row.listing.referenceCode = referenceCode (slug row.tenantId) year number ∧
      s.listings.dirty t key = some (some row) ∧ ∀ k, k ≠ key → s.listings.dirty t k = none

end Invariant

/-- Codes are minted from counters, and no two alike. -/
structure Inv (slug : Uuid → Text) (s : State) : Prop where
  counters : Table.Clean s.txns s.counters
  listings : Table.Clean s.txns s.listings
  minted : ∀ k row, s.listings.rows k = some row → Minted slug s row
  distinct : ∀ k k' row row', s.listings.rows k = some row → s.listings.rows k' = some row' →
    index row = index row' → k = k'
  sound : ∀ t phase, s.txns t = some phase → phase.Sound slug s t

variable {slug : Uuid → Text} {s s' : State} {t : Nat} {tenantId key : Uuid} {year number : Nat}
  {draft : Listing}

theorem index_inj {row row' : Row} (h : index row = index row') :
    row.tenantId = row'.tenantId ∧ row.listing.referenceCode = row'.listing.referenceCode :=
  Prod.mk.inj (Option.some.inj h)

/-- A code whose number is still ahead of its counter belongs to no committed listing. -/
theorem Minted.code_ne {row row' : Row} (h : Minted slug s row')
    (hcode : row.listing.referenceCode = referenceCode (slug row.tenantId) year number)
    (hnext : (s.counters.rows (row.tenantId, year)).getD 0 < number) : index row ≠ index row' := by
  intro hindex
  obtain ⟨htenant, hcodes⟩ := index_inj hindex
  obtain ⟨year', number', hcode', hle⟩ := h
  rw [← htenant] at hcode' hle
  obtain ⟨rfl, rfl⟩ := referenceCode_inj (hcode.symm.trans (hcodes.trans hcode'))
  omega

/-- The upsert draws the next number of the counter, and holds its row. -/
theorem drawn_of_nextReferenceNumber {counters : Table (Uuid × Nat) Nat Nat}
    (hclean : ∀ k, s.counters.dirty t k = none)
    (h : nextReferenceNumber s.counters t tenantId year = some (counters, number)) :
    Table.Wrote t (tenantId, year) (some number) s.counters counters ∧
      Drawn { s with counters } t tenantId year number := by
  obtain ⟨counters, hupsert, h⟩ := Option.bind_eq_some_iff.mp h
  obtain ⟨value, hvalue, heq⟩ := Option.map_eq_some_iff.mp h
  cases heq
  have hwrote := Table.wrote_of_upsert hupsert
  have hnumber := hwrote.visible_self.symm.trans hvalue
  rw [hnumber] at hwrote
  refine ⟨hwrote, hwrote.self, ?_, fun k hk => (hwrote.rest k hk).trans (hclean k)⟩
  show number = (counters.rows (tenantId, year)).getD 0 + 1
  rw [hwrote.rows, ← Option.some.inj hnumber, Table.visible_of_clean (hclean _)]
  cases s.counters.rows (tenantId, year) with
  | none => rfl
  | some value => rfl

/-- Two transactions have drawn from different counters. -/
theorem Drawn.unique {u number' : Nat} (h : Drawn s t tenantId year number)
    (h' : Drawn s u tenantId year number') : t = u :=
  s.counters.dirty_unique h.dirty h'.dirty

/-! ### Steps -/

/-- A drawn number stays the request's. -/
theorem Drawn.frame (h : Drawn s t tenantId year number)
    (hsame : Table.SameFor t s.counters s'.counters) : Drawn s' t tenantId year number where
  dirty := (hsame.dirty _).trans h.dirty
  next := by
    rw [hsame.rows _ (s.counters.dirty_lock h.dirty)]
    exact h.next
  rest k hk := (hsame.dirty k).trans (h.rest k hk)

/-- What a transaction counts on is out of the others' reach. -/
theorem Phase.Sound.frame {phase : Phase} (h : phase.Sound slug s t)
    (hcounters : Table.SameFor t s.counters s'.counters)
    (hlistings : Table.SameFor t s.listings s'.listings) : phase.Sound slug s' t := by
  cases phase with
  | minting =>
    exact ⟨fun k => (hcounters.dirty k).trans (h.1 k), fun k => (hlistings.dirty k).trans (h.2 k)⟩
  | adding => exact ⟨h.1.frame hcounters, fun k => (hlistings.dirty k).trans (h.2 k)⟩
  | done =>
    obtain ⟨key, row, year, number, hdrawn, hcode, hdirty, hrest⟩ := h
    exact ⟨key, row, year, number, hdrawn.frame hcounters, hcode,
      (hlistings.dirty key).trans hdirty, fun k hk => (hlistings.dirty k).trans (hrest k hk)⟩

/-- A statement of transaction `t`: the committed rows are as before. -/
theorem Inv.statement (h : Inv slug s) {counters : Table (Uuid × Nat) Nat Nat}
    {listings : Table Uuid Row Nat} {phase : Phase} (hcounters : counters.rows = s.counters.rows)
    (hlistings : listings.rows = s.listings.rows)
    (hother : ∀ u, u ≠ t → Table.SameFor u s.counters counters)
    (hother' : ∀ u, u ≠ t → Table.SameFor u s.listings listings)
    (hown : phase.Sound slug ⟨counters, listings, update s.txns t (some phase)⟩ t) :
    Inv slug ⟨counters, listings, update s.txns t (some phase)⟩ := by
  refine ⟨h.counters.goes hother, h.listings.goes hother', ?_, ?_, ?_⟩
  · intro k row hrow
    obtain ⟨year, number, hcode, hle⟩ := h.minted k row (hlistings ▸ hrow)
    refine ⟨year, number, hcode, ?_⟩
    show number ≤ (counters.rows _).getD 0
    rw [hcounters]
    exact hle
  · intro k k' row row' hrow hrow'
    exact h.distinct k k' row row' (hlistings ▸ hrow) (hlistings ▸ hrow')
  · exact Machine.each_goes h.sound
      (fun u phase hu hsound => hsound.frame (hother u hu) (hother' u hu)) hown

/-- The unique index has nothing to refuse: whoever has written a code has drawn its number. -/
theorem Inv.admits (h : Inv slug s)
    (ht : s.txns t = some (.adding tenantId year key draft number)) :
    s.listings.Admits index t key (newRow slug tenantId year draft number) := by
  obtain ⟨hdrawn, hclean⟩ := h.sound t _ ht
  intro j _ _
  -- The number drawn is beyond the counter's committed value.
  have hnext : (s.counters.rows (tenantId, year)).getD 0 < number :=
    hdrawn.next ▸ Nat.lt_succ_self _
  refine ⟨fun hunder => ?_, fun hunder => ?_⟩
  · rw [Table.visible_of_clean (hclean j)] at hunder
    obtain ⟨row, hrow, hindex⟩ := Option.bind_eq_some_iff.1 hunder
    exact (h.minted j row hrow).code_ne rfl hnext hindex.symm
  · -- A listing that waits for its commit has drawn a number of its own.
    obtain ⟨u, row, hdirty, hindex⟩ := Table.under_pending.1 hunder
    cases hu : s.txns u with
    | none => cases (h.listings u hu j).symm.trans hdirty
    | some phase =>
      have hsound := h.sound u phase hu
      cases phase with
      | minting | adding => cases (hsound.2 j).symm.trans hdirty
      | done =>
        obtain ⟨key', row', year', number', hdrawn', hcode, hdirty', hrest⟩ := hsound
        have hj : j = key' := by
          by_contra hne
          cases (hrest j hne).symm.trans hdirty
        rw [hj, hdirty'] at hdirty
        cases hdirty
        obtain ⟨htenant, hcodes⟩ := index_inj hindex
        obtain ⟨rfl, rfl⟩ : year' = year ∧ number' = number := by
          rw [htenant] at hcode
          exact referenceCode_inj (hcode.symm.trans hcodes)
        -- One number drawn twice is drawn by one transaction.
        rw [htenant] at hdrawn'
        rw [hdrawn.unique hdrawn'] at ht
        cases ht.symm.trans hu

/-- A commit publishes counter and listing together. -/
theorem Inv.commit (h : Inv slug s) (ht : s.txns t = some .done) :
    Inv slug ⟨s.counters.commit t, s.listings.commit t, update s.txns t none⟩ := by
  obtain ⟨key, row, year, number, hdrawn, hcode, hdirty, hrest⟩ := h.sound t _ ht
  have hnext : (s.counters.rows (row.tenantId, year)).getD 0 < number :=
    hdrawn.next ▸ Nat.lt_succ_self _
  -- The new listing, or one that was there.
  have hrows : ∀ k row', s.listings.visible t k = some row' →
      (k = key ∧ row' = row) ∨ (k ≠ key ∧ s.listings.rows k = some row') := by
    intro k row' hrow'
    by_cases hk : k = key
    · rw [hk, Table.visible_of_dirty hdirty] at hrow'
      exact .inl ⟨hk, (Option.some.inj hrow').symm⟩
    · rw [Table.visible_of_clean (hrest k hk)] at hrow'
      exact .inr ⟨hk, hrow'⟩
  have hcounter : ∀ k, (s.counters.rows k).getD 0 ≤ (s.counters.visible t k).getD 0 := by
    intro k
    by_cases hk : k = (row.tenantId, year)
    · rw [hk, Table.visible_of_dirty hdrawn.dirty]
      exact hnext.le
    · rw [Table.visible_of_clean (hdrawn.rest k hk)]
  refine ⟨h.counters.ends (fun _ => if_pos rfl) fun u hu => Table.commit_sameFor hu,
    h.listings.ends (fun _ => if_pos rfl) fun u hu => Table.commit_sameFor hu, ?_, ?_, ?_⟩
  · intro k row' hrow'
    rcases hrows k row' hrow' with ⟨-, rfl⟩ | ⟨-, hold⟩
    · refine ⟨year, number, hcode, ?_⟩
      show number ≤ (s.counters.visible t _).getD 0
      rw [Table.visible_of_dirty hdrawn.dirty]
      exact le_rfl
    · obtain ⟨year', number', hcode', hle⟩ := h.minted k row' hold
      exact ⟨year', number', hcode', hle.trans (hcounter _)⟩
  · intro k k' row₁ row₂ hrow₁ hrow₂ hindex
    rcases hrows k row₁ hrow₁ with ⟨rfl, rfl⟩ | ⟨-, hold₁⟩ <;>
      rcases hrows k' row₂ hrow₂ with ⟨rfl, rfl⟩ | ⟨-, hold₂⟩
    · rfl
    · exact absurd hindex ((h.minted k' row₂ hold₂).code_ne hcode hnext)
    · exact absurd hindex.symm ((h.minted k row₁ hold₁).code_ne hcode hnext)
    · exact h.distinct k k' row₁ row₂ hold₁ hold₂ hindex
  · exact Machine.each_ends h.sound fun u phase hu hsound =>
      hsound.frame (Table.commit_sameFor hu) (Table.commit_sameFor hu)

theorem Inv.rollback (h : Inv slug s) (t : Nat) :
    Inv slug ⟨s.counters.rollback t, s.listings.rollback t, update s.txns t none⟩ :=
  ⟨h.counters.ends (fun _ => if_pos rfl) fun _ hu => Table.rollback_sameFor hu,
    h.listings.ends (fun _ => if_pos rfl) fun _ hu => Table.rollback_sameFor hu, h.minted,
    h.distinct, Machine.each_ends h.sound fun _ _ hu hsound =>
      hsound.frame (Table.rollback_sameFor hu) (Table.rollback_sameFor hu)⟩

theorem Inv.advance (h : Inv slug s) {phase : Phase} (ht : s.txns t = some phase)
    (hst : s.advance slug t phase = some s') : Inv slug s' := by
  cases phase with
  | minting tenantId year key draft =>
    obtain ⟨⟨counters, number⟩, hnext, rfl⟩ := Option.map_eq_some_iff.mp hst
    obtain ⟨hclean, hclean'⟩ := h.sound t _ ht
    obtain ⟨hwrote, hdrawn⟩ := drawn_of_nextReferenceNumber hclean hnext
    exact h.statement hwrote.rows rfl hwrote.other (fun u _ => .refl u _)
      ⟨hdrawn.frame (.refl t _), hclean'⟩
  | adding tenantId year key draft number =>
    obtain ⟨-, hst⟩ := Option.ite_none_right_eq_some.mp hst
    obtain ⟨listings, hinsert, rfl⟩ := Option.map_eq_some_iff.mp hst
    obtain ⟨hdrawn, hclean⟩ := h.sound t _ ht
    have hwrote := Table.wrote_of_insert hinsert
    refine h.statement rfl hwrote.rows (fun u _ => .refl u _) hwrote.other ?_
    exact ⟨key, newRow slug tenantId year draft number, year, number,
      hdrawn.frame (.refl t _), rfl, hwrote.self, fun k hk => (hwrote.rest k hk).trans (hclean k)⟩
  | done => cases hst

theorem references_inductive : (references slug).Inductive (fun _ _ => True) (Inv slug) where
  init s hs := by
    cases hs
    exact ⟨fun _ _ _ => rfl, fun _ _ _ => rfl, (fun _ _ h => nomatch h),
      (fun _ _ _ _ h => nomatch h), (fun _ _ h => nomatch h)⟩
  step s l s' h _ hst := by
    cases l with
    | begin t tenantId year key source =>
      obtain ⟨hidle, hst⟩ := Option.ite_none_right_eq_some.mp hst
      obtain ⟨draft, -, rfl⟩ := Option.map_eq_some_iff.mp hst
      have hnone := Option.isNone_iff_eq_none.mp hidle
      exact h.statement rfl rfl (fun u _ => .refl u _) (fun u _ => .refl u _)
        ⟨h.counters t hnone, h.listings t hnone⟩
    | advance t =>
      obtain ⟨phase, ht, hst⟩ := Option.bind_eq_some_iff.mp hst
      exact h.advance ht hst
    | commit t =>
      dsimp only [references, State.step] at hst
      split at hst
      · next ht =>
        cases hst
        exact h.commit ht
      · cases hst
    | rollback t =>
      cases hst
      exact h.rollback t

/-- **Reference codes.** Whatever creations and duplications interleave and wherever they are
rolled back, the codes of a tenant's committed listings are pairwise distinct, and the unique
index on codes never stands in the way of one. -/
theorem references_distinct (h : (references slug).Reachable s) :
    (∀ tenantId, (s.referenceCodes tenantId).Nodup) ∧
      ∀ t tenantId year key draft number,
        s.txns t = some (.adding tenantId year key draft number) →
          s.listings.Admits index t key (newRow slug tenantId year draft number) := by
  have hinv := references_inductive.always h
  refine ⟨fun tenantId => ?_, fun t tenantId year key draft number ht => hinv.admits ht⟩
  refine List.Nodup.filterMap (fun k k' code hcode hcode' => ?_) s.listings.keys_nodup
  obtain ⟨row, hrow, rfl⟩ := Option.map_eq_some_iff.1 hcode
  obtain ⟨row', hrow', hcodes⟩ := Option.map_eq_some_iff.1 hcode'
  obtain ⟨hrow, htenant⟩ := Option.filter_eq_some_iff.1 hrow
  obtain ⟨hrow', htenant'⟩ := Option.filter_eq_some_iff.1 hrow'
  refine hinv.distinct k k' row row' hrow hrow' ?_
  rw [index, index, hcodes, of_decide_eq_true htenant, of_decide_eq_true htenant']

/-- Two creations meet in a new year, the first is rolled back; a duplicate follows, and a
creation in the next year. -/
theorem references_distinct_years : ∃ s, (references fun _ => "atlas".toList).Reachable s ∧
    s.referenceCodes 5 = ["ATL-2027-00001", "ATL-2026-00002", "ATL-2026-00001"] ∧
      (s.referenceCodes 5).Nodup := by
  obtain ⟨s, hs, hp⟩ := Machine.exists_reachable_of_run (M := references fun _ => "atlas".toList)
    (s := .start)
    [.begin 0 5 2026 1 (.create .null none), .begin 1 5 2026 2 (.create .null none), .advance 0,
      .advance 0, .rollback 0, .advance 1, .advance 1, .commit 1,
      .begin 0 5 2026 3 (.duplicate 2 true), .advance 0, .advance 0, .commit 0,
      .begin 0 5 2027 4 (.create .null none), .advance 0, .advance 0, .commit 0]
    (fun s => s.referenceCodes 5 = ["ATL-2027-00001", "ATL-2026-00002", "ATL-2026-00001"])
    rfl (by decide)
  exact ⟨s, hs, of_decide_eq_true hp, (references_distinct hs).1 5⟩

end References

end Listings

end RealEstate
