import Mathlib.Data.Prod.Lex
import RealEstate.Favorites.Models
import RealEstate.Listings.Workflow
import RealEstate.Systems.Machine
import RealEstate.Systems.Paging
import RealEstate.Systems.Rows
import RealEstate.Users.Models

/-!
# Saved-search digests (`modules/favorites/service.py`, `workers/tasks/favorites.py`)

One agency. `ListingService.transition` takes the timestamp of a publication in a
transaction that holds the listing's row and commits later; a digest sweep takes
`now`, scans the searches that are due, and for each queries the listings published
since the search's watermark. Sweeps do not overlap and do not fail.

- `digest`: one iteration of the loop of `run_digests`.
- `digests`: publications, edits and sweeps in any order.
- What `PublicListingFilters` accepts and what its `WHERE` clause selects is a
  parameter (`PublicSearch`).
-/

namespace RealEstate

namespace Favorites

open RealEstate.Core Systems Listings Users

namespace Digests

/-- A listing, and whether it is a paid placement. -/
structure ListingRow where
  listing : Listing
  featured : Bool := false

/-- `PublicListingFilters.model_validate`, and the part of `_published_filtered` that comes
from the filters. -/
structure PublicSearch where
  Filters : Type
  parse : JsonObject → Option Filters
  matching : Filters → (locale : String) → ListingRow → Bool

/-- `DIGEST_MAX_LISTINGS`. -/
def digestMaxListings : Nat := 10

/-- A sweep. `pending` is what is left of its scan. `atStart` and `due`, which nothing reads,
are the listings published when it started and the searches its scan was for. -/
structure Sweep where
  now : DateTime
  pending : Option (List (Uuid × SavedSearch)) := none
  atStart : List Uuid
  due : List Uuid := []

/-- `publishing` holds the listings whose publication is not committed, as they will be.
`mails` is every digest sent, as search and listings; `settled` the pairs of a listing and a
search for which a due sweep that started with the listing published has finished. -/
structure State where
  now : DateTime
  users : List User
  searches : Rows Uuid SavedSearch
  listings : Rows Uuid ListingRow
  publishing : List (Uuid × ListingRow)
  sweep : Option Sweep
  mails : List (Uuid × List Uuid)
  settled : List (Uuid × Uuid)

/-! ### One digest -/

/-- `_recipient_for`. -/
def recipientFor (tenantId : Uuid) (users : List User) (row : SavedSearch) : Option String :=
  match row.owner with
  | .email address => some address
  | .user userId => (getIdentityIfActive users (some tenantId) userId).map (·.email)

/-- `row.last_run_at or row.created_at`. -/
def watermark (row : SavedSearch) : DateTime := row.lastRunAt.getD row.createdAt

variable (q : PublicSearch)

/-- The listing is published and matches the filters. -/
def matchesFilters (filters : q.Filters) (locale : String) (r : ListingRow) : Bool :=
  r.listing.deletedAt.isNone && r.listing.status = .published && q.matching filters locale r

/-- The `WHERE` clause of `list_published`. -/
def newFor (filters : q.Filters) (row : SavedSearch) (p : Uuid × ListingRow) : Bool :=
  matchesFilters q filters row.locale p.2 && p.2.listing.publishedAt.any (watermark row < ·)

/-- What `SearchSort.NEWEST` sorts by. -/
def newestKey (p : Uuid × ListingRow) : Bool ×ₗ DateTime ×ₗ Uuid :=
  toLex (p.2.featured, toLex (p.2.listing.publishedAt.getD 0, p.1))

/-- `ORDER BY featured DESC, published_at DESC, id DESC`. -/
def newest (p p' : Uuid × ListingRow) : Prop := newestKey p' ≤ newestKey p

/-- A comparison of keys. -/
instance : DecidableRel newest := fun p p' =>
  inferInstanceAs (Decidable (newestKey p' ≤ newestKey p))

/-- For `mergeSort`. -/
instance : Std.Total newest := ⟨fun p p' => le_total (newestKey p') (newestKey p)⟩

/-- For `mergeSort`. -/
instance : IsTrans (Uuid × ListingRow) newest := ⟨fun _ _ _ h h' => le_trans h' h⟩

/-- The rows of a table with their keys. -/
def entries {V : Type} (rows : Rows Uuid V) (p : V → Bool) : List (Uuid × V) :=
  (rows.select p).filterMap fun id => (rows.row id).map fun r => (id, r)

/-- The rows of `list_published` before its limit. -/
def newMatches (s : State) (filters : q.Filters) (row : SavedSearch) : List (Uuid × ListingRow) :=
  (entries s.listings fun _ => true).filter (newFor q filters row)

/-- `list_public` with `published_since`: one row more than the page is read, and left out. -/
def listPublic (order : OrderBy newest) (s : State) (filters : q.Filters) (row : SavedSearch) :
    List (Uuid × ListingRow) :=
  (order.page (newMatches q s filters row) (digestMaxListings + 1)).take digestMaxListings

/-- One iteration of the loop of `run_digests`. It fails on a search deleted meanwhile. -/
def digest (tenantId : Uuid) (order : OrderBy newest) (s : State) (now : DateTime) (id : Uuid)
    (row : SavedSearch) : Option State :=
  (s.searches.row id).map fun current =>
    match q.parse row.filters with
    | none => { s with searches := s.searches.put id { current with isActive := false } }
    | some filters =>
      let listings := listPublic q order s filters row
      let s := { s with searches := s.searches.put id { current with lastRunAt := some now } }
      if listings.isEmpty then s
      else match recipientFor tenantId s.users row with
        | none => s
        | some _ => { s with mails := (id, listings.map (·.1)) :: s.mails }

/-! ### The machine -/

/-- `SavedSearchUpdate`, apart from the name. -/
structure SearchUpdate where
  filters : Option JsonObject := none
  frequency : Option AlertFrequency := none
  isActive : Option Bool := none
  locale : Option String := none

/-- `update_saved_search`. -/
def SearchUpdate.apply (patch : SearchUpdate) (row : SavedSearch) : SavedSearch :=
  { row with
    filters := patch.filters.getD row.filters
    frequency := patch.frequency.getD row.frequency
    isActive := patch.isActive.getD row.isActive
    locale := patch.locale.getD row.locale }

/-- A change of a listing other than its publication. -/
inductive ListingChange where
  | update (content : Json) (remains : Bool)
  | feature (featured : Bool)
  | transition (toStatus : ListingStatus)
  | softDelete

/-- A request on a listing. -/
def ListingChange.apply (now : DateTime) (change : ListingChange) (r : ListingRow) :
    Option ListingRow :=
  match change with
  | .update content remains =>
    (r.listing.update content remains).toOption.map fun p => { r with listing := p.1 }
  | .feature featured => some { r with featured := featured }
  | .transition toStatus =>
    if toStatus = .published then none
    else
      (r.listing.transition now toStatus true).toOption.map fun p => { r with listing := p.1 }
  | .softDelete => (r.listing.softDelete now).toOption.map fun p => { r with listing := p.1 }

/-- A step of the sweep or of a request, or time that passes. -/
inductive Label where
  | wait (seconds : Nat)
  | setUsers (users : List User)
  | createSearch (row : SavedSearch)
  | editSearch (id : Uuid) (patch : SearchUpdate)
  | deleteSearch (id : Uuid)
  | createListing (id : Uuid) (content : Json)
  | changeListing (id : Uuid) (change : ListingChange)
  /-- A publication takes its timestamp. -/
  | publish (id : Uuid)
  | commit (id : Uuid)
  | rollback (id : Uuid)
  /-- A sweep takes its `now`. -/
  | startSweep
  /-- `list_active_by_frequency`. -/
  | scan
  | digest
  | finish

/-- `WEEKLY_DIGEST_WEEKDAY` is Monday; day 0 of the epoch was a Thursday. -/
def weekday (now : DateTime) : Int := (now / 86400 + 3) % 7

/-- The frequencies a sweep at `now` is for. -/
def dueAt (now : DateTime) (frequency : AlertFrequency) : Bool :=
  frequency = .daily ∨ frequency = .weekly ∧ weekday now = 0

/-- Another transaction holds the listing's row. -/
def State.locked (s : State) (id : Uuid) : Bool := s.publishing.any fun p => p.1 = id

variable (tenantId : Uuid) (order : OrderBy newest)

/-- One step. -/
def step (s : State) : Label → Option State
  | .wait seconds => some { s with now := s.now + seconds }
  | .setUsers users => some { s with users := users }
  | .createSearch row =>
    if row.id ∈ s.searches.keys then none
    else
      let row := { row with createdAt := s.now, lastRunAt := none }
      some { s with searches := s.searches.put row.id row }
  | .editSearch id patch =>
    (s.searches.row id).map fun row =>
      { s with searches := s.searches.put id (patch.apply row) }
  | .deleteSearch id => some { s with searches := s.searches.delete id }
  | .createListing id content =>
    if id ∈ s.listings.keys then none
    else some { s with listings := s.listings.put id { listing := { content } } }
  | .changeListing id change =>
    -- A publication under way holds the row's lock.
    if s.locked id then none
    else
      ((s.listings.row id).bind (change.apply s.now)).map fun r =>
        { s with listings := s.listings.put id r }
  | .publish id =>
    if s.locked id then none
    else
      -- The publication is flushed, and its commit is a later step.
      (s.listings.row id).bind fun r =>
        (r.listing.transition s.now .published true).toOption.map fun p =>
          { s with publishing := (id, { r with listing := p.1 }) :: s.publishing }
  | .commit id =>
    (s.publishing.find? fun p => p.1 = id).map fun p =>
      { s with
        listings := s.listings.put id p.2
        publishing := s.publishing.filter fun p => p.1 ≠ id }
  | .rollback id => some { s with publishing := s.publishing.filter fun p => p.1 ≠ id }
  | .startSweep =>
    -- One sweep at a time; the instant it starts with is its watermark to be.
    match s.sweep with
    | some _ => none
    | none =>
      some { s with
        sweep := some
          { now := s.now
            atStart := s.listings.select fun r => r.listing.publishedAt.isSome } }
  | .scan =>
    match s.sweep with
    | some ⟨now, none, atStart, _⟩ =>
      -- The scan of the due searches is one statement.
      some { s with
        sweep := some
          { now, atStart
            pending := entries s.searches fun row => row.isActive && dueAt now row.frequency
            due := s.searches.select fun row => dueAt now row.frequency } }
    | _ => none
  | .digest =>
    match s.sweep with
    | some ⟨now, some ((id, row) :: rest), atStart, due⟩ =>
      (digest q tenantId order s now id row).map fun s =>
        { s with sweep := some ⟨now, some rest, atStart, due⟩ }
    | _ => none
  | .finish =>
    match s.sweep with
    | some ⟨_, some [], atStart, due⟩ =>
      -- Ghost: the pairs that this sweep has answered for.
      some { s with sweep := none, settled := (atStart ×ˢ due) ++ s.settled }
    | _ => none

/-- An agency without listings and saved searches. -/
def digests : Machine State Label where
  init s := s.searches = .empty ∧ s.listings = .empty ∧ s.publishing = [] ∧ s.sweep = none ∧
    s.mails = [] ∧ s.settled = []
  step := step q tenantId order

end Digests

end Favorites

end RealEstate
