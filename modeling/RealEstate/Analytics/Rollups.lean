import RealEstate.Analytics.Partitions
import RealEstate.Core.Base
import RealEstate.Systems.Dicts
import RealEstate.Systems.Rollups

/-!
# Listing statistics (`modules/analytics/`, `modules/compliance/service.py`)

Visitors report batches of events. An event is stored if its visitor consents to analytics; a
nightly job counts the events of each listing and day, and dashboards show the counts.

- `analyticsAllowed`, `Ingest`: the consent gate, and a batch on its way through it.
- `listingEventCountsForDay`, `perListing`, `rollupListingStats`: what the job writes.
- `listingStats`: these as a `Rollup`. `listingStats_sound`: it writes what the events say.
- `machine`: consents, batches, jobs and the pruning of months, in any order.
- `counted_with_consent`: no row counts more than was stored, and all of that was consented to
  while its batch was under way.
- `rollup_exact`: one job after a day's last event leaves exact numbers, for good.
-/

namespace RealEstate

namespace Analytics

namespace Rollups

open RealEstate.Core Systems
open Partitions (UtcTime)

/-! ### Events -/

/-- `AnalyticsEventType`. -/
inductive EventType where
  | listingView
  | search
  | favorite
  | formStart
  | formSubmit
  | pageView
  deriving DecidableEq

/-- The columns of `listing_stats_daily`. -/
inductive Column where
  | views
  | saves
  | inquiries
  deriving DecidableEq

/-- `_LISTING_COUNTED`. -/
def listingCounted : EventType → Option Column
  | .listingView => some .views
  | .favorite => some .saves
  | .formSubmit => some .inquiries
  | _ => none

/-- `AnalyticsEvent`, a row of the partitioned table. -/
structure AnalyticsEvent where
  tenantId : Uuid
  eventType : EventType
  sessionId : Option Text
  userId : Option Uuid
  listingId : Option Uuid
  source : Option Text
  createdAt : UtcTime

/-- `func.date(created_at)`. -/
def AnalyticsEvent.day (e : AnalyticsEvent) : Nat := e.createdAt.ordinal

/-! ### Consent -/

/-- `ConsentCategory`. -/
inductive ConsentCategory where
  | necessary
  | analytics
  | marketing
  deriving DecidableEq

/-- `ConsentRecord`, a row of the consent log. -/
structure ConsentRecord where
  tenantId : Uuid
  userId : Option Uuid
  sessionId : Option Text
  category : ConsentCategory
  granted : Bool
  createdAt : DateTime

/-- `ORDER BY created_at DESC LIMIT 1` of the rows that satisfy a condition. -/
def latestConsent (p : ConsentRecord → Bool) (consents : List ConsentRecord) :
    Option ConsentRecord :=
  consents.foldl
    (fun best r => if p r ∧ best.all fun b => b.createdAt ≤ r.createdAt then some r else best) none

/-- `latest_consent_for_user`. -/
def latestConsentForUser (consents : List ConsentRecord) (tenantId userId : Uuid) :
    Option ConsentRecord :=
  latestConsent
    (fun r => r.tenantId = tenantId ∧ r.userId = some userId ∧ r.category = .analytics) consents

/-- `latest_consent_for_session`. -/
def latestConsentForSession (consents : List ConsentRecord) (tenantId : Uuid) (sessionId : Text) :
    Option ConsentRecord :=
  latestConsent
    (fun r => r.tenantId = tenantId ∧ r.sessionId = some sessionId ∧ r.category = .analytics)
    consents

/-- `ConsentGate.analytics_allowed`. -/
def analyticsAllowed (consents : List ConsentRecord) (tenantId : Uuid) :
    Option Uuid → Option Text → Bool
  | some userId, _ => (latestConsentForUser consents tenantId userId).all (·.granted)
  | none, some sessionId =>
    sessionId = [] || (latestConsentForSession consents tenantId sessionId).any (·.granted)
  | none, none => true

/-! ### Ingestion -/

/-- `AnalyticsEventIn`, without the payload, which nothing reads again. -/
structure EventIn where
  eventType : EventType
  sessionId : Option Text
  listingId : Option Uuid
  source : Option Text

/-- A call of `ingest` in its loop; `now` is the start of its transaction. The consent log as it
was then is kept for the record: the code does not read `began`. -/
structure Ingest where
  began : List ConsentRecord
  tenantId : Uuid
  userId : Option Uuid
  now : UtcTime
  todo : List EventIn
  allowedSessions : List (Option Text × Bool)
  events : List AnalyticsEvent

/-- One round of the loop. -/
def Ingest.consider (consents : List ConsentRecord) (i : Ingest) : Option Ingest :=
  match i.todo with
  | [] => none
  | event :: todo =>
    let cached := dictGet i.allowedSessions event.sessionId
    let allowed := cached.getD (analyticsAllowed consents i.tenantId i.userId event.sessionId)
    some { i with
      todo
      allowedSessions :=
        if cached.isSome then i.allowedSessions
        else i.allowedSessions ++ [(event.sessionId, allowed)]
      events :=
        if allowed then
          i.events ++ [⟨i.tenantId, event.eventType, event.sessionId, i.userId, event.listingId,
            event.source, i.now⟩]
        else i.events }

/-! ### What the job writes -/

/-- `uq_listing_stats_daily_listing_day`. -/
structure StatKey where
  tenantId : Uuid
  listingId : Uuid
  day : Nat
  deriving DecidableEq

/-- A row of `listing_stats_daily`. -/
structure ListingStat where
  views : Nat
  saves : Nat
  inquiries : Nat
  deriving DecidableEq

/-- `listing_event_counts_for_day`. -/
def listingEventCountsForDay (tenantId : Uuid) (day : Nat) (raw : List AnalyticsEvent) :
    List ((Option Uuid × EventType) × Nat) :=
  grouped (fun e => (e.listingId, e.eventType)) List.length
    (raw.filter fun e => e.tenantId = tenantId ∧ e.listingId.isSome ∧
      (listingCounted e.eventType).isSome ∧ e.day = day)

/-- The counts of each listing, as the dicts of `_rollup_listing_stats`. -/
abbrev PerListing := Rows Uuid (List (Column × Nat))

/-- `per_listing.setdefault(row.listing_id, {})[column] = row.n`. -/
def countInto (perListing : PerListing) (row : (Option Uuid × EventType) × Nat) : PerListing :=
  match listingCounted row.1.2, row.1.1 with
  | some column, some listing =>
    perListing.put listing ((perListing.row listing).getD [] ++ [(column, row.2)])
  | _, _ => perListing

/-- `per_listing`, the dictionary of `_rollup_listing_stats`. -/
def perListing (rows : List ((Option Uuid × EventType) × Nat)) : PerListing :=
  rows.foldl countInto .empty

/-- The `values` of `upsert_listing_stats`. -/
def values (tenantId : Uuid) (day : Nat) (rows : PerListing) : List (StatKey × ListingStat) :=
  rows.keys.filterMap fun listing => (rows.row listing).map fun counts =>
    (⟨tenantId, listing, day⟩, ⟨(dictGet counts .views).getD 0, (dictGet counts .saves).getD 0,
      (dictGet counts .inquiries).getD 0⟩)

/-- `_rollup_listing_stats`. -/
def rollupListingStats (tenantId : Uuid) (day : Nat) (raw : List AnalyticsEvent) :
    List (StatKey × ListingStat) :=
  values tenantId day (perListing (listingEventCountsForDay tenantId day raw))

/-! ### What it means -/

/-- The row an event counts in. -/
def AnalyticsEvent.statKey (e : AnalyticsEvent) : Option StatKey :=
  if (listingCounted e.eventType).isSome then
    e.listingId.map fun listing => ⟨e.tenantId, listing, e.day⟩
  else none

/-- How many of the events count in a column. -/
def countOf (column : Column) (events : List AnalyticsEvent) : Nat :=
  events.countP fun e => listingCounted e.eventType = some column

/-- The number of an instant's month. -/
def monthOf (t : UtcTime) : Nat := monthNumber t.val.val.year t.val.val.month

/-- How often a listing was seen, saved and inquired about. -/
def stat (events : List AnalyticsEvent) : ListingStat :=
  ⟨countOf .views events, countOf .saves events, countOf .inquiries events⟩

/-- Events lie in the partition of their month, and a job is for a tenant's day. -/
def listingStats : Rollup AnalyticsEvent StatKey ListingStat (Uuid × Nat) where
  partition e := monthOf e.createdAt
  group := AnalyticsEvent.statKey
  summary := stat
  covers scope k := k.tenantId = scope.1 ∧ k.day = scope.2
  plan scope raw := rollupListingStats scope.1 scope.2 raw

/-- Which events belong to a row of the rollup. -/
theorem statKey_eq_some {e : AnalyticsEvent} {k : StatKey} : e.statKey = some k ↔
    (listingCounted e.eventType).isSome ∧ e.listingId = some k.listingId ∧
      e.tenantId = k.tenantId ∧ e.day = k.day := by
  rw [AnalyticsEvent.statKey, Option.ite_none_right_eq_some, Option.map_eq_some_iff]
  refine and_congr_right fun _ => ⟨?_, ?_⟩
  · rintro ⟨listing, hlisting, rfl⟩
    exact ⟨hlisting, rfl, rfl⟩
  · rintro ⟨hlisting, htenant, hday⟩
    exact ⟨k.listingId, hlisting, by rw [htenant, hday]⟩

/-- No two event types count in one column. -/
theorem listingCounted_inj {type type' : EventType} {column : Column}
    (h : listingCounted type = some column) (h' : listingCounted type' = some column) :
    type = type' := by
  cases type <;> cases type' <;> first | rfl | cases h <;> cases h'

theorem ordinal_lt_of_month {t t' : UtcTime} (h : monthOf t < monthOf t') :
    t.ordinal < t'.ordinal := by
  obtain ⟨⟨hyear, -⟩, ⟨hmonth, hmonth'⟩, ⟨hday, hday'⟩, -⟩ := t.val.property
  obtain ⟨⟨hyear₁, -⟩, ⟨hmonth₁, hmonth₁'⟩, ⟨hday₁, hday₁'⟩, -⟩ := t'.val.property
  have hnext : firstOf (monthOf t + 1) ≤ firstOf (monthOf t') :=
    firstOf_le_firstOf (by unfold monthOf monthNumber; omega) h
  calc t.ordinal < firstOf (monthOf t + 1) := (mem_month hyear hmonth hmonth' hday hday').2
    _ ≤ firstOf (monthOf t') := hnext
    _ ≤ t'.ordinal := (mem_month hyear₁ hmonth₁ hmonth₁' hday₁ hday₁').1

/-- Instants of one day lie in one month. -/
theorem month_eq_of_ordinal {t t' : UtcTime} (h : t.ordinal = t'.ordinal) :
    monthOf t = monthOf t' := by
  rcases Nat.lt_trichotomy (monthOf t) (monthOf t') with hlt | heq | hgt
  · exact absurd h (Nat.ne_of_lt (ordinal_lt_of_month hlt))
  · exact heq
  · exact absurd h (Nat.ne_of_gt (ordinal_lt_of_month hgt))

/-! ### The job writes what the events say -/

section

variable {raw events : List AnalyticsEvent} {k : StatKey} {column : Column} {n : Nat}

/-- The entries of one listing, in the order in which the job sees them. -/
def entries (listing : Uuid) (rows : List ((Option Uuid × EventType) × Nat)) :
    List (Column × Nat) :=
  rows.filterMap fun row =>
    if row.1.1 = some listing then (listingCounted row.1.2).map fun column => (column, row.2)
    else none

/-- The dictionary holds for a listing the entries of its rows, in their order. -/
theorem row_foldl_countInto (listing : Uuid) (rows : List ((Option Uuid × EventType) × Nat)) :
    ∀ init : PerListing, (rows.foldl countInto init).row listing =
      if entries listing rows = [] then init.row listing
      else some ((init.row listing).getD [] ++ entries listing rows) := by
  induction rows with
  | nil => exact fun init => rfl
  | cons row rows ih =>
    intro init
    obtain ⟨⟨listing?, type⟩, n⟩ := row
    show (rows.foldl countInto (countInto init ((listing?, type), n))).row listing = _
    rw [ih]
    cases hcolumn : listingCounted type with
    | none =>
      have hentries : entries listing (((listing?, type), n) :: rows) = entries listing rows := by
        refine List.filterMap_cons_none ?_
        show (if listing? = some listing then (listingCounted type).map _ else none) = none
        rw [hcolumn]
        exact ite_self _
      rw [hentries]
      have hinit : countInto init ((listing?, type), n) = init := by
        unfold countInto
        rw [hcolumn]
      rw [hinit]
    | some column =>
      cases listing? with
      | none =>
        have hinit : countInto init ((none, type), n) = init := by
          unfold countInto
          rw [hcolumn]
        rw [hinit]
        rfl
      | some other =>
        have hinit : countInto init ((some other, type), n) =
            init.put other ((init.row other).getD [] ++ [(column, n)]) := by
          unfold countInto
          rw [hcolumn]
        rw [hinit]
        by_cases hother : other = listing
        · subst hother
          have hentries : entries other (((some other, type), n) :: rows) =
              (column, n) :: entries other rows := by
            refine List.filterMap_cons_some ?_
            show (if some other = some other then (listingCounted type).map _ else none) = _
            rw [hcolumn, if_pos rfl]
            rfl
          rw [hentries, Rows.row_put_self, if_neg (List.cons_ne_nil _ _)]
          split
          · next hnil => rw [hnil]
          · rw [Option.getD_some, List.append_assoc]
            rfl
        · have hentries : entries listing (((some other, type), n) :: rows) =
              entries listing rows :=
            List.filterMap_cons_none (if_neg fun heq => hother (Option.some.inj heq))
          rw [hentries, Rows.row_put_of_ne _ _ (Ne.symm hother)]

/-- The group of a type has the events that the column counts. -/
theorem length_group {type : EventType} (hcolumn : listingCounted type = some column) :
    ((raw.filter fun e => e.tenantId = k.tenantId ∧ e.listingId.isSome ∧
      (listingCounted e.eventType).isSome ∧ e.day = k.day).filter fun e =>
        (e.listingId, e.eventType) = (some k.listingId, type)).length =
      countOf column (listingStats.members k raw) := by
  rw [countOf, List.countP_eq_length_filter, Rollup.members, List.filter_filter,
    List.filter_filter]
  refine congrArg List.length (List.filter_congr fun e _ => ?_)
  have hiff : ((e.listingId, e.eventType) = (some k.listingId, type) ∧ e.tenantId = k.tenantId ∧
      e.listingId.isSome ∧ (listingCounted e.eventType).isSome ∧ e.day = k.day) ↔
        (listingCounted e.eventType = some column ∧ e.statKey = some k) := by
    rw [statKey_eq_some, Prod.mk.injEq]
    constructor
    · rintro ⟨⟨hlisting, rfl⟩, htenant, -, hsome, hday⟩
      exact ⟨hcolumn, hsome, hlisting, htenant, hday⟩
    · rintro ⟨hcolumn', hsome, hlisting, htenant, hday⟩
      exact ⟨⟨hlisting, listingCounted_inj hcolumn' hcolumn⟩, htenant, by rw [hlisting]; rfl,
        hsome, hday⟩
  rw [← Bool.decide_and, ← Bool.decide_and]
  exact decide_eq_decide.2 hiff

/-- An entry of a listing is the number of its events of a type, if there are any. -/
theorem mem_entries : (column, n) ∈ entries k.listingId
    (listingEventCountsForDay k.tenantId k.day raw) ↔
      n = countOf column (listingStats.members k raw) ∧ n ≠ 0 := by
  rw [entries, List.mem_filterMap]
  constructor
  · rintro ⟨⟨⟨listing?, type⟩, m⟩, hrow, hentry⟩
    obtain ⟨hlisting, hentry⟩ := Option.ite_none_right_eq_some.1 hentry
    obtain ⟨column', hcolumn, heq⟩ := Option.map_eq_some_iff.1 hentry
    cases heq
    obtain rfl : listing? = some k.listingId := hlisting
    obtain ⟨hne, rfl⟩ := mem_grouped.1 hrow
    exact ⟨length_group hcolumn, fun h => hne (List.length_eq_zero_iff.1 h)⟩
  · rintro ⟨rfl, hne⟩
    obtain ⟨e, -, he⟩ := List.countP_pos_iff.1 (Nat.pos_of_ne_zero hne)
    have hcolumn : listingCounted e.eventType = some column := of_decide_eq_true he
    refine ⟨((some k.listingId, e.eventType), countOf column (listingStats.members k raw)),
      mem_grouped.2 ⟨fun h => hne ?_, (length_group hcolumn).symm⟩, ?_⟩
    · rw [← length_group hcolumn]
      exact List.length_eq_zero_iff.2 h
    · rw [if_pos rfl, hcolumn]
      rfl

theorem getD_dictGet_entries :
    (dictGet (entries k.listingId (listingEventCountsForDay k.tenantId k.day raw)) column).getD 0 =
      countOf column (listingStats.members k raw) := by
  cases hget : dictGet (entries k.listingId (listingEventCountsForDay k.tenantId k.day raw))
    column with
  | some n => exact (mem_entries.1 (mem_of_dictGet hget)).1
  | none =>
    by_contra hne
    have hmem := mem_entries.2 ⟨rfl, fun h => hne (h ▸ rfl : (none : Option Nat).getD 0 = _)⟩
    exact not_mem_of_dictGet hget (List.mem_map_of_mem hmem)

/-- A listing has entries just in case it had events. -/
theorem entries_ne_nil :
    entries k.listingId (listingEventCountsForDay k.tenantId k.day raw) ≠ [] ↔
      listingStats.members k raw ≠ [] := by
  constructor
  · intro h hnil
    obtain ⟨⟨column, n⟩, hmem⟩ := List.exists_mem_of_ne_nil _ h
    obtain ⟨rfl, hne⟩ := mem_entries.1 hmem
    exact hne (by rw [hnil]; rfl)
  · intro h hnil
    obtain ⟨e, he⟩ := List.exists_mem_of_ne_nil _ h
    obtain ⟨hsome, -⟩ := statKey_eq_some.1 (of_decide_eq_true (List.mem_filter.1 he).2)
    obtain ⟨column, hcolumn⟩ := Option.isSome_iff_exists.1 hsome
    have hpos : 0 < countOf column (listingStats.members k raw) :=
      List.countP_pos_iff.2 ⟨e, he, decide_eq_true hcolumn⟩
    have hmem := mem_entries.2 ⟨rfl, Nat.ne_of_gt hpos⟩
    rw [hnil] at hmem
    cases hmem

/-- A row of the job, for a listing of its tenant and day. -/
theorem row_perListing : (perListing (listingEventCountsForDay k.tenantId k.day raw)).row
    k.listingId = if listingStats.members k raw = [] then none
      else some (entries k.listingId (listingEventCountsForDay k.tenantId k.day raw)) := by
  rw [perListing, row_foldl_countInto]
  exact if_congr (not_iff_not.1 entries_ne_nil) rfl (congrArg some (List.nil_append _))

/-- **The job writes what the events say**, and every row's events lie in one partition. -/
theorem listingStats_sound : listingStats.Sound where
  partition_eq {e e' k} he he' := by
    have hday : e.day = k.day := (statKey_eq_some.1 he).2.2.2
    have hday' : e'.day = k.day := (statKey_eq_some.1 he').2.2.2
    exact month_eq_of_ordinal (hday.trans hday'.symm)
  mem_plan {scope events k v} := by
    show (k, v) ∈ (perListing _).keys.filterMap _ ↔ decide _ = true ∧ _ ∧ v = stat _
    rw [List.mem_filterMap, decide_eq_true_iff]
    constructor
    · rintro ⟨listing, -, hrow⟩
      obtain ⟨counts, hcounts, heq⟩ := Option.map_eq_some_iff.1 hrow
      cases heq
      have hcounts := (row_perListing (k := ⟨scope.1, listing, scope.2⟩)).symm.trans hcounts
      obtain ⟨hne, hcounts⟩ := Option.ite_none_left_eq_some.1 hcounts
      cases hcounts
      refine ⟨⟨rfl, rfl⟩, hne, ?_⟩
      rw [stat, ← getD_dictGet_entries, ← getD_dictGet_entries, ← getD_dictGet_entries]
    · rintro ⟨⟨htenant, hday⟩, hne, rfl⟩
      rw [← htenant, ← hday]
      have hrow := @row_perListing events k
      rw [if_neg hne] at hrow
      refine ⟨k.listingId, Rows.row_keys _ hrow, ?_⟩
      rw [hrow, stat, ← getD_dictGet_entries, ← getD_dictGet_entries, ← getD_dictGet_entries]
      rfl

end

/-! ### The machine -/

/-- A stored event, with the consent log as it was when its batch began, and when it was stored. -/
structure Stored where
  event : AnalyticsEvent
  began : List ConsentRecord
  ended : List ConsentRecord

/-- The consent log, the events and their rollup, and the ingests under way. -/
structure State where
  consents : List ConsentRecord
  stats : Rollup.State AnalyticsEvent StatKey ListingStat (Uuid × Nat)
  ingests : Nat → Option Ingest
  /-- For the record: no request reads it. -/
  history : List Stored

/-- A step of an ingest, of a rollup job or of the consent log. -/
inductive Label where
  /-- `record_consent`: a row more, of a grant or of a withdrawal. -/
  | recordConsent (record : ConsentRecord)
  | ingest (t : Nat) (tenantId : Uuid) (userId : Option Uuid) (now : UtcTime)
      (events : List EventIn)
  | consider (t : Nat)
  | store (t : Nat)
  | giveUp (t : Nat)
  /-- `prune_raw_events` drops the partition of a month. -/
  | prune (month : Nat)
  | rollupRead (t : Nat) (tenantId : Uuid) (day : Nat)
  | rollupCommit (t : Nat)
  | rollupAbort (t : Nat)

/-- A step of the rollup. -/
def State.withStats (s : State) (l : Rollup.Label AnalyticsEvent (Uuid × Nat)) : Option State :=
  (listingStats.step s.stats l).map fun stats => { s with stats }

/-- One step. An ingest reads the consent log between the events that it checks. -/
def State.step (s : State) : Label → Option State
  | .recordConsent record => some { s with consents := s.consents ++ [record] }
  | .ingest t tenantId userId now events =>
    if (s.ingests t).isNone then
      some { s with
        ingests := Function.update s.ingests t (some
          ⟨s.consents, tenantId, userId, now, events, [], []⟩) }
    else none
  | .consider t => ((s.ingests t).bind (·.consider s.consents)).map fun i =>
    { s with ingests := Function.update s.ingests t (some i) }
  | .store t => do
    let i ← s.ingests t
    guard i.todo.isEmpty
    let s ← s.withStats (.append i.events)
    return { s with
      ingests := Function.update s.ingests t none
      history := s.history ++ i.events.map fun e => ⟨e, i.began, s.consents⟩ }
  | .giveUp t => some { s with ingests := Function.update s.ingests t none }
  | .prune month => s.withStats (.drop month)
  | .rollupRead t tenantId day => s.withStats (.read t (tenantId, day))
  | .rollupCommit t => s.withStats (.commit t)
  | .rollupAbort t => s.withStats (.abort t)

/-- Empty tables. -/
def State.empty : State := ⟨[], ⟨[], [], [], .empty, fun _ => none⟩, fun _ => none, []⟩

/-- The analytics of all tenants, from empty tables on. -/
def machine : Machine State Label where
  init s := s = .empty
  step := State.step

/-- No event of the row is stored. -/
def Still (k : StatKey) (s : State) : Label → Prop
  | .store t => ∀ i, s.ingests t = some i → listingStats.members k i.events = []
  | _ => True

variable {s s' s₁ s₂ s₃ : State} {k : StatKey}

/-- At some time since the batch began, the consent log was such that the event's visitor was let
through. -/
def AllowedSince (began consents : List ConsentRecord) (tenantId : Uuid) (userId : Option Uuid)
    (sessionId : Option Text) : Prop :=
  ∃ seen, began <+: seen ∧ seen <+: consents ∧
    analyticsAllowed seen tenantId userId sessionId = true

/-! ### Batches and consents -/

/-- What was allowed stays so while the log grows. -/
theorem AllowedSince.append {began consents more : List ConsentRecord} {tenantId : Uuid}
    {userId : Option Uuid} {sessionId : Option Text}
    (h : AllowedSince began consents tenantId userId sessionId) :
    AllowedSince began (consents ++ more) tenantId userId sessionId := by
  obtain ⟨seen, hbegan, hprefix, hallowed⟩ := h
  exact ⟨seen, hbegan, hprefix.trans (List.prefix_append ..), hallowed⟩

/-- What a batch remembers and what it kept was allowed since it began. -/
structure Ingest.Allowed (consents : List ConsentRecord) (i : Ingest) : Prop where
  began : i.began <+: consents
  sessions : ∀ sessionId, dictGet i.allowedSessions sessionId = some true →
    AllowedSince i.began consents i.tenantId i.userId sessionId
  events : ∀ e ∈ i.events, AllowedSince i.began consents e.tenantId e.userId e.sessionId

theorem Ingest.Allowed.append {consents more : List ConsentRecord} {i : Ingest}
    (h : i.Allowed consents) : i.Allowed (consents ++ more) :=
  ⟨h.began.trans (List.prefix_append ..), fun sessionId hs => (h.sessions sessionId hs).append,
    fun e he => (h.events e he).append⟩

/-- A round of the loop asks the log as it is, or remembers an earlier answer of the same batch. -/
theorem Ingest.Allowed.consider {consents : List ConsentRecord} {i i' : Ingest}
    (h : i.Allowed consents) (hi : i.consider consents = some i') : i'.Allowed consents := by
  obtain ⟨began, tenantId, userId, now, todo, allowedSessions, events⟩ := i
  cases todo with
  | nil => cases hi
  | cons event todo =>
    cases hi
    have hnow : analyticsAllowed consents tenantId userId event.sessionId = true →
        AllowedSince began consents tenantId userId event.sessionId :=
      fun hallowed => ⟨consents, h.began, List.prefix_refl _, hallowed⟩
    -- what the loop decides, from its cache or from the tables
    have hdecided : (dictGet allowedSessions event.sessionId).getD
        (analyticsAllowed consents tenantId userId event.sessionId) = true →
          AllowedSince began consents tenantId userId event.sessionId := by
      intro hallowed
      cases hcached : dictGet allowedSessions event.sessionId with
      | none =>
        rw [hcached] at hallowed
        exact hnow hallowed
      | some cached =>
        rw [hcached] at hallowed
        exact h.sessions _ (hcached.trans (congrArg some hallowed))
    refine ⟨h.began, ?_, ?_⟩
    · intro sessionId hs
      simp only at hs
      split at hs
      · exact h.sessions sessionId hs
      · rw [dictGet_append] at hs
        rcases Option.or_eq_some_iff.1 hs with hnew | ⟨-, hold⟩
        · obtain heq := List.mem_singleton.1 (mem_of_dictGet hnew)
          obtain ⟨rfl, hallowed⟩ := Prod.mk.injEq .. ▸ heq
          exact hdecided hallowed.symm
        · exact h.sessions sessionId hold
    · intro e he
      simp only at he
      split at he
      · next hallowed =>
        rcases List.mem_append.1 he with he | he
        · exact h.events e he
        · cases List.mem_singleton.1 he
          exact hdecided hallowed
      · exact h.events e he

/-- An event was stored on what the log said between the beginning of its batch and its end. -/
structure Stored.Allowed (consents : List ConsentRecord) (stored : Stored) : Prop where
  ended : stored.ended <+: consents
  seen : AllowedSince stored.began stored.ended stored.event.tenantId stored.event.userId
    stored.event.sessionId

/-- Every event that is stored, or about to be, was allowed by the consent log as it was read. -/
structure Inv (s : State) : Prop where
  ingests : ∀ t i, s.ingests t = some i → i.Allowed s.consents
  history : ∀ stored ∈ s.history, stored.Allowed s.consents
  log : s.history.map Stored.event = s.stats.log

theorem of_withStats {l : Rollup.Label AnalyticsEvent (Uuid × Nat)}
    (hst : s.withStats l = some s') :
    listingStats.step s.stats l = some s'.stats ∧ s' = { s with stats := s'.stats } := by
  obtain ⟨stats, hstats, rfl⟩ := Option.map_eq_some_iff.1 hst
  exact ⟨hstats, rfl⟩

/-- What a step does to the rollups is a step of theirs. -/
theorem step_stats {l : Label} (hst : s.step l = some s') : s'.stats = s.stats ∨
    ∃ l', listingStats.step s.stats l' = some s'.stats ∧
      (Still k s l → listingStats.Still k s.stats l') := by
  cases l with
  | recordConsent record => cases hst; exact .inl rfl
  | ingest t tenantId userId now events =>
    obtain ⟨-, hst⟩ := Option.ite_none_right_eq_some.1 hst
    cases hst
    exact .inl rfl
  | consider t =>
    obtain ⟨i, -, rfl⟩ := Option.map_eq_some_iff.1 hst
    exact .inl rfl
  | store t =>
    obtain ⟨i, hi, hst⟩ := Option.bind_eq_some_iff.1 hst
    obtain ⟨-, -, hst⟩ := Option.bind_eq_some_iff.1 hst
    obtain ⟨mid, hmid, hst⟩ := Option.bind_eq_some_iff.1 hst
    cases hst
    exact .inr ⟨_, (of_withStats hmid).1, fun hstill => hstill i hi⟩
  | giveUp t => cases hst; exact .inl rfl
  | prune month | rollupRead t tenantId day | rollupCommit t | rollupAbort t =>
    obtain ⟨hstats, -⟩ := of_withStats hst
    exact .inr ⟨_, hstats, fun _ => rfl⟩

/-- One step keeps the invariant. -/
theorem Inv.step (h : Inv s) {l : Label} (hst : s.step l = some s') : Inv s' := by
  cases l with
  | recordConsent record =>
    cases hst
    refine ⟨fun t i hi => (h.ingests t i hi).append, fun stored hstored => ?_, h.log⟩
    obtain ⟨hended, hseen⟩ := h.history stored hstored
    exact ⟨hended.trans (List.prefix_append ..), hseen⟩
  | ingest t tenantId userId now events =>
    obtain ⟨-, hst⟩ := Option.ite_none_right_eq_some.1 hst
    cases hst
    refine ⟨fun t' i hi => ?_, h.history, h.log⟩
    rcases Machine.update_cases hi with ⟨-, hnew⟩ | ⟨-, hold⟩
    · cases hnew
      exact ⟨List.prefix_refl _, fun sessionId hs => (by cases hs), fun e he => (by cases he)⟩
    · exact h.ingests t' i hold
  | consider t =>
    obtain ⟨i', hi', rfl⟩ := Option.map_eq_some_iff.1 hst
    obtain ⟨i, hi, hconsider⟩ := Option.bind_eq_some_iff.1 hi'
    refine ⟨fun t' j hj => ?_, h.history, h.log⟩
    rcases Machine.update_cases hj with ⟨-, hnew⟩ | ⟨-, hold⟩
    · cases hnew
      exact (h.ingests t i hi).consider hconsider
    · exact h.ingests t' j hold
  | store t =>
    -- The events checked under the consent log become stored together, in the order of the request.
    obtain ⟨i, hi, hst⟩ := Option.bind_eq_some_iff.1 hst
    obtain ⟨-, -, hst⟩ := Option.bind_eq_some_iff.1 hst
    obtain ⟨mid, hmid, hst⟩ := Option.bind_eq_some_iff.1 hst
    cases hst
    obtain ⟨hstats, heq⟩ := of_withStats hmid
    rw [heq]
    have hlog : mid.stats.log = s.stats.log ++ i.events := Rollup.log_step hstats
    refine ⟨fun t' j hj => ?_, fun stored hstored => ?_, ?_⟩
    · exact h.ingests t' j (Machine.old_of_update hj (Option.some_ne_none j).symm).2
    · rcases List.mem_append.1 hstored with hold | hnew
      · exact h.history stored hold
      · obtain ⟨e, he, rfl⟩ := List.mem_map.1 hnew
        exact ⟨List.prefix_refl _, (h.ingests t i hi).events e he⟩
    · dsimp only
      rw [List.map_append, h.log, hlog, List.map_map]
      exact congrArg _ (List.map_id _)
  | giveUp t =>
    cases hst
    exact ⟨fun t' j hj => h.ingests t' j (Machine.old_of_update hj (Option.some_ne_none j).symm).2,
      h.history, h.log⟩
  | prune month | rollupRead t tenantId day | rollupCommit t | rollupAbort t =>
    -- The other jobs leave the log of stored events as it is.
    obtain ⟨hstats, heq⟩ := of_withStats hst
    have hlog : s'.stats.log = s.stats.log :=
      (Rollup.log_step hstats).trans (List.append_nil _)
    rw [heq]
    exact ⟨h.ingests, h.history, h.log.trans hlog.symm⟩

theorem inductive_inv : machine.Inductive (fun _ _ => True) Inv where
  init s hs := by
    cases hs
    exact ⟨fun t i hi => (by cases hi), fun stored hstored => (by cases hstored), rfl⟩
  step _ _ _ h _ hst := h.step hst

/-! ### Runs of the whole are runs of the rollups -/

/-- Seen by itself, the rollup is a run of the upsert machine. -/
theorem reachable_stats (hs : machine.Reachable s) : listingStats.machine.Reachable s.stats := by
  induction hs with
  | init hs =>
    cases hs
    exact .init rfl
  | step _ _ hst ih =>
    rcases step_stats (k := ⟨0, 0, 0⟩) hst with heq | ⟨l', hst', -⟩
    · exact heq ▸ ih
    · exact ih.step hst'

/-- So is what follows, if the day stays as it is. -/
theorem run_stats (hs' : (machine.startingAt s).ReachVia (Still k) s') :
    (listingStats.machine.startingAt s.stats).ReachVia (listingStats.Still k) s'.stats := by
  induction hs' with
  | init hs =>
    cases hs
    exact .init rfl
  | step _ hstill hst ih =>
    rcases step_stats hst with heq | ⟨l', hst', hstill'⟩
    · exact heq ▸ ih
    · exact ih.step (hstill' hstill) hst'

/-- **Nothing is counted twice, or without consent.** However consents, batches, jobs and pruning
interleave, a row counts an initial part of what was stored for its listing and day. The log of
events is what `store` recorded; and for an event of an anonymous visitor with a session, at some
time from the beginning of its batch until it was stored, the session's latest decision in the
consent log was a grant. -/
theorem counted_with_consent (hs : machine.Reachable s) {v : ListingStat}
    (hrow : s.stats.table.row k = some v) :
    (∃ events, events <+: listingStats.members k s.stats.log ∧ events ≠ [] ∧ v = stat events) ∧
      s.history.map Stored.event = s.stats.log ∧
      ∀ stored ∈ s.history, ∀ sessionId, stored.event.userId = none →
        stored.event.sessionId = some sessionId → sessionId ≠ [] →
          ∃ seen, stored.began <+: seen ∧ seen <+: stored.ended ∧ stored.ended <+: s.consents ∧
            ∃ r, latestConsentForSession seen stored.event.tenantId sessionId = some r ∧
              r.granted = true := by
  have hinv := inductive_inv.always hs
  refine ⟨Rollup.row_of_prefix listingStats_sound (reachable_stats hs) hrow, hinv.log,
    fun stored hstored sessionId huser hsession hne => ?_⟩
  obtain ⟨hended, seen, hbegan, hprefix, hallowed⟩ := hinv.history stored hstored
  refine ⟨seen, hbegan, hprefix, hended, ?_⟩
  rw [huser, hsession, analyticsAllowed, decide_eq_false hne, Bool.false_or,
    Option.any_eq_true] at hallowed
  exact hallowed

/-- A morning on which a visitor who agreed looks at a listing. -/
def sampleTime : UtcTime := ⟨⟨⟨2026, 1, 5, 9, 30, 0, 0, some 0⟩, by decide⟩, rfl⟩

/-- The listing and the day of the sample. -/
def sampleKey : StatKey := ⟨1, 7, sampleTime.ordinal⟩

/-- A visitor agrees, and a view of a listing is stored. -/
def sampleTrace : List Label :=
  [.recordConsent ⟨1, none, some ['s'], .analytics, true, 0⟩,
    .ingest 0 1 none sampleTime [⟨.listingView, some ['s'], some 7, none⟩], .consider 0, .store 0]

theorem sampleTrace_runs : (machine.run .empty sampleTrace).isSome = true := by decide

/-- After the view. -/
def sampleState : State := (machine.run .empty sampleTrace).get sampleTrace_runs

theorem sampleState_reachable : machine.Reachable sampleState :=
  .of_get_run (.init rfl) sampleTrace_runs

/-- The rollup of that day. -/
def sampleJob : Label := .rollupRead 1 1 sampleTime.ordinal

theorem sampleRead_steps : (machine.step sampleState sampleJob).isSome = true := by decide

/-- The night's job has read the day's events. -/
def sampleRead : State := (machine.step sampleState sampleJob).get sampleRead_steps

theorem sampleNight_steps : (machine.step sampleRead (.rollupCommit 1)).isSome = true := by
  decide

/-- After the rollup. -/
def sampleNight : State := (machine.step sampleRead (.rollupCommit 1)).get sampleNight_steps

theorem sampleState_step : machine.step sampleState sampleJob = some sampleRead :=
  (Option.some_get sampleRead_steps).symm

theorem sampleRead_step : machine.step sampleRead (.rollupCommit 1) = some sampleNight :=
  (Option.some_get sampleNight_steps).symm

theorem sampleNight_reachable : machine.Reachable sampleNight :=
  (sampleState_reachable.step sampleState_step).step sampleRead_step

theorem sampleNight_row : sampleNight.stats.table.row sampleKey = some ⟨1, 0, 0⟩ := by
  decide

theorem counted_with_consent_view :
    (∃ events, events <+: listingStats.members sampleKey sampleNight.stats.log ∧ events ≠ [] ∧
      (⟨1, 0, 0⟩ : ListingStat) = stat events) ∧
    ∃ stored ∈ sampleNight.history, ∃ seen, stored.began <+: seen ∧ seen <+: stored.ended ∧
      ∃ r, latestConsentForSession seen stored.event.tenantId ['s'] = some r ∧
        r.granted = true := by
  obtain ⟨hcounted, -, hconsent⟩ := counted_with_consent sampleNight_reachable sampleNight_row
  obtain ⟨stored, hstored⟩ : ∃ stored, stored ∈ sampleNight.history ∧
      stored.event.userId = none ∧ stored.event.sessionId = some ['s'] := by
    have hany : (sampleNight.history.any fun stored => stored.event.userId = none ∧
        stored.event.sessionId = some ['s']) = true := by decide
    obtain ⟨stored, hstored, hevent⟩ := List.any_eq_true.1 hany
    exact ⟨stored, hstored, of_decide_eq_true hevent⟩
  obtain ⟨seen, hbegan, hended, -, hgrant⟩ := hconsent stored hstored.1 ['s'] hstored.2.1
    hstored.2.2 (List.cons_ne_nil _ _)
  exact ⟨hcounted, stored, hstored.1, seen, hbegan, hended, hgrant⟩

/-- **One job after the last event is enough.** Let no job that is under way write the row. As long
as no event of it is stored, a job that writes the row makes it exact, and it stays so: whatever
jobs run again, and when the events themselves are pruned. -/
theorem rollup_exact (hs : machine.Reachable s)
    (hidle : ∀ t job, s.stats.jobs t = some job → dictGet job.rows k = none)
    (h₁ : (machine.startingAt s).ReachVia (Still k) s₁) {t : Nat}
    {job : Rollup.Job StatKey ListingStat (Uuid × Nat)} {v : ListingStat}
    (ht : s₁.stats.jobs t = some job) (hv : dictGet job.rows k = some v)
    (hcommit : machine.step s₁ (.rollupCommit t) = some s₂)
    (h₃ : (machine.startingAt s₂).ReachVia (Still k) s₃) :
    s₃.stats.table.row k = some (stat (listingStats.members k s₃.stats.log)) := by
  have hcommit : s₁.withStats (.commit t) = some s₂ := hcommit
  exact Rollup.commit_exact listingStats_sound (reachable_stats hs) hidle (run_stats h₁) ht hv
    (of_withStats hcommit).1 (run_stats h₃)

/-- No step of a run stores an event. -/
def quiet : Label → Bool
  | .store _ => false
  | _ => true

/-- Labels that touch nothing of the day leave it still. -/
theorem still_of_quiet {s₀ : State} : ∀ {s t : State} {ls : List Label}, ls.all quiet = true →
    (machine.startingAt s₀).ReachVia (Still k) s → machine.run s ls = some t →
      (machine.startingAt s₀).ReachVia (Still k) t
  | s, t, [], _, hs, hrun => by
    cases hrun
    exact hs
  | s, t, l :: ls, hquiet, hs, hrun => by
    obtain ⟨hl, hquiet⟩ := Bool.and_eq_true_iff.1 (List.all_cons ▸ hquiet)
    obtain ⟨u, hu, hrest⟩ := Option.bind_eq_some_iff.1 hrun
    refine still_of_quiet hquiet (.step hs ?_ hu) hrest
    cases l with
    | store t => cases hl
    | _ => trivial

/-- A second job, which reads before the month is pruned and commits after it, and a third. -/
def sampleYear : List Label :=
  [.rollupRead 2 1 sampleTime.ordinal, .prune (monthOf sampleTime), .rollupCommit 2,
    .rollupRead 3 1 sampleTime.ordinal, .rollupCommit 3]

/-- The night's job leaves the row exact, after later jobs and without the events. -/
theorem rollup_exact_view : ∃ s₃, machine.run sampleNight sampleYear = some s₃ ∧
    s₃.stats.raw.isEmpty = true ∧ s₃.stats.table.row sampleKey =
      some (stat (listingStats.members sampleKey s₃.stats.log)) := by
  have hjobs : sampleState.stats.jobs = fun _ => none := rfl
  have hread : sampleRead.stats.jobs 1 =
      some ⟨(1, sampleTime.ordinal), [(sampleKey, ⟨1, 0, 0⟩)]⟩ := by decide
  have hrow : dictGet [(sampleKey, (⟨1, 0, 0⟩ : ListingStat))] sampleKey = some ⟨1, 0, 0⟩ := by
    rw [dictGet, dictGet, if_pos rfl, Option.none_or]
  have hstill : Still sampleKey sampleState sampleJob := trivial
  obtain ⟨s₃, hrun, hraw⟩ := Option.map_eq_some_iff.1
    (show (machine.run sampleNight sampleYear).map (·.stats.raw.isEmpty) = some true by
      decide)
  exact ⟨s₃, hrun, hraw, rollup_exact sampleState_reachable
    (fun t job h => by rw [hjobs] at h; cases h)
    (.step (.init rfl) hstill sampleState_step) hread hrow sampleRead_step
    (still_of_quiet (by decide) (.init rfl) hrun)⟩

end Rollups

end Analytics

end RealEstate
