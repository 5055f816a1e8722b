import RealEstate.Common.Feeds
import RealEstate.Core.Exceptions
import RealEstate.Systems.Dicts
import RealEstate.Systems.Floats
import RealEstate.Systems.RowService

/-!
# Reviews (`modules/reviews/`)

A visitor submits a review, a moderator approves or rejects it, and only what is approved is public
and counts in the ratings.

- `submit`, `moderate`, `delete`: the requests; `reviews`: these as transactions over the table.
- `publicBase`, `listPublic`, `aggregate`, `aggregateByAgent`: what the public sees.
- `decisions_final`: a decided review keeps its decision and its text until it is deleted.
- `public_feed`: the public feed lists the approved reviews, and every rating is theirs.
-/

namespace RealEstate

namespace Reviews

open RealEstate.Core Systems
open Common (Feed)
open Listings.Search (Timestamp)

/-! ### Rows -/

/-- `ReviewStatus`. -/
inductive ReviewStatus where
  | pending
  | approved
  | rejected
  deriving DecidableEq, Repr

/-- `ck_reviews_rating_range`. -/
abbrev Rating := { n : Nat // 1 ≤ n ∧ n ≤ 5 }

/-- A row of `reviews`. -/
structure Review where
  id : UUID
  tenantId : Uuid
  agentUserId : Option Uuid
  listingId : Option Uuid
  rating : Rating
  title : Option String
  body : String
  authorName : String
  authorEmail : Option String
  createdAt : Timestamp
  status : ReviewStatus := .pending
  isVerified : Bool := false
  moderatedBy : Option Uuid := none
  moderatedAt : Option DateTime := none
  moderationNote : Option String := none

/-! ### Requests -/

/-- `ReviewSubmitIn`, as it is validated. -/
structure ReviewSubmitIn where
  agentSlug : Option String
  listingRef : Option String
  rating : Rating
  title : Option String
  body : String
  authorName : String
  authorEmail : Option String
  hp : String

/-- `ReviewModerateIn`; `terminal_only`. -/
structure ReviewModerateIn where
  status : ReviewStatus
  isVerified : Option Bool
  note : Option String
  terminal : status ≠ .pending

/-- What a call of `submit` finds: the published agents and listings. -/
structure Submission where
  tenantId : Uuid
  data : ReviewSubmitIn
  publishedUserId : String → Option Uuid
  publicListing : String → Option Uuid
  createdAt : Timestamp

/-- What a slug or a reference names; an unknown one is an error. -/
def target (lookup : String → Option Uuid) (error : AppError) :
    Option String → Except AppError (Option Uuid)
  | none => .ok none
  | some name =>
    match lookup name with
    | some found => .ok (some found)
    | none => .error error

/-- `submit`: no row if the honeypot is filled. -/
def submit (id : UUID) (s : Submission) : Except AppError (Option Review) := do
  if s.data.hp ≠ "" then return none
  let agentUserId ← target s.publishedUserId ⟨.notFound, "Agent not found."⟩ s.data.agentSlug
  let listingId ← target s.publicListing ⟨.notFound, "Listing not found."⟩ s.data.listingRef
  return some {
    id
    tenantId := s.tenantId
    agentUserId
    listingId
    rating := s.data.rating
    title := s.data.title
    body := s.data.body
    authorName := s.data.authorName
    authorEmail := s.data.authorEmail
    createdAt := s.createdAt }

/-- `moderate`, on the row that `get` found. -/
def moderate (actorId : Uuid) (now : DateTime) (data : ReviewModerateIn) (review : Option Review) :
    Except AppError Review :=
  match review with
  | none => .error ⟨.notFound, "Review not found."⟩
  | some review =>
    if review.status ≠ .pending ∧ review.status ≠ data.status then
      .error ⟨.conflict,
        "This review has already been moderated. Delete it to change the decision."⟩
    else .ok { review with
      status := data.status
      isVerified := data.isVerified.getD review.isVerified
      moderatedBy := some actorId
      moderatedAt := some now
      moderationNote := data.note }

/-- `delete`, on the row that `get` found. -/
def delete : Option Review → Except AppError Unit
  | none => .error ⟨.notFound, "Review not found."⟩
  | some _ => .ok ()

/-- A request on one review. -/
inductive Op where
  | moderate (tenantId actorId : Uuid) (now : DateTime) (data : ReviewModerateIn)
  | delete (tenantId : Uuid)

/-- What a request does to the row that it locked. A deleted row is `none` from then on. -/
def plan (op : Op) (row : Option Review) : Option (Option Review × List Unit) :=
  match op with
  | .moderate tenantId actorId now data =>
    (moderate actorId now data (row.filter (·.tenantId = tenantId))).toOption.map
      fun review => (some review, [])
  | .delete tenantId =>
    (delete (row.filter (·.tenantId = tenantId))).toOption.map fun _ => (none, [])

/-- The requests as transactions; a row is `none` once it is deleted. -/
def reviews : RowService UUID (Option Review) (Option Review) Unit Submission Op Empty where
  create id new := (submit id new).toOption.join.map fun review => (some review, [])
  locks _ := true
  plan _ := plan
  apply patch _ := patch
  due sweep := sweep.elim
  mark sweep := sweep.elim

/-! ### What the public sees -/

/-- `_public_base`. -/
def publicBase (tenantId : Uuid) (agentUserId : Option Uuid) (agencyOnly : Bool)
    (review : Review) : Bool :=
  review.tenantId = tenantId && review.status = .approved &&
    match agentUserId with
    | some agent => review.agentUserId = some agent
    | none => !agencyOnly || review.agentUserId.isNone

/-- The public list, the newest first. -/
def feed : Feed Review := .newest true Review.createdAt Review.id

/-- `ReviewsService.list_public`. -/
def listPublic (depth : Nat) (order : OrderBy feed.le) (rows : List Review) (tenantId : Uuid)
    (agentUserId : Option Uuid) (agencyOnly : Bool) (limit : Option Int) (cursor : Option Text) :
    Except Listings.Search.ListError (List Review × Option Text) :=
  feed.list depth order rows (publicBase tenantId agentUserId agencyOnly) limit cursor

/-- The first digit of a `numeric`, to the base of 10000, and the digits after it. -/
def leadingDigit (n : Nat) : Nat × Nat := (n / 10000 ^ Nat.log 10000 n, Nat.log 10000 n)

/-- The decimal places of a quotient of whole numbers, `select_div_scale` of PostgreSQL: sixteen
significant digits at least, by what the first digits say of its size. -/
def divisionScale (n d : Nat) : Nat :=
  let (digit, weight) := leadingDigit n
  let (digit', weight') := leadingDigit d
  let quotientWeight : Int := weight - weight' - if digit ≤ digit' then 1 else 0
  min 1000 (16 - 4 * quotientWeight).toNat

/-- `float(avg)` of `AVG(rating)`: the database divides to so many places, a tie away from zero,
and the float is the one nearest to what it returns. -/
def average (reviews : List Review) : Double :=
  let sum := (reviews.map fun review => review.rating.val).sum
  let scale := divisionScale sum reviews.length
  let quotient := (2 * sum * 10 ^ scale + reviews.length) / (2 * reviews.length)
  withSign false (roundDecimal quotient (-scale))

/-- `aggregate`. -/
def aggregate (rows : List Review) (tenantId : Uuid) (agentUserId : Option Uuid)
    (agencyOnly : Bool) : Nat × Option Double :=
  let found := rows.filter (publicBase tenantId agentUserId agencyOnly)
  (found.length, if found = [] then none else some (average found))

/-- `aggregate_by_agent`, in one query. -/
def aggregateByAgent (rows : List Review) (tenantId : Uuid) (agentUserIds : List Uuid) :
    List (Uuid × (Nat × Double)) :=
  (grouped Review.agentUserId (fun reviews => (reviews.length, average reviews))
    (rows.filter fun review => review.tenantId = tenantId && review.status = .approved &&
      review.agentUserId.any (· ∈ agentUserIds))).filterMap fun row =>
        row.1.map fun agent => (agent, row.2)

/-! ### Decisions -/

/-- What moderation says of a review. -/
structure Review.Sound (id : UUID) (review : Review) : Prop where
  id_eq : review.id = id
  pending : review.status = .pending →
    review.isVerified = false ∧ review.moderatedBy = none ∧ review.moderatedAt = none
  decided : review.status ≠ .pending → review.moderatedBy.isSome ∧ review.moderatedAt.isSome

/-- Only the columns of the moderator differ. -/
def Review.SameText (review review' : Review) : Prop :=
  review' = { review with
    status := review'.status
    isVerified := review'.isVerified
    moderatedBy := review'.moderatedBy
    moderatedAt := review'.moderatedAt
    moderationNote := review'.moderationNote }

theorem Review.SameText.trans {a b c : Review} (hab : a.SameText b) (hbc : b.SameText c) :
    a.SameText c := by
  unfold Review.SameText at hab hbc ⊢
  rw [hab] at hbc
  exact hbc

/-- A review that is still there has the text it had, and its decision if there was one. -/
def Follows (old new : Option Review) : Prop :=
  ∀ review', new = some review' → ∃ review, old = some review ∧ review.SameText review' ∧
    (review.status ≠ .pending → review'.status = review.status)

theorem Follows.refl (row : Option Review) : Follows row row :=
  fun review h => ⟨review, h, rfl, fun _ => rfl⟩

theorem Follows.trans {a b c : Option Review} (hab : Follows a b) (hbc : Follows b c) :
    Follows a c := by
  intro review'' hc
  obtain ⟨review', hb, hsame', hstatus'⟩ := hbc review'' hc
  obtain ⟨review, ha, hsame, hstatus⟩ := hab review' hb
  refine ⟨review, ha, hsame.trans hsame', fun hdecided => ?_⟩
  have heq := hstatus hdecided
  exact (hstatus' (heq ▸ hdecided)).trans heq

/-- A review that is accepted is sound. -/
theorem submit_ok {id : UUID} {new : Submission} {review : Review}
    (h : submit id new = .ok (some review)) : review.Sound id := by
  unfold submit at h
  split at h
  · cases h
  · obtain ⟨agentUserId, -, h⟩ := bind_eq_ok h
    obtain ⟨listingId, -, h⟩ := bind_eq_ok h
    cases h
    exact ⟨rfl, fun _ => ⟨rfl, rfl, rfl⟩, fun hdecided => absurd rfl hdecided⟩

theorem moderate_ok {actorId : Uuid} {now : DateTime} {data : ReviewModerateIn}
    {row : Option Review} {review' : Review} (h : moderate actorId now data row = .ok review') :
    ∃ review, row = some review ∧ review.SameText review' ∧ review'.status = data.status ∧
      (review.status ≠ .pending → review'.status = review.status) ∧
      review'.moderatedBy.isSome ∧ review'.moderatedAt.isSome := by
  cases row with
  | none => cases h
  | some review =>
    unfold moderate at h
    dsimp only at h
    split at h
    · cases h
    · next hopen =>
      cases h
      refine ⟨review, rfl, rfl, rfl, fun hdecided => ?_, rfl, rfl⟩
      by_contra hne
      exact hopen ⟨hdecided, fun heq => hne heq.symm⟩

/-- What a request writes follows the row that it locked. -/
theorem follows_of_plan {op : Op} {row new : Option Review} {effects : List Unit}
    (h : plan op row = some (new, effects)) : effects = [] ∧ Follows row new ∧
      ∀ review', new = some review' → review'.status ≠ .pending ∧ review'.moderatedBy.isSome ∧
        review'.moderatedAt.isSome := by
  cases op with
  | moderate tenantId actorId now data =>
    obtain ⟨review', hmoderate, heq⟩ := Option.map_eq_some_iff.1 h
    cases heq
    obtain ⟨review, hrow, hsame, hstatus, hdecided, hby, hat⟩ :=
      moderate_ok (toOption_eq_some hmoderate)
    refine ⟨rfl, fun r hr => ?_, fun r hr => ?_⟩
    · cases hr
      exact ⟨review, (Option.filter_eq_some_iff.1 hrow).1, hsame, hdecided⟩
    · cases hr
      exact ⟨hstatus ▸ data.terminal, hby, hat⟩
  | delete tenantId =>
    obtain ⟨-, -, heq⟩ := Option.map_eq_some_iff.1 h
    cases heq
    exact ⟨rfl, fun r hr => (by cases hr), fun r hr => (by cases hr)⟩

/-- Every request keeps reviews sound and their decisions. -/
theorem reviews_keep : reviews.Keeps (fun _ _ => True)
    (fun id row _ => ∀ review, row = some review → review.Sound id) Follows where
  refl := Follows.refl
  trans := Follows.trans
  create {id new row effects} h := by
    obtain ⟨review, hsubmit, heq⟩ := Option.map_eq_some_iff.1 h
    cases heq
    intro r hr
    cases hr
    exact submit_ok (toOption_eq_some (Option.join_eq_some_iff.1 hsubmit))
  locked {id op row new effects _} _ hplan hsound := by
    obtain ⟨-, hfollows, hwrote⟩ := follows_of_plan hplan
    refine ⟨fun review' hreview' => ?_, hfollows⟩
    obtain ⟨review, hrow, hsame, -⟩ := hfollows review' hreview'
    obtain ⟨hdecided, hby, hat⟩ := hwrote review' hreview'
    have hid : review'.id = review.id := by rw [hsame]
    exact ⟨hid.trans (hsound review hrow).id_eq, fun hpending => absurd hpending hdecided,
      fun _ => ⟨hby, hat⟩⟩
  unlocked h := by cases h
  mark {sweep} := sweep.elim

variable {s s' : RowService.State UUID (Option Review) (Option Review) Unit Op Empty} {id : UUID}
  {review : Review}

theorem sound_of_row (hs : reviews.machine.Reachable s)
    (hrow : s.table.rows id = some (some review)) : review.Sound id :=
  reviews_keep.committed (fun s l _ => RowService.marksDue_of_forall (fun _ _ => trivial) s l) hs
    hrow review rfl

/-- A morning in March. -/
def morning : Timestamp := ⟨⟨⟨2026, 3, 1, 9, 0, 0, 0, some 0⟩, by decide⟩, rfl⟩

/-- A kind review of an agent. -/
def praise (rating : Rating) : Submission where
  tenantId := 1
  data := ⟨some "amina", none, rating, none, "Found us a home.", "Yacine", none, ""⟩
  publishedUserId slug := if slug = "amina" then some 4 else none
  publicListing _ := none
  createdAt := morning

/-- It is submitted, and approved. -/
def accepted (t : Nat) (id : UUID) (rating : Rating) :
    List (RowService.Label UUID Submission Op Empty) :=
  [.create t id (praise rating), .commit t,
    .start (t + 1) (.moderate 1 9 100 ⟨.approved, none, none, by decide⟩) id, .read (t + 1),
    .write (t + 1), .commit (t + 1)]

/-- Three reviews are approved, and a fourth waits. -/
def praised : List (RowService.Label UUID Submission Op Empty) :=
  accepted 0 8 ⟨5, by decide⟩ ++ accepted 2 9 ⟨4, by decide⟩ ++ accepted 4 10 ⟨4, by decide⟩ ++
    [.create 6 11 (praise ⟨1, by decide⟩), .commit 6]

/-- The fourth is rejected, and the second deleted. -/
def moderated : List (RowService.Label UUID Submission Op Empty) :=
  [.start 7 (.moderate 1 9 200 ⟨.rejected, none, none, by decide⟩) 11, .read 7, .write 7, .commit 7,
    .start 8 (.delete 1) 9, .read 8, .write 8, .commit 8]

/-- After its approval. -/
def praisedState : Option (RowService.State UUID (Option Review) (Option Review) Unit Op Empty) :=
  reviews.machine.run ⟨.empty, [], fun _ => none⟩ praised

theorem praisedState_isSome : praisedState.isSome = true := by decide

theorem praised_reachable : reviews.machine.Reachable (praisedState.get praisedState_isSome) :=
  .of_get_run (.init rfl) praisedState_isSome

/-- The review is approved, and the agent's. -/
theorem praised_row : ∃ review, (praisedState.get praisedState_isSome).table.rows 8 =
    some (some review) ∧ review.status = .approved ∧ review.agentUserId = some 4 := by
  have hrow : ((praisedState.get praisedState_isSome).table.rows 8).join.any
      (fun review => review.status = .approved ∧ review.agentUserId = some 4) = true := by
    decide
  obtain ⟨review, hrow, hreview⟩ := Option.any_eq_true _ _ |>.1 hrow
  exact ⟨review, Option.join_eq_some_iff.1 hrow, of_decide_eq_true hreview⟩

/-- **Decisions are final.** However submissions, decisions and deletions interleave, a review that
is not deleted keeps its text, and once a moderator approved or rejected it, it stays so. -/
theorem decisions_final (hs : reviews.machine.Reachable s) (hlater : RowService.Later reviews s s')
    (hrow : s.table.rows id = some (some review)) : review.Sound id ∧
      ∃ row', s'.table.rows id = some row' ∧ ∀ review', row' = some review' →
        review.SameText review' ∧
          (review.status ≠ .pending → review'.status = review.status) := by
  refine ⟨sound_of_row hs hrow, ?_⟩
  obtain ⟨row', hrow', hfollows⟩ := reviews_keep.later (fun _ _ => trivial) hs hlater hrow
  refine ⟨row', hrow', fun review' hreview' => ?_⟩
  obtain ⟨old, hold, hsame, hstatus⟩ := hfollows review' hreview'
  cases hold
  exact ⟨hsame, hstatus⟩

theorem decisions_final_praise : ∃ (review : Review) (s' : _), review.status = .approved ∧
    RowService.Later reviews (praisedState.get praisedState_isSome) s' ∧
    s'.table.rows 9 = some none ∧ review.Sound 8 ∧
    ∃ row', s'.table.rows 8 = some row' ∧
      ∀ review', row' = some review' → review.SameText review' ∧
        (review.status ≠ .pending → review'.status = review.status) := by
  obtain ⟨review, hrow, hstatus, -⟩ := praised_row
  obtain ⟨s', hrun, hdeleted⟩ := Option.map_eq_some_iff.1
    (show (reviews.machine.run (praisedState.get praisedState_isSome) moderated).map
      (fun s => s.table.rows 9 |>.any (·.isNone)) = some true by decide)
  have hlater := RowService.Later.of_run hrun
  obtain ⟨row, hrow9, hnone⟩ := (Option.any_eq_true _ _).1 hdeleted
  rw [Option.isNone_iff_eq_none.1 hnone] at hrow9
  exact ⟨review, s', hstatus, hlater, hrow9, decisions_final praised_reachable hlater hrow⟩

/-! ### The public feed and the ratings -/

/-- The committed reviews. -/
def rows (s : RowService.State UUID (Option Review) (Option Review) Unit Op Empty) : List Review :=
  s.table.keys.filterMap fun id => (s.table.rows id).join

theorem mem_rows (hs : reviews.machine.Reachable s) :
    review ∈ rows s ↔ s.table.rows review.id = some (some review) := by
  rw [rows, List.mem_filterMap]
  constructor
  · rintro ⟨id, -, hrow⟩
    have hrow := Option.join_eq_some_iff.1 hrow
    rw [(sound_of_row hs hrow).id_eq]
    exact hrow
  · intro hrow
    exact ⟨review.id, s.table.rows_keys hrow, Option.join_eq_some_iff.2 hrow⟩

theorem nodup_ids (hs : reviews.machine.Reachable s) : ((rows s).map Review.id).Nodup := by
  rw [rows, List.map_filterMap]
  refine s.table.keys_nodup.filterMap fun j k i hj hk => ?_
  obtain ⟨a, ha, rfl⟩ := Option.map_eq_some_iff.1 hj
  obtain ⟨b, hb, hids⟩ := Option.map_eq_some_iff.1 hk
  rw [← (sound_of_row hs (Option.join_eq_some_iff.1 ha)).id_eq,
    ← (sound_of_row hs (Option.join_eq_some_iff.1 hb)).id_eq, hids]

/-- The average does not depend on the order. -/
theorem average_perm {found out : List Review} (h : out.Perm found) :
    average out = average found := by
  rw [average, average, h.length_eq, (h.map _).sum_eq]

/-- One agent's group is what the query for that agent returns. -/
theorem mem_aggregateByAgent {all : List Review} {tenantId agent : Uuid} {ids : List Uuid}
    {v : Nat × Double} : (agent, v) ∈ aggregateByAgent all tenantId ids ↔
      agent ∈ ids ∧ all.filter (publicBase tenantId (some agent) false) ≠ [] ∧
        v = ((all.filter (publicBase tenantId (some agent) false)).length,
          average (all.filter (publicBase tenantId (some agent) false))) := by
  -- An agent's group is the agent's public reviews, whoever else is asked for.
  have hgroup : agent ∈ ids → (all.filter fun review => review.tenantId = tenantId &&
      review.status = .approved && review.agentUserId.any (· ∈ ids)).filter
        (fun review => review.agentUserId = some agent) =
      all.filter (publicBase tenantId (some agent) false) := by
    intro hmem
    rw [List.filter_filter]
    refine List.filter_congr fun review _ => ?_
    by_cases hagent : review.agentUserId = some agent
    · simp only [publicBase, hagent, Option.any_some, decide_eq_true hmem, Bool.and_true,
        decide_true, Bool.true_and]
    · simp only [publicBase, decide_eq_false hagent, Bool.and_false, Bool.false_and]
  rw [aggregateByAgent, List.mem_filterMap]
  constructor
  · rintro ⟨⟨agent?, w⟩, hrow, heq⟩
    obtain ⟨other, rfl, heq⟩ := Option.map_eq_some_iff.1 heq
    cases heq
    obtain ⟨hne, hw⟩ := mem_grouped.1 hrow
    obtain ⟨review, hreview⟩ := List.exists_mem_of_ne_nil _ hne
    obtain ⟨hreview, hagent⟩ := List.mem_filter.1 hreview
    have hany := (Bool.and_eq_true_iff.1 (List.mem_filter.1 hreview).2).2
    rw [of_decide_eq_true hagent, Option.any_some] at hany
    have hmem := of_decide_eq_true hany
    rw [hgroup hmem] at hne hw
    exact ⟨hmem, hne, hw⟩
  · rintro ⟨hmem, hne, rfl⟩
    refine ⟨(some agent, _), mem_grouped.2 ⟨?_, rfl⟩, ?_⟩
    · rw [hgroup hmem]
      exact hne
    · rw [hgroup hmem]
      rfl

/-- The directory's ratings are those of the profiles: an agent without an approved review has
none. -/
theorem dictGet_aggregateByAgent {all : List Review} {tenantId agent : Uuid} {ids : List Uuid}
    (hmem : agent ∈ ids) : dictGet (aggregateByAgent all tenantId ids) agent =
      (aggregate all tenantId (some agent) false).2.map
        fun avg => ((aggregate all tenantId (some agent) false).1, avg) := by
  rw [aggregate]
  cases hget : dictGet (aggregateByAgent all tenantId ids) agent with
  | none =>
    by_cases hnil : all.filter (publicBase tenantId (some agent) false) = []
    · rw [if_pos hnil]
      rfl
    · have hrow := mem_aggregateByAgent.2 ⟨hmem, hnil, rfl⟩
      exact absurd (List.mem_map_of_mem hrow) (not_mem_of_dictGet hget)
  | some v =>
    obtain ⟨-, hne, rfl⟩ := mem_aggregateByAgent.1 (mem_of_dictGet hget)
    rw [if_neg hne]
    rfl

/-- **The public sees what was approved.** In every state that requests reach, following the
cursors of a public feed ends and lists the approved reviews of its scope, each once, each approved
by a moderator; and the rating shown for the scope is theirs, on a profile and in the directory. -/
theorem public_feed {depth : Nat} (hdepth : 0 < depth) (hs : reviews.machine.Reachable s)
    (tenantId : Uuid) (agentUserId : Option Uuid) (agencyOnly : Bool) (limit : Option Int)
    (order : OrderBy feed.le) {fuel : Nat} (hfuel : (rows s).length < fuel) :
    ∃ out, walk (fun cursor => (listPublic depth order (rows s) tenantId agentUserId agencyOnly
        limit cursor).toOption) fuel none = some out ∧ out.Nodup ∧
      (∀ review, review ∈ out ↔ s.table.rows review.id = some (some review) ∧
        publicBase tenantId agentUserId agencyOnly review = true) ∧
      (∀ review ∈ out, review.status = .approved ∧ review.moderatedBy.isSome) ∧
      aggregate (rows s) tenantId agentUserId agencyOnly =
        (out.length, if out = [] then none else some (average out)) ∧
      ∀ agent, agentUserId = some agent → ∀ ids, agent ∈ ids →
        dictGet (aggregateByAgent (rows s) tenantId ids) agent =
          if out = [] then none else some (out.length, average out) := by
  obtain ⟨out, hwalk, hperm, -⟩ := Feed.complete order (rows s)
    (publicBase tenantId agentUserId agencyOnly) limit hdepth (nodup_ids hs)
    (fun _ _ _ => rfl) hfuel
  have hnil : ((rows s).filter (publicBase tenantId agentUserId agencyOnly) = []) = (out = []) :=
    propext ⟨fun h => (h ▸ hperm).eq_nil, fun h => (h ▸ hperm.symm).eq_nil⟩
  have haggregate : aggregate (rows s) tenantId agentUserId agencyOnly =
      (out.length, if out = [] then none else some (average out)) := by
    simp only [aggregate, hperm.length_eq, average_perm hperm, hnil]
  have hmem : ∀ review, review ∈ out ↔ s.table.rows review.id = some (some review) ∧
      publicBase tenantId agentUserId agencyOnly review = true := by
    intro review
    rw [hperm.mem_iff, List.mem_filter, mem_rows hs]
  refine ⟨out, hwalk, ?_, hmem, fun review hreview => ?_, haggregate, ?_⟩
  · exact hperm.nodup_iff.2 ((nodup_ids hs).of_map.filter _)
  · obtain ⟨hrow, hpublic⟩ := (hmem review).1 hreview
    have happroved : review.status = .approved :=
      of_decide_eq_true (Bool.and_eq_true_iff.1 (Bool.and_eq_true_iff.1 hpublic).1).2
    exact ⟨happroved, ((sound_of_row hs hrow).decided (by rw [happroved]; decide)).1⟩
  · rintro agent rfl ids hids
    -- with an agent, `agency_only` does not matter
    have hsame : aggregate (rows s) tenantId (some agent) false =
        (out.length, if out = [] then none else some (average out)) := haggregate
    rw [dictGet_aggregateByAgent hids, hsame]
    by_cases hout : out = []
    · rw [if_pos hout, if_pos hout]
      rfl
    · rw [if_neg hout, if_neg hout]
      rfl

/-- A page for each of the three; their average is the float nearest to 13 / 3. -/
theorem public_feed_praise :
    let s := praisedState.get praisedState_isSome
    ∃ out, walk (fun cursor => (listPublic 1 (.insertion feed.le) (rows s) 1 (some 4) false (some 1)
        cursor).toOption) 5 none = some out ∧ out.Nodup ∧ out.length = 3 ∧
      (∀ review ∈ out, review.status = .approved ∧ review.moderatedBy.isSome) ∧
      aggregate (rows s) 1 (some 4) false = (3, some 0x4011555555555555#64) ∧
      dictGet (aggregateByAgent (rows s) 1 [2, 4]) 4 = some (3, 0x4011555555555555#64) := by
  intro s
  obtain ⟨out, hwalk, hnodup, -, happroved, haggregate, hdirectory⟩ :=
    public_feed (by decide : 0 < 1) praised_reachable 1 (some 4) false (some 1)
      (.insertion feed.le) (by decide : (rows s).length < 5)
  have hcount : aggregate (rows s) 1 (some 4) false = (3, some 0x4011555555555555#64) := by
    decide +kernel
  obtain ⟨(hlength : 3 = out.length), haverage⟩ :=
    Prod.ext_iff.1 (hcount.symm.trans haggregate)
  have hne : out ≠ [] := by
    rintro rfl
    cases hlength
  have haverage : average out = 0x4011555555555555#64 :=
    Option.some.inj ((if_neg hne).symm.trans haverage.symm)
  refine ⟨out, hwalk, hnodup, hlength.symm, happroved, hcount, ?_⟩
  rw [hdirectory 4 rfl [2, 4] (by decide), if_neg hne, haverage, ← hlength]

end Reviews

end RealEstate
