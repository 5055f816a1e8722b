import RealEstate.Media.Service
import RealEstate.Systems.Machine
import RealEstate.Systems.Totals
import RealEstate.Systems.Transactions
import RealEstate.Systems.UnitOfWork

/-!
# The photo quota of a listing

An upload request locks the listing, counts its photos and inserts one more; confirmations and
deletions lock the row they change. The marks of a worker lock nothing: they load the row, look
at its status and write later.

- `Phase`, `photos`: the transactions, statement by statement.
- `Room`: what a transaction may still add to the photos of a listing.
- `StillActive`: no `UPDATE` makes a failed photo ready.
- `photos_le_quota`: then no listing has more photos than the tenant's quota.
- `revived`: two runs of a worker for one photo, and one photo too many.
-/

namespace RealEstate

namespace Media

namespace PhotoQuota

open RealEstate.Core Systems Function

deriving instance DecidableEq for ListingMedia

/-! ### Transactions -/

/-- `request_upload` on a listing; `visible` is whether the actor may see it. -/
structure Upload where
  tenantId : Uuid
  listingId : Uuid
  mediaId : Uuid
  visible : Bool
  data : MediaUploadRequest

/-- What a `process_media` run ends with. -/
inductive Mark where
  | ready (processed : Processed)
  | failed (reason : String)

/-- What a run writes to the row. -/
def Mark.apply : Mark → ListingMedia → ListingMedia
  | .ready processed, m => m.markReady processed
  | .failed reason, m => m.markFailed reason

/-- A request on media. -/
inductive Request where
  | upload (u : Upload)
  | confirm (tenantId mediaId : Uuid) (visible : Bool)
  | delete (tenantId mediaId : Uuid) (visible : Bool)
  | mark (mediaId : Uuid) (outcome : Mark)

/-- Where a transaction stands. -/
inductive Phase where
  /-- Before the `SELECT … FOR UPDATE` of the listing. -/
  | locking (u : Upload)
  /-- Before `count_active_photos`. -/
  | counting (u : Upload)
  /-- Before the insert. -/
  | inserting (u : Upload)
  /-- Before the `SELECT … FOR UPDATE` of the row. -/
  | confirming (tenantId mediaId : Uuid) (visible : Bool)
  | deleting (tenantId mediaId : Uuid) (visible : Bool)
  /-- With the row locked. -/
  | writing (mediaId : Uuid) (left : Option ListingMedia)
  /-- Before the `SELECT` of the worker. -/
  | marking (mediaId : Uuid) (outcome : Mark)
  /-- Before its `UPDATE`. -/
  | flushing (mediaId : Uuid) (read edited : ListingMedia)
  | done

/-- Where it begins. -/
def Request.phase : Request → Phase
  | .upload u => .locking u
  | .confirm tenantId mediaId visible => .confirming tenantId mediaId visible
  | .delete tenantId mediaId visible => .deleting tenantId mediaId visible
  | .mark mediaId outcome => .marking mediaId outcome

/-- The media, the row locks of the listings and the requests under way. -/
structure State where
  media : Table Uuid ListingMedia Nat
  /-- The row locks of the listings. -/
  listings : Uuid → Option Nat
  txns : Nat → Option Phase
  /-- The media whose worker took a snapshot and has not finished. -/
  running : List Uuid

/-- The `WHERE` of the queries over a listing's media. -/
def isOf (tenantId listingId : Uuid) (m : ListingMedia) : Bool :=
  m.tenantId = tenantId ∧ m.listingId = listingId

/-- The `UPDATE` of the columns that were edited. -/
def overlay (read edited current : ListingMedia) : ListingMedia where
  tenantId := column read.tenantId edited.tenantId current.tenantId
  listingId := column read.listingId edited.listingId current.listingId
  kind := column read.kind edited.kind current.kind
  status := column read.status edited.status current.status
  storageKey := column read.storageKey edited.storageKey current.storageKey
  embedUrl := column read.embedUrl edited.embedUrl current.embedUrl
  contentType := column read.contentType edited.contentType current.contentType
  sizeBytes := column read.sizeBytes edited.sizeBytes current.sizeBytes
  variants := column read.variants edited.variants current.variants
  blurhash := column read.blurhash edited.blurhash current.blurhash
  position := column read.position edited.position current.position
  error := column read.error edited.error current.error

namespace State

/-- No media. -/
def start : State := ⟨.empty, fun _ => none, fun _ => none, []⟩

/-- Transaction `t` goes on with its tables as they are. -/
def goes (s : State) (t : Nat) (phase : Phase) : State :=
  { s with txns := update s.txns t (some phase) }

/-- The media of a listing, as transaction `t` sees them. -/
def ofListing (s : State) (t : Nat) (u : Upload) : List ListingMedia :=
  s.media.select t (isOf u.tenantId u.listingId)

variable (settings : MediaSettings) (photoQuota : Uuid → Int)

/-- The next statement of transaction `t`. The reservation of storage, between the count and
the insert, can only raise or wait. -/
def advance (s : State) (t : Nat) : Phase → Option State
  | .locking u =>
    if u.visible ∧ (s.listings u.listingId = none ∨ s.listings u.listingId = some t) then
      some ({ s with listings := update s.listings u.listingId (some t) }.goes t (.counting u))
    else none
  | .counting u =>
    (checkUpload settings (photoQuota u.tenantId) (s.ofListing t u) u.data).toOption.map fun _ =>
      -- Counting is a statement of its own, under the listing's lock.
      s.goes t (.inserting u)
  | .inserting u =>
    (s.media.insert t u.mediaId
      (newUpload u.tenantId u.listingId u.mediaId (s.ofListing t u) u.data)).map fun media =>
        { s with media }.goes t .done
  | .confirming tenantId mediaId visible =>
    (s.media.acquire t mediaId).bind fun media =>
      ((mediaOr404 tenantId visible (media.visible t mediaId)).bind
        ListingMedia.confirm).toOption.map fun m =>
          { s with media }.goes t (.writing mediaId (some m))
  | .deleting tenantId mediaId visible =>
    (s.media.acquire t mediaId).bind fun media =>
      (mediaOr404 tenantId visible (media.visible t mediaId)).toOption.map fun _ =>
        { s with media }.goes t (.writing mediaId none)
  | .writing mediaId left =>
    (s.media.write t mediaId left).map fun media => { s with media }.goes t .done
  | .marking mediaId outcome =>
    match s.media.visible t mediaId with
    | none => some (s.goes t .done)
    | some m =>
      -- An edit that changes nothing is not flushed.
      if outcome.apply m = m then some (s.goes t .done)
      else some (s.goes t (.flushing mediaId m (outcome.apply m)))
  | .flushing mediaId read edited =>
    -- A task writes the columns it changed over the row of that moment.
    (s.media.visible t mediaId).bind fun current =>
      (s.media.write t mediaId (some (overlay read edited current))).map fun media =>
        { s with media }.goes t .done
  | .done => none

/-- The transaction ends, and its locks are free. -/
def ends (s : State) (t : Nat) (media : Table Uuid ListingMedia Nat) : State :=
  { s with
    media
    listings := fun k => if s.listings k = some t then none else s.listings k
    txns := update s.txns t none }

end State

/-- A step of a request. -/
inductive Label where
  | snapshot (mediaId : Uuid)
  | begin (t : Nat) (request : Request)
  | advance (t : Nat)
  | commit (t : Nat)
  | rollback (t : Nat)

/-- The runs that go on when a request begins: a mark is the end of its run. -/
def Request.running (running : List Uuid) : Request → Option (List Uuid)
  | .mark mediaId _ => if mediaId ∈ running then some (running.erase mediaId) else none
  | _ => some running

/-- One step. -/
def State.step (settings : MediaSettings) (photoQuota : Uuid → Int) (s : State) :
    Label → Option State
  | .snapshot mediaId =>
    -- Deleted or already processed: the run is skipped. Delivered twice, it runs twice.
    if (s.media.rows mediaId).any (·.status = .processing) then
      some { s with running := mediaId :: s.running }
    else none
  | .begin t request =>
    if (s.txns t).isNone then
      (request.running s.running).map fun running => { s with running }.goes t request.phase
    else none
  | .advance t => (s.txns t).bind (s.advance settings photoQuota t)
  | .commit t =>
    match s.txns t with
    | some .done => some (s.ends t (s.media.commit t))
    | _ => none
  | .rollback t => some (s.ends t (s.media.rollback t))

/-- The media of the listings, under constant quotas. -/
def photos (settings : MediaSettings) (photoQuota : Uuid → Int) : Machine State Label where
  init s := s = .start
  step := State.step settings photoQuota

/-- No `UPDATE` makes a failed photo ready. -/
def StillActive (s : State) : Label → Prop
  | .advance t =>
    match s.txns t with
    | some (.flushing mediaId _ edited) =>
      ∀ current ∈ s.media.visible t mediaId, current.kind = .photo → current.status = .failed →
        edited.status ≠ .ready
    | _ => True
  | _ => True

/-- By cases of the label. -/
instance (s : State) : ∀ l, Decidable (StillActive s l)
  | .advance t => by
    unfold StillActive
    dsimp only
    split <;> infer_instance
  | .snapshot _ | .begin _ _ | .commit _ | .rollback _ => inferInstanceAs (Decidable True)

/-- The committed media of a listing. -/
def State.committed (s : State) (tenantId listingId : Uuid) : List ListingMedia :=
  (s.media.keys.filterMap s.media.rows).filter (isOf tenantId listingId)

/-! ### Photos and room -/

/-- One slot of the quota, for a photo that takes one up. -/
def slot (tenantId listingId : Uuid) (m : ListingMedia) : Int :=
  if isOf tenantId listingId m && (m.kind = .photo && m.status ≠ .failed) then 1 else 0

/-- The photos of a listing among the committed rows. -/
def taken (media : Table Uuid ListingMedia Nat) (tenantId listingId : Uuid) : Int :=
  total media.keys media.rows (slot tenantId listingId)

section Room

variable (photoQuota : Uuid → Int) (s : State) (t : Nat)

/-- What `t` adds to the photos of a listing: nothing, unless it holds the listing's lock and
there is room for it. -/
def Room (tenantId listingId : Uuid) : Prop :=
  s.media.drift t (slot tenantId listingId) ≤ 0 ∨
    (s.listings listingId = some t ∧
      taken s.media tenantId listingId + s.media.drift t (slot tenantId listingId) ≤
        photoQuota tenantId)

/-- `t` has written nothing. -/
def Untouched : Prop :=
  ∀ k, s.media.dirty t k = none

/-- What the next statement of a transaction counts on. -/
def Phase.Sound : Phase → Prop
  | .locking _ | .confirming .. | .deleting .. | .marking .. => Untouched s t
  | .counting u => Untouched s t ∧ s.listings u.listingId = some t
  | .inserting u =>
    Untouched s t ∧ s.listings u.listingId = some t ∧
      (u.data.kind = .photo → taken s.media u.tenantId u.listingId < photoQuota u.tenantId)
  | .writing mediaId left =>
    Untouched s t ∧ s.media.lock mediaId = some t ∧ ∀ tenantId listingId,
      left.elim 0 (slot tenantId listingId) ≤
        (s.media.visible t mediaId).elim 0 (slot tenantId listingId)
  | .flushing _ read edited => Untouched s t ∧ ∃ outcome : Mark, edited = outcome.apply read
  | .done => ∀ tenantId listingId, Room photoQuota s t tenantId listingId

end Room

/-- Every listing is within the quota, and every transaction keeps it there. -/
structure Inv (photoQuota : Uuid → Int) (s : State) : Prop where
  clean : Table.Clean s.txns s.media
  within : ∀ tenantId listingId, taken s.media tenantId listingId ≤ max 0 (photoQuota tenantId)
  sound : ∀ t phase, s.txns t = some phase → phase.Sound photoQuota s t

/-! ### Counting -/

variable {settings : MediaSettings} {photoQuota : Uuid → Int} {s s' : State} {t : Nat}
  {tenantId listingId : Uuid} {m read edited current : ListingMedia}

theorem slot_nonneg (tenantId listingId : Uuid) (m : ListingMedia) :
    0 ≤ slot tenantId listingId m := by
  unfold slot
  split <;> omega

/-- `count_active_photos` adds up the slots. -/
theorem countActivePhotos_eq {keys : List Uuid} (hkeys : keys.Nodup)
    (rows : Uuid → Option ListingMedia) (tenantId listingId : Uuid) :
    (countActivePhotos ((keys.filterMap rows).filter (isOf tenantId listingId)) : Int) =
      total keys rows (slot tenantId listingId) := by
  unfold slot
  rw [total_eq_countP hkeys, countActivePhotos, List.countP_filter, List.countP_filterMap]
  congr 2
  funext k
  cases rows k with
  | none => rfl
  | some m =>
    show (decide _ && isOf tenantId listingId m) = (isOf tenantId listingId m && _)
    rw [Bool.and_comm, Bool.decide_and]

/-- A transaction that has written nothing counts the committed photos. -/
theorem Untouched.count (h : Untouched s t) (u : Upload) :
    (countActivePhotos (s.ofListing t u) : Int) = taken s.media u.tenantId u.listingId := by
  rw [State.ofListing, Table.select_eq_filter, countActivePhotos_eq s.media.keys_nodup]
  congr 1
  funext k
  exact Table.visible_of_clean (h k)

theorem Untouched.drift (h : Untouched s t) (weight : ListingMedia → Int) :
    s.media.drift t weight = 0 :=
  Table.drift_of_clean h

theorem Untouched.room (h : Untouched s t) : Room photoQuota s t tenantId listingId :=
  .inl (h.drift _).le

/-- Whatever a transaction has come to, there is room for what it has added. -/
theorem Phase.Sound.room {phase : Phase} (h : phase.Sound photoQuota s t)
    (tenantId listingId : Uuid) : Room photoQuota s t tenantId listingId := by
  cases phase with
  | locking | confirming | deleting | marking => exact Untouched.room h
  | counting | inserting | writing | flushing => exact h.1.room
  | done => exact h tenantId listingId

/-! ### What a mark does -/

/-- A mark leaves whose row it is. -/
theorem Mark.apply_same (outcome : Mark) (m : ListingMedia) :
    (outcome.apply m).tenantId = m.tenantId ∧ (outcome.apply m).listingId = m.listingId ∧
      (outcome.apply m).kind = m.kind := by
  cases outcome with
  | ready processed =>
    dsimp only [Mark.apply, ListingMedia.markReady]
    split <;> exact ⟨rfl, rfl, rfl⟩
  | failed reason =>
    dsimp only [Mark.apply, ListingMedia.markFailed]
    split <;> exact ⟨rfl, rfl, rfl⟩

/-- The status is as before, ready or failed. -/
theorem Mark.apply_status (outcome : Mark) (m : ListingMedia) :
    (outcome.apply m).status = m.status ∨ (outcome.apply m).status = .ready ∨
      (outcome.apply m).status = .failed := by
  cases outcome with
  | ready processed =>
    dsimp only [Mark.apply, ListingMedia.markReady]
    split
    · exact .inr (.inl rfl)
    · exact .inl rfl
  | failed reason =>
    dsimp only [Mark.apply, ListingMedia.markFailed]
    split
    · exact .inr (.inr rfl)
    · exact .inl rfl

/-- The slot of a row whose status alone is another. -/
theorem slot_le (htenant : edited.tenantId = m.tenantId) (hlisting : edited.listingId = m.listingId)
    (hkind : edited.kind = m.kind)
    (hstatus : m.kind = .photo → m.status = .failed → edited.status = .failed) :
    slot tenantId listingId edited ≤ slot tenantId listingId m := by
  unfold slot
  split
  · next hactive =>
    obtain ⟨hof, hactive⟩ := Bool.and_eq_true_iff.1 hactive
    obtain ⟨hphoto, hlive⟩ := Bool.and_eq_true_iff.1 hactive
    replace hphoto : m.kind = .photo := hkind ▸ of_decide_eq_true hphoto
    have hof' : isOf tenantId listingId m = true := by
      unfold isOf at hof ⊢
      rw [← htenant, ← hlisting]
      exact hof
    have hlive' : m.status ≠ .failed := fun hfailed =>
      of_decide_eq_true hlive (hstatus hphoto hfailed)
    rw [if_pos (by simp [hof', hphoto, hlive'])]
  · split <;> omega

/-- The `UPDATE` of a mark, unless it makes a failed photo ready. -/
theorem slot_overlay_le (outcome : Mark) (hedited : edited = outcome.apply read)
    (hactive : current.kind = .photo → current.status = .failed → edited.status ≠ .ready) :
    slot tenantId listingId (overlay read edited current) ≤ slot tenantId listingId current := by
  obtain ⟨htenant, hlisting, hkind⟩ := hedited ▸ outcome.apply_same read
  refine slot_le ?_ ?_ ?_ fun hphoto hfailed => ?_
  · show column _ edited.tenantId _ = _
    rw [htenant, column_unedited]
  · show column _ edited.listingId _ = _
    rw [hlisting, column_unedited]
  · show column _ edited.kind _ = _
    rw [hkind, column_unedited]
  · show column _ edited.status _ = _
    rcases hedited ▸ outcome.apply_status read with hstatus | hready | hstatus
    · rw [hstatus, column_unedited]
      exact hfailed
    · exact absurd hready (hactive hphoto hfailed)
    · unfold column
      split
      · exact hfailed
      · exact hstatus

/-- A confirmed upload takes no more room than before. -/
theorem slot_confirm {confirmed : ListingMedia} (h : m.confirm = .ok confirmed) :
    slot tenantId listingId confirmed ≤ slot tenantId listingId m := by
  obtain ⟨hpending, rfl⟩ := ListingMedia.confirm_ok h
  refine slot_le rfl rfl rfl fun _ hfailed => ?_
  cases hpending.symm.trans hfailed

/-- A new upload takes up a slot of its listing, if it is a photo. -/
theorem slot_newUpload (u : Upload) (media : List ListingMedia) :
    slot tenantId listingId (newUpload u.tenantId u.listingId u.mediaId media u.data) =
      if (u.tenantId = tenantId ∧ u.listingId = listingId) ∧ u.data.kind = .photo then 1
      else 0 := by
  by_cases hof : u.tenantId = tenantId ∧ u.listingId = listingId
  · by_cases hphoto : u.data.kind = .photo <;> simp [slot, isOf, newUpload, hof, hphoto]
  · simp [slot, isOf, newUpload, hof]

/-! ### Steps -/

/-- What a transaction counts on is out of the others' reach. -/
theorem Phase.Sound.frame {phase : Phase} (h : phase.Sound photoQuota s t)
    (hmedia : Table.SameFor t s.media s'.media) (hkeys : ∀ k ∈ s.media.keys, k ∈ s'.media.keys)
    (hlistings : ∀ k, s.listings k = some t → s'.listings k = some t)
    (htaken : ∀ tenantId listingId, s.listings listingId = some t →
      taken s'.media tenantId listingId ≤ taken s.media tenantId listingId) :
    phase.Sound photoQuota s' t := by
  have huntouched : Untouched s t → Untouched s' t := fun h k => (hmedia.dirty k).trans (h k)
  cases phase with
  | locking | confirming | deleting | marking => exact huntouched h
  | flushing => exact ⟨huntouched h.1, h.2⟩
  | counting u => exact ⟨huntouched h.1, hlistings _ h.2⟩
  | inserting u =>
    obtain ⟨hclean, hlock, hroom⟩ := h
    -- There was room at the count, and no slot was taken since: the lock is held.
    exact ⟨huntouched hclean, hlistings _ hlock, fun hphoto =>
      (htaken _ _ hlock).trans_lt (hroom hphoto)⟩
  | writing mediaId left =>
    obtain ⟨hclean, hlock, hslot⟩ := h
    refine ⟨huntouched hclean, (hmedia.lock _).mpr hlock, fun tenantId listingId => ?_⟩
    -- The row to be written is locked, so it reads as it did.
    rw [hmedia.visible hlock]
    exact hslot tenantId listingId
  | done =>
    intro tenantId listingId
    rw [Room, hmedia.drift hkeys]
    -- What is flushed still fits when it commits.
    refine (h tenantId listingId).imp_right fun ⟨hlock, hroom⟩ => ⟨hlistings _ hlock, ?_⟩
    have hle := htaken tenantId listingId hlock
    omega

/-- A statement of transaction `t`: the committed rows are as before. -/
theorem Inv.statement (h : Inv photoQuota s) {media : Table Uuid ListingMedia Nat}
    {listings : Uuid → Option Nat} {phase : Phase} {running : List Uuid}
    (hrows : media.rows = s.media.rows) (hkeys : ∀ k ∈ s.media.keys, k ∈ media.keys)
    (hother : ∀ u, u ≠ t → Table.SameFor u s.media media)
    (hlistings : ∀ u k, u ≠ t → s.listings k = some u → listings k = some u)
    (hown : phase.Sound photoQuota ⟨media, listings, update s.txns t (some phase), running⟩ t) :
    Inv photoQuota ⟨media, listings, update s.txns t (some phase), running⟩ := by
  have htaken : ∀ tenantId listingId,
      taken media tenantId listingId = taken s.media tenantId listingId := by
    intro tenantId listingId
    unfold taken
    rw [hrows]
    exact total_of_subset hkeys s.media.rows_keys
  refine ⟨h.clean.goes hother, fun tenantId listingId => ?_, ?_⟩
  · show taken media tenantId listingId ≤ _
    rw [htaken]
    exact h.within tenantId listingId
  · refine Machine.each_goes h.sound (fun u phase hu hsound => ?_) hown
    exact hsound.frame (hother u hu) hkeys (fun k hk => hlistings u k hu hk)
      fun tenantId listingId _ => (htaken tenantId listingId).le

/-- A statement that changes nothing. -/
theorem Inv.goes (h : Inv photoQuota s) {phase : Phase} {running : List Uuid}
    (hown : phase.Sound photoQuota s t) :
    Inv photoQuota ⟨s.media, s.listings, update s.txns t (some phase), running⟩ :=
  h.statement rfl (fun _ hk => hk) (fun u _ => .refl u _) (fun _ _ _ hk => hk)
    (hown.frame (.refl t _) (fun _ hk => hk) (fun _ hk => hk) fun _ _ _ => le_rfl)

/-- A write of transaction `t`, its only one. -/
theorem Inv.wrote (h : Inv photoQuota s) {media : Table Uuid ListingMedia Nat} {mediaId : Uuid}
    {v : Option ListingMedia} (hclean : Untouched s t)
    (hwrote : Table.Wrote t mediaId v s.media media)
    (hroom : ∀ tenantId listingId,
      v.elim 0 (slot tenantId listingId) ≤
          (s.media.visible t mediaId).elim 0 (slot tenantId listingId) ∨
        (s.listings listingId = some t ∧ taken s.media tenantId listingId +
          v.elim 0 (slot tenantId listingId) ≤ photoQuota tenantId)) :
    Inv photoQuota ({ s with media }.goes t .done) := by
  refine h.statement hwrote.rows hwrote.subset_keys hwrote.other (fun _ _ _ hk => hk)
    fun tenantId listingId => ?_
  have hdrift : media.drift t (slot tenantId listingId) = _ := hwrote.drift _
  rw [hclean.drift] at hdrift
  have hnonneg : 0 ≤ (s.media.visible t mediaId).elim 0 (slot tenantId listingId) :=
    elim_nonneg (fun _ m _ => slot_nonneg tenantId listingId m) mediaId
  -- Nothing is committed here, so the slots taken are those of the committed rows.
  have htaken : taken media tenantId listingId = taken s.media tenantId listingId := by
    unfold taken
    rw [hwrote.rows]
    exact total_of_subset hwrote.subset_keys s.media.rows_keys
  rcases hroom tenantId listingId with hle | ⟨hlock, hle⟩
  · left
    show media.drift t _ ≤ 0
    omega
  · right
    refine ⟨hlock, ?_⟩
    show taken media _ _ + media.drift t _ ≤ _
    omega

/-- Transaction `t` ends. What it published had room, and nobody else has added anything to a
listing whose lock it did not hold. -/
theorem Inv.ends (h : Inv photoQuota s) {media : Table Uuid ListingMedia Nat}
    (hkeys : media.keys = s.media.keys) (hclean : ∀ k, media.dirty t k = none)
    (hother : ∀ u, u ≠ t → Table.SameFor u s.media media)
    (htaken : ∀ tenantId listingId,
      taken media tenantId listingId ≤ taken s.media tenantId listingId ∨
        (s.listings listingId = some t ∧
          taken media tenantId listingId ≤ photoQuota tenantId)) :
    Inv photoQuota (s.ends t media) := by
  refine ⟨h.clean.ends hclean hother, fun tenantId listingId => ?_, ?_⟩
  · show taken media tenantId listingId ≤ _
    rcases htaken tenantId listingId with hle | ⟨-, hle⟩
    · exact hle.trans (h.within tenantId listingId)
    · exact hle.trans (le_max_right 0 _)
  · refine Machine.each_ends h.sound fun u phase hu hsound => ?_
    refine hsound.frame (hother u hu) (fun k hk => ?_) (fun k hk => ?_) fun tid lid hlock => ?_
    · show k ∈ media.keys
      rw [hkeys]
      exact hk
    · show (if s.listings k = some t then none else s.listings k) = some u
      rw [if_neg (by rw [hk]; exact fun heq => hu (Option.some.inj heq))]
      exact hk
    · rcases htaken tid lid with hle | ⟨hheld, -⟩
      · exact hle
      · exact absurd (Option.some.inj (hlock.symm.trans hheld)) hu

/-- A commit publishes what the lock has made room for. -/
theorem Inv.commit (h : Inv photoQuota s) (ht : s.txns t = some .done) :
    Inv photoQuota (s.ends t (s.media.commit t)) := by
  refine h.ends rfl (fun _ => if_pos rfl) (fun u hu => Table.commit_sameFor hu) ?_
  intro tenantId listingId
  have htotal : taken (s.media.commit t) tenantId listingId =
      taken s.media tenantId listingId + s.media.drift t (slot tenantId listingId) :=
    Table.total_visible s.media t (slot tenantId listingId)
  rw [htotal]
  rcases (h.sound t _ ht).room tenantId listingId with hdrift | hroom
  · left
    omega
  · exact .inr hroom

theorem Inv.rollback (h : Inv photoQuota s) (t : Nat) :
    Inv photoQuota (s.ends t (s.media.rollback t)) :=
  h.ends rfl (fun _ => if_pos rfl) (fun _ hu => Table.rollback_sameFor hu) fun _ _ => .inl le_rfl

/-- An upload that passes finds room. -/
theorem checkUpload_ok {quota : Int} {media : List ListingMedia} {data : MediaUploadRequest}
    (h : checkUpload settings quota media data = .ok ()) (hphoto : data.kind = .photo) :
    (countActivePhotos media : Int) < quota := by
  unfold checkUpload at h
  split at h
  · cases h
  · split at h
    · cases h
    · next hroom =>
      by_contra hfull
      exact hroom ⟨hphoto, not_lt.1 hfull⟩

theorem Inv.locking (h : Inv photoQuota s) {u : Upload} (ht : s.txns t = some (.locking u))
    (hlock : s.listings u.listingId = none ∨ s.listings u.listingId = some t) :
    Inv photoQuota
      ({ s with listings := update s.listings u.listingId (some t) }.goes t (.counting u)) := by
  have hclean : Untouched s t := h.sound t _ ht
  refine h.statement rfl (fun _ hk => hk) (fun u _ => .refl u _) (fun other k hother hk => ?_)
    ⟨hclean, update_self ..⟩
  show update s.listings u.listingId (some t) k = some other
  rw [update_of_ne]
  · exact hk
  · rintro rfl
    rcases hlock with hnone | hheld
    · cases hnone.symm.trans hk
    · exact hother (Option.some.inj (hk.symm.trans hheld))

/-- The photos are counted, under the lock. -/
theorem Inv.counting (h : Inv photoQuota s) {u : Upload} (ht : s.txns t = some (.counting u))
    (hcheck : checkUpload settings (photoQuota u.tenantId) (s.ofListing t u) u.data = .ok ()) :
    Inv photoQuota (s.goes t (.inserting u)) := by
  obtain ⟨hclean, hlock⟩ := h.sound t _ ht
  refine h.goes ⟨hclean, hlock, fun hphoto => ?_⟩
  rw [← hclean.count u]
  exact checkUpload_ok hcheck hphoto

/-- **The upload is inserted**, into the room that was found. -/
theorem Inv.inserting (h : Inv photoQuota s) {u : Upload} {media : Table Uuid ListingMedia Nat}
    (ht : s.txns t = some (.inserting u))
    (hinsert : s.media.insert t u.mediaId (newUpload u.tenantId u.listingId u.mediaId
      (s.ofListing t u) u.data) = some media) :
    Inv photoQuota ({ s with media }.goes t .done) := by
  obtain ⟨hclean, hlock, hroom⟩ := h.sound t _ ht
  obtain ⟨hnew, -⟩ := Table.insert_eq_some.mp hinsert
  refine h.wrote hclean (Table.wrote_of_insert hinsert) fun tenantId listingId => ?_
  rw [Table.visible_of_not_mem hnew, Option.elim_some, Option.elim_none, slot_newUpload]
  split
  · next hphoto =>
    -- The count is still what it was: nobody else may add to the listing.
    obtain ⟨⟨rfl, rfl⟩, hphoto⟩ := hphoto
    exact .inr ⟨hlock, hroom hphoto⟩
  · exact .inl le_rfl

theorem Inv.confirming (h : Inv photoQuota s) {visible : Bool} {mediaId : Uuid}
    {media : Table Uuid ListingMedia Nat}
    (ht : s.txns t = some (.confirming tenantId mediaId visible))
    (hacquire : s.media.acquire t mediaId = some media)
    (hm : (mediaOr404 tenantId visible (media.visible t mediaId)).bind ListingMedia.confirm =
      .ok m) : Inv photoQuota ({ s with media }.goes t (.writing mediaId (some m))) := by
  obtain ⟨hfree, rfl⟩ := Table.acquire_eq_some.mp hacquire
  have hclean : Untouched s t := h.sound t _ ht
  refine h.statement rfl (fun _ hk => hk) (fun u hu => Table.acquired_sameFor hu hfree)
    (fun _ _ _ hk => hk) ⟨hclean, update_self .., fun tid lid => ?_⟩
  obtain ⟨pending, hpending, hconfirm⟩ := bind_eq_ok hm
  show _ ≤ ((s.media.acquired t mediaId hfree).visible t mediaId).elim 0 _
  rw [(mediaOr404_ok hpending).1]
  exact slot_confirm hconfirm

theorem Inv.deleting (h : Inv photoQuota s) {visible : Bool} {mediaId : Uuid}
    {media : Table Uuid ListingMedia Nat}
    (ht : s.txns t = some (.deleting tenantId mediaId visible))
    (hacquire : s.media.acquire t mediaId = some media) :
    Inv photoQuota ({ s with media }.goes t (.writing mediaId none)) := by
  obtain ⟨hfree, rfl⟩ := Table.acquire_eq_some.mp hacquire
  have hclean : Untouched s t := h.sound t _ ht
  refine h.statement rfl (fun _ hk => hk) (fun u hu => Table.acquired_sameFor hu hfree)
    (fun _ _ _ hk => hk) ⟨hclean, update_self .., fun tid lid => ?_⟩
  exact elim_nonneg (fun _ m _ => slot_nonneg tid lid m) mediaId

theorem Inv.writing (h : Inv photoQuota s) {mediaId : Uuid} {left : Option ListingMedia}
    {media : Table Uuid ListingMedia Nat} (ht : s.txns t = some (.writing mediaId left))
    (hwrite : s.media.write t mediaId left = some media) :
    Inv photoQuota ({ s with media }.goes t .done) := by
  obtain ⟨hclean, -, hslot⟩ := h.sound t _ ht
  exact h.wrote hclean (Table.wrote_of_write hwrite) fun tid lid => .inl (hslot tid lid)

/-- A worker's mark is written to a row that is active, or takes no room. -/
theorem Inv.flushing (h : Inv photoQuota s) {mediaId : Uuid}
    {media : Table Uuid ListingMedia Nat} (ht : s.txns t = some (.flushing mediaId read edited))
    (hcurrent : s.media.visible t mediaId = some current)
    (hactive : current.kind = .photo → current.status = .failed → edited.status ≠ .ready)
    (hwrite : s.media.write t mediaId (some (overlay read edited current)) = some media) :
    Inv photoQuota ({ s with media }.goes t .done) := by
  obtain ⟨hclean, outcome, hedited⟩ := h.sound t _ ht
  refine h.wrote hclean (Table.wrote_of_write hwrite) fun tid lid => .inl ?_
  rw [hcurrent]
  exact slot_overlay_le outcome hedited hactive

theorem Inv.advance (h : Inv photoQuota s) {phase : Phase} (ht : s.txns t = some phase)
    (hactive : StillActive s (.advance t))
    (hst : s.advance settings photoQuota t phase = some s') : Inv photoQuota s' := by
  cases phase with
  | locking u =>
    obtain ⟨⟨-, hlock⟩, hst⟩ := Option.ite_none_right_eq_some.mp hst
    cases hst
    exact h.locking ht hlock
  | counting u =>
    obtain ⟨⟨⟩, hcheck, rfl⟩ := Option.map_eq_some_iff.mp hst
    exact h.counting ht (toOption_eq_some hcheck)
  | inserting u =>
    obtain ⟨media, hinsert, rfl⟩ := Option.map_eq_some_iff.mp hst
    exact h.inserting ht hinsert
  | confirming tenantId mediaId visible =>
    obtain ⟨media, hacquire, hst⟩ := Option.bind_eq_some_iff.mp hst
    obtain ⟨m, hm, rfl⟩ := Option.map_eq_some_iff.mp hst
    exact h.confirming ht hacquire (toOption_eq_some hm)
  | deleting tenantId mediaId visible =>
    obtain ⟨media, hacquire, hst⟩ := Option.bind_eq_some_iff.mp hst
    obtain ⟨m, -, rfl⟩ := Option.map_eq_some_iff.mp hst
    exact h.deleting ht hacquire
  | writing mediaId left =>
    obtain ⟨media, hwrite, rfl⟩ := Option.map_eq_some_iff.mp hst
    exact h.writing ht hwrite
  | marking mediaId outcome =>
    have hclean : Untouched s t := h.sound t _ ht
    dsimp only [State.advance] at hst
    split at hst
    · cases hst
      exact h.goes fun _ _ => hclean.room
    · next read _ =>
      split at hst
      · cases hst
        exact h.goes fun _ _ => hclean.room
      · cases hst
        exact h.goes ⟨hclean, outcome, rfl⟩
  | flushing mediaId read edited =>
    obtain ⟨current, hcurrent, hst⟩ := Option.bind_eq_some_iff.mp hst
    obtain ⟨media, hwrite, rfl⟩ := Option.map_eq_some_iff.mp hst
    refine h.flushing ht hcurrent ?_ hwrite
    -- The guard: the row was not deleted while the task worked on it.
    dsimp only [StillActive] at hactive
    rw [ht] at hactive
    exact hactive current hcurrent
  | done => cases hst

theorem Inv.start : Inv photoQuota .start where
  clean _ _ _ := rfl
  within _ _ := (total_eq_zero fun _ => rfl).trans_le (le_max_left 0 _)
  sound _ _ h := nomatch h

theorem Request.sound_phase (request : Request) (h : Untouched s t) :
    request.phase.Sound photoQuota s t := by
  cases request <;> exact h

theorem photos_inductive : (photos settings photoQuota).Inductive StillActive (Inv photoQuota) where
  init s hs := hs ▸ Inv.start
  step s l s' h hactive hst := by
    cases l with
    | snapshot mediaId =>
      obtain ⟨-, hst⟩ := Option.ite_none_right_eq_some.mp hst
      cases hst
      exact ⟨h.clean, h.within, h.sound⟩
    | begin t request =>
      obtain ⟨hidle, hst⟩ := Option.ite_none_right_eq_some.mp hst
      obtain ⟨running, -, rfl⟩ := Option.map_eq_some_iff.mp hst
      exact h.goes (request.sound_phase (h.clean t (Option.isNone_iff_eq_none.mp hidle)))
    | advance t =>
      obtain ⟨phase, ht, hst⟩ := Option.bind_eq_some_iff.mp hst
      exact h.advance ht hactive hst
    | commit t =>
      dsimp only [photos, State.step] at hst
      split at hst
      · next ht =>
        cases hst
        exact h.commit ht
      · cases hst
    | rollback t =>
      cases hst
      exact h.rollback t

/-- **The photo quota.** Where no `UPDATE` makes a failed photo ready, a listing never has more
photos that have not failed than the quota of its tenant. -/
theorem photos_le_quota (hquota : 0 ≤ photoQuota tenantId)
    (h : (photos settings photoQuota).ReachVia StillActive s) (listingId : Uuid) :
    (countActivePhotos (s.committed tenantId listingId) : Int) ≤ photoQuota tenantId := by
  have hwithin := (photos_inductive.always h).within tenantId listingId
  rw [State.committed, countActivePhotos_eq s.media.keys_nodup]
  exact hwithin.trans (max_eq_right hquota).le

/-! ### A photo too many -/

/-- An upload of a photo. -/
def upload (mediaId : Uuid) : Request :=
  .upload ⟨5, 9, mediaId, true, ⟨.photo, "image/jpeg", 1000, by decide⟩⟩

/-- An upload is requested. -/
def uploading (mediaId : Uuid) : List Label :=
  [.begin 0 (upload mediaId), .advance 0, .advance 0, .advance 0, .commit 0]

/-- A photo of the listing 9 is being processed, by two runs. -/
def processing (mediaId : Uuid) : List Label :=
  uploading mediaId ++ [.begin 0 (.confirm 5 mediaId true), .advance 0, .advance 0, .commit 0,
    .snapshot mediaId, .snapshot mediaId]

/-- Of three photos one is ready, one has failed and one is still to come, under a quota of two. -/
theorem photos_le_quota_processed : ∃ s : State, (photos ⟨5000⟩ fun _ => 2).ReachVia StillActive s ∧
    [1, 2, 3].map (fun mediaId => (s.media.rows mediaId).map (·.status)) =
      [some .ready, some .failed, some .pending] ∧
    countActivePhotos (s.committed 5 9) = 2 ∧ (countActivePhotos (s.committed 5 9) : Int) ≤ 2 := by
  obtain ⟨s, hs, hp⟩ := Machine.exists_reachVia_of_run (M := photos ⟨5000⟩ fun _ => 2)
    (G := StillActive) (s := .start)
    (processing 1 ++
      [.begin 1 (.mark 1 (.ready ⟨900, [], none⟩)), .advance 1, .advance 1, .commit 1] ++
      processing 2 ++
      [.begin 1 (.mark 2 (.failed "no uploaded file found for this media")), .advance 1,
        .advance 1, .commit 1] ++ uploading 3)
    (fun s => [1, 2, 3].map (fun mediaId => (s.media.rows mediaId).map (·.status)) =
        [some .ready, some .failed, some .pending] && countActivePhotos (s.committed 5 9) = 2)
    rfl (by decide)
  obtain ⟨hrows, hcount⟩ := Bool.and_eq_true_iff.1 hp
  exact ⟨s, hs, of_decide_eq_true hrows, of_decide_eq_true hcount,
    photos_le_quota (by decide) hs 9⟩

/-- One run has read the row before the other gave the photo up, and makes it ready after its
slot is taken again. -/
theorem revived : ¬ ∀ s, (photos ⟨5000⟩ fun _ => 1).Reachable s →
    (countActivePhotos (s.committed 5 9) : Int) ≤ 1 := by
  intro hclaim
  obtain ⟨s, hs, hp⟩ := Machine.exists_reachable_of_run (M := photos ⟨5000⟩ fun _ => 1)
    (s := .start)
    (processing 1 ++ [.begin 1 (.mark 1 (.ready ⟨900, [], none⟩)), .advance 1,
      .begin 2 (.mark 1 (.failed "no uploaded file found for this media")), .advance 2, .advance 2,
      .commit 2, .begin 3 (upload 2), .advance 3, .advance 3, .advance 3, .commit 3, .advance 1,
      .commit 1])
    (fun s => countActivePhotos (s.committed 5 9) = 2) rfl (by decide)
  have hle := hclaim s hs
  rw [of_decide_eq_true hp] at hle
  exact absurd hle (by decide)

end PhotoQuota

end Media

end RealEstate
