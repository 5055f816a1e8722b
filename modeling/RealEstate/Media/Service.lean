import RealEstate.Listings.Workflow
import RealEstate.Tenants.Usage

/-!
# Listing media (`modules/media/service.py`, `workers/tasks/media.py`)

The rows of `listing_media` and what the service and the `process_media` worker make of
them. Bytes go from the client to the object store: a registration only declares their size.
-/

namespace RealEstate

namespace Media

open RealEstate.Core Listings

/-- `MediaKind`. -/
inductive MediaKind where
  | photo
  | video
  | tour3d
  | floorplan
  | doc
  deriving DecidableEq, Repr

/-- `MediaStatus`. -/
inductive MediaStatus where
  | pending
  | processing
  | ready
  | failed
  deriving DecidableEq, Repr

/-- The member's value. -/
def MediaStatus.value : MediaStatus → String
  | .pending => "pending"
  | .processing => "processing"
  | .ready => "ready"
  | .failed => "failed"

/-- A row of `listing_media`. -/
structure ListingMedia where
  tenantId : Uuid
  listingId : Uuid
  kind : MediaKind
  status : MediaStatus := .pending
  storageKey : Option String := none
  embedUrl : Option String := none
  contentType : Option String := none
  sizeBytes : Option Int := none
  /-- The keys of the derived objects. -/
  variants : List String := []
  blurhash : Option String := none
  position : Int := 0
  error : Option String := none

/-- The settings an upload is checked against. -/
structure MediaSettings where
  mediaMaxUploadBytes : Nat

/-- `MediaUploadRequest`; its schema refuses a size that is not positive. -/
structure MediaUploadRequest where
  kind : MediaKind
  contentType : String
  sizeBytes : Int
  size_pos : 0 < sizeBytes

/-- `MediaEmbedCreate`. -/
structure MediaEmbedCreate where
  kind : MediaKind
  url : String

/-- The 404 of a media object. -/
def mediaNotFound : AppError := ⟨.notFound, "Media not found."⟩

/-! ### Registration -/

/-- `count_active_photos`, over the media of the listing. -/
def countActivePhotos (media : List ListingMedia) : Nat :=
  media.countP fun m => m.kind = .photo ∧ m.status ≠ .failed

/-- `next_position`, over the media of the listing. -/
def nextPosition (media : List ListingMedia) : Int :=
  ((media.map (·.position)).max?).elim 0 (· + 1)

/-- The checks of `request_upload` before its reservation. `media` are the listing's, and
`photoQuota` is what `_photo_quota` makes of the settings. -/
def checkUpload (settings : MediaSettings) (photoQuota : Int) (media : List ListingMedia)
    (data : MediaUploadRequest) : Except AppError Unit :=
  if settings.mediaMaxUploadBytes < data.sizeBytes then
    let limitMb := settings.mediaMaxUploadBytes / (1024 * 1024)
    .error ⟨.quotaExceeded, s!"Files larger than {limitMb} MB are not accepted."⟩
  else if data.kind = .photo ∧ photoQuota ≤ countActivePhotos media then
    .error ⟨.quotaExceeded, "This listing has reached its photo quota."⟩
  else .ok ()

/-- The row `request_upload` inserts. -/
def newUpload (tenantId listingId mediaId : Uuid) (media : List ListingMedia)
    (data : MediaUploadRequest) : ListingMedia where
  tenantId
  listingId
  kind := data.kind
  storageKey := some s!"tenants/{tenantId}/listings/{listingId}/{mediaId}/original"
  contentType := some data.contentType
  sizeBytes := some data.sizeBytes
  position := nextPosition media

/-- The row `create_embed` inserts. -/
def newEmbed (tenantId listingId : Uuid) (media : List ListingMedia) (data : MediaEmbedCreate) :
    ListingMedia where
  tenantId
  listingId
  kind := data.kind
  status := .ready
  embedUrl := some data.url
  position := nextPosition media

/-! ### The life of an upload -/

/-- `_get_scoped_or_404`. `visible` is whether the actor may see the row's listing. -/
def mediaOr404 (tenantId : Uuid) (visible : Bool) (media : Option ListingMedia) :
    Except AppError ListingMedia :=
  match media with
  | some m => if m.tenantId = tenantId ∧ visible then .ok m else .error mediaNotFound
  | none => .error mediaNotFound

/-- `confirm_upload`. -/
def ListingMedia.confirm (m : ListingMedia) : Except AppError ListingMedia :=
  if m.status ≠ .pending then
    .error ⟨.conflict, s!"This upload is already '{m.status.value}'."⟩
  else .ok { m with status := .processing }

/-- `_mark_failed`. -/
def ListingMedia.markFailed (m : ListingMedia) (reason : String) : ListingMedia :=
  if m.status = .processing then
    { m with status := .failed, error := some reason, storageKey := none }
  else m

/-- What a worker makes of the object it fetched. -/
structure Processed where
  size : Nat
  variants : List String
  blur : Option String

/-- `_mark_ready`: the row takes the size of the object. -/
def ListingMedia.markReady (m : ListingMedia) (processed : Processed) : ListingMedia :=
  if m.status = .processing then
    { m with
      status := .ready
      variants := processed.variants
      blurhash := processed.blur
      sizeBytes := some processed.size }
  else m

/-- What `delete` gives back: embeds have no size. -/
def ListingMedia.freed (m : ListingMedia) : Int := m.sizeBytes.getD 0

/-! ### What a change leaves alone -/

/-- A row of the tenant that the actor may see. -/
theorem mediaOr404_ok {tenantId : Uuid} {visible : Bool} {media : Option ListingMedia}
    {m : ListingMedia} (h : mediaOr404 tenantId visible media = .ok m) :
    media = some m ∧ m.tenantId = tenantId := by
  unfold mediaOr404 at h
  split at h
  · split at h
    · next hfound =>
      cases h
      exact ⟨rfl, hfound.1⟩
    · cases h
  · cases h

/-- Only a pending upload is confirmed. -/
theorem ListingMedia.confirm_ok {m confirmed : ListingMedia} (h : m.confirm = .ok confirmed) :
    m.status = .pending ∧ confirmed = { m with status := .processing } := by
  unfold ListingMedia.confirm at h
  split at h
  · cases h
  · next hpending =>
    cases h
    exact ⟨not_not.mp hpending, rfl⟩

/-- A failure leaves tenant and size. -/
theorem ListingMedia.markFailed_same (m : ListingMedia) (reason : String) :
    (m.markFailed reason).tenantId = m.tenantId ∧
      (m.markFailed reason).sizeBytes = m.sizeBytes := by
  unfold ListingMedia.markFailed
  split <;> exact ⟨rfl, rfl⟩

theorem ListingMedia.markReady_tenantId (m : ListingMedia) (processed : Processed) :
    (m.markReady processed).tenantId = m.tenantId := by
  unfold ListingMedia.markReady
  split <;> rfl

end Media

end RealEstate
