import RealEstate.Core.Base
import RealEstate.Core.Exceptions

/-!
# The listing workflow (`modules/listings/models.py`, `service.py`)

The status graph, and which portal verb a change of status or content implies.
`ListingService.transition`, `update` and `soft_delete` take the listing and
return it changed, with the portal action to fan out after the commit.
-/

namespace RealEstate

namespace Listings

open RealEstate.Core

/-- `ListingStatus`. -/
inductive ListingStatus where
  | draft
  | review
  | published
  | reserved
  | sold
  | rented
  | archived
  deriving DecidableEq, Repr

/-- The member's value. -/
def ListingStatus.value : ListingStatus → String
  | .draft => "draft"
  | .review => "review"
  | .published => "published"
  | .reserved => "reserved"
  | .sold => "sold"
  | .rented => "rented"
  | .archived => "archived"

/-- `ALLOWED_TRANSITIONS`; `archived → draft` is the relist path. -/
def ListingStatus.allowedTransitions : ListingStatus → List ListingStatus
  | .draft => [.review, .published, .archived]
  | .review => [.draft, .published, .archived]
  | .published => [.reserved, .sold, .rented, .archived]
  | .reserved => [.published, .sold, .rented, .archived]
  | .sold => [.archived]
  | .rented => [.archived]
  | .archived => [.draft]

/-- `PropertyType`, of a listing or of what a seller wants valued. -/
inductive PropertyType where
  | apartment
  | house
  | villa
  | studio
  | duplex
  | land
  | office
  | retail
  | warehouse
  | garage
  | farm
  | building
  | other
  deriving DecidableEq, Repr

/-- `UNDELETABLE_STATUSES`. -/
def ListingStatus.undeletable (status : ListingStatus) : Bool :=
  status = .published ∨ status = .reserved ∨ status = .sold ∨ status = .rented

/-- `PortalAction` (`integrations/portals/base.py`). -/
inductive PortalAction where
  | push
  | update
  | remove
  deriving DecidableEq, Repr

/-- A row of `listings`; `content` is what a portal is told about it. -/
structure Listing where
  status : ListingStatus := .draft
  content : Json
  referenceCode : String := ""
  expiresAt : Option DateTime := none
  publishedAt : Option DateTime := none
  staleFlaggedAt : Option DateTime := none
  deletedAt : Option DateTime := none

/-- `_syndication_action_for_transition`. -/
def syndicationActionForTransition (fromStatus toStatus : ListingStatus) :
    Option PortalAction :=
  if toStatus = .published then some .update
  else if fromStatus = .published then some .remove
  else none

/-- The 404 of a listing. -/
def listingNotFound : AppError := ⟨.notFound, "Listing not found."⟩

/-- `ListingService.transition`. `canPublish` is what `_can_publish` says of the actor. -/
def Listing.transition (listing : Listing) (now : DateTime) (toStatus : ListingStatus)
    (canPublish : Bool) : Except AppError (Listing × Option PortalAction) :=
  if listing.deletedAt.isSome then .error listingNotFound
  else if toStatus ∉ listing.status.allowedTransitions then
    .error ⟨.conflict,
      s!"A listing cannot go from '{listing.status.value}' to '{toStatus.value}'."⟩
  else if toStatus = .published ∧ !canPublish then
    .error ⟨.permissionDenied, "Publishing requires review by someone with publish rights."⟩
  else
    .ok ({ listing with
        status := toStatus
        publishedAt := if toStatus = .published then some now else listing.publishedAt
        staleFlaggedAt := if toStatus = .published then listing.staleFlaggedAt else none },
      syndicationActionForTransition listing.status toStatus)

/-- `ListingService.update`. `remains` says whether the patch names a field other than `agent_id`,
`address` and `location`, which are taken out of it before it is looked at. -/
def Listing.update (listing : Listing) (content : Json) (remains : Bool) :
    Except AppError (Listing × Option PortalAction) :=
  if listing.deletedAt.isSome then .error listingNotFound
  else
    -- An edit is the review a stale flag asks for.
    .ok ({ listing with
        content
        staleFlaggedAt := if remains then none else listing.staleFlaggedAt },
      if remains ∧ listing.status = .published then some .update else none)

/-- `ListingService.soft_delete`. -/
def Listing.softDelete (listing : Listing) (now : DateTime) :
    Except AppError (Listing × Option PortalAction) :=
  if listing.deletedAt.isSome then .error listingNotFound
  else if listing.status.undeletable then
    .error ⟨.conflict, "Archive this listing before deleting it."⟩
  else .ok ({ listing with deletedAt := some now }, none)

/-- `portal_payload_for`: what a portal is told, while the listing is published. -/
def Listing.portalPayload (listing : Listing) : Option Json :=
  if listing.deletedAt.isNone ∧ listing.status = .published then some listing.content else none

end Listings

end RealEstate
