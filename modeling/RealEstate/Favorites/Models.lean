import RealEstate.Core.Base

/-!
# Favorites and saved searches (`modules/favorites/models.py`)

A saved search belongs to an account or to a bare e-mail address, never to both
(`owner_xor_email`). Columns no modelled query or service method reads are left out.
-/

namespace RealEstate

namespace Favorites

open RealEstate.Core

/-- `AlertFrequency`. -/
inductive AlertFrequency where
  | instant
  | daily
  | weekly
  deriving DecidableEq, Repr

/-- `Favorite`. -/
structure Favorite where
  id : Uuid
  tenantId : Uuid
  userId : Uuid
  listingId : Uuid
  deriving DecidableEq

/-- Whose search it is: `user_id` or `email`, as the CHECK constraint has it. -/
inductive SearchOwner where
  | user (userId : Uuid)
  | email (address : String)
  deriving DecidableEq

/-- A row of `saved_searches`; `filters` is the dump of the public search's filters. -/
structure SavedSearch where
  id : Uuid
  tenantId : Uuid
  owner : SearchOwner
  filters : JsonObject := []
  locale : String := "fr"
  frequency : AlertFrequency := .instant
  createdAt : DateTime
  lastRunAt : Option DateTime := none
  isActive : Bool := true

end Favorites

end RealEstate
