import Mathlib.Data.List.Infix
import RealEstate.Core.Base
import RealEstate.Tenants.Plans

/-!
# The public site configuration (`modules/tenants/service.py`, `router.py`)

`siteConfig` is what `GET /site/config` renders from a tenant context and its usage.
`publicSettings` keeps private namespaces out of it and redacts what names a credential.
-/

namespace RealEstate

namespace Tenants

open RealEstate.Core

/-- `PRIVATE_SETTINGS_NAMESPACES`. -/
def privateSettingsNamespaces : List String := ["syndication"]

/-- `_SECRET_KEY_MARKERS`. -/
def secretKeyMarkers : List String :=
  ["secret", "token", "password", "api_key", "apikey", "private_key"]

/-- `key.lower()`, as far as ASCII letters go: beyond the capitals, the Kelvin sign and the dotted
capital I have one in lower case. -/
def lowerKey (key : String) : List Char :=
  key.toList.flatMap fun c =>
    if c = '\u212a' then ['k'] else if c = '\u0130' then ['i', '\u0307'] else [c.toLower]

/-- A marker occurs in the key, whatever its case. -/
def namesSecret (key : String) : Bool :=
  secretKeyMarkers.any fun marker => marker.toList <:+: lowerKey key

/-- `_REDACTED`. -/
def redacted : Json := .str "[redacted]"

mutual

/-- `_scrub_secrets`. -/
def scrubSecrets : Json → Json
  | .obj fields => .obj (scrubFields fields)
  | .arr items => .arr (scrubItems items)
  | value => value

/-- An object, field by field. -/
def scrubFields : List (String × Json) → List (String × Json)
  | [] => []
  | (key, inner) :: fields =>
    (key, if namesSecret key then redacted else scrubSecrets inner) :: scrubFields fields

/-- An array, item by item. -/
def scrubItems : List Json → List Json
  | [] => []
  | item :: items => scrubSecrets item :: scrubItems items

end

/-- `TenantService.public_settings`. -/
def publicSettings (raw : JsonObject) : JsonObject :=
  (raw.filter fun field => field.1 ∉ privateSettingsNamespaces).map fun field =>
    (field.1, scrubSecrets field.2)

/-- `UsageSnapshot`, and `UsageOut`. -/
structure UsageSnapshot where
  listingsCount : Int := 0
  agentsCount : Int := 0
  storageBytes : Int := 0
  emailsSent : Int := 0
  deriving DecidableEq

/-- `SiteConfigOut`. -/
structure SiteConfig where
  name : String
  slug : String
  settings : JsonObject
  plan : String
  usage : UsageSnapshot
  limits : PlanLimits

/-- `_load` of `get_site_config`. -/
def siteConfig (tenant : TenantContext) (usage : UsageSnapshot) : SiteConfig where
  name := tenant.name
  slug := tenant.slug
  settings := publicSettings tenant.settings
  plan := tenant.plan
  usage := usage
  limits := planLimits tenant.plan

end Tenants

end RealEstate
