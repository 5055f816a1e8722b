import RealEstate.Agents.ServiceAreas
import RealEstate.Analytics.Partitions
import RealEstate.Analytics.Rollups
import RealEstate.Appointments.Calendar
import RealEstate.Appointments.Exclusion
import RealEstate.Appointments.Reminders
import RealEstate.Appointments.WallClock
import RealEstate.Auth.Denylist
import RealEstate.Auth.EndedCredentials
import RealEstate.Auth.Enrolment
import RealEstate.Auth.Prehijacking
import RealEstate.Auth.Revocation
import RealEstate.Auth.Rotation
import RealEstate.Auth.SecondFactor
import RealEstate.Auth.Spray
import RealEstate.Auth.Tickets
import RealEstate.Blog.Scheduling
import RealEstate.Common.Amortization
import RealEstate.Common.Feeds
import RealEstate.Common.Geo
import RealEstate.Common.Wkt
import RealEstate.Common.WktRings
import RealEstate.Compliance.Erasure
import RealEstate.Content.LegalVersions
import RealEstate.Content.Reports
import RealEstate.Core.Acknowledged
import RealEstate.Core.AtMostOnce
import RealEstate.Core.Backoff
import RealEstate.Core.CacheAside
import RealEstate.Core.ClientAddress
import RealEstate.Core.Crossing
import RealEstate.Core.Crypto
import RealEstate.Core.HttpCache
import RealEstate.Core.LockoutRaces
import RealEstate.Core.Net
import RealEstate.Core.Noninterference
import RealEstate.Core.RateLimit
import RealEstate.Core.Renewal
import RealEstate.Core.RetryAfter
import RealEstate.Core.SignedValues
import RealEstate.Favorites.OptIns
import RealEstate.Integrations.Billing
import RealEstate.Leads.Assignment
import RealEstate.Leads.Dedupe
import RealEstate.Leads.DripSweeps
import RealEstate.Leads.Retention
import RealEstate.Leads.Scoring
import RealEstate.Listings.Cursors
import RealEstate.Listings.GeoFilters
import RealEstate.Listings.Pagination
import RealEstate.Listings.References
import RealEstate.Media.Leftovers
import RealEstate.Media.Objects
import RealEstate.Media.PhotoQuota
import RealEstate.Media.Storage
import RealEstate.Notifications.Preferences
import RealEstate.Reviews.Service
import RealEstate.Syndication.Feeds
import RealEstate.Syndication.Mirror
import RealEstate.Syndication.Namespaces
import RealEstate.Syndication.Tasks
import RealEstate.Systems.Annuity
import RealEstate.Systems.DecimalErrors
import RealEstate.Systems.Dicts
import RealEstate.Systems.Floats
import RealEstate.Systems.Months
import RealEstate.Tenants.Coherence
import RealEstate.Tenants.Deliveries
import RealEstate.Tenants.Dunning
import RealEstate.Tenants.Offboarding
import RealEstate.Tenants.PrimaryDomain
import RealEstate.Tenants.PublicSettings
import RealEstate.Tenants.Quotas
import RealEstate.Transactions.Commission
import RealEstate.Transactions.Deals
import RealEstate.Transactions.Documents
import RealEstate.Transactions.Patches
import RealEstate.Users.Administrators
import RealEstate.Valuations.Completion
import RealEstate.Valuations.Mortgage
import RealEstate.Webhooks.Chains
import RealEstate.Workers.Outbox
