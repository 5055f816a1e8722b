import RealEstate.Core.Events

/-!
# Fanning out one notification (`modules/notifications/service.py`)

`notify` writes the in-app row, resolves the recipient's channels, and for each
external channel either parks the message in the digest queue or registers its
send as a post-commit callback. It is what the outbox handler for new leads
calls, so its result is a `HandlerRun`.

The worker that runs outbox handlers has no Redis client, so the live WebSocket
ping of `notify` is skipped there (`redis is None`).
-/

namespace RealEstate

namespace Notifications

open RealEstate.Core Events

/-- `NotificationChannel`. -/
inductive NotificationChannel where
  | inApp
  | email
  | sms
  | whatsapp
  deriving DecidableEq, Repr

/-- `NotificationType`. -/
inductive NotificationType where
  | leadAssigned
  | leadEscalated
  | appointmentReminder
  | appointmentConfirmed
  | appointmentCancelled
  | milestoneDue
  deriving DecidableEq, Repr

/-- All channels, in the order of the enumeration. -/
def channels : List NotificationChannel := [.inApp, .email, .sms, .whatsapp]

/-- `EXTERNAL_CHANNELS`. -/
def externalChannels : List NotificationChannel := [.email, .sms, .whatsapp]

/-- The part of a `TypeDefinition` that decides where a message goes. -/
structure TypeDefinition where
  defaultChannels : List NotificationChannel
  digestEligible : Bool

/-- `definition_for`: every registered type defaults to in-app and e-mail, and none may
be held back for a digest. -/
def definitionFor : NotificationType → TypeDefinition
  | .leadAssigned => ⟨[.inApp, .email], false⟩
  | .leadEscalated => ⟨[.inApp, .email], false⟩
  | .appointmentReminder => ⟨[.inApp, .email], false⟩
  | .appointmentConfirmed => ⟨[.inApp, .email], false⟩
  | .appointmentCancelled => ⟨[.inApp, .email], false⟩
  | .milestoneDue => ⟨[.inApp, .email], false⟩

/-- One row of `notifications`. -/
structure Notification where
  id : Uuid
  tenantId : Uuid
  userId : Uuid
  type : NotificationType
  payload : JsonObject

/-- One row of `notification_preferences`. -/
structure NotificationPreference where
  tenantId : Uuid
  userId : Uuid
  type : NotificationType
  channel : NotificationChannel
  enabled : Bool

/-- One row of `notification_digest_items`. -/
structure NotificationDigestItem where
  tenantId : Uuid
  userId : Uuid
  notificationId : Uuid
  channel : NotificationChannel

/-- `preferences_for_type`: the explicit decision for one channel, if there is a row. -/
def preferenceFor (prefs : List NotificationPreference) (tenantId userId : Uuid)
    (type : NotificationType) (channel : NotificationChannel) : Option Bool :=
  (prefs.find? fun p => p.tenantId = tenantId ∧ p.userId = userId ∧ p.type = type ∧
    p.channel = channel).map (·.enabled)

/-- `_resolved_channels`: explicit rows override the default set of the type. -/
def resolvedChannels (prefs : List NotificationPreference) (tenantId userId : Uuid)
    (type : NotificationType) : List NotificationChannel :=
  channels.filter fun channel =>
    (preferenceFor prefs tenantId userId type channel).getD
      ((definitionFor type).defaultChannels.contains channel)

/-- A row `notify` writes. -/
inductive Row where
  | notification (n : Notification)
  | digestItem (d : NotificationDigestItem)

/-- The `deliver_notification` task `_defer_send` enqueues after the commit. -/
structure Send where
  tenantId : Uuid
  notificationId : Uuid
  channel : NotificationChannel
  locale : String
  payload : JsonObject

/-- `notify`. `notificationId` is the flushed row's id, `inQuiet` whether the tenant's
quiet hours contain the present moment. -/
def notify (prefs : List NotificationPreference) (notificationId : Uuid) (inQuiet : Bool)
    (tenant : TenantContext) (userId : Uuid) (type : NotificationType) (payload : JsonObject)
    (locale : String) : HandlerRun Row Send :=
  let enabled := resolvedChannels prefs tenant.id userId type
  let external := externalChannels.filter (enabled.contains ·)
  let parked := (definitionFor type).digestEligible && inQuiet
  { writes :=
      .notification ⟨notificationId, tenant.id, userId, type, payload⟩ ::
        if parked then external.map (.digestItem ⟨tenant.id, userId, notificationId, ·⟩)
        else []
    callbacks :=
      if parked then []
      else external.map (⟨tenant.id, notificationId, ·, locale, payload⟩) }

end Notifications

end RealEstate
