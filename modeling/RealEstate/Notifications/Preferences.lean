import RealEstate.Notifications.Service
import RealEstate.Systems.Dicts

/-!
# Notification preferences (`modules/notifications/service.py`, `repository.py`)

A user sees a matrix of types and channels and changes some of its cells. `notify` reads the
same rows by a query of its own, one type at a time.

- `getPreferences`: the matrix, from the rows of its query.
- `resolvedFrom`: the channels of `_resolved_channels`, from the rows of its query.
- `upsertPreference`, `updatePreferences`: the writes, row by row.
- `Command`, `run`: the changes of all users, and the erasure of a user.
- `run_spec`: what the table holds after a run: for each cell, what was last said of it.
- `shown_iff_used`: a channel is used just where it is shown as enabled.
-/

namespace RealEstate

namespace Notifications

namespace Preferences

open RealEstate.Core Systems

/-! ### Rows -/

/-- The columns of `uq_notification_preferences_user_type_channel`. -/
structure PreferenceKey where
  tenantId : Uuid
  userId : Uuid
  type : NotificationType
  channel : NotificationChannel
  deriving DecidableEq

/-- The unique key. -/
def keyOf (p : NotificationPreference) : PreferenceKey := ⟨p.tenantId, p.userId, p.type, p.channel⟩

/-- The unique constraint of the table. -/
def Unique (prefs : List NotificationPreference) : Prop := (prefs.map keyOf).Nodup

/-- The decisions, by key. -/
def entriesOf (prefs : List NotificationPreference) : List (PreferenceKey × Bool) :=
  prefs.map fun p => (keyOf p, p.enabled)

/-- The decision that the table holds on a cell of someone's matrix. -/
def decision (prefs : List NotificationPreference) (key : PreferenceKey) : Option Bool :=
  dictGet (entriesOf prefs) key

/-- A `SELECT` without an order returns the rows that match in any order. -/
def Selects (matching : NotificationPreference → Bool) (prefs rows : List NotificationPreference) :
    Prop := rows.Perm (prefs.filter matching)

/-- The condition of `preferences_for_user`. -/
def forUser (tenantId userId : Uuid) (p : NotificationPreference) : Bool :=
  p.tenantId = tenantId ∧ p.userId = userId

/-- The condition of `preferences_for_type`. -/
def forType (tenantId userId : Uuid) (type : NotificationType) (p : NotificationPreference) :
    Bool := p.tenantId = tenantId ∧ p.userId = userId ∧ p.type = type

/-! ### Reading -/

/-- The enumeration `NotificationType`. -/
def notificationTypes : List NotificationType :=
  [.leadAssigned, .leadEscalated, .appointmentReminder, .appointmentConfirmed,
    .appointmentCancelled, .milestoneDue]

/-- Whether a channel is among the defaults of a type. -/
def byDefault (type : NotificationType) (channel : NotificationChannel) : Bool :=
  (definitionFor type).defaultChannels.contains channel

/-- `_resolved_channels`, from the rows of `preferences_for_type`. -/
def resolvedFrom (rows : List NotificationPreference) (type : NotificationType) :
    List NotificationChannel :=
  let explicit := dictGet (rows.map fun row => (row.channel, row.enabled))
  channels.filter fun channel => (explicit channel).getD (byDefault type channel)

/-- `dict[NotificationType, dict[NotificationChannel, bool]]`. -/
abbrev Matrix := List (NotificationType × List (NotificationChannel × Bool))

/-- `get_preferences`, from the rows of `preferences_for_user`. -/
def getPreferences (rows : List NotificationPreference) : Matrix :=
  let explicit := dictGet (rows.map fun row => ((row.type, row.channel), row.enabled))
  notificationTypes.map fun type => (type, channels.map fun channel =>
    (channel, (explicit (type, channel)).getD (byDefault type channel)))

/-- The channels shown as enabled for a type. -/
def Matrix.enabled (matrix : Matrix) (type : NotificationType) : List NotificationChannel :=
  (matrix.filter (·.1 = type)).flatMap fun row => (row.2.filter (·.2)).map (·.1)

/-! ### Writing -/

/-- `upsert_preference`; `none` is the error of `scalar_one_or_none` on several rows. The query
sees what was added before it, which it flushes. -/
def upsertPreference (prefs : List NotificationPreference) (key : PreferenceKey) (enabled : Bool) :
    Option (List NotificationPreference) :=
  match prefs.filter (keyOf · = key) with
  | [] => some (prefs ++ [⟨key.tenantId, key.userId, key.type, key.channel, enabled⟩])
  | [_] => some (prefs.map fun p => if keyOf p = key then { p with enabled } else p)
  | _ => none

/-- `ChannelPreferenceIn`. -/
structure ChannelPreferenceIn where
  channel : NotificationChannel
  enabled : Bool

/-- `TypePreferenceIn`. -/
structure TypePreferenceIn where
  type : NotificationType
  channels : List ChannelPreferenceIn

/-- `PreferencesUpdateIn`. -/
abbrev PreferencesUpdateIn := List TypePreferenceIn

/-- The cells that an update names, in its order. -/
def PreferencesUpdateIn.cells (tenantId userId : Uuid) (data : PreferencesUpdateIn) :
    List (PreferenceKey × Bool) :=
  data.flatMap fun typePref => typePref.channels.map fun channelPref =>
    (⟨tenantId, userId, typePref.type, channelPref.channel⟩, channelPref.enabled)

/-- The inner loop of `update_preferences`. -/
def updateChannels (tenantId userId : Uuid) (type : NotificationType) :
    List ChannelPreferenceIn → List NotificationPreference → Option (List NotificationPreference)
  | [], prefs => some prefs
  | channelPref :: rest, prefs =>
    (upsertPreference prefs ⟨tenantId, userId, type, channelPref.channel⟩
      channelPref.enabled).bind (updateChannels tenantId userId type rest)

/-- The writes of `update_preferences`. -/
def updatePreferences (tenantId userId : Uuid) :
    PreferencesUpdateIn → List NotificationPreference → Option (List NotificationPreference)
  | [], prefs => some prefs
  | typePref :: rest, prefs =>
    (updateChannels tenantId userId typePref.type typePref.channels prefs).bind
      (updatePreferences tenantId userId rest)

/-! ### Runs -/

/-- What changes the table. -/
inductive Command where
  | update (tenantId userId : Uuid) (data : PreferencesUpdateIn)
  /-- `erase_for_user`, as far as preferences go. -/
  | erase (tenantId userId : Uuid)

/-- A request on the preferences. -/
def Command.apply : Command → List NotificationPreference → Option (List NotificationPreference)
  | .update tenantId userId data, prefs => updatePreferences tenantId userId data prefs
  | .erase tenantId userId, prefs => some (prefs.filter fun p => !forUser tenantId userId p)

/-- A history of commands, one after the other. -/
def run : List Command → List NotificationPreference → Option (List NotificationPreference)
  | [], prefs => some prefs
  | command :: history, prefs => (command.apply prefs).bind (run history)

/-- What a command says about a cell, over what was said before: the last one wins. -/
def Command.say (key : PreferenceKey) (before : Option Bool) : Command → Option Bool
  | .update tenantId userId data => (dictGet (data.cells tenantId userId) key).or before
  | .erase tenantId userId =>
    if key.tenantId = tenantId ∧ key.userId = userId then none else before

/-- What a history says about a cell. -/
def said (key : PreferenceKey) (history : List Command) (before : Option Bool) : Option Bool :=
  history.foldl (Command.say key) before

section

variable {prefs prefs' rows : List NotificationPreference} {key : PreferenceKey}

/-! ### One write -/

theorem map_fst_entriesOf (prefs : List NotificationPreference) :
    (entriesOf prefs).map Prod.fst = prefs.map keyOf := by
  unfold entriesOf
  rw [List.map_map]
  rfl

theorem nodup_entriesOf (hunique : Unique prefs) : ((entriesOf prefs).map Prod.fst).Nodup :=
  (map_fst_entriesOf prefs).symm ▸ hunique

/-- At most one row has a key. -/
theorem length_filter_key (hunique : Unique prefs) (key : PreferenceKey) :
    (prefs.filter (keyOf · = key)).length ≤ 1 := by
  have hsame : (prefs.filter (keyOf · = key)).map keyOf =
      List.replicate (prefs.filter (keyOf · = key)).length key := by
    refine List.eq_replicate_iff.2 ⟨List.length_map .., fun k hk => ?_⟩
    obtain ⟨p, hp, rfl⟩ := List.mem_map.1 hk
    exact of_decide_eq_true (List.mem_filter.1 hp).2
  have hnodup : ((prefs.filter (keyOf · = key)).map keyOf).Nodup :=
    hunique.sublist (List.filter_sublist.map keyOf)
  rw [hsame] at hnodup
  exact List.nodup_replicate.1 hnodup

/-- An upsert succeeds, and decides its own cell only. -/
theorem upsertPreference_spec (hunique : Unique prefs) (key : PreferenceKey) (enabled : Bool) :
    ∃ prefs', upsertPreference prefs key enabled = some prefs' ∧ Unique prefs' ∧
      ∀ k, decision prefs' k = if k = key then some enabled else decision prefs k := by
  have hlength := length_filter_key hunique key
  unfold upsertPreference
  cases hrows : prefs.filter (keyOf · = key) with
  | nil =>
    -- No row has the key: the insert branch of the upsert.
    have habsent : key ∉ prefs.map keyOf := by
      intro hmem
      obtain ⟨p, hp, hkey⟩ := List.mem_map.1 hmem
      have hin : p ∈ prefs.filter (keyOf · = key) :=
        List.mem_filter.2 ⟨hp, decide_eq_true hkey⟩
      rw [hrows] at hin
      cases hin
    refine ⟨_, rfl, ?_, fun k => ?_⟩
    · unfold Unique
      rw [List.map_append, List.nodup_append]
      refine ⟨hunique, List.nodup_singleton _, ?_⟩
      rintro k hk k' hk' rfl
      rw [List.mem_singleton.1 hk'] at hk
      exact habsent hk
    · -- The last entry of a key wins, and the new row is the last.
      have hadded : decision (prefs ++ [⟨key.tenantId, key.userId, key.type, key.channel,
          enabled⟩]) k = (if key = k then some enabled else none).or (decision prefs k) := by
        unfold decision entriesOf
        rw [List.map_append, dictGet_append]
        rfl
      rw [hadded]
      by_cases hk : key = k
      · rw [if_pos hk, if_pos hk.symm]
        rfl
      · rw [if_neg hk, if_neg (Ne.symm hk)]
        rfl
  | cons row rest =>
    rw [hrows, List.length_cons] at hlength
    -- The unique index: one row at most has the key.
    obtain rfl : rest = [] := List.length_eq_zero_iff.1 (by omega)
    have hrow : row ∈ prefs.filter (keyOf · = key) := hrows ▸ List.mem_cons_self
    have hpresent : key ∈ (entriesOf prefs).map Prod.fst := by
      rw [map_fst_entriesOf]
      exact List.mem_map.2
        ⟨row, (List.mem_filter.1 hrow).1, of_decide_eq_true (List.mem_filter.1 hrow).2⟩
    -- The update branch writes the flag and no part of the key.
    have hkeys : ∀ p : NotificationPreference,
        keyOf (if keyOf p = key then { p with enabled } else p) = keyOf p := by
      intro p
      split
      · rfl
      · rfl
    refine ⟨_, rfl, ?_, fun k => ?_⟩
    · unfold Unique
      rw [List.map_map]
      exact (List.map_congr_left fun p _ => hkeys p) ▸ hunique
    · have hentries : entriesOf (prefs.map fun p => if keyOf p = key then { p with enabled } else p)
          = (entriesOf prefs).map fun e => (e.1, if e.1 = key then enabled else e.2) := by
        unfold entriesOf
        rw [List.map_map, List.map_map]
        refine List.map_congr_left fun p _ => ?_
        by_cases hkey : keyOf p = key
        · simp [← hkey, keyOf]
        · simp [hkey]
      -- A replaced entry answers with the new value, the others as before.
      unfold decision
      rw [hentries, dictGet_replace hpresent]

/-! ### One update, one run -/

/-- The channels of one type are set as they were sent. -/
theorem updateChannels_spec (tenantId userId : Uuid) (type : NotificationType)
    (channelPrefs : List ChannelPreferenceIn) (hunique : Unique prefs) :
    ∃ prefs', updateChannels tenantId userId type channelPrefs prefs = some prefs' ∧
      Unique prefs' ∧ ∀ k, decision prefs' k =
        (dictGet (channelPrefs.map fun channelPref =>
          (⟨tenantId, userId, type, channelPref.channel⟩, channelPref.enabled)) k).or
            (decision prefs k) := by
  induction channelPrefs generalizing prefs with
  | nil => exact ⟨prefs, rfl, hunique, fun k => rfl⟩
  | cons channelPref rest ih =>
    obtain ⟨written, hwrite, hwritten, hdecided⟩ := upsertPreference_spec hunique
      ⟨tenantId, userId, type, channelPref.channel⟩ channelPref.enabled
    obtain ⟨prefs', hrest, hunique', hdecided'⟩ := ih hwritten
    refine ⟨prefs', ?_, hunique', fun k => ?_⟩
    · rw [updateChannels, hwrite]
      exact hrest
    · rw [hdecided', hdecided, List.map_cons, dictGet, Option.or_assoc]
      by_cases hk : k = ⟨tenantId, userId, type, channelPref.channel⟩
      · rw [if_pos hk, if_pos hk.symm]
        rfl
      · rw [if_neg hk, if_neg (Ne.symm hk)]
        rfl

/-- So are all types of an update, the last one counting. -/
theorem updatePreferences_spec (tenantId userId : Uuid) (data : PreferencesUpdateIn)
    (hunique : Unique prefs) :
    ∃ prefs', updatePreferences tenantId userId data prefs = some prefs' ∧ Unique prefs' ∧
      ∀ k, decision prefs' k = (dictGet (data.cells tenantId userId) k).or (decision prefs k) := by
  induction data generalizing prefs with
  | nil => exact ⟨prefs, rfl, hunique, fun k => rfl⟩
  | cons typePref rest ih =>
    obtain ⟨written, hwrite, hwritten, hdecided⟩ :=
      updateChannels_spec tenantId userId typePref.type typePref.channels hunique
    obtain ⟨prefs', hrest, hunique', hdecided'⟩ := ih hwritten
    refine ⟨prefs', ?_, hunique', fun k => ?_⟩
    · rw [updatePreferences, hwrite]
      exact hrest
    · have hcells : PreferencesUpdateIn.cells tenantId userId (typePref :: rest) =
          (typePref.channels.map fun channelPref =>
            (⟨tenantId, userId, typePref.type, channelPref.channel⟩, channelPref.enabled)) ++
            PreferencesUpdateIn.cells tenantId userId rest := List.flatMap_cons
      rw [hdecided', hdecided, hcells, dictGet_append, Option.or_assoc]

/-- A command succeeds, and says its part on every cell. -/
theorem Command.apply_spec (command : Command) (hunique : Unique prefs) :
    ∃ prefs', command.apply prefs = some prefs' ∧ Unique prefs' ∧
      ∀ k, decision prefs' k = command.say k (decision prefs k) := by
  cases command with
  | update tenantId userId data => exact updatePreferences_spec tenantId userId data hunique
  | erase tenantId userId =>
    refine ⟨_, rfl, hunique.sublist (List.filter_sublist.map keyOf), fun k => ?_⟩
    have hentries : entriesOf (prefs.filter fun p => !forUser tenantId userId p) =
        (entriesOf prefs).filter fun e => !decide (e.1.tenantId = tenantId ∧ e.1.userId = userId) :=
      by
        unfold entriesOf
        rw [List.filter_map]
        rfl
    unfold decision
    rw [hentries, dictGet_filter fun key : PreferenceKey =>
      !decide (key.tenantId = tenantId ∧ key.userId = userId)]
    by_cases hk : k.tenantId = tenantId ∧ k.userId = userId
    · simp [Command.say, hk]
    · simp [Command.say, hk]

/-- **After any history** the table holds what was last said of each cell. -/
theorem run_spec (history : List Command) (hunique : Unique prefs) :
    ∃ prefs', run history prefs = some prefs' ∧ Unique prefs' ∧
      ∀ k, decision prefs' k = said k history (decision prefs k) := by
  induction history generalizing prefs with
  | nil => exact ⟨prefs, rfl, hunique, fun k => rfl⟩
  | cons command history ih =>
    obtain ⟨next, hnext, hunique', hsay⟩ := command.apply_spec hunique
    obtain ⟨prefs', hrun, hunique'', hsaid⟩ := ih hunique'
    refine ⟨prefs', ?_, hunique'', fun k => ?_⟩
    · rw [run, hnext]
      exact hrun
    · rw [hsaid, hsay]
      rfl

/-! ### The two queries -/

/-- A query that pins down all columns of the key but one part reads the table's decisions. -/
theorem dictGet_selected {C : Type} [DecidableEq C] {matching : NotificationPreference → Bool}
    {column : NotificationPreference → C} {toKey : C → PreferenceKey} (hunique : Unique prefs)
    (hrows : Selects matching prefs rows)
    (hkey : ∀ p c, (matching p = true ∧ column p = c) ↔ keyOf p = toKey c) (c : C) :
    dictGet (rows.map fun row => (column row, row.enabled)) c = decision prefs (toKey c) := by
  -- Among the rows selected the columns read are a key, so their order does not matter.
  have hcolumns : ((prefs.filter matching).map column).Nodup := by
    have hkeys : ((prefs.filter matching).map column).map toKey =
        (prefs.filter matching).map keyOf := by
      rw [List.map_map]
      refine List.map_congr_left fun p hp => ?_
      exact ((hkey p (column p)).1 ⟨(List.mem_filter.1 hp).2, rfl⟩).symm
    have hnodup : ((prefs.filter matching).map keyOf).Nodup :=
      hunique.sublist (List.filter_sublist.map keyOf)
    rw [← hkeys] at hnodup
    exact hnodup.of_map
  have hentries : ((rows.map fun row => (column row, row.enabled)).map Prod.fst).Nodup := by
    rw [List.map_map]
    exact (hrows.map column).nodup_iff.2 hcolumns
  refine Option.ext fun enabled => ?_
  unfold decision
  rw [dictGet_eq_some_iff hentries, dictGet_eq_some_iff (nodup_entriesOf hunique)]
  constructor
  · intro hmem
    obtain ⟨row, hrow, heq⟩ := List.mem_map.1 hmem
    obtain ⟨hin, hmatch⟩ := List.mem_filter.1 (hrows.mem_iff.1 hrow)
    cases heq
    exact List.mem_map.2 ⟨row, hin, congrArg (·, row.enabled) ((hkey row _).1 ⟨hmatch, rfl⟩)⟩
  · intro hmem
    obtain ⟨row, hin, heq⟩ := List.mem_map.1 hmem
    obtain ⟨hrowkey, rfl⟩ := Prod.mk.inj heq
    obtain ⟨hmatch, rfl⟩ := (hkey row c).2 hrowkey
    exact List.mem_map.2 ⟨row, hrows.mem_iff.2 (List.mem_filter.2 ⟨hin, hmatch⟩), rfl⟩

variable {tenantId userId : Uuid} {type : NotificationType}

/-- A channel is on by its decision, or by default. -/
theorem resolvedFrom_eq (hunique : Unique prefs)
    (hrows : Selects (forType tenantId userId type) prefs rows) :
    resolvedFrom rows type = channels.filter fun channel =>
      (decision prefs ⟨tenantId, userId, type, channel⟩).getD (byDefault type channel) := by
  have hkey : ∀ (p : NotificationPreference) (channel : NotificationChannel),
      (forType tenantId userId type p = true ∧ p.channel = channel) ↔
        keyOf p = ⟨tenantId, userId, type, channel⟩ := by
    intro p channel
    simp [forType, keyOf, and_assoc]
  unfold resolvedFrom
  refine List.filter_congr fun channel _ => ?_
  rw [dictGet_selected hunique hrows hkey]

theorem enabled_getPreferences (hunique : Unique prefs)
    (hrows : Selects (forUser tenantId userId) prefs rows) :
    (getPreferences rows).enabled type = channels.filter fun channel =>
      (decision prefs ⟨tenantId, userId, type, channel⟩).getD (byDefault type channel) := by
  have hkey : ∀ (p : NotificationPreference) (cell : NotificationType × NotificationChannel),
      (forUser tenantId userId p = true ∧ (p.type, p.channel) = cell) ↔
        keyOf p = ⟨tenantId, userId, cell.1, cell.2⟩ := by
    rintro p ⟨type, channel⟩
    simp [forUser, keyOf, and_assoc]
  have hshown : ∀ shown : NotificationChannel → Bool,
      ((channels.map fun channel => (channel, shown channel)).filter (·.2)).map (·.1) =
        channels.filter shown := by
    intro shown
    rw [List.filter_map, List.map_map]
    exact List.map_id _
  have htype : (getPreferences rows).enabled type = channels.filter fun channel =>
      (dictGet (rows.map fun row => ((row.type, row.channel), row.enabled))
        (type, channel)).getD (byDefault type channel) := by
    rw [← hshown]
    cases type with
    | leadAssigned | leadEscalated | appointmentReminder | appointmentConfirmed
    | appointmentCancelled | milestoneDue => exact List.append_nil _
  rw [htype]
  refine List.filter_congr fun channel _ => ?_
  rw [dictGet_selected hunique hrows hkey]

/-- `notify` finds a cell by its first row, of which there is only one. -/
theorem preferenceFor_eq (hunique : Unique prefs) (channel : NotificationChannel) :
    preferenceFor prefs tenantId userId type channel =
      decision prefs ⟨tenantId, userId, type, channel⟩ := by
  have hkey : ∀ p : NotificationPreference, (p.tenantId = tenantId ∧ p.userId = userId ∧
      p.type = type ∧ p.channel = channel) ↔ keyOf p = ⟨tenantId, userId, type, channel⟩ := by
    intro p
    simp [keyOf]
  refine Option.ext fun enabled => ?_
  unfold decision preferenceFor
  rw [dictGet_eq_some_iff (nodup_entriesOf hunique), Option.map_eq_some_iff]
  constructor
  · rintro ⟨p, hfind, rfl⟩
    have hp := List.find?_some hfind
    exact List.mem_map.2 ⟨p, List.mem_of_find?_eq_some hfind,
      congrArg (·, p.enabled) ((hkey p).1 (of_decide_eq_true hp))⟩
  · intro hmem
    obtain ⟨p, hin, heq⟩ := List.mem_map.1 hmem
    obtain ⟨hp, rfl⟩ := Prod.mk.inj heq
    cases hfind : prefs.find? fun p => p.tenantId = tenantId ∧ p.userId = userId ∧
        p.type = type ∧ p.channel = channel with
    | none =>
      -- A row of that key is in the table, so the query finds one.
      exact absurd (decide_eq_true ((hkey p).2 hp)) (List.find?_eq_none.1 hfind p hin)
    | some found =>
      have hfound := List.find?_some hfind
      replace hfound := (hkey found).1 (of_decide_eq_true hfound)
      -- It is the same row, by the unique index.
      have hsame := List.inj_on_of_nodup_map hunique (List.mem_of_find?_eq_some hfind) hin
        (hfound.trans hp.symm)
      exact ⟨found, rfl, congrArg NotificationPreference.enabled hsame⟩

/-- **The matrix and the delivery agree**: after any history of updates, repetitions included,
`notify` uses for each type the channels that the matrix shows as enabled. They are those that
were last decided so, and else the defaults of the type. -/
theorem shown_iff_used (tenantId userId : Uuid) (type : NotificationType)
    (history : List Command) {initial : List NotificationPreference} (hunique : Unique initial) :
    ∃ prefs, run history initial = some prefs ∧
      (resolvedChannels prefs tenantId userId type = channels.filter fun channel =>
        (said ⟨tenantId, userId, type, channel⟩ history
          (decision initial ⟨tenantId, userId, type, channel⟩)).getD (byDefault type channel)) ∧
      ∀ typeRows userRows, Selects (forType tenantId userId type) prefs typeRows →
        Selects (forUser tenantId userId) prefs userRows →
          resolvedFrom typeRows type = (getPreferences userRows).enabled type ∧
            resolvedFrom typeRows type = resolvedChannels prefs tenantId userId type := by
  obtain ⟨prefs, hrun, hunique', hsaid⟩ := run_spec history hunique
  have hused : resolvedChannels prefs tenantId userId type = channels.filter fun channel =>
      (decision prefs ⟨tenantId, userId, type, channel⟩).getD (byDefault type channel) := by
    unfold resolvedChannels
    refine List.filter_congr fun channel _ => ?_
    rw [preferenceFor_eq hunique']
    rfl
  refine ⟨prefs, hrun, ?_, fun typeRows userRows htype huser => ?_⟩
  · rw [hused]
    refine List.filter_congr fun channel _ => ?_
    rw [hsaid]
  · rw [resolvedFrom_eq hunique' htype, enabled_getPreferences hunique' huser]
    exact ⟨rfl, hused.symm⟩

end

/-- A user switches e-mail off and on again in one call, and then off; in-app is untouched. -/
def toggled : List Command :=
  [.update 1 7 [⟨.milestoneDue, [⟨.email, false⟩, ⟨.email, true⟩]⟩,
      ⟨.milestoneDue, [⟨.sms, true⟩]⟩],
    .update 1 7 [⟨.milestoneDue, [⟨.email, false⟩]⟩]]

theorem toggled_channels :
    ∃ prefs, run toggled [] = some prefs ∧
      resolvedChannels prefs 1 7 .milestoneDue = [.inApp, .sms] ∧
      (getPreferences (prefs.filter (forUser 1 7))).enabled .milestoneDue = [.inApp, .sms] := by
  obtain ⟨prefs, hrun, hused, hagree⟩ :=
    @shown_iff_used 1 7 .milestoneDue toggled [] List.nodup_nil
  obtain ⟨hshown, hsame⟩ := hagree _ _ (List.Perm.refl _) (List.Perm.refl _)
  exact ⟨prefs, hrun, hused, hshown.symm.trans (hsame.trans hused)⟩

end Preferences

end Notifications

end RealEstate
