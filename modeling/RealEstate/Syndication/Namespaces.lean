import RealEstate.Core.Json
import RealEstate.Systems.Transactions
import RealEstate.Systems.Upsert

/-!
# Settings namespaces

`get_settings_key` and `replace_settings_key` of `modules/tenants/service.py`, and
`replace_settings` of `modules/syndication/service.py`, as transactions over the
`settings` column of `tenants`.

- `step`: the column is read without a lock, merged in memory and flushed as a whole; a
  merge that changes nothing is not flushed. Between the two reads of `replace_settings`
  the row may have left the session, and is then read again.
- `Independent`: each namespace holds its last committed value, and each omitted `api_key`
  is the last committed one.
- `Fresh`: the other namespaces, and the keys that are carried forward, are still those
  read when the column is flushed. `independent`: runs of such steps.
- `namespace_restored`: two transactions read before either flushes.
-/

namespace RealEstate

namespace Syndication

open RealEstate.Core Systems

/-- `SETTINGS_KEY`. -/
def settingsKey : String := "syndication"

/-- `PortalConfigIn`. -/
structure PortalConfigIn where
  enabled : Bool := false
  baseUrl : Option String := none
  apiKey : Option String := none
  deriving DecidableEq

/-- `model_dump(exclude_none=True)`. -/
def PortalConfigIn.dump (cfg : PortalConfigIn) : JsonObject :=
  List.flatten
    [[("enabled", .bool cfg.enabled)], (cfg.baseUrl.map fun s => ("base_url", .str s)).toList,
      (cfg.apiKey.map fun s => ("api_key", .str s)).toList]

/-- `SyndicationSettingsIn.portals`. -/
abbrev Portals := List (String × PortalConfigIn)

namespace Namespaces

/-- `isinstance(value, dict)`, else an empty one. -/
def asDict : Json → JsonObject
  | .obj fields => fields
  | _ => []

/-- `get_settings_key`. -/
def getSettingsKey (settings : JsonObject) (key : String) : JsonObject := asDict (settings.get key)

/-- The `api_key` of a portal, if there is one to carry forward. -/
def storedKey (ns : JsonObject) (portal : String) : Option Json :=
  some (JsonObject.get (asDict (JsonObject.get ns portal)) "api_key") |>.filter Json.truthy

/-- One portal of the new namespace. -/
def portalConfig (current : JsonObject) (portal : String) (cfg : PortalConfigIn) : JsonObject :=
  if cfg.apiKey.isNone then
    match storedKey current portal with
    | some existingKey => JsonObject.set "api_key" existingKey cfg.dump
    | none => cfg.dump
  else cfg.dump

/-- The namespace `replace_settings` stores. -/
def portalNamespace (current : JsonObject) (portals : Portals) : JsonObject :=
  portals.map fun (portal, cfg) => (portal, .obj (portalConfig current portal cfg))

/-! ### Transactions -/

/-- A request on a tenant's settings. -/
inductive Op where
  | replaceSettingsKey (key : String) (value : JsonObject)
  | replaceSettings (portals : Portals)

/-- What has been committed: a tenant with its first settings, or a new value of a namespace,
with the portals it was made from. -/
inductive Event where
  | created (tenantId : Uuid) (settings : JsonObject)
  | replaced (tenantId : Uuid) (key : String) (value : Json) (portals : Option Portals)

/-- Where a transaction stands. `replaced` keeps what it read last, and whether the flush
wrote. -/
inductive Phase where
  | reading (op : Op)
  | merging (portals : Portals) (current settings : JsonObject)
  | writing (key : String) (value : Json) (portals : Option Portals) (settings : JsonObject)
  | done (key : String) (value : Json) (portals : Option Portals) (wrote : Bool)

/-- A request under way. -/
structure Txn where
  tenantId : Uuid
  phase : Phase

/-- The tenants' settings, the log of what was committed, and the requests. -/
structure State where
  table : Table Uuid JsonObject Nat
  log : List Event
  txns : Nat → Option Txn

/-- A step of a request. -/
inductive Label where
  | create (id : Uuid) (settings : JsonObject)
  | start (t : Nat) (tenantId : Uuid) (op : Op)
  | read (t : Nat)
  /-- The second read of `replace_settings`; `again` if the row has left the session. -/
  | reread (t : Nat) (again : Bool)
  | flush (t : Nat)
  | commit (t : Nat)
  | rollback (t : Nat)

/-- Transaction `t` goes on. -/
def State.goes (s : State) (t : Nat) (table : Table Uuid JsonObject Nat) (txn : Txn) : State :=
  { s with table, txns := Function.update s.txns t (some txn) }

/-- The first `SELECT`. -/
def Op.read (settings : JsonObject) : Op → Phase
  | .replaceSettingsKey key value => .writing key (.obj value) none settings
  | .replaceSettings portals => .merging portals (getSettingsKey settings settingsKey) settings

/-- The flush of `settings = {**settings, key: value}`. -/
def State.flush (s : State) (t : Nat) (tenantId : Uuid) (key : String) (value : Json)
    (portals : Option Portals) (settings : JsonObject) : Option State :=
  -- the attribute has its old value: no `UPDATE`
  if JsonObject.set key value settings = settings then
    some (s.goes t s.table ⟨tenantId, .done key value portals false⟩)
  else
    (s.table.write t tenantId (some (JsonObject.set key value settings))).map fun table =>
      s.goes t table ⟨tenantId, .done key value portals true⟩

/-- One statement of a transaction, or its end. -/
def step (s : State) : Label → Option State
  | .create id settings =>
    (s.table.publish id settings).map fun table =>
      { s with table, log := s.log ++ [.created id settings] }
  | .start t tenantId op =>
    if (s.txns t).isSome then none else some (s.goes t s.table ⟨tenantId, .reading op⟩)
  | .read t =>
    match s.txns t with
    | some ⟨tenantId, .reading op⟩ =>
      (s.table.visible t tenantId).map fun settings =>
        s.goes t s.table ⟨tenantId, op.read settings⟩
    | _ => none
  | .reread t again =>
    match s.txns t with
    | some ⟨tenantId, .merging portals current settings⟩ =>
      -- a row that is still in the session is not read again
      (if again then s.table.visible t tenantId else some settings).map fun settings =>
        s.goes t s.table ⟨tenantId,
          .writing settingsKey (.obj (portalNamespace current portals)) (some portals) settings⟩
    | _ => none
  | .flush t =>
    match s.txns t with
    | some ⟨tenantId, .writing key value portals settings⟩ =>
      s.flush t tenantId key value portals settings
    | _ => none
  | .commit t =>
    match s.txns t with
    | some ⟨tenantId, .done key value portals _⟩ =>
      some ⟨s.table.commit t, s.log ++ [.replaced tenantId key value portals],
        Function.update s.txns t none⟩
    | _ => none
  | .rollback t =>
    match s.txns t with
    | some _ => some ⟨s.table.rollback t, s.log, Function.update s.txns t none⟩
    | none => none

/-- From no tenants on. -/
def machine : Machine State Label where
  init s := s = ⟨.empty, [], fun _ => none⟩
  step := step

/-! ### Last committed values -/

/-- The value of a namespace after one more commit. -/
def Event.apply (tenantId : Uuid) (key : String) (value : Option Json) : Event → Option Json
  | .created id settings => if id = tenantId then settings.lookup key else value
  | .replaced id key' value' _ => if id = tenantId ∧ key' = key then some value' else value

/-- The value of a namespace that was committed last. -/
def lastCommitted (log : List Event) (tenantId : Uuid) (key : String) : Option Json :=
  log.foldl (Event.apply tenantId key) none

/-- The portals of a committed namespace. -/
def portalsOf (value : Option Json) : JsonObject := asDict (value.getD .null)

/-- Where the request omitted the `api_key` of a portal, the new value has the one of `current`. -/
def Carries (portals : Option Portals) (value : Json) (current : JsonObject) : Prop :=
  ∀ ps ∈ portals, ∀ p ∈ ps, p.2.apiKey = none → ps.lookup p.1 = some p.2 →
    storedKey (asDict value) p.1 = storedKey current p.1

/-- The namespaces of a tenant do not disturb each other. -/
structure Independent (s : State) : Prop where
  namespaces : ∀ tenantId settings, s.table.rows tenantId = some settings →
    ∀ key, settings.lookup key = lastCommitted s.log tenantId key
  carried : ∀ before after tenantId key value portals,
    s.log = before ++ .replaced tenantId key value portals :: after →
      Carries portals value (portalsOf (lastCommitted before tenantId settingsKey))

/-- Over the portals. -/
instance (portals : Option Portals) (value : Json) (current : JsonObject) :
    Decidable (Carries portals value current) :=
  inferInstanceAs (Decidable (∀ ps ∈ portals, ∀ p ∈ ps, _))

/-- Two readings of the column agree outside one namespace. -/
def AgreeExcept (key : String) (settings settings' : JsonObject) : Prop :=
  ∀ field ∈ settings ++ settings', field.1 ≠ key →
    settings.lookup field.1 = settings'.lookup field.1

/-- Over the fields. -/
instance (key : String) (settings settings' : JsonObject) :
    Decidable (AgreeExcept key settings settings') :=
  inferInstanceAs (Decidable (∀ field ∈ _, _))

/-- When the column is flushed, the other namespaces are as they were read, and the omitted
`api_key`s are as they are carried. A replacement that changed nothing commits while the
namespace still has its value. -/
def Fresh (s : State) : Label → Prop
  | .flush t =>
    match s.txns t with
    | some ⟨tenantId, .writing key value portals settings⟩ =>
      JsonObject.set key value settings = settings ∨
        ∀ committed ∈ s.table.rows tenantId, AgreeExcept key committed settings ∧
          Carries portals value (portalsOf (committed.lookup settingsKey))
    | _ => True
  | .commit t =>
    match s.txns t with
    | some ⟨tenantId, .done key value _ false⟩ =>
      ∀ committed ∈ s.table.rows tenantId, committed.lookup key = some value
    | _ => True
  | _ => True

/-- By cases of the label. -/
instance (s : State) (l : Label) : Decidable (Fresh s l) := by
  unfold Fresh
  split
  · split <;> infer_instance
  · split <;> infer_instance
  · infer_instance

/-! ### The invariant -/

/-- What a transaction has written: nothing, or the namespace it replaces. -/
structure Wrote (table : Table Uuid JsonObject Nat) (t : Nat) (tenantId : Uuid) (key : String)
    (value : Json) (portals : Option Portals) : Prop where
  row : ∃ old new, table.rows tenantId = some old ∧ table.dirty t tenantId = some (some new) ∧
    new.lookup key = some value ∧ (∀ k, k ≠ key → new.lookup k = old.lookup k) ∧
    Carries portals value (portalsOf (old.lookup settingsKey))
  rest : ∀ j, j ≠ tenantId → table.dirty t j = none

/-- The transaction has found the row of its tenant. -/
def Phase.hasRead : Phase → Bool
  | .reading _ => false
  | _ => true

/-- What a request has read and written is what was committed last. -/
def TxnInv (table : Table Uuid JsonObject Nat) (t : Nat) (txn : Txn) : Prop :=
  match txn.phase with
  | .reading _ | .merging _ _ _ => ∀ k, table.dirty t k = none
  | .writing key _ portals _ =>
    (∀ k, table.dirty t k = none) ∧ (portals ≠ none → key = settingsKey)
  | .done key value portals wrote =>
    (if wrote then Wrote table t txn.tenantId key value portals
      else ∀ k, table.dirty t k = none) ∧ (portals ≠ none → key = settingsKey)

/-- The invariant. -/
structure Inv (s : State) : Prop where
  idle : ∀ t, s.txns t = none → ∀ k, s.table.lock k ≠ some t
  known : ∀ k ∈ s.table.keys, ∃ settings, s.table.rows k = some settings
  txn : ∀ t txn, s.txns t = some txn → TxnInv s.table t txn
  found : ∀ t txn, s.txns t = some txn → txn.phase.hasRead = true → txn.tenantId ∈ s.table.keys
  independent : Independent s

section Steps

variable {s s' : State} {table table' : Table Uuid JsonObject Nat} {t u : Nat} {txn : Txn}
  {tenantId : Uuid} {key : String} {value : Json} {portals : Option Portals}
  {settings settings' : JsonObject}

theorem AgreeExcept.lookup (h : AgreeExcept key settings settings') {k : String} (hk : k ≠ key) :
    settings.lookup k = settings'.lookup k := by
  by_cases hmem : ∃ field ∈ settings ++ settings', field.1 = k
  · obtain ⟨field, hfield, rfl⟩ := hmem
    exact h field hfield hk
  · -- neither has the key
    have hnone : ∀ o : JsonObject, (∀ field ∈ o, field ∈ settings ++ settings') →
        o.lookup k = none := by
      intro o ho
      refine List.lookup_eq_none_iff.2 fun field hfield => bne_iff_ne.2 ?_
      rintro rfl
      exact hmem ⟨field, ho field hfield, rfl⟩
    rw [hnone settings fun _ => List.mem_append_left _,
      hnone settings' fun _ => List.mem_append_right _]

/-- The log, and one commit more. -/
theorem lastCommitted_append (log : List Event) (e : Event) :
    lastCommitted (log ++ [e]) tenantId key =
      e.apply tenantId key (lastCommitted log tenantId key) := by
  rw [lastCommitted, List.foldl_append]
  rfl

/-- A namespace that was replaced by what it holds carries its own keys. -/
theorem carries_self (portals : Option Portals) (value : Json) :
    Carries portals value (portalsOf (some value)) :=
  fun _ _ _ _ _ _ => rfl

/-- An event of a longer log is the last one, or was there before. -/
theorem mem_log {log before after : List Event} {e e' : Event}
    (h : log ++ [e] = before ++ e' :: after) :
    (before = log ∧ e' = e) ∨ ∃ after', log = before ++ e' :: after' := by
  rcases List.eq_nil_or_concat after with rfl | ⟨after', last, rfl⟩
  · obtain ⟨hlog, he⟩ := List.append_inj' h rfl
    cases he
    exact .inl ⟨hlog.symm, rfl⟩
  · have h : log ++ [e] = (before ++ e' :: after') ++ [last] := by simpa using h
    exact .inr ⟨after', (List.append_inj' h rfl).1⟩

/-! ### One lemma for each kind of step -/

/-- A row that nobody else has written. -/
theorem Wrote.of_same (h : Wrote table t tenantId key value portals)
    (hsame : Table.SameFor t table table') : Wrote table' t tenantId key value portals := by
  obtain ⟨⟨old, new, hrow, hdirty, hnew⟩, hrest⟩ := h
  exact ⟨⟨old, new, (hsame.rows _ (table.dirty_lock hdirty)).trans hrow,
    (hsame.dirty _).trans hdirty, hnew⟩, fun j hj => (hsame.dirty j).trans (hrest j hj)⟩

/-- A transaction does not notice what the others do. -/
theorem TxnInv.of_same (h : TxnInv table t txn) (hsame : Table.SameFor t table table') :
    TxnInv table' t txn := by
  have hclean : (∀ k, table.dirty t k = none) → ∀ k, table'.dirty t k = none :=
    fun hclean k => (hsame.dirty k).trans (hclean k)
  unfold TxnInv at h ⊢
  split at h
  · exact hclean h
  · exact hclean h
  · exact ⟨hclean h.1, h.2⟩
  · next wrote _ =>
    refine ⟨?_, h.2⟩
    cases wrote with
    | true => exact Wrote.of_same h.1 hsame
    | false => exact hclean h.1

theorem Inv.empty : Inv ⟨.empty, [], fun _ => none⟩ where
  idle _ _ _ := nofun
  known _ h := nomatch h
  txn _ _ h := nomatch h
  found _ _ h := nomatch h
  independent :=
    { namespaces := fun _ _ h => nomatch h
      carried := fun before after _ _ _ _ h => by
        have hlength := congrArg List.length h
        simp at hlength }

/-- A request goes on without a write. -/
theorem Inv.goes (h : Inv s) (hrows : table.rows = s.table.rows) (hkeys : table.keys = s.table.keys)
    (hother : ∀ u, u ≠ t → Table.SameFor u s.table table) (htxn : TxnInv table t txn)
    (hfound : txn.phase.hasRead = true → txn.tenantId ∈ s.table.keys) :
    Inv (s.goes t table txn) where
  idle := Table.Idle.goes h.idle hother
  known k hk := by
    obtain ⟨settings, hrow⟩ := h.known k (hkeys ▸ hk)
    exact ⟨settings, hrows ▸ hrow⟩
  txn := Machine.each_goes h.txn (fun u _ hne hu => hu.of_same (hother u hne)) htxn
  found u txn' hu hread := by
    rw [← hkeys] at hfound
    rcases Machine.update_cases hu with ⟨rfl, heq⟩ | ⟨hne, hu⟩
    · cases heq
      exact hfound hread
    · exact hkeys ▸ h.found u txn' hu hread
  independent := ⟨hrows ▸ h.independent.namespaces, h.independent.carried⟩

theorem Inv.create (h : Inv s) {id : Uuid} (hpublish : s.table.publish id settings = some table) :
    Inv { s with table, log := s.log ++ [.created id settings] } := by
  obtain ⟨hid, rfl⟩ := Table.publish_eq_some.1 hpublish
  constructor
  case idle => exact h.idle
  case known =>
    intro k hk
    by_cases hkid : k = id
    · exact ⟨settings, by rw [hkid]; exact Function.update_self ..⟩
    · obtain ⟨old, hrow⟩ := h.known k ((List.mem_cons.1 hk).resolve_left hkid)
      exact ⟨old, (Function.update_of_ne hkid ..).trans hrow⟩
  case txn =>
    intro u txn hu
    exact (h.txn u txn hu).of_same (Table.published_sameFor u hid)
  case found =>
    intro u txn hu hread
    exact List.mem_cons_of_mem _ (h.found u txn hu hread)
  case independent =>
    constructor
    · -- A new tenant has its settings as committed.
      intro tenantId new hrow key
      rw [lastCommitted_append, Event.apply]
      rcases Machine.update_cases hrow with ⟨rfl, heq⟩ | ⟨hne, hrow⟩
      · cases heq
        rw [if_pos rfl]
      · rw [if_neg (Ne.symm hne)]
        exact h.independent.namespaces tenantId new hrow key
    · intro before after tenantId key value portals hlog
      -- The creation is no change of a namespace, so the carried changes are older.
      rcases mem_log hlog with ⟨-, he⟩ | ⟨after', hlog⟩
      · cases he
      · exact h.independent.carried before after' tenantId key value portals hlog

/-- **The row is written**, with the settings as they were read. -/
theorem Inv.flush (h : Inv s)
    (ht : s.txns t = some ⟨tenantId, .writing key value portals settings⟩)
    (hfresh : Fresh s (.flush t))
    (hst : s.flush t tenantId key value portals settings = some s') : Inv s' := by
  obtain ⟨hclean, hportals⟩ := h.txn t _ ht
  have hkey := h.found t _ ht rfl
  simp only [Fresh, ht] at hfresh
  rw [State.flush] at hst
  split at hst
  · cases hst
    exact h.goes rfl rfl (fun u _ => Table.SameFor.refl u _) ⟨hclean, hportals⟩ fun _ => hkey
  · next hchanged =>
    obtain ⟨table, hwrite, rfl⟩ := Option.map_eq_some_iff.1 hst
    have hwrote := Table.wrote_of_write hwrite
    have hkeys : table.keys = s.table.keys := by
      obtain ⟨-, rfl⟩ := Table.write_eq_some.1 hwrite
      rfl
    obtain ⟨old, hrow⟩ := h.known tenantId hkey
    -- The guard: the settings read are still the row's, in every other namespace.
    obtain ⟨hagree, hcarries⟩ := hfresh.resolve_left hchanged old hrow
    have hnew : ∀ k, k ≠ key → (JsonObject.set key value settings).lookup k = old.lookup k := by
      intro k hk
      rw [JsonObject.lookup_set_of_ne hk, hagree.lookup hk]
    refine h.goes hwrote.rows hkeys hwrote.other ⟨?_, hportals⟩ fun _ => hkey
    exact {
      row := ⟨old, _, (congrFun hwrote.rows tenantId).trans hrow, hwrote.self,
        JsonObject.lookup_set_self .., hnew, hcarries⟩
      rest := fun j hj => (hwrote.rest j hj).trans (hclean j) }

/-- What a commit makes of the row of its tenant. -/
theorem Inv.committed (h : Inv s) {wrote : Bool}
    (ht : s.txns t = some ⟨tenantId, .done key value portals wrote⟩)
    (hfresh : Fresh s (.commit t)) {new : JsonObject}
    (hnew : s.table.visible t tenantId = some new) :
    new.lookup key = some value ∧
      ∀ k, k ≠ key → new.lookup k = lastCommitted s.log tenantId k := by
  obtain ⟨htxn, -⟩ := h.txn t _ ht
  cases wrote with
  | true =>
    obtain ⟨⟨old, new', hrow, hdirty, hkey, hother, -⟩, -⟩ := htxn
    obtain rfl := Option.some.inj (hnew.symm.trans (Table.visible_of_dirty hdirty))
    refine ⟨hkey, fun k hk => ?_⟩
    rw [hother k hk]
    exact h.independent.namespaces tenantId old hrow k
  | false =>
    simp only [Fresh, ht] at hfresh
    rw [Table.visible_of_clean (htxn tenantId)] at hnew
    exact ⟨hfresh new hnew, fun k _ => h.independent.namespaces tenantId new hnew k⟩

/-- What a commit has carried forward. -/
theorem Inv.carries (h : Inv s) {wrote : Bool}
    (ht : s.txns t = some ⟨tenantId, .done key value portals wrote⟩)
    (hfresh : Fresh s (.commit t)) :
    Carries portals value (portalsOf (lastCommitted s.log tenantId settingsKey)) := by
  obtain ⟨htxn, hportals⟩ := h.txn t _ ht
  cases wrote with
  | true =>
    obtain ⟨⟨old, new, hrow, -, -, -, hcarries⟩, -⟩ := htxn
    rw [← h.independent.namespaces tenantId old hrow]
    exact hcarries
  | false =>
    simp only [Fresh, ht] at hfresh
    obtain ⟨old, hrow⟩ := h.known tenantId (h.found t _ ht rfl)
    intro ps hps
    obtain rfl : key = settingsKey := hportals fun hnone => by rw [hnone] at hps; cases hps
    rw [← h.independent.namespaces tenantId old hrow, hfresh old hrow]
    exact carries_self portals value ps hps

/-- A transaction writes no row but its tenant's. -/
theorem Inv.rest (h : Inv s) {wrote : Bool}
    (ht : s.txns t = some ⟨tenantId, .done key value portals wrote⟩) {j : Uuid}
    (hj : j ≠ tenantId) : s.table.dirty t j = none := by
  obtain ⟨htxn, -⟩ := h.txn t _ ht
  cases wrote with
  | true => exact htxn.rest j hj
  | false => exact htxn j

/-- A commit deletes no tenant. -/
theorem Inv.known_commit (h : Inv s) {wrote : Bool}
    (ht : s.txns t = some ⟨tenantId, .done key value portals wrote⟩) {k : Uuid}
    (hk : k ∈ s.table.keys) : ∃ settings, s.table.visible t k = some settings := by
  obtain ⟨old, hrow⟩ := h.known k hk
  by_cases hid : k = tenantId
  · subst hid
    obtain ⟨htxn, -⟩ := h.txn t _ ht
    cases wrote with
    | true =>
      obtain ⟨⟨-, new, -, hdirty, -⟩, -⟩ := htxn
      exact ⟨new, Table.visible_of_dirty hdirty⟩
    | false => exact ⟨old, (Table.visible_of_clean (htxn k)).trans hrow⟩
  · exact ⟨old, (Table.visible_of_clean (h.rest ht hid)).trans hrow⟩

theorem Inv.commit (h : Inv s) {wrote : Bool}
    (ht : s.txns t = some ⟨tenantId, .done key value portals wrote⟩)
    (hfresh : Fresh s (.commit t)) :
    Inv ⟨s.table.commit t, s.log ++ [.replaced tenantId key value portals],
      Function.update s.txns t none⟩ := by
  constructor
  case idle => exact Table.Idle.commit h.idle
  case known => exact fun k hk => h.known_commit ht hk
  case txn =>
    exact Machine.each_ends h.txn fun _ _ hne hu => hu.of_same (Table.commit_sameFor hne)
  case found => exact Machine.each_ends h.found fun _ _ _ hu => hu
  case independent =>
    constructor
    · intro tenantId' new hnew k
      rw [lastCommitted_append, Event.apply]
      by_cases hid : tenantId = tenantId'
      · subst hid
        obtain ⟨hkey, hother⟩ := h.committed ht hfresh hnew
        -- The key of this change is as written, every other as it was read.
        by_cases hk : key = k
        · rw [if_pos ⟨rfl, hk⟩, ← hk, hkey]
        · rw [if_neg fun hcond => hk hcond.2]
          exact hother k (Ne.symm hk)
      · -- another tenant's column is as it was
        rw [if_neg fun hcond => hid hcond.1]
        have hrow : s.table.rows tenantId' = some new :=
          (Table.visible_of_clean (h.rest ht (Ne.symm hid))).symm.trans hnew
        exact h.independent.namespaces tenantId' new hrow k
    · intro before after tenantId' key' value' portals' hlog
      -- The change just committed is carried by the row of this very commit.
      rcases mem_log hlog with ⟨rfl, he⟩ | ⟨after', hlog⟩
      · cases he
        exact h.carries ht hfresh
      · exact h.independent.carried before after' tenantId' key' value' portals' hlog

theorem Inv.rollback (h : Inv s) (t : Nat) :
    Inv ⟨s.table.rollback t, s.log, Function.update s.txns t none⟩ where
  idle := Table.Idle.rollback h.idle
  known := h.known
  txn := Machine.each_ends h.txn fun _ _ hne hu => hu.of_same (Table.rollback_sameFor hne)
  found := Machine.each_ends h.found fun _ _ _ hu => hu
  independent := ⟨h.independent.namespaces, h.independent.carried⟩

/-- One fresh step keeps the invariant. -/
theorem inv_step {l : Label} (h : Inv s) (hfresh : Fresh s l) (hst : step s l = some s') :
    Inv s' := by
  have hgoes : ∀ {t txn}, TxnInv s.table t txn →
      (txn.phase.hasRead = true → txn.tenantId ∈ s.table.keys) → Inv (s.goes t s.table txn) :=
    fun htxn hfound => h.goes rfl rfl (fun u _ => Table.SameFor.refl u _) htxn hfound
  cases l with
  | create id settings =>
    obtain ⟨table, hpublish, rfl⟩ := Option.map_eq_some_iff.1 hst
    exact h.create hpublish
  | start t tenantId op =>
    obtain ⟨ht, hst⟩ := Option.ite_none_left_eq_some.1 hst
    cases hst
    exact hgoes (Table.Idle.clean h.idle _ (Option.not_isSome_iff_eq_none.1 ht)) nofun
  | read t =>
    dsimp only [step] at hst
    split at hst
    · next tenantId op ht =>
      obtain ⟨settings, hvisible, rfl⟩ := Option.map_eq_some_iff.1 hst
      have hclean : ∀ k, s.table.dirty t k = none := h.txn t _ ht
      refine hgoes ?_ fun _ => Table.visible_keys hvisible
      cases op with
      | replaceSettingsKey key value => exact ⟨hclean, fun hne => absurd rfl hne⟩
      | replaceSettings portals => exact hclean
    · cases hst
  | reread t again =>
    dsimp only [step] at hst
    split at hst
    · next tenantId portals current settings ht =>
      obtain ⟨settings', -, rfl⟩ := Option.map_eq_some_iff.1 hst
      have hclean : ∀ k, s.table.dirty t k = none := h.txn t _ ht
      have hfound := h.found t _ ht rfl
      -- Reading once more replaces what was read before.
      exact hgoes ⟨hclean, fun _ => rfl⟩ fun _ => hfound
    · cases hst
  | flush t =>
    dsimp only [step] at hst
    split at hst
    · next ht => exact h.flush ht hfresh hst
    · cases hst
  | commit t =>
    dsimp only [step] at hst
    split at hst
    · next ht =>
      cases hst
      exact h.commit ht hfresh
    · cases hst
  | rollback t =>
    dsimp only [step] at hst
    split at hst
    · cases hst
      exact h.rollback t
    · cases hst

end Steps

theorem inv_inductive : machine.Inductive Fresh Inv where
  init s hs := by
    cases hs
    exact .empty
  step s l t h hfresh hst := inv_step h hfresh hst

/-- **Namespaces are independent** in runs that flush no stale reading. -/
theorem independent {s : State} (h : machine.ReachVia Fresh s) : Independent s :=
  (inv_inductive.always h).independent

/-! ### Two transactions read before either flushes -/

/-- The portal settings are replaced while another namespace is. -/
def overlapping : List Label :=
  [.create 7 [("syndication", .obj [("mock", .obj [("api_key", .str "old")])])],
    .start 1 7 (.replaceSettingsKey "appointments" [("slot_minutes", .num 30)]), .read 1,
    .start 2 7 (.replaceSettings [("mock", { enabled := true, apiKey := some "new" })]), .read 2,
    .reread 2 false, .flush 2, .commit 2, .flush 1, .commit 1]

/-- **A committed namespace is restored** to what another transaction had read. -/
theorem namespace_restored : ¬ ∀ s, machine.Reachable s → Independent s := by
  intro h
  obtain ⟨s, hs, hp⟩ := Machine.exists_reachable_of_run (M := machine) overlapping
    (fun s => (s.table.rows 7).any fun settings =>
      settings.lookup settingsKey ≠ lastCommitted s.log 7 settingsKey) rfl (by decide)
  obtain ⟨settings, hrow, hne⟩ := (Option.any_eq_true _ _).1 hp
  exact of_decide_eq_true hne ((h s hs).namespaces 7 settings hrow settingsKey)

/-- One after the other, and the key is carried forward. -/
theorem independent_sequential :
    ∃ s, machine.ReachVia Fresh s ∧
      (s.table.rows 7).any (fun settings =>
        storedKey (getSettingsKey settings settingsKey) "mock" = some (.str "old") &&
          (settings.lookup "appointments").isSome) = true ∧ Independent s := by
  obtain ⟨s, hs, hp⟩ := Machine.exists_reachVia_of_run (M := machine) (G := Fresh)
    [.create 7 [("syndication", .obj [("mock", .obj [("api_key", .str "old")])])],
      .start 1 7 (.replaceSettingsKey "appointments" [("slot_minutes", .num 30)]), .read 1,
      .flush 1, .commit 1, .start 2 7 (.replaceSettings [("mock", { enabled := true })]), .read 2,
      .reread 2 true, .flush 2, .commit 2]
    (fun s => (s.table.rows 7).any fun settings =>
      storedKey (getSettingsKey settings settingsKey) "mock" = some (.str "old") &&
        (settings.lookup "appointments").isSome) rfl (by decide)
  exact ⟨s, hs, hp, independent hs⟩

end Namespaces

end Syndication

end RealEstate
