import RealEstate.Media.Service
import RealEstate.Systems.Machine
import RealEstate.Systems.Totals

/-!
# The storage a tenant is charged for

Registrations, confirmations, worker runs and deletions, one after the other, with the
`storage_bytes` counters they move.

- `storage`: the machine. A `process_media` run is two steps, its snapshot and its mark.
- `AsDeclared`: the guard: an object a worker accepts is as long as was declared for it.
- `storage_balanced`: then every counter is the sum of the sizes of the tenant's media, and a
  deletion gives back what the registration reserved.
- `undeclared_size`: a worker that finds a shorter object leaves bytes counted for good.
-/

namespace RealEstate

namespace Media

open RealEstate.Core Listings Tenants Systems Function

/-- The bytes of a row, if it is the tenant's. -/
def ListingMedia.charge (tenantId : Uuid) (m : ListingMedia) : Int :=
  if m.tenantId = tenantId then m.freed else 0

/-- The media and the counters of the tenants. -/
structure State where
  media : Rows Uuid ListingMedia
  /-- The rows of `tenant_usage`; a tenant without one has zeros. -/
  usage : Uuid → TenantUsage
  /-- The media whose worker took a snapshot and has not finished. -/
  running : List Uuid
  /-- What was reserved for each media row when it was registered. -/
  reserved : Uuid → Int

/-- A request or a step of the worker. -/
inductive Label where
  /-- `visible` is whether the actor may see the listing, `photoQuota` the tenant's. -/
  | requestUpload (tenant : TenantContext) (listingId mediaId : Uuid) (visible : Bool)
      (photoQuota : Int) (data : MediaUploadRequest)
  | createEmbed (tenantId listingId mediaId : Uuid) (visible : Bool) (data : MediaEmbedCreate)
  | confirmUpload (tenantId mediaId : Uuid) (visible : Bool)
  | delete (tenantId mediaId : Uuid) (visible : Bool)
  | snapshot (mediaId : Uuid)
  | markReady (mediaId : Uuid) (processed : Processed)
  | markFailed (mediaId : Uuid) (reason : String)

namespace State

/-- No media. -/
def start : State := ⟨.empty, fun _ => {}, [], fun _ => 0⟩

/-- The media of a listing. -/
def ofListing (s : State) (tenantId listingId : Uuid) : List ListingMedia :=
  (s.media.select fun m => m.tenantId = tenantId ∧ m.listingId = listingId).filterMap s.media.row

/-- `request_upload`. -/
def requestUpload (settings : MediaSettings) (s : State) (tenant : TenantContext)
    (listingId mediaId : Uuid) (visible : Bool) (photoQuota : Int) (data : MediaUploadRequest) :
    Except AppError State := do
  if !visible then throw listingNotFound
  let media := s.ofListing tenant.id listingId
  checkUpload settings photoQuota media data
  let usage ← reserveStorage (s.usage tenant.id) tenant.plan data.sizeBytes
  return { s with
    media := s.media.put mediaId (newUpload tenant.id listingId mediaId media data)
    usage := update s.usage tenant.id usage
    reserved := update s.reserved mediaId data.sizeBytes }

/-- `create_embed`. -/
def createEmbed (s : State) (tenantId listingId mediaId : Uuid) (visible : Bool)
    (data : MediaEmbedCreate) : Except AppError State :=
  if !visible then .error listingNotFound
  else .ok { s with
    media := s.media.put mediaId
      (newEmbed tenantId listingId (s.ofListing tenantId listingId) data)
    reserved := update s.reserved mediaId 0 }

/-- `confirm_upload`. -/
def confirmUpload (s : State) (tenantId mediaId : Uuid) (visible : Bool) :
    Except AppError State := do
  let m ← mediaOr404 tenantId visible (s.media.row mediaId)
  let confirmed ← m.confirm
  return { s with media := s.media.put mediaId confirmed }

/-- `delete`. -/
def delete (s : State) (tenantId mediaId : Uuid) (visible : Bool) : Except AppError State := do
  let m ← mediaOr404 tenantId visible (s.media.row mediaId)
  return { s with
    media := s.media.delete mediaId
    usage := if m.freed ≠ 0 then
        update s.usage tenantId (releaseStorage (s.usage tenantId) m.freed)
      else s.usage }

/-- A mark of the worker, on the row as it loads it. -/
def mark (s : State) (mediaId : Uuid) (f : ListingMedia → ListingMedia) : Option State :=
  if mediaId ∈ s.running then
    some { s with
      media := (s.media.row mediaId).elim s.media fun m => s.media.put mediaId (f m)
      running := s.running.erase mediaId }
  else none

/-- One step. -/
def step (settings : MediaSettings) (s : State) : Label → Option State
  | .requestUpload tenant listingId mediaId visible photoQuota data =>
    if mediaId ∉ s.media.keys then
      (s.requestUpload settings tenant listingId mediaId visible photoQuota data).toOption
    else none
  | .createEmbed tenantId listingId mediaId visible data =>
    if mediaId ∉ s.media.keys then
      (s.createEmbed tenantId listingId mediaId visible data).toOption
    else none
  | .confirmUpload tenantId mediaId visible =>
    (s.confirmUpload tenantId mediaId visible).toOption
  | .delete tenantId mediaId visible => (s.delete tenantId mediaId visible).toOption
  | .snapshot mediaId =>
    -- Deleted, already processed or delivered twice: the run is skipped.
    if (s.media.row mediaId).any (·.status = .processing) then
      some { s with running := mediaId :: s.running }
    else none
  | .markReady mediaId processed => s.mark mediaId (·.markReady processed)
  | .markFailed mediaId reason => s.mark mediaId (·.markFailed reason)

/-- The bytes of the tenant's media. -/
def stored (s : State) (tenantId : Uuid) : Int :=
  total s.media.keys s.media.row (ListingMedia.charge tenantId)

end State

/-- The media of every tenant and the workers that process them. -/
def storage (settings : MediaSettings) : Machine State Label where
  init s := s = .start
  step := State.step settings

/-- The object a worker accepts is as long as its row says. -/
def AsDeclared (s : State) : Label → Prop
  | .markReady mediaId processed =>
    ∀ m ∈ s.media.row mediaId, m.status = .processing → m.freed = processed.size
  | _ => True

/-- By cases of the label. -/
instance (s : State) : ∀ l, Decidable (AsDeclared s l)
  | .markReady _ _ => inferInstanceAs (Decidable (∀ m ∈ _, _))
  | .requestUpload _ _ _ _ _ _ | .createEmbed _ _ _ _ _ | .confirmUpload _ _ _
  | .delete _ _ _ | .snapshot _ | .markFailed _ _ => inferInstanceAs (Decidable True)

/-! ### The balance -/

/-- Counters, rows and reservations agree. -/
structure Balanced (s : State) : Prop where
  counted : ∀ tenantId, (s.usage tenantId).storageBytes = s.stored tenantId
  reserved : ∀ {mediaId m}, s.media.row mediaId = some m → m.freed = s.reserved mediaId
  positive : ∀ {mediaId m}, s.media.row mediaId = some m → 0 ≤ m.freed

theorem Balanced.start : Balanced .start where
  counted _ := (total_eq_zero fun _ => rfl).symm
  reserved h := nomatch h
  positive h := nomatch h

variable {s s' : State}

theorem Balanced.charge_nonneg (h : Balanced s) (tenantId mediaId : Uuid) (m : ListingMedia)
    (hrow : s.media.row mediaId = some m) : 0 ≤ m.charge tenantId := by
  unfold ListingMedia.charge
  split
  · exact h.positive hrow
  · exact le_refl _

/-- A balanced counter is not negative. -/
theorem Balanced.counted_nonneg (h : Balanced s) (tenantId : Uuid) :
    0 ≤ (s.usage tenantId).storageBytes := by
  rw [h.counted]
  exact total_nonneg (h.charge_nonneg tenantId)

/-- A new row, with its size added to the tenant's counter. -/
theorem Balanced.register {mediaId : Uuid} {m : ListingMedia} {usage : Uuid → TenantUsage}
    (h : Balanced s) (hnew : mediaId ∉ s.media.keys) (hsize : 0 ≤ m.freed)
    (husage : ∀ tenantId, (usage tenantId).storageBytes =
      (s.usage tenantId).storageBytes + m.charge tenantId) :
    Balanced { s with
      media := s.media.put mediaId m
      usage
      reserved := update s.reserved mediaId m.freed } where
  counted tenantId := by
    have hnone : s.media.row mediaId = none := by
      cases hrow : s.media.row mediaId with
      | none => rfl
      | some old => exact absurd (s.media.row_keys hrow) hnew
    have hput := Rows.total_put s.media mediaId m (ListingMedia.charge tenantId)
    rw [hnone, Option.elim_none, add_zero] at hput
    exact (husage tenantId).trans ((congrArg (· + _) (h.counted tenantId)).trans hput.symm)
  reserved {otherId other} hrow := by
    rcases Rows.row_put hrow with ⟨rfl, rfl⟩ | ⟨hne, hrow⟩
    · exact (update_self otherId _ s.reserved).symm
    · exact (h.reserved hrow).trans (update_of_ne hne ..).symm
  positive hrow := by
    rcases Rows.row_put hrow with ⟨rfl, rfl⟩ | ⟨-, hrow⟩
    · exact hsize
    · exact h.positive hrow

/-- A row rewritten with the size it had. -/
theorem Balanced.rewrite {mediaId : Uuid} {m m' : ListingMedia} {running : List Uuid}
    (h : Balanced s) (hrow : s.media.row mediaId = some m) (htenant : m'.tenantId = m.tenantId)
    (hsize : m'.freed = m.freed) :
    Balanced { s with media := s.media.put mediaId m', running } where
  counted tenantId := by
    have hput := Rows.total_put s.media mediaId m' (ListingMedia.charge tenantId)
    have hcharge : m'.charge tenantId = m.charge tenantId := by
      unfold ListingMedia.charge
      rw [htenant, hsize]
    rw [hrow, Option.elim_some, hcharge] at hput
    exact (h.counted tenantId).trans (add_right_cancel hput).symm
  reserved hrow' := by
    rcases Rows.row_put hrow' with ⟨rfl, rfl⟩ | ⟨-, hrow'⟩
    · exact hsize.trans (h.reserved hrow)
    · exact h.reserved hrow'
  positive hrow' := by
    rcases Rows.row_put hrow' with ⟨rfl, rfl⟩ | ⟨-, hrow'⟩
    · exact hsize ▸ h.positive hrow
    · exact h.positive hrow'

/-- The release of a row that is counted is not clamped. -/
theorem Balanced.release (h : Balanced s) {mediaId : Uuid} {m : ListingMedia}
    (hrow : s.media.row mediaId = some m) :
    (releaseStorage (s.usage m.tenantId) m.freed).storageBytes =
      (s.usage m.tenantId).storageBytes - m.freed := by
  have hle : m.charge m.tenantId ≤ s.stored m.tenantId :=
    weight_le_total (h.charge_nonneg m.tenantId) (s.media.row_keys hrow) hrow
  have hcharge : m.charge m.tenantId = m.freed := if_pos rfl
  have hcounted := h.counted m.tenantId
  show max ((s.usage m.tenantId).storageBytes + -m.freed) 0 = _
  omega

/-- What `delete` leaves of the counters, whether or not the row had a size. -/
theorem delete_usage {tenantId mediaId : Uuid} {visible : Bool} (h : Balanced s)
    (hdelete : s.delete tenantId mediaId visible = .ok s') :
    ∃ m, s.media.row mediaId = some m ∧ s'.media = s.media.delete mediaId ∧
      s'.reserved = s.reserved ∧ ∀ tid, (s'.usage tid).storageBytes =
        (s.usage tid).storageBytes - m.charge tid := by
  obtain ⟨m, hfound, hdelete⟩ := bind_eq_ok hdelete
  cases hdelete
  obtain ⟨hrow, rfl⟩ := mediaOr404_ok hfound
  refine ⟨m, hrow, rfl, rfl, fun tid => ?_⟩
  show (ite _ (update _ _ _) s.usage tid).storageBytes = _
  unfold ListingMedia.charge
  by_cases htid : tid = m.tenantId
  · subst htid
    rw [if_pos rfl]
    -- `delete` calls `release_storage` only if there is something to release.
    split
    · rw [update_self]
      exact h.release hrow
    · next hnone =>
      have hzero : m.freed = 0 := not_not.mp hnone
      omega
  · rw [if_neg (Ne.symm htid)]
    split
    · rw [update_of_ne htid]
      omega
    · omega

/-- A deletion releases what was charged. -/
theorem Balanced.delete {tenantId mediaId : Uuid} {visible : Bool} (h : Balanced s)
    (hdelete : s.delete tenantId mediaId visible = .ok s') : Balanced s' := by
  obtain ⟨m, hrow, hmedia, hreserved, husage⟩ := delete_usage h hdelete
  constructor
  · intro tid
    have htotal := Rows.total_delete s.media mediaId (ListingMedia.charge tid)
    rw [hrow, Option.elim_some, ← hmedia] at htotal
    have hcounted := h.counted tid
    rw [husage tid]
    unfold State.stored at hcounted ⊢
    omega
  · intro otherId other hother
    rw [hmedia] at hother
    rw [hreserved]
    exact h.reserved (Rows.row_delete hother).2
  · intro otherId other hother
    rw [hmedia] at hother
    exact h.positive (Rows.row_delete hother).2

/-- An upload is charged as declared. -/
theorem Balanced.requestUpload {settings : MediaSettings} {tenant : TenantContext}
    {listingId mediaId : Uuid} {visible : Bool} {photoQuota : Int} {data : MediaUploadRequest}
    (h : Balanced s) (hnew : mediaId ∉ s.media.keys)
    (hrequest : s.requestUpload settings tenant listingId mediaId visible photoQuota data =
      .ok s') : Balanced s' := by
  unfold State.requestUpload at hrequest
  dsimp only at hrequest
  split at hrequest
  · cases hrequest
  · obtain ⟨-, -, hrequest⟩ := bind_eq_ok hrequest
    obtain ⟨usage, husage, hrequest⟩ := bind_eq_ok hrequest
    cases hrequest
    obtain rfl := reserveStorage_ok husage
    -- The new row counts with the size declared, and that is what was reserved.
    refine h.register hnew (le_of_lt data.size_pos) fun tid => ?_
    have hnonneg := h.counted_nonneg tenant.id
    have hpos := data.size_pos
    by_cases htid : tid = tenant.id
    · subst htid
      rw [update_self]
      show max ((s.usage tenant.id).storageBytes + data.sizeBytes) 0 =
        (s.usage tenant.id).storageBytes + if tenant.id = tenant.id then data.sizeBytes else 0
      rw [if_pos rfl]
      -- The balance was not negative, so `GREATEST` changes nothing.
      omega
    · rw [update_of_ne htid]
      show _ = _ + if tenant.id = tid then data.sizeBytes else 0
      rw [if_neg (Ne.symm htid), add_zero]

/-- A mark changes no charge, if the sizes agree. -/
theorem Balanced.mark {mediaId : Uuid} {f : ListingMedia → ListingMedia} (h : Balanced s)
    (hmark : s.mark mediaId f = some s')
    (hf : ∀ m, s.media.row mediaId = some m →
      (f m).tenantId = m.tenantId ∧ (f m).freed = m.freed) : Balanced s' := by
  obtain ⟨-, hmark⟩ := Option.ite_none_right_eq_some.mp hmark
  cases hmark
  cases hrow : s.media.row mediaId with
  | none => exact ⟨h.counted, h.reserved, h.positive⟩
  | some m => exact h.rewrite hrow (hf m hrow).1 (hf m hrow).2

theorem storage_inductive (settings : MediaSettings) :
    (storage settings).Inductive AsDeclared Balanced where
  init s hs := hs ▸ .start
  step s l s' h hG hst := by
    cases l with
    | requestUpload tenant listingId mediaId visible photoQuota data =>
      obtain ⟨hnew, hst⟩ := Option.ite_none_right_eq_some.mp hst
      exact h.requestUpload hnew (toOption_eq_some hst)
    | createEmbed tenantId listingId mediaId visible data =>
      obtain ⟨hnew, hst⟩ := Option.ite_none_right_eq_some.mp hst
      have hst := toOption_eq_some hst
      unfold State.createEmbed at hst
      split at hst
      · cases hst
      · cases hst
        refine h.register hnew (le_refl _) fun tid => ?_
        show _ = _ + ite _ 0 0
        rw [ite_self, add_zero]
    | confirmUpload tenantId mediaId visible =>
      obtain ⟨m, hfound, hst⟩ := bind_eq_ok (toOption_eq_some hst)
      obtain ⟨confirmed, hconfirm, hst⟩ := bind_eq_ok hst
      cases hst
      obtain ⟨-, rfl⟩ := ListingMedia.confirm_ok hconfirm
      exact h.rewrite (mediaOr404_ok hfound).1 rfl rfl
    | delete tenantId mediaId visible => exact h.delete (toOption_eq_some hst)
    | snapshot mediaId =>
      -- Workers read without writing.
      obtain ⟨-, hst⟩ := Option.ite_none_right_eq_some.mp hst
      cases hst
      exact ⟨h.counted, h.reserved, h.positive⟩
    | markReady mediaId processed =>
      refine h.mark hst fun m hrow => ⟨m.markReady_tenantId processed, ?_⟩
      unfold ListingMedia.markReady
      split
      · next hprocessing => exact (hG m hrow hprocessing).symm
      · rfl
    | markFailed mediaId reason =>
      refine h.mark hst fun m _ => ⟨(m.markFailed_same reason).1, ?_⟩
      unfold ListingMedia.freed
      rw [(m.markFailed_same reason).2]

/-- **Storage accounting.** While workers find objects of the declared sizes, every counter is
the sum of the sizes of the tenant's media, every deletion takes off exactly what the
registration of its row reserved, and a tenant without media is back at zero. -/
theorem storage_balanced {settings : MediaSettings}
    (h : (storage settings).ReachVia AsDeclared s) :
    (∀ tenantId, (s.usage tenantId).storageBytes = s.stored tenantId) ∧
      (∀ tenantId mediaId visible s',
        (storage settings).step s (.delete tenantId mediaId visible) = some s' →
        (s'.usage tenantId).storageBytes =
          (s.usage tenantId).storageBytes - s.reserved mediaId) ∧
      ∀ tenantId, (∀ mediaId m, s.media.row mediaId = some m → m.tenantId ≠ tenantId) →
        (s.usage tenantId).storageBytes = 0 := by
  have hbalanced := (storage_inductive settings).always h
  refine ⟨hbalanced.counted, fun tenantId mediaId visible s' hst => ?_, fun tenantId hnone => ?_⟩
  · have hdelete := toOption_eq_some hst
    obtain ⟨m, hfound, -⟩ := bind_eq_ok hdelete
    obtain ⟨hrow, rfl⟩ := mediaOr404_ok hfound
    obtain ⟨m', hrow', -, -, husage⟩ := delete_usage hbalanced hdelete
    obtain rfl := Option.some.inj (hrow.symm.trans hrow')
    rw [husage m.tenantId, ← hbalanced.reserved hrow, ListingMedia.charge, if_pos rfl]
  · rw [hbalanced.counted]
    refine total_eq_zero fun mediaId => ?_
    cases hrow : s.media.row mediaId with
    | none => rfl
    | some m => exact if_neg (hnone mediaId m hrow)

/-- A photo declared and found with 1000 bytes, and a document whose upload failed; the photo is
deleted again. -/
theorem storage_balanced_photo : ∃ s, (storage ⟨26214400⟩).ReachVia AsDeclared s ∧
    s.stored 1 = 300 ∧ (s.usage 1).storageBytes = 300 := by
  let tenant : TenantContext := ⟨1, "atlas", "Atlas", "active", [], "trial"⟩
  obtain ⟨s, hs, hp⟩ := Machine.exists_reachVia_of_run (M := storage ⟨26214400⟩)
    (G := AsDeclared) (s := .start)
    [.requestUpload tenant 5 10 true 30 ⟨.photo, "image/jpeg", 1000, by decide⟩,
      .requestUpload tenant 5 11 true 30 ⟨.doc, "application/pdf", 300, by decide⟩,
      .createEmbed 1 5 12 true ⟨.video, "https://youtu.be/tour"⟩,
      .confirmUpload 1 10 true, .snapshot 10, .confirmUpload 1 11 true, .snapshot 11,
      .markReady 10 ⟨1000, ["thumb"], none⟩,
      .markFailed 11 "no uploaded file found for this media", .delete 1 10 true]
    (fun s => s.stored 1 = 300) rfl (by decide)
  have hstored := of_decide_eq_true hp
  exact ⟨s, hs, hstored, ((storage_balanced hs).1 1).trans hstored⟩

/-- The photo was declared with 1000 bytes and is found to have 10: once it is deleted, the
tenant has no media and 990 bytes. -/
theorem undeclared_size : ∃ s, (storage ⟨26214400⟩).Reachable s ∧
    s.stored 1 = 0 ∧ (s.usage 1).storageBytes = 990 := by
  let tenant : TenantContext := ⟨1, "atlas", "Atlas", "active", [], "trial"⟩
  obtain ⟨s, hs, hp⟩ := Machine.exists_reachable_of_run (M := storage ⟨26214400⟩) (s := .start)
    [.requestUpload tenant 5 10 true 30 ⟨.photo, "image/jpeg", 1000, by decide⟩,
      .confirmUpload 1 10 true, .snapshot 10, .markReady 10 ⟨10, ["thumb"], none⟩,
      .delete 1 10 true]
    (fun s => s.stored 1 = 0 ∧ (s.usage 1).storageBytes = 990) rfl (by decide)
  exact ⟨s, hs, of_decide_eq_true hp⟩

end Media

end RealEstate
