import RealEstate.Core.Cache
import RealEstate.Media.Storage
import RealEstate.Systems.Base64

/-!
# The buckets (`core/storage.py`, `workers/tasks/media.py`, `workers/tasks/images.py`)

The machine of `Media.Storage` with the objects its rows name: clients put originals, workers
derive variants from them object by object, deletions leave a task behind.

- `inspect`, `renditions`: what a `process_media` run makes of the object it fetches.
- `buckets`: the machine. A run is a sequence of steps, any of which may be its last.
- `Under`: the keys of a media's objects, and no other media's (`Under.unique`).
- `requested_of_request`: what a request does to the rows and the queue.
-/

namespace RealEstate

namespace Media

namespace Objects

open RealEstate.Core Listings Tenants Systems Function

/-! ### Buckets -/

/-- The object under each key. -/
abbrev Bucket := String → Option Bytes

/-- One call of the client. The errors of single keys come in its answer, which nobody reads. -/
def deleteChunk (missed : List String) (bucket : Bucket) (chunk : List String) : Bucket :=
  fun key => if key ∈ chunk ∧ key ∉ missed then none else bucket key

/-- `delete_objects`: at most 1000 keys a call. -/
def deleteObjects (missed : List String) (bucket : Bucket) (keys : List String) : Bucket :=
  (List.range ((keys.length + 999) / 1000)).foldl
    (fun bucket i => deleteChunk missed bucket ((keys.drop (1000 * i)).take 1000)) bucket

/-- The two buckets. -/
inductive BucketName where
  | docs
  | media
  deriving DecidableEq

/-- The objects a row names, as `delete` hands them to `delete_media_objects`. -/
def objectsOf (m : ListingMedia) : List (BucketName × String) :=
  m.storageKey.toList.map (.docs, ·) ++ m.variants.map (.media, ·)

/-- The keys of a task in one bucket. -/
def keysIn (name : BucketName) (task : List (BucketName × String)) : List String :=
  (task.filter (·.1 = name)).map Prod.snd

/-! ### Files -/

/-- `_MAGIC`. -/
def magic : List (String × List (Nat × Bytes)) :=
  [("image/jpeg", [(0, [0xff, 0xd8, 0xff])]),
    ("image/png", [(0, [0x89, 0x50, 0x4e, 0x47, 0x0d, 0x0a, 0x1a, 0x0a])]),
    ("image/webp", [(0, [0x52, 0x49, 0x46, 0x46]), (8, [0x57, 0x45, 0x42, 0x50])]),
    ("application/pdf", [(0, [0x25, 0x50, 0x44, 0x46])])]

/-- `verify_magic`. -/
def verifyMagic (data : Bytes) (contentType : String) : Except String Unit :=
  match magic.lookup contentType with
  | none => .error "unsupported content type"
  | some signatures =>
    if signatures.all fun signature =>
        (data.drop signature.1).take signature.2.length = signature.2 then .ok ()
    else .error "file bytes do not match the declared content type"

/-- What libvips, blurhash and hashlib make of bytes. -/
structure Imaging where
  decodes : Bytes → Bool
  /-- The file at a width, saved under an extension, without its metadata. -/
  render : Bytes → Nat → String → Bytes
  blurhash : Bytes → String
  /-- The first twelve digits of the digest. -/
  digest : Bytes → String

/-- `VARIANT_WIDTHS`. -/
def variantWidths : List (String × Nat) :=
  [("thumb", 320), ("card", 640), ("gallery", 1280), ("full", 1920)]

/-- The extensions of `FORMATS_WEBP_JPEG`. -/
def extensions : List String := [".webp", ".jpg"]

/-- The prefix of a media object's keys. -/
def keyPrefix (tenantId listingId mediaId : Uuid) : String :=
  s!"tenants/{tenantId}/listings/{listingId}/{mediaId}"

/-- The key of the original. -/
def originalKey (tenantId listingId mediaId : Uuid) : String :=
  s!"tenants/{tenantId}/listings/{listingId}/{mediaId}/original"

section Worker

variable (settings : MediaSettings) (imaging : Imaging)

/-- The key of a variant names its content. -/
def variantKey (base name extension : String) (body : Bytes) : String :=
  s!"{base}/{imaging.digest body}-{name}{extension}"

/-- What `derive_variants` puts, in its order. -/
def renditions (base : String) (original : Bytes) : List (String × Bytes) :=
  variantWidths.flatMap fun width => extensions.map fun extension =>
    let body := imaging.render original width.2 extension
    (variantKey imaging base width.1 extension body, body)

/-- What a run makes of the object it fetches: the objects to put and what to mark the row with,
or why the upload is refused. -/
def inspect (base contentType : String) (object : Option Bytes) :
    Except String (List (String × Bytes) × Processed) :=
  match object with
  | none => .error "no uploaded file found for this media"
  | some original =>
    if settings.mediaMaxUploadBytes < original.length then
      .error "file exceeds the maximum upload size"
    else (verifyMagic original contentType).bind fun _ =>
      if contentType = "application/pdf" then .ok ([], ⟨original.length, [], none⟩)
      else if imaging.decodes original then
        let objects := renditions imaging base original
        .ok (objects, ⟨original.length, objects.map Prod.fst, some (imaging.blurhash original)⟩)
      else .error "file could not be decoded as an image"

end Worker

/-! ### Runs -/

/-- Where a run of `process_media` stands, after its snapshot. -/
inductive Phase where
  | fetching
  /-- The objects still to put; with none left, before `_mark_ready`. -/
  | putting (todo : List (String × Bytes)) (processed : Processed)
  /-- Before the deletion of a refused original. -/
  | rejecting (reason : String)
  /-- Before `_mark_failed`. -/
  | failing (reason : String)
  /-- `_mark_ready` found the row gone or processed. -/
  | cleaning (keys : List String)

/-- A run, with its snapshot. -/
structure Run where
  mediaId : Uuid
  base : String
  storageKey : String
  contentType : String
  phase : Phase := .fetching

/-- The run has not marked its row yet. -/
def Run.active (run : Run) : Bool :=
  match run.phase with
  | .cleaning _ => false
  | _ => true

/-- The keys a run has put, or is about to. -/
def Run.keys (run : Run) : List String :=
  match run.phase with
  | .putting _ processed => processed.variants
  | .cleaning keys => keys
  | _ => []

/-- The rows, the buckets, the runs of the worker and the queue of deletions. -/
structure Store where
  rows : State
  docs : Bucket
  published : Bucket
  runs : Nat → Option Run
  /-- The queued `delete_media_objects` tasks. -/
  tasks : List (List (BucketName × String))

/-- A request, an upload, or a step of a task. -/
inductive Label where
  /-- A request to the service. -/
  | request (label : Media.Label)
  /-- A presigned `PUT`. -/
  | put (tenantId listingId mediaId : Uuid) (body : Bytes)
  | snapshot (r : Nat) (mediaId : Uuid)
  /-- The next step of a run; where it deletes, the storage misses some keys. -/
  | work (r : Nat) (missed : List String := [])
  /-- The run ends where it stands: storage or database are down, or the worker is. -/
  | crash (r : Nat)
  /-- A task deletes its objects; unless it is acknowledged it stays queued. -/
  | sweep (i : Nat) (acknowledged : Bool) (missed : List String := [])
  /-- A task is lost: its enqueue failed after the commit, or its last retry did. -/
  | lose (i : Nat)

namespace Store

/-- Empty. -/
def start : Store := ⟨.start, fun _ => none, fun _ => none, fun _ => none, []⟩

/-- A run goes on. -/
def goes (s : Store) (r : Nat) (run : Run) (phase : Phase) : Store :=
  { s with runs := update s.runs r (some { run with phase }) }

/-- A run ends. -/
def ends (s : Store) (r : Nat) : Store := { s with runs := update s.runs r none }

section Steps

variable (settings : MediaSettings) (imaging : Imaging) (s : Store)

/-- The requests of `Media.Storage`; a deletion enqueues what is left of its row. -/
def request (label : Media.Label) : Option Store :=
  match label with
  | .requestUpload .. | .createEmbed .. | .confirmUpload .. =>
    (State.step settings s.rows label).map fun rows => { s with rows }
  | .delete _ mediaId _ =>
    (s.rows.media.row mediaId).bind fun m => (State.step settings s.rows label).map fun rows =>
      { s with rows, tasks := if objectsOf m = [] then s.tasks else s.tasks ++ [objectsOf m] }
  | .snapshot _ | .markReady .. | .markFailed .. => none

/-- `_snapshot`. -/
def snapshot (r : Nat) (mediaId : Uuid) : Option Store :=
  (s.rows.media.row mediaId).bind fun m =>
    m.storageKey.bind fun storageKey => m.contentType.bind fun contentType =>
      (State.step settings s.rows (.snapshot mediaId)).map fun rows =>
        { s with rows }.goes r
          ⟨mediaId, keyPrefix m.tenantId m.listingId mediaId, storageKey, contentType, .fetching⟩
          .fetching

/-- The next step of run `r`. -/
def work (r : Nat) (run : Run) (missed : List String) : Option Store :=
  match run.phase with
  | .fetching =>
    match inspect settings imaging run.base run.contentType (s.docs run.storageKey) with
    | .ok (objects, processed) => some (s.goes r run (.putting objects processed))
    | .error reason => some (s.goes r run (.rejecting reason))
  | .putting ((key, body) :: todo) processed =>
    some ({ s with published := update s.published key (some body) }.goes r run
      (.putting todo processed))
  | .putting [] processed =>
    (State.step settings s.rows (.markReady run.mediaId processed)).map fun rows =>
      if (s.rows.media.row run.mediaId).any (·.status = .processing) then { s with rows }.ends r
      else { s with rows }.goes r run (.cleaning processed.variants)
  | .rejecting reason =>
    some ({ s with docs := deleteObjects missed s.docs [run.storageKey] }.goes r run
      (.failing reason))
  | .failing reason =>
    (State.step settings s.rows (.markFailed run.mediaId reason)).map fun rows =>
      { s with rows }.ends r
  | .cleaning keys =>
    some ({ s with published := deleteObjects missed s.published keys }.ends r)

/-- A run that crashes is no longer under way. -/
def crash (r : Nat) (run : Run) : Store :=
  let running := if run.active then s.rows.running.erase run.mediaId else s.rows.running
  { s with rows := { s.rows with running } }.ends r

/-- `delete_media_objects`. -/
def sweep (i : Nat) (acknowledged : Bool) (missed : List String) : Option Store :=
  s.tasks[i]?.map fun task =>
    { s with
      docs := deleteObjects missed s.docs (keysIn .docs task)
      published := deleteObjects missed s.published (keysIn .media task)
      tasks := if acknowledged then s.tasks.eraseIdx i else s.tasks }

/-- One step. -/
def step : Label → Option Store
  | .request label => s.request settings label
  | .put tenantId listingId mediaId body =>
    some { s with docs := update s.docs (originalKey tenantId listingId mediaId) (some body) }
  | .snapshot r mediaId => if (s.runs r).isNone then s.snapshot settings r mediaId else none
  | .work r missed => (s.runs r).bind fun run => s.work settings imaging r run missed
  | .crash r => (s.runs r).map (s.crash r)
  | .sweep i acknowledged missed => s.sweep i acknowledged missed
  | .lose i => some { s with tasks := s.tasks.eraseIdx i }

end Steps

end Store

/-- The media with their objects. -/
def buckets (settings : MediaSettings) (imaging : Imaging) : Machine Store Label where
  init s := s = .start
  step := Store.step settings imaging

/-! ### Deleting -/

theorem deleteChunk_foldl (missed keys : List String) (key : String) :
    ∀ (l : List Nat) (bucket : Bucket),
      l.foldl (fun bucket i => deleteChunk missed bucket ((keys.drop (1000 * i)).take 1000))
          bucket key =
        if (∃ i ∈ l, key ∈ (keys.drop (1000 * i)).take 1000) ∧ key ∉ missed then none
        else bucket key
  | [], bucket => (if_neg (by simp)).symm
  | i :: l, bucket => by
    rw [List.foldl_cons, deleteChunk_foldl missed keys key l]
    by_cases hl : ∃ i ∈ l, key ∈ (keys.drop (1000 * i)).take 1000
    · have hcons : ∃ j ∈ i :: l, key ∈ (keys.drop (1000 * j)).take 1000 :=
        (List.exists_mem_cons_iff ..).2 (.inr hl)
      by_cases hkey : key ∈ missed
      · simp only [deleteChunk, hkey, not_true_eq_false, and_false, if_false]
      · rw [if_pos ⟨hl, hkey⟩, if_pos ⟨hcons, hkey⟩]
    · rw [if_neg fun h => hl h.1]
      simp only [deleteChunk, List.exists_mem_cons_iff, hl, or_false]

/-- Every key is in some chunk. -/
theorem exists_chunk {keys : List String} {key : String} :
    (∃ i ∈ List.range ((keys.length + 999) / 1000), key ∈ (keys.drop (1000 * i)).take 1000) ↔
      key ∈ keys := by
  constructor
  · rintro ⟨i, -, hkey⟩
    exact List.mem_of_mem_drop (List.mem_of_mem_take hkey)
  · intro hkey
    obtain ⟨j, hj, rfl⟩ := List.getElem_of_mem hkey
    refine ⟨j / 1000, List.mem_range.2 (by omega), List.mem_iff_getElem?.2 ⟨j % 1000, ?_⟩⟩
    rw [List.getElem?_take_of_lt (Nat.mod_lt j (by decide)), List.getElem?_drop,
      Nat.div_add_mod, List.getElem?_eq_getElem hj]

/-- All chunks together: the keys go, but those that the client missed. -/
theorem deleteObjects_apply (missed : List String) (bucket : Bucket) (keys : List String)
    (key : String) : deleteObjects missed bucket keys key =
      if key ∈ keys ∧ key ∉ missed then none else bucket key := by
  rw [deleteObjects, deleteChunk_foldl]
  simp only [exists_chunk]

/-! ### Whose keys they are -/

/-- The keys of a media's objects. -/
def Under (mediaId : Uuid) (key : String) : Prop :=
  ∃ (tenantId listingId : Uuid) (rest : List Char),
    key.toList = (keyPrefix tenantId listingId mediaId).toList ++ '/' :: rest

theorem slash_not_mem_repr (n : Nat) : '/' ∉ n.repr.toList := by
  rw [Nat.toList_repr]
  intro h
  have hdigit := Nat.isDigit_of_mem_toDigits (by decide) (by decide) h
  revert hdigit
  decide

theorem toList_keyPrefix (tenantId listingId mediaId : Uuid) :
    (keyPrefix tenantId listingId mediaId).toList = "tenants/".toList ++ (tenantId.repr.toList ++
      '/' :: ("listings/".toList ++ (listingId.repr.toList ++ '/' :: mediaId.repr.toList))) := by
  have hlistings : "/listings/".toList = '/' :: "listings/".toList := by
    repeat rw [String.toList_ofList]
  have hslash : "/".toList = ['/'] := String.toList_ofList
  show (toString "tenants/" ++ toString tenantId ++ toString "/listings/" ++ toString listingId ++
    toString "/" ++ toString mediaId).toList = _
  simp only [String.toList_append, List.append_assoc]
  show "tenants/".toList ++ (tenantId.repr.toList ++ ("/listings/".toList ++
    (listingId.repr.toList ++ ("/".toList ++ mediaId.repr.toList)))) = _
  rw [hlistings, hslash]
  rfl

/-- The objects of two media have different keys. -/
theorem Under.unique {i j : Uuid} {key : String} (hi : Under i key) (hj : Under j key) :
    i = j := by
  obtain ⟨tenantId, listingId, rest, hi⟩ := hi
  obtain ⟨tenantId', listingId', rest', hj⟩ := hj
  rw [hi, toList_keyPrefix, toList_keyPrefix] at hj
  simp only [List.append_assoc, List.cons_append] at hj
  obtain ⟨-, hj⟩ := Cache.append_cons_inj (slash_not_mem_repr tenantId)
    (slash_not_mem_repr tenantId') (List.append_cancel_left hj)
  obtain ⟨-, hj⟩ := Cache.append_cons_inj (slash_not_mem_repr listingId)
    (slash_not_mem_repr listingId') (List.append_cancel_left hj)
  exact Cache.repr_injective (Cache.append_cons_inj (slash_not_mem_repr i)
    (slash_not_mem_repr j) hj).1

/-- The original is under its media object. -/
theorem under_originalKey (tenantId listingId mediaId : Uuid) :
    Under mediaId (originalKey tenantId listingId mediaId) := by
  refine ⟨tenantId, listingId, "original".toList, ?_⟩
  have hslash : "/original".toList = '/' :: "original".toList := by
    repeat rw [String.toList_ofList]
  show (keyPrefix tenantId listingId mediaId ++ toString "/original").toList = _
  rw [String.toList_append, ← hslash]
  rfl

theorem under_of_mem_renditions {imaging : Imaging} {tenantId listingId mediaId : Uuid}
    {original : Bytes} {object : String × Bytes}
    (h : object ∈ renditions imaging (keyPrefix tenantId listingId mediaId) original) :
    Under mediaId object.1 := by
  obtain ⟨width, -, h⟩ := List.mem_flatMap.1 h
  obtain ⟨extension, -, rfl⟩ := List.mem_map.1 h
  let body := imaging.render original width.2 extension
  refine ⟨tenantId, listingId, (imaging.digest body ++ "-" ++ width.1 ++ extension).toList, ?_⟩
  have hslash : "/".toList = ['/'] := String.toList_ofList
  show (keyPrefix tenantId listingId mediaId ++ "/" ++ imaging.digest body ++ "-" ++ width.1 ++
    extension).toList = _
  simp only [String.toList_append, hslash, List.append_assoc, List.cons_append, List.nil_append]

/-- What the worker accepts: it puts the objects whose keys the row is to name, and all of them
are the media's. -/
theorem inspect_ok {settings : MediaSettings} {imaging : Imaging}
    {tenantId listingId mediaId : Uuid} {contentType : String} {object : Option Bytes}
    {objects : List (String × Bytes)} {processed : Processed}
    (h : inspect settings imaging (keyPrefix tenantId listingId mediaId) contentType object =
      .ok (objects, processed)) :
    object.isSome ∧ processed.variants = objects.map Prod.fst ∧
      ∀ o ∈ objects, Under mediaId o.1 := by
  unfold inspect at h
  cases object with
  | none => cases h
  | some original =>
    refine ⟨rfl, ?_⟩
    dsimp only at h
    split at h
    · cases h
    · cases hmagic : verifyMagic original contentType with
      | error => simp only [hmagic, Except.bind, reduceCtorEq] at h
      | ok =>
        simp only [hmagic, Except.bind] at h
        split at h
        · -- A type without renditions leaves the original alone.
          cases h
          exact ⟨rfl, fun o ho => absurd ho List.not_mem_nil⟩
        · split at h
          · cases h
            exact ⟨rfl, fun o ho => under_of_mem_renditions ho⟩
          · cases h

/-! ### What a request leaves -/

/-- The media was registered, and its row is no longer there. -/
def Gone (s : Store) (mediaId : Uuid) : Prop :=
  mediaId ∈ s.rows.media.keys ∧ s.rows.media.row mediaId = none

/-- What a request to the service does to the rows and the queue. -/
inductive Requested (s : Store) : Store → Prop
  /-- A new row names no object that is ready. -/
  | registered {mediaId : Uuid} {m : ListingMedia} {rows : State} :
    mediaId ∉ s.rows.media.keys → rows.media = s.rows.media.put mediaId m →
    rows.running = s.rows.running → (∀ key ∈ m.storageKey, Under mediaId key) →
    m.variants = [] → (m.status = .ready → m.storageKey = none) →
    Requested s { s with rows }
  | confirmed {mediaId : Uuid} {m : ListingMedia} {rows : State} :
    s.rows.media.row mediaId = some m → m.status = .pending →
    rows.media = s.rows.media.put mediaId { m with status := .processing } →
    rows.running = s.rows.running → Requested s { s with rows }
  | deleted {mediaId : Uuid} {m : ListingMedia} {rows : State}
      {tasks : List (List (BucketName × String))} :
    s.rows.media.row mediaId = some m → rows.media = s.rows.media.delete mediaId →
    rows.running = s.rows.running →
    (∀ task ∈ tasks, task ∈ s.tasks ∨ task = objectsOf m) →
    (∀ task ∈ s.tasks, task ∈ tasks) → (∀ o ∈ objectsOf m, ∃ task ∈ tasks, o ∈ task) →
    Requested s { s with rows, tasks }

variable {settings : MediaSettings} {imaging : Imaging} {s s' : Store}

/-- What a request can do to rows and queue. -/
theorem requested_of_request {label : Media.Label} (h : s.request settings label = some s') :
    Requested s s' := by
  cases label with
  | requestUpload tenant listingId mediaId visible photoQuota data =>
    obtain ⟨rows, hrows, rfl⟩ := Option.map_eq_some_iff.1 h
    obtain ⟨hnew, hrows⟩ := Option.ite_none_right_eq_some.1 hrows
    have hrequest := toOption_eq_some hrows
    unfold State.requestUpload at hrequest
    dsimp only at hrequest
    split at hrequest
    · cases hrequest
    · obtain ⟨-, -, hrequest⟩ := bind_eq_ok hrequest
      obtain ⟨usage, -, hrequest⟩ := bind_eq_ok hrequest
      cases hrequest
      refine .registered hnew rfl rfl ?_ rfl ?_
      · rintro _ ⟨⟩
        exact under_originalKey tenant.id listingId mediaId
      · rintro ⟨⟩
  | createEmbed tenantId listingId mediaId visible data =>
    obtain ⟨rows, hrows, rfl⟩ := Option.map_eq_some_iff.1 h
    obtain ⟨hnew, hrows⟩ := Option.ite_none_right_eq_some.1 hrows
    have hrequest := toOption_eq_some hrows
    unfold State.createEmbed at hrequest
    split at hrequest
    · cases hrequest
    · cases hrequest
      exact .registered hnew rfl rfl (by rintro _ ⟨⟩) rfl fun _ => rfl
  | confirmUpload tenantId mediaId visible =>
    obtain ⟨rows, hrows, rfl⟩ := Option.map_eq_some_iff.1 h
    obtain ⟨m, hfound, hrows⟩ := bind_eq_ok (toOption_eq_some hrows)
    obtain ⟨confirmed, hconfirm, hrows⟩ := bind_eq_ok hrows
    cases hrows
    obtain ⟨hpending, rfl⟩ := ListingMedia.confirm_ok hconfirm
    exact .confirmed (mediaOr404_ok hfound).1 hpending rfl rfl
  | delete tenantId mediaId visible =>
    obtain ⟨m, hrow, h⟩ := Option.bind_eq_some_iff.1 h
    obtain ⟨rows, hrows, rfl⟩ := Option.map_eq_some_iff.1 h
    obtain ⟨m', -, hrows⟩ := bind_eq_ok (toOption_eq_some hrows)
    cases hrows
    refine .deleted hrow rfl rfl (fun task ht => ?_) (fun task ht => ?_) fun o ho => ?_
    · split at ht
      · exact .inl ht
      · exact (List.mem_append.1 ht).imp_right List.mem_singleton.1
    · split
      · exact ht
      · exact List.mem_append_left _ ht
    · rw [if_neg (List.ne_nil_of_mem ho)]
      exact ⟨_, List.mem_append_right _ (List.mem_singleton.2 rfl), ho⟩
  | snapshot | markReady | markFailed => cases h

/-- Deleting leaves the other objects. -/
theorem isSome_deleteObjects {missed : List String} {bucket : Bucket} {keys : List String}
    {key : String} (hkey : key ∉ keys) (h : (bucket key).isSome) :
    (deleteObjects missed bucket keys key).isSome := by
  rw [deleteObjects_apply, if_neg fun hin => hkey hin.1]
  exact h

theorem isSome_update {bucket : Bucket} {key key' : String} {body : Bytes}
    (h : (bucket key').isSome) : (update bucket key (some body) key').isSome := by
  by_cases hkey : key' = key
  · rw [hkey, update_self]
    rfl
  · rw [update_of_ne hkey]
    exact h

/-- The two marks: the row is rewritten if it is still there, and the run is over. -/
theorem mark_eq_some {rows rows' : State} {mediaId : Uuid} {f : ListingMedia → ListingMedia}
    (h : rows.mark mediaId f = some rows') :
    rows'.media = (rows.media.row mediaId).elim rows.media (fun m => rows.media.put mediaId (f m)) ∧
      rows'.running = rows.running.erase mediaId := by
  obtain ⟨-, h⟩ := Option.ite_none_right_eq_some.1 h
  cases h
  exact ⟨rfl, rfl⟩

/-- One photo, rendered as it is. -/
def sampleImaging : Imaging := ⟨fun _ => true, fun body _ _ => body, fun _ => "L6Pj0^jE", fun _ =>
  "0a1b2c3d4e5f"⟩

/-- A photo is registered, put and confirmed. -/
def sampleUpload : List Label :=
  let tenant : TenantContext := ⟨1, "atlas", "Atlas", "active", [], "trial"⟩
  [.request (.requestUpload tenant 5 10 true 30 ⟨.photo, "image/jpeg", 4, by decide⟩),
    .put 1 5 10 [0xff, 0xd8, 0xff, 0xe0], .request (.confirmUpload 1 10 true)]

end Objects

end Media

end RealEstate
