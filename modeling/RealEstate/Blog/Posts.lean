import RealEstate.Core.Base
import RealEstate.Core.Exceptions
import RealEstate.Core.Json
import RealEstate.Systems.UnitOfWork

/-!
# Blog posts (`modules/blog/service.py`, `workers/tasks/blog.py`)

A post is a draft, scheduled or published. The portal creates, updates, publishes and
unpublishes it; a sweep publishes what is scheduled and due, from rows it has read without a
lock.

- `createPost`, `updatePost`, `publishPost`, `unpublishPost`, `sweep`: the writers.
- `posts`: them as sessions over the table.
- `Lifecycle`: what status, go-live time and publication time say of each other.
- `Undisturbed`, `SweepFree`: the conditions under which `Blog.Scheduling` proves it.
-/

namespace RealEstate

namespace Blog

open RealEstate.Core Systems

/-! ### The service -/

/-- `BlogPostStatus`. -/
inductive BlogPostStatus where
  | draft
  | scheduled
  | published
  deriving DecidableEq, Repr

/-- A text by locale. -/
abbrev I18nText := List (String × String)

/-- One row of `blog_posts`. -/
structure BlogPost where
  tenantId : Uuid
  categoryId : Option Uuid
  slug : String
  title : I18nText
  excerpt : Option I18nText
  body : I18nText
  tags : Option (List String)
  coverImage : Option String
  seoMeta : JsonObject
  status : BlogPostStatus := .draft
  scheduledAt : Option DateTime := none
  publishedAt : Option DateTime := none
  deriving DecidableEq

/-- `PostCreate`. -/
structure PostCreate where
  slug : String
  title : I18nText
  excerpt : Option I18nText := none
  body : I18nText
  categoryId : Option Uuid := none
  tags : List String := []
  coverImage : Option String := none
  seoMeta : Option JsonObject := none
  status : BlogPostStatus := .draft
  scheduledAt : Option DateTime := none

/-- A field that is not set, or set to a value or, where the schema lets it, to null. -/
structure PostUpdate where
  slug : Option String := none
  title : Option I18nText := none
  excerpt : Option (Option I18nText) := none
  body : Option I18nText := none
  categoryId : Option (Option Uuid) := none
  tags : Option (Option (List String)) := none
  coverImage : Option (Option String) := none
  seoMeta : Option (Option JsonObject) := none
  status : Option BlogPostStatus := none
  scheduledAt : Option (Option DateTime) := none

/-- `_check_scheduled`, for a request that sets the status. -/
def checkScheduled (now : DateTime) (status : BlogPostStatus) (scheduledAt : Option DateTime) :
    Except String Unit :=
  if status = .scheduled then
    match scheduledAt with
    | none => .error "scheduledAt is required when status is 'scheduled'"
    | some goLive => if goLive ≤ now then .error "scheduledAt must be in the future" else .ok ()
  else .ok ()

/-- The model validator of `PostCreate`. -/
def PostCreate.scheduledNeedsFutureTime (now : DateTime) (data : PostCreate) :
    Except String Unit :=
  checkScheduled now data.status data.scheduledAt

/-- The model validator of `PostUpdate`, which needs a status to check anything. -/
def PostUpdate.scheduledNeedsFutureTime (now : DateTime) (data : PostUpdate) :
    Except String Unit :=
  match data.status with
  | some status => checkScheduled now status (data.scheduledAt.getD none)
  | none => .ok ()

/-- `_validate_category`, against the categories of the tenant. -/
def validateCategory (categories : List Uuid) : Option Uuid → Except AppError Unit
  | none => .ok ()
  | some id =>
    if id ∈ categories then .ok () else .error ⟨.notFound, "Category not found."⟩

section Service

variable (sanitizeHtml stripHtml : String → String)

/-- `sanitize_i18n_html`. -/
def sanitizeI18nHtml (value : I18nText) : I18nText :=
  value.map fun (locale, text) => (locale, sanitizeHtml text)

/-- `plaintext_i18n`. -/
def plaintextI18n (value : I18nText) : I18nText :=
  value.map fun (locale, text) => (locale, stripHtml text)

/-- `_plaintext_i18n(excerpt) if excerpt else None`. -/
def excerptOf (excerpt : Option I18nText) : Option I18nText :=
  (excerpt.filter fun value => value ≠ []).map (plaintextI18n stripHtml)

/-- `create_post`, up to its `INSERT`. -/
def createPost (tenantId : Uuid) (categories : List Uuid) (now : DateTime) (data : PostCreate) :
    Except AppError BlogPost := do
  validateCategory categories data.categoryId
  .ok {
    tenantId
    slug := data.slug
    title := data.title
    excerpt := excerptOf stripHtml data.excerpt
    body := sanitizeI18nHtml sanitizeHtml data.body
    categoryId := data.categoryId
    tags := some data.tags
    coverImage := data.coverImage
    seoMeta := data.seoMeta.getD []
    status := data.status
    scheduledAt := if data.status = .scheduled then data.scheduledAt else none
    publishedAt := if data.status = .published then some now else none }

/-- `get_post`. -/
def getPost : Option BlogPost → Except AppError BlogPost
  | none => .error ⟨.notFound, "Post not found."⟩
  | some post => .ok post

/-- The fields of a patch. -/
def PostUpdate.assign (data : PostUpdate) (post : BlogPost) : BlogPost :=
  { post with
    slug := data.slug.getD post.slug
    title := data.title.getD post.title
    excerpt := (data.excerpt.map (excerptOf stripHtml)).getD post.excerpt
    body := (data.body.map (sanitizeI18nHtml sanitizeHtml)).getD post.body
    categoryId := data.categoryId.getD post.categoryId
    tags := data.tags.getD post.tags
    coverImage := data.coverImage.getD post.coverImage
    seoMeta := (data.seoMeta.map (·.getD [])).getD post.seoMeta
    status := data.status.getD post.status
    scheduledAt := data.scheduledAt.getD post.scheduledAt }

/-- The go-live time that goes with the status of a patched post. -/
def checkGoLive (now : DateTime) (post : BlogPost) : Except AppError BlogPost :=
  if post.status ≠ .scheduled then .ok { post with scheduledAt := none }
  else
    match post.scheduledAt with
    | none => .error ⟨.conflict, "A scheduled post requires a go-live time."⟩
    | some goLive =>
      if goLive ≤ now then
        .error ⟨.conflict, "The scheduled go-live time must be in the future."⟩
      else .ok post

/-- The first transition into published stamps `published_at`. -/
def stampPublished (now : DateTime) (statusBefore : BlogPostStatus) (post : BlogPost) : BlogPost :=
  if post.status = .published ∧ statusBefore ≠ .published ∧ post.publishedAt = none then
    { post with publishedAt := some now }
  else post

/-- `update_post`, on the row that `get_post` reads. -/
def updatePost (categories : List Uuid) (now : DateTime) (data : PostUpdate)
    (row : Option BlogPost) : Except AppError BlogPost := do
  let post ← getPost row
  validateCategory categories (data.categoryId.getD none)
  let edited ← checkGoLive now (data.assign sanitizeHtml stripHtml post)
  .ok (stampPublished now post.status edited)

/-- `publish_post`. -/
def publishPost (now : DateTime) (row : Option BlogPost) : Except AppError BlogPost := do
  let post ← getPost row
  .ok (if post.status ≠ .published then
      { post with
        status := .published
        scheduledAt := none
        publishedAt := post.publishedAt.or (some now) }
    else post)

/-- `unpublish_post`. -/
def unpublishPost (row : Option BlogPost) : Except AppError BlogPost := do
  let post ← getPost row
  .ok (if post.status ≠ .draft then { post with status := .draft, scheduledAt := none } else post)

/-- `due_scheduled_posts`: the condition of the sweep's `SELECT`. -/
def Due (now : DateTime) (post : BlogPost) : Prop :=
  post.status = .scheduled ∧ ∃ goLive ∈ post.scheduledAt, goLive ≤ now

/-- Two comparisons. -/
instance (now : DateTime) (post : BlogPost) : Decidable (Due now post) :=
  inferInstanceAs (Decidable (_ ∧ _))

/-- What `_publish_tenant` makes of a post it has selected. -/
def sweep (now : DateTime) (post : BlogPost) : BlogPost :=
  { post with status := .published, publishedAt := post.publishedAt.or (some now) }

/-! ### Sessions -/

/-- `received` is when the schema has checked the body of a request, `now` when the service
stamps what it writes. -/
inductive Op where
  | create (id tenantId : Uuid) (received now : DateTime) (categories : List Uuid)
      (data : PostCreate)
  | update (tenantId id : Uuid) (received now : DateTime) (categories : List Uuid)
      (data : PostUpdate)
  | publish (tenantId id : Uuid) (now : DateTime)
  | unpublish (tenantId id : Uuid)
  | sweep (tenantId : Uuid) (now : DateTime)

/-- A write to the table of posts. -/
abbrev PostWrite := Write Uuid BlogPost Empty

/-- The rows that an operation selects. -/
def loads : Op → Uuid → BlogPost → Bool
  | .create .., _, _ => false
  | .update tenantId id _ _ _ _, k, post | .publish tenantId id _, k, post
  | .unpublish tenantId id, k, post => k = id && post.tenantId = tenantId
  | .sweep tenantId now, _, post => post.tenantId = tenantId && Due now post

/-- A request that edits the one post it has read. -/
def edits (rows : List (Uuid × BlogPost)) (f : Option BlogPost → Except AppError BlogPost) :
    Option (List PostWrite) :=
  (f (rows.head?.map Prod.snd)).toOption.map fun edited =>
    rows.head?.toList.map fun (id, post) => ⟨id, .update post edited, []⟩

/-- What a request writes, by the rows that it has loaded. -/
def plan (op : Op) (rows : List (Uuid × BlogPost)) : Option (List PostWrite) :=
  match op with
  | .create id tenantId received now categories data =>
    match data.scheduledNeedsFutureTime received with
    | .error _ => none
    | .ok () =>
      (createPost sanitizeHtml stripHtml tenantId categories now data).toOption.map fun post =>
        [⟨id, .insert post, []⟩]
  | .update _ _ received now categories data =>
    match data.scheduledNeedsFutureTime received with
    | .error _ => none
    | .ok () => edits rows (updatePost sanitizeHtml stripHtml categories now data)
  | .publish _ _ now => edits rows (publishPost now)
  | .unpublish _ _ => edits rows unpublishPost
  | .sweep _ now => some (rows.map fun (id, post) => ⟨id, .update post (sweep now post), []⟩)

/-- The `UPDATE` of the columns that were edited. -/
def overlay (read edited current : BlogPost) : BlogPost where
  tenantId := column read.tenantId edited.tenantId current.tenantId
  categoryId := column read.categoryId edited.categoryId current.categoryId
  slug := column read.slug edited.slug current.slug
  title := column read.title edited.title current.title
  excerpt := column read.excerpt edited.excerpt current.excerpt
  body := column read.body edited.body current.body
  tags := column read.tags edited.tags current.tags
  coverImage := column read.coverImage edited.coverImage current.coverImage
  seoMeta := column read.seoMeta edited.seoMeta current.seoMeta
  status := column read.status edited.status current.status
  scheduledAt := column read.scheduledAt edited.scheduledAt current.scheduledAt
  publishedAt := column read.publishedAt edited.publishedAt current.publishedAt

/-- The posts, under their unique index on tenant and slug. -/
def posts : UnitOfWork Uuid BlogPost Empty (Uuid × String) Op where
  loads := loads
  plan := plan sanitizeHtml stripHtml
  overlay := overlay
  index post := some (post.tenantId, post.slug)

end Service

/-- The table of posts and the requests on it. -/
abbrev State := UnitOfWork.State Uuid BlogPost Empty Op

/-! ### The life of a post -/

/-- A scheduled post has a go-live time and a published one its publication time; only a
scheduled post, or one that the sweep has published, has a go-live time. -/
structure Lifecycle (swept : Bool) (post : BlogPost) : Prop where
  scheduled : post.status = .scheduled → post.scheduledAt.isSome
  published : post.status = .published → post.publishedAt.isSome
  goLive : post.scheduledAt.isSome → post.status = .scheduled ∨ (swept ∧ post.status = .published)

/-- The publication time stays what it is. -/
def KeepsPublished (old new : BlogPost) : Prop :=
  ∀ time ∈ old.publishedAt, time ∈ new.publishedAt

/-- The columns of the life of a post. -/
def life (post : BlogPost) : BlogPostStatus × Option DateTime × Option DateTime :=
  (post.status, post.scheduledAt, post.publishedAt)

/-- The sweep of `publish_due_posts`. -/
def Op.isSweep : Op → Bool
  | .sweep .. => true
  | _ => false

/-- An `UPDATE` that sets one of these columns meets them as its session has read them. -/
def Undisturbed (_ : Op) (w : PostWrite) (current : BlogPost) : Prop :=
  match w.change with
  | .update read edited => life edited = life read ∨ life current = life read
  | _ => True

/-- And the sweep has none. -/
def SweepFree (op : Op) (w : PostWrite) (current : BlogPost) : Prop :=
  Undisturbed op w current ∧ op.isSweep = false

/-- Whether an `UPDATE` disturbs a post is read off what it was read from. -/
instance (op : Op) (w : PostWrite) (current : BlogPost) :
    Decidable (Undisturbed op w current) := by
  unfold Undisturbed
  split <;> infer_instance

/-- As `Undisturbed`. -/
instance (op : Op) (w : PostWrite) (current : BlogPost) : Decidable (SweepFree op w current) :=
  inferInstanceAs (Decidable (_ ∧ _))

/-- What an open sweep has published was scheduled and due when its session wrote it, and is
until it commits. -/
def SweepsDue (s : State) : Prop :=
  ∀ t session tenantId now, s.txns t = some session → session.op = .sweep tenantId now →
    ∀ id version post, s.table.dirty t id = some version → s.table.rows id = some post →
      Due now post

end Blog

end RealEstate
