import RealEstate.Blog.Posts

/-!
# The life of a post

- `Planned`: what each writer does to the life of a post, from the post it has read.
- `lifecycle`: sessions whose `UPDATE`s of its columns meet them as they were read.
- `broken`: without that, and already for the sweep alone, each part of it fails.
-/

namespace RealEstate

namespace Blog

open RealEstate.Core Systems

variable {sanitizeHtml stripHtml : String → String} {swept : Bool} {now : DateTime}
  {categories : List Uuid} {post edited read current : BlogPost}

/-! ### The writers -/

/-- A scheduled post has its time. -/
theorem scheduledAt_of_checkScheduled {status : BlogPostStatus} {scheduledAt : Option DateTime}
    (h : checkScheduled now status scheduledAt = .ok ()) (hstatus : status = .scheduled) :
    scheduledAt.isSome := by
  unfold checkScheduled at h
  rw [if_pos hstatus] at h
  cases scheduledAt with
  | none => cases h
  | some goLive => rfl

/-- A new post is within the life cycle. -/
theorem Lifecycle.create {tenantId : Uuid} {received : DateTime} {data : PostCreate}
    (hschema : data.scheduledNeedsFutureTime received = .ok ())
    (h : createPost sanitizeHtml stripHtml tenantId categories now data = .ok post) :
    Lifecycle swept post := by
  obtain ⟨-, -, h⟩ := bind_eq_ok h
  cases h
  constructor
  case scheduled =>
    intro (hstatus : data.status = .scheduled)
    show (if data.status = .scheduled then data.scheduledAt else none).isSome
    rw [if_pos hstatus]
    exact scheduledAt_of_checkScheduled hschema hstatus
  case published =>
    intro (hstatus : data.status = .published)
    show (if data.status = .published then some now else none).isSome
    rw [if_pos hstatus]
    rfl
  case goLive =>
    intro hsome
    replace hsome : (if data.status = .scheduled then data.scheduledAt else none).isSome := hsome
    split at hsome
    · next hstatus => exact .inl hstatus
    · cases hsome

/-- What `checkGoLive` lets through goes live exactly if it is scheduled. -/
theorem checkGoLive_eq_ok (h : checkGoLive now post = .ok edited) :
    edited.status = post.status ∧ edited.publishedAt = post.publishedAt ∧
      (edited.scheduledAt.isSome ↔ edited.status = .scheduled) := by
  unfold checkGoLive at h
  split at h
  · next hstatus =>
    cases h
    exact ⟨rfl, rfl, fun h => (Bool.false_ne_true h).elim, fun h => (hstatus h).elim⟩
  · next hstatus =>
    split at h
    · cases h
    · next goLive hgoLive =>
      obtain ⟨-, h⟩ : ¬ goLive ≤ now ∧ Except.ok post = Except.ok edited := by
        split at h
        · cases h
        · next hfuture => exact ⟨hfuture, h⟩
      cases h
      rw [hgoLive]
      exact ⟨rfl, rfl, fun _ => not_not.1 hstatus, fun _ => rfl⟩

/-- The stamp leaves status and time. -/
theorem stampPublished_eq (now : DateTime) (statusBefore : BlogPostStatus) (post : BlogPost) :
    (stampPublished now statusBefore post).status = post.status ∧
      (stampPublished now statusBefore post).scheduledAt = post.scheduledAt ∧
      KeepsPublished post (stampPublished now statusBefore post) := by
  unfold stampPublished
  split
  · next hfirst =>
    refine ⟨rfl, rfl, fun time htime => ?_⟩
    cases hfirst.2.2.symm.trans htime
  · exact ⟨rfl, rfl, fun _ htime => htime⟩

/-- The first transition into published leaves the post with a publication time. -/
theorem publishedAt_stampPublished {statusBefore : BlogPostStatus}
    (hpublished : post.status = .published)
    (hbefore : statusBefore = .published → post.publishedAt.isSome) :
    (stampPublished now statusBefore post).publishedAt.isSome := by
  unfold stampPublished
  split
  · rfl
  · next hstamped =>
    by_cases hstatus : statusBefore = .published
    · exact hbefore hstatus
    · cases htime : post.publishedAt with
      | some time => rfl
      | none => exact absurd ⟨hpublished, hstatus, htime⟩ hstamped

/-- `update_post` goes live exactly if scheduled, and stamps what it first publishes. -/
theorem Lifecycle.update {data : PostUpdate} (hread : Lifecycle swept read)
    (h : updatePost sanitizeHtml stripHtml categories now data (some read) = .ok edited) :
    Lifecycle swept edited ∧ KeepsPublished read edited := by
  obtain ⟨post, hpost, h⟩ := bind_eq_ok h
  cases hpost
  obtain ⟨-, -, h⟩ := bind_eq_ok h
  obtain ⟨checked, hchecked, h⟩ := bind_eq_ok h
  cases h
  obtain ⟨-, hpublishedAt, hgoLive⟩ := checkGoLive_eq_ok hchecked
  replace hpublishedAt : checked.publishedAt = read.publishedAt := hpublishedAt
  obtain ⟨hstatus, hscheduledAt, hkeeps⟩ := stampPublished_eq now read.status checked
  refine ⟨⟨?_, ?_, ?_⟩, fun time htime => hkeeps time (hpublishedAt ▸ htime)⟩
  · rw [hstatus, hscheduledAt]
    exact hgoLive.2
  · rw [hstatus]
    intro hpublished
    refine publishedAt_stampPublished hpublished fun hbefore => ?_
    rw [hpublishedAt]
    exact hread.published hbefore
  · rw [hstatus, hscheduledAt]
    exact fun hsome => .inl (hgoLive.1 hsome)

theorem mem_or_of_mem {times : Option DateTime} {time : DateTime} (h : time ∈ times) :
    time ∈ times.or (some now) := by
  cases h
  rfl

theorem isSome_or (times : Option DateTime) : (times.or (some now)).isSome := by
  cases times <;> rfl

/-- Publishing keeps the first time of publication. -/
theorem Lifecycle.publish (hread : Lifecycle swept read)
    (h : publishPost now (some read) = .ok edited) :
    Lifecycle swept edited ∧ KeepsPublished read edited := by
  obtain ⟨post, hpost, h⟩ := bind_eq_ok h
  cases hpost
  cases h
  split
  · refine ⟨⟨nofun, fun _ => isSome_or _, nofun⟩, fun _ htime => mem_or_of_mem htime⟩
  · exact ⟨hread, fun _ htime => htime⟩

theorem Lifecycle.unpublish (hread : Lifecycle swept read)
    (h : unpublishPost (some read) = .ok edited) :
    Lifecycle swept edited ∧ KeepsPublished read edited := by
  obtain ⟨post, hpost, h⟩ := bind_eq_ok h
  cases hpost
  cases h
  split
  · exact ⟨⟨nofun, nofun, nofun⟩, fun _ htime => htime⟩
  · exact ⟨hread, fun _ htime => htime⟩

/-- The sweep leaves the go-live time where it is. -/
theorem Lifecycle.sweep : Lifecycle true (sweep now read) ∧ KeepsPublished read (sweep now read) :=
  ⟨⟨nofun, fun _ => isSome_or _, fun _ => .inr ⟨rfl, rfl⟩⟩, fun _ htime => mem_or_of_mem htime⟩

/-! ### Sessions -/

/-- What an operation plans: a post, or an edit of one that it has read. -/
inductive Planned (swept : Bool) (op : Op) : PostWrite → Prop where
  | create {id : Uuid} {post : BlogPost} (h : Lifecycle swept post) :
    Planned swept op ⟨id, .insert post, []⟩
  | edit {id : Uuid} {read edited : BlogPost} (hloads : loads op id read = true)
    (h : (op.isSweep = true → swept = true) → Lifecycle swept edited)
    (hkeeps : KeepsPublished read edited) : Planned swept op ⟨id, .update read edited, []⟩

/-- A request that edits what it loaded plans one write of it. -/
theorem planned_of_edits {op : Op} {rows : List (Uuid × BlogPost)} {writes : List PostWrite}
    {w : PostWrite} {f : Option BlogPost → Except AppError BlogPost}
    (hrows : ∀ row ∈ rows, loads op row.1 row.2 = true ∧ Lifecycle swept row.2)
    (hf : ∀ read edited, Lifecycle swept read → f (some read) = .ok edited →
      Lifecycle swept edited ∧ KeepsPublished read edited)
    (h : edits rows f = some writes) (hw : w ∈ writes) : Planned swept op w := by
  obtain ⟨edited, hedited, rfl⟩ := Option.map_eq_some_iff.1 h
  cases rows with
  | nil => cases hw
  | cons row rows =>
    obtain rfl := List.mem_singleton.1 hw
    obtain ⟨hloads, hread⟩ := hrows row List.mem_cons_self
    obtain ⟨hlife, hkeeps⟩ := hf row.2 edited hread (toOption_eq_some hedited)
    exact .edit hloads (fun _ => hlife) hkeeps

theorem planned_of_plans {op : Op} {w : PostWrite}
    (h : (posts sanitizeHtml stripHtml).Plans (fun _ post _ => Lifecycle swept post) op w) :
    Planned swept op w := by
  obtain ⟨rows, writes, hrows, hplan, hw⟩ := h
  replace hrows : ∀ row ∈ rows, loads op row.1 row.2 = true ∧ Lifecycle swept row.2 := by
    intro row hrow
    obtain ⟨hloads, -, hread⟩ := hrows row hrow
    exact ⟨hloads, hread⟩
  replace hplan : plan sanitizeHtml stripHtml op rows = some writes := hplan
  unfold plan at hplan
  split at hplan
  · split at hplan
    · cases hplan
    · next hschema =>
      obtain ⟨post, hpost, rfl⟩ := Option.map_eq_some_iff.1 hplan
      obtain rfl := List.mem_singleton.1 hw
      exact .create (.create hschema (toOption_eq_some hpost))
  · split at hplan
    · cases hplan
    · exact planned_of_edits hrows (fun _ _ hread h => hread.update h) hplan hw
  · exact planned_of_edits hrows (fun _ _ hread h => hread.publish h) hplan hw
  · exact planned_of_edits hrows (fun _ _ hread h => hread.unpublish h) hplan hw
  · cases hplan
    obtain ⟨row, hrow, rfl⟩ := List.mem_map.1 hw
    refine .edit (hrows row hrow).1 (fun hswept => ?_) Lifecycle.sweep.2
    rw [hswept rfl]
    exact Lifecycle.sweep.1

/-- The life cycle is a matter of the life columns. -/
theorem Lifecycle.of_life (h : Lifecycle swept post) (hlife : life edited = life post) :
    Lifecycle swept edited := by
  obtain ⟨hstatus, hlife⟩ := Prod.mk.inj hlife
  obtain ⟨hscheduledAt, hpublishedAt⟩ := Prod.mk.inj hlife
  refine ⟨?_, ?_, ?_⟩
  · rw [hstatus, hscheduledAt]
    exact h.scheduled
  · rw [hstatus, hpublishedAt]
    exact h.published
  · rw [hstatus, hscheduledAt]
    exact h.goLive

theorem publishedAt_of_life (hlife : life edited = life post) :
    edited.publishedAt = post.publishedAt :=
  congrArg (fun columns => columns.2.2) hlife

/-- A write of other columns leaves the life columns as they are. -/
theorem life_overlay_unedited (h : life edited = life read) :
    life (overlay read edited current) = life current := by
  obtain ⟨hstatus, h⟩ := Prod.mk.inj h
  obtain ⟨hscheduledAt, hpublishedAt⟩ := Prod.mk.inj h
  show (column read.status edited.status _, column read.scheduledAt edited.scheduledAt _,
    column read.publishedAt edited.publishedAt _) = _
  rw [hstatus, hscheduledAt, hpublishedAt]
  simp only [column_unedited]
  rfl

/-- A write on the row that was read writes what was planned. -/
theorem life_overlay_of_met (h : life current = life read) :
    life (overlay read edited current) = life edited := by
  obtain ⟨hstatus, h⟩ := Prod.mk.inj h
  obtain ⟨hscheduledAt, hpublishedAt⟩ := Prod.mk.inj h
  show (column read.status edited.status current.status,
    column read.scheduledAt edited.scheduledAt current.scheduledAt,
    column read.publishedAt edited.publishedAt current.publishedAt) = _
  rw [hstatus, hscheduledAt, hpublishedAt]
  simp only [column_self]
  rfl

/-- The `UPDATE` of an undisturbed edit. -/
theorem Lifecycle.overlay (hcurrent : Lifecycle swept current) (hedited : Lifecycle swept edited)
    (hkeeps : KeepsPublished read edited)
    (hmet : life edited = life read ∨ life current = life read) :
    Lifecycle swept (Blog.overlay read edited current) ∧
      KeepsPublished current (Blog.overlay read edited current) := by
  rcases hmet with hunedited | hmet
  · have hlife : life (Blog.overlay read edited current) = life current :=
      life_overlay_unedited hunedited
    refine ⟨hcurrent.of_life hlife, fun time htime => ?_⟩
    rw [publishedAt_of_life hlife]
    exact htime
  · have hlife : life (Blog.overlay read edited current) = life edited :=
      life_overlay_of_met hmet
    refine ⟨hedited.of_life hlife, fun time htime => ?_⟩
    rw [publishedAt_of_life hlife]
    refine hkeeps time ?_
    rw [← publishedAt_of_life hmet]
    exact htime

/-- Each writer keeps the life of the posts, the sweep but for the go-live time. -/
theorem keeps_lifecycle {Fits : Op → PostWrite → BlogPost → Prop}
    (hundisturbed : ∀ op w current, Fits op w current → Undisturbed op w current)
    (hswept : ∀ op w current, Fits op w current → op.isSweep = true → swept = true) :
    (posts sanitizeHtml stripHtml).Keeps Fits (fun _ post _ => Lifecycle swept post)
      KeepsPublished where
  refl _ _ htime := htime
  trans _ _ _ huv hvw time htime := hvw time (huv time htime)
  insert hplans hchange := by
    cases planned_of_plans hplans with
    | create h =>
      cases hchange
      exact h
    | edit => cases hchange
  update hplans hchange hfits hcurrent := by
    cases planned_of_plans hplans with
    | create => cases hchange
    | edit hloads h hkeeps =>
      cases hchange
      exact hcurrent.overlay (h (hswept _ _ _ hfits)) hkeeps (hundisturbed _ _ _ hfits)
  delete hplans hchange := by
    cases planned_of_plans hplans <;> cases hchange

/-- **An undisturbed write keeps a post within the life cycle.** -/
theorem keeps_undisturbed : (posts sanitizeHtml stripHtml).Keeps Undisturbed
    (fun _ post _ => Lifecycle true post) KeepsPublished :=
  keeps_lifecycle (fun _ _ _ h => h) fun _ _ _ _ _ => rfl

/-- Without the sweep, so does every write. -/
theorem keeps_sweepFree : (posts sanitizeHtml stripHtml).Keeps SweepFree
    (fun _ post _ => Lifecycle false post) KeepsPublished :=
  keeps_lifecycle (fun _ _ _ h => h.1) fun _ _ _ h hsweep => by
    rw [h.2] at hsweep
    exact hsweep

theorem Due.of_life (h : Due now post) (hlife : life edited = life post) : Due now edited := by
  obtain ⟨hstatus, hlife⟩ := Prod.mk.inj hlife
  obtain ⟨hscheduledAt, -⟩ := Prod.mk.inj hlife
  rw [Due, hstatus, hscheduledAt]
  exact h

/-- The sweep sets the status of what is due. -/
theorem Due.life_sweep_ne (h : Due now post) : life (sweep now post) ≠ life post := by
  intro hlife
  have hstatus : BlogPostStatus.published = post.status := congrArg Prod.fst hlife
  rw [h.1] at hstatus
  cases hstatus

/-- The sweep plans to publish what was due when it read it. -/
theorem sweep_of_plans {P : Uuid → BlogPost → List Empty → Prop} {tenantId : Uuid}
    {w : PostWrite} (h : (posts sanitizeHtml stripHtml).Plans P (.sweep tenantId now) w) :
    ∃ read, w.change = .update read (sweep now read) ∧ Due now read := by
  obtain ⟨rows, writes, hrows, hplan, hw⟩ := h
  cases hplan
  obtain ⟨row, hrow, rfl⟩ := List.mem_map.1 hw
  have hloads : (row.2.tenantId = tenantId && Due now row.2) = true := (hrows row hrow).1
  exact ⟨row.2, rfl, of_decide_eq_true (Bool.and_eq_true_iff.1 hloads).2⟩

/-- What the sweep publishes was due. -/
theorem sweepsDue {s : State}
    (h : (posts sanitizeHtml stripHtml).machine.ReachVia (UnitOfWork.Meets Undisturbed) s) :
    SweepsDue s := by
  rintro t ⟨op, todo, effects⟩ tenantId now ht rfl id version post hdirty hpost
  obtain ⟨w, -, hplans, hmet⟩ := keeps_undisturbed.replaced h ht hdirty hpost
  obtain ⟨read, hchange, hdue⟩ := sweep_of_plans hplans
  rw [Undisturbed, hchange] at hmet
  exact hdue.of_life (hmet.resolve_left hdue.life_sweep_ne)

/-- **The life of a post.** Where every `UPDATE` that sets its status or a time of it meets them
as its session has read them, a published post has its publication time and keeps it, and the
sweep publishes what is still scheduled and due when it commits. As long as the sweep has
published nothing, exactly the scheduled posts have a go-live time. -/
theorem lifecycle {s s' : State}
    (h : (posts sanitizeHtml stripHtml).machine.ReachVia (UnitOfWork.Meets Undisturbed) s)
    (hlater : ((posts sanitizeHtml stripHtml).machine.startingAt s).ReachVia
      (UnitOfWork.Meets Undisturbed) s') :
    (∀ id post, s.table.rows id = some post →
      (post.status = .published → post.publishedAt.isSome) ∧
        ∃ post', s'.table.rows id = some post' ∧ KeepsPublished post post') ∧
      SweepsDue s ∧
      ((posts sanitizeHtml stripHtml).machine.ReachVia (UnitOfWork.Meets SweepFree) s →
        ∀ id post, s.table.rows id = some post →
          (post.scheduledAt.isSome ↔ post.status = .scheduled)) := by
  refine ⟨fun id post hpost => ?_, sweepsDue h, fun hfree id post hpost => ?_⟩
  · have hlife : Lifecycle true post := keeps_undisturbed.committed h hpost
    exact ⟨hlife.published, keeps_undisturbed.later h hlater hpost⟩
  · have hlife : Lifecycle false post := keeps_sweepFree.committed hfree hpost
    refine ⟨fun hsome => ?_, hlife.scheduled⟩
    exact (hlife.goLive hsome).resolve_right fun hswept => Bool.false_ne_true hswept.1

/-! ### Stale and overwritten posts -/

/-- The post 1 of the tenant 5, to go live at 100. -/
def announcement : Op :=
  .create 1 5 40 40 [] ⟨"news", [], none, [], none, [], none, none, .scheduled, some 100⟩

/-- One request, start to end. -/
def announced : List (UnitOfWork.Label Op) := [.load 0 announcement, .flush 0, .commit 0]

/-- With texts that need no cleaning. -/
abbrev blog : Machine State (UnitOfWork.Label Op) := (posts id id).machine

/-- The post is published at 60, taken back, and published once more: it keeps its first time. -/
theorem lifecycle_published : ∃ (s s' : State) (post post' : BlogPost),
    s.table.rows 1 = some post ∧ post.publishedAt = some 60 ∧
      (post.scheduledAt.isSome ↔ post.status = .scheduled) ∧ SweepsDue s ∧
      s'.table.rows 1 = some post' ∧ post'.status = .published ∧ post'.publishedAt = some 60 := by
  obtain ⟨s, s', hs, hs', hp⟩ := Machine.exists_later_of_runVia (M := blog)
    (G := UnitOfWork.Meets SweepFree) (s := .empty)
    (announced ++ [.load 1 (.publish 5 1 60), .flush 1, .commit 1])
    [.load 2 (.unpublish 5 1), .flush 2, .commit 2, .load 3 (.publish 5 1 90), .flush 3, .commit 3]
    (fun s s' => (s.table.rows 1).any (·.publishedAt = some 60) &&
      (s'.table.rows 1).any (·.status = .published)) rfl (by decide)
  obtain ⟨hfirst, hsecond⟩ := Bool.and_eq_true_iff.1 hp
  obtain ⟨post, hpost, htime⟩ := (Option.any_eq_true _ _).1 hfirst
  obtain ⟨post', hpost', hstatus⟩ := (Option.any_eq_true _ _).1 hsecond
  have htime : post.publishedAt = some 60 := of_decide_eq_true htime
  have hmeets : ∀ (s : State) (l : UnitOfWork.Label Op),
      UnitOfWork.Meets SweepFree s l → UnitOfWork.Meets Undisturbed s l :=
    fun s l => UnitOfWork.Meets.mono fun _ _ _ h => h.1
  obtain ⟨hpublished, hsweeps, hgoLive⟩ := lifecycle (hs.mono hmeets) (hs'.mono hmeets)
  obtain ⟨found, hfound, hkept⟩ := (hpublished 1 post hpost).2
  obtain rfl := Option.some.inj (hpost'.symm.trans hfound)
  exact ⟨s, s', post, post', hpost, htime, hgoLive hs 1 post hpost, hsweeps, hpost',
    of_decide_eq_true hstatus, hkept 60 htime⟩

/-- The sweep publishes the post and leaves its go-live time. -/
theorem stale_goLive : ¬ ∀ s, blog.Reachable s → ∀ id post, s.table.rows id = some post →
    (post.scheduledAt.isSome ↔ post.status = .scheduled) := by
  intro hclaim
  obtain ⟨s, hs, hp⟩ := Machine.exists_reachable_of_run (M := blog) (s := .empty)
    (announced ++ [.load 1 (.sweep 5 120), .flush 1, .commit 1])
    (fun s => (s.table.rows 1).any fun post =>
      post.scheduledAt.isSome && post.status = .published) rfl (by decide)
  obtain ⟨post, hpost, hp⟩ := (Option.any_eq_true _ _).1 hp
  obtain ⟨hsome, hstatus⟩ := Bool.and_eq_true_iff.1 hp
  have hscheduled : post.status = .scheduled := (hclaim s hs 1 post hpost).1 hsome
  rw [of_decide_eq_true hstatus] at hscheduled
  cases hscheduled

/-- Two calls have read the unpublished post, and each stamps it. -/
theorem stamped_twice : ¬ ∀ s s', blog.Reachable s → (blog.startingAt s).Reachable s' →
    ∀ id post post', s.table.rows id = some post → s'.table.rows id = some post' →
      KeepsPublished post post' := by
  intro hclaim
  obtain ⟨s, hs, hp⟩ := Machine.exists_reachable_of_run (M := blog) (s := .empty)
    (announced ++ [.load 1 (.publish 5 1 60), .load 2 (.publish 5 1 70), .flush 1, .commit 1,
      .flush 2])
    (fun s => ((s.table.rows 1).any fun post => post.publishedAt = some 60) &&
      (blog.step s (.commit 2)).any fun s' =>
        (s'.table.rows 1).any fun post => post.publishedAt = some 70) rfl (by decide)
  obtain ⟨hfirst, hsecond⟩ := Bool.and_eq_true_iff.1 hp
  obtain ⟨post, hpost, hsixty⟩ := (Option.any_eq_true _ _).1 hfirst
  obtain ⟨s', hs', hsecond⟩ := (Option.any_eq_true _ _).1 hsecond
  obtain ⟨post', hpost', hseventy⟩ := (Option.any_eq_true _ _).1 hsecond
  have hcommit : (blog.startingAt s).step s (.commit 2) = some s' := hs'
  have hlater : (blog.startingAt s).Reachable s' := .step (.init rfl) hcommit
  have hkept : 60 ∈ post'.publishedAt :=
    hclaim s s' hs hlater 1 post post' hpost hpost' 60 (of_decide_eq_true hsixty)
  cases hkept.symm.trans (of_decide_eq_true hseventy)

/-- The post is taken back to a draft after the sweep has read it. -/
theorem swept_draft : ¬ ∀ s, blog.Reachable s → SweepsDue s := by
  intro hclaim
  obtain ⟨s, hs, hp⟩ := Machine.exists_reachable_of_run (M := blog) (s := .empty)
    (announced ++ [.load 1 (.sweep 5 120), .load 2 (.unpublish 5 1), .flush 2, .commit 2,
      .flush 1])
    (fun s => ((s.table.rows 1).any fun post => post.status = .draft) &&
      ((s.table.dirty 1 1).isSome &&
        (s.txns 1).any fun session => session.op.isSweep)) rfl (by decide)
  obtain ⟨hdraft, hp⟩ := Bool.and_eq_true_iff.1 hp
  obtain ⟨hwritten, hp⟩ := Bool.and_eq_true_iff.1 hp
  obtain ⟨post, hpost, hdraft⟩ := (Option.any_eq_true _ _).1 hdraft
  obtain ⟨version, hdirty⟩ := Option.isSome_iff_exists.1 hwritten
  obtain ⟨session, ht, hop⟩ := (Option.any_eq_true _ _).1 hp
  cases hsweep : session.op with
  | sweep tenantId now =>
    have hdue : Due now post :=
      hclaim s hs 1 session tenantId now ht hsweep 1 version post hdirty hpost
    cases hdue.1.symm.trans (of_decide_eq_true hdraft)
  | _ =>
    rw [hsweep] at hop
    cases hop

/-- No part of the life of a post holds of every run. -/
theorem broken :
    (¬ ∀ s, blog.Reachable s → ∀ id post, s.table.rows id = some post →
      (post.scheduledAt.isSome ↔ post.status = .scheduled)) ∧
    (¬ ∀ s s', blog.Reachable s → (blog.startingAt s).Reachable s' →
      ∀ id post post', s.table.rows id = some post → s'.table.rows id = some post' →
        KeepsPublished post post') ∧
    ¬ ∀ s, blog.Reachable s → SweepsDue s :=
  ⟨stale_goLive, stamped_twice, swept_draft⟩

end Blog

end RealEstate
