import RealEstate.Media.Buckets

/-!
# Nothing is left behind

- `Intact`: the guard: no run crashes, no deletion is lost or refused.
- `Covered`: a ready row, a run or a task answers for an object.
- `published_objects`: what is in the public bucket was rendered from an image, and when all is
  quiet a ready row names it.
-/

namespace RealEstate

namespace Media

namespace Objects

open RealEstate.Core Listings Tenants Systems Function

variable {settings : MediaSettings} {imaging : Imaging} {s s' : Store}

/-- No run stops halfway, no task is lost, and the storage deletes every key that it is given. -/
def Intact (_ : Store) : Label → Prop
  | .crash _ | .lose _ => False
  | .work _ missed | .sweep _ _ missed => missed = []
  | _ => True

/-- By cases of the label. -/
instance (s : Store) : ∀ l, Decidable (Intact s l)
  | .crash _ | .lose _ => inferInstanceAs (Decidable False)
  | .work _ missed | .sweep _ _ missed => inferInstanceAs (Decidable (missed = []))
  | .request _ | .put .. | .snapshot .. => inferInstanceAs (Decidable True)

/-- Somebody answers for the object: a ready row, a run or a task. -/
inductive Covered (s : Store) (key : String) : Prop
  | named {j : Uuid} {m : ListingMedia} : s.rows.media.row j = some m →
    m.status = .ready → key ∈ m.variants → Covered s key
  | held {r : Nat} {run : Run} : s.runs r = some run → key ∈ run.keys → Covered s key
  | queued {t : List (BucketName × String)} : t ∈ s.tasks → (.media, key) ∈ t → Covered s key

/-- An original that passed the checks: within the cap, with the first bytes of its declared type,
which is an image's, and decoded as one. -/
structure Checked (settings : MediaSettings) (imaging : Imaging) (original : Bytes) : Prop where
  size : original.length ≤ settings.mediaMaxUploadBytes
  image : ∃ contentType, verifyMagic original contentType = .ok () ∧
    contentType ≠ "application/pdf"
  decodes : imaging.decodes original = true

/-- Bytes that libvips wrote of such a file, at one of the widths and in one of the formats. -/
def Rendered (settings : MediaSettings) (imaging : Imaging) (body : Bytes) : Prop :=
  ∃ original, Checked settings imaging original ∧ ∃ width ∈ variantWidths,
    ∃ extension ∈ extensions, body = imaging.render original width.2 extension

/-- Every published object is of a row, of a run, or of a deletion that is queued. -/
structure Tidy (settings : MediaSettings) (imaging : Imaging) (s : Store) : Prop where
  covered : ∀ key, (s.published key).isSome → Covered s key
  todo : ∀ r run todo processed, s.runs r = some run → run.phase = .putting todo processed →
    ∀ o ∈ todo, o.1 ∈ processed.variants ∧ Rendered settings imaging o.2
  rendered : ∀ key body, s.published key = some body → Rendered settings imaging body

theorem Tidy.start : Tidy settings imaging .start where
  covered _ h := by cases h
  todo _ _ _ _ h := by cases h
  rendered _ _ h := by cases h

/-- What a run is about to publish is a rendition of the original. -/
theorem inspect_rendered {base contentType : String} {object : Option Bytes}
    {objects : List (String × Bytes)} {processed : Processed}
    (h : inspect settings imaging base contentType object = .ok (objects, processed)) :
    ∀ o ∈ objects, o.1 ∈ processed.variants ∧ Rendered settings imaging o.2 := by
  unfold inspect at h
  cases object with
  | none => cases h
  | some original =>
    dsimp only at h
    split at h
    · cases h
    · next hsize =>
      -- The checks come one after the other: size, magic bytes, decoding.
      cases hmagic : verifyMagic original contentType with
      | error => simp only [hmagic, Except.bind, reduceCtorEq] at h
      | ok =>
        simp only [hmagic, Except.bind] at h
        split at h
        · cases h
          exact fun o ho => absurd ho List.not_mem_nil
        · next himage =>
          split at h
          · next hdecodes =>
            cases h
            refine fun o ho => ⟨List.mem_map_of_mem ho, ?_⟩
            -- Every rendition is of a width and an extension that the settings name.
            obtain ⟨width, hwidth, ho⟩ := List.mem_flatMap.1 ho
            obtain ⟨extension, hextension, rfl⟩ := List.mem_map.1 ho
            have hchecked : Checked settings imaging original :=
              ⟨Nat.not_lt.1 hsize, ⟨contentType, hmagic, himage⟩, hdecodes⟩
            exact ⟨original, hchecked, width, hwidth, extension, hextension, rfl⟩
          · cases h

/-- A request moves no object: what a deleted row named is queued. -/
theorem Tidy.request (h : Tidy settings imaging s) (hrequest : Requested s s') :
    Tidy settings imaging s' := by
  cases hrequest with
  | @registered mediaId _ _ hnew hmedia =>
    refine ⟨fun key hkey => ?_, h.todo, h.rendered⟩
    cases h.covered key hkey with
    | @named j m hrow hready hmem =>
      have hj : j ≠ mediaId := fun hj => hnew (hj ▸ s.rows.media.row_keys hrow)
      refine .named (j := j) ?_ hready hmem
      show (State.media _).row j = some m
      rw [hmedia, Rows.row_put_of_ne _ _ hj]
      exact hrow
    | held hr hmem => exact .held hr hmem
    | queued ht hmem => exact .queued ht hmem
  | @confirmed mediaId _ _ hold hpending hmedia =>
    refine ⟨fun key hkey => ?_, h.todo, h.rendered⟩
    cases h.covered key hkey with
    | @named j m hrow hready hmem =>
      -- The confirmed row was pending, and a ready row covers.
      have hj : j ≠ mediaId := fun hj => by
        rw [hj, hold] at hrow
        cases hrow
        cases hready.symm.trans hpending
      refine .named (j := j) ?_ hready hmem
      show (State.media _).row j = some m
      rw [hmedia, Rows.row_put_of_ne _ _ hj]
      exact hrow
    | held hr hmem => exact .held hr hmem
    | queued ht hmem => exact .queued ht hmem
  | @deleted mediaId m _ _ hold hmedia _ _ hqueue hobjects =>
    refine ⟨fun key hkey => ?_, h.todo, h.rendered⟩
    cases h.covered key hkey with
    | @named j m' hrow hready hmem =>
      by_cases hj : j = mediaId
      · -- The deleted row's keys go to the queue.
        rw [hj, hold] at hrow
        cases hrow
        obtain ⟨task, htask, hmem⟩ := hobjects (.media, key)
          (List.mem_append_right _ (List.mem_map_of_mem hmem))
        exact .queued htask hmem
      · refine .named (j := j) ?_ hready hmem
        show (State.media _).row j = some m'
        rw [hmedia]
        exact (update_of_ne hj ..).trans hrow
    | held hr hmem => exact .held hr hmem
    | queued ht hmem => exact .queued (hqueue _ ht) hmem

/-- A mark that leaves ready rows as they are. -/
theorem Covered.mark {rows : State} {mediaId : Uuid} {f : ListingMedia → ListingMedia}
    (hmark : s.rows.mark mediaId f = some rows)
    (hf : ∀ m, m.status = .ready → f m = m) {j : Uuid} {m : ListingMedia}
    (hrow : s.rows.media.row j = some m) (hready : m.status = .ready) :
    rows.media.row j = some m := by
  obtain ⟨hmedia, -⟩ := mark_eq_some hmark
  rw [hmedia]
  by_cases hj : j = mediaId
  · subst hj
    rw [hrow, Option.elim_some, Rows.row_put_self, hf m hready]
  · cases s.rows.media.row mediaId with
    | none => exact hrow
    | some m' =>
      rw [Option.elim_some, Rows.row_put_of_ne _ _ hj]
      exact hrow

/-- A step of run `r` that leaves the rows and the queue alone, or rewrites no ready row. -/
theorem Tidy.turn (h : Tidy settings imaging s) {r : Nat} {run : Run} (hr : s.runs r = some run)
    {next : Option Run} (hruns : s'.runs = update s.runs r next) (htasks : s'.tasks = s.tasks)
    (hrows : ∀ j m, s.rows.media.row j = some m → m.status = .ready →
      s'.rows.media.row j = some m)
    (hpublished : ∀ key, (s'.published key).isSome →
      (s.published key).isSome ∧ (key ∈ run.keys → Covered s' key) ∨ Covered s' key)
    (hnext : ∀ run' ∈ next, ∀ todo processed, run'.phase = .putting todo processed →
      ∀ o ∈ todo, o.1 ∈ processed.variants ∧ Rendered settings imaging o.2)
    (hrendered : ∀ key body, s'.published key = some body → Rendered settings imaging body) :
    Tidy settings imaging s' where
  covered key hkey := by
    rcases hpublished key hkey with ⟨hkey, hown⟩ | hcovered
    · -- A key that was covered stays so, unless this run held it and lets it go.
      cases h.covered key hkey with
      | named hrow hready hmem => exact .named (hrows _ _ hrow hready) hready hmem
      | @held r' run' hr' hmem =>
        by_cases hne : r' = r
        · subst hne
          cases hr.symm.trans hr'
          exact hown hmem
        · refine .held (r := r') ?_ hmem
          rw [hruns]
          exact (update_of_ne hne ..).trans hr'
      | queued ht hmem => exact .queued (htasks ▸ ht) hmem
    · exact hcovered
  todo r' run' todo processed hr' hphase := by
    rw [hruns] at hr'
    rcases Machine.update_cases hr' with ⟨-, hrun⟩ | ⟨-, hr'⟩
    · exact hnext run' hrun todo processed hphase
    · exact h.todo r' run' todo processed hr' hphase
  rendered := hrendered

/-- A step of a run that holds no objects, and that leaves the bucket alone. -/
theorem Tidy.idle (h : Tidy settings imaging s) {r : Nat} {run : Run} (hr : s.runs r = some run)
    (hnone : run.keys = []) {next : Option Run} (hruns : s'.runs = update s.runs r next)
    (htasks : s'.tasks = s.tasks) (hpublished : s'.published = s.published)
    (hrows : ∀ j m, s.rows.media.row j = some m → m.status = .ready →
      s'.rows.media.row j = some m)
    (hnext : ∀ run' ∈ next, ∀ todo processed, run'.phase = .putting todo processed →
      ∀ o ∈ todo, o.1 ∈ processed.variants ∧ Rendered settings imaging o.2) :
    Tidy settings imaging s' := by
  refine h.turn hr hruns htasks hrows (fun key hkey => .inl ?_) hnext (hpublished ▸ h.rendered)
  rw [hpublished] at hkey
  exact ⟨hkey, fun hmem => absurd (hnone ▸ hmem) List.not_mem_nil⟩

/-- What is left after a deletion. -/
theorem of_deleteObjects {bucket : Bucket} {keys : List String} {key : String} {body : Bytes}
    (h : deleteObjects [] bucket keys key = some body) : key ∉ keys ∧ bucket key = some body := by
  rw [deleteObjects_apply] at h
  obtain ⟨hkept, hbody⟩ := Option.ite_none_left_eq_some.1 h
  exact ⟨fun hkey => hkept ⟨hkey, List.not_mem_nil⟩, hbody⟩

theorem Tidy.work (h : Tidy settings imaging s) {r : Nat} {run : Run} (hr : s.runs r = some run)
    (hwork : s.work settings imaging r run [] = some s') : Tidy settings imaging s' := by
  cases hphase : run.phase with
  | fetching =>
    have hnone : run.keys = [] := by rw [Run.keys, hphase]
    rw [Store.work, hphase] at hwork
    dsimp only at hwork
    split at hwork
    · -- What is to be put was rendered from a checked original.
      next objects processed hinspect =>
      cases hwork
      refine h.idle hr hnone rfl rfl rfl (fun _ _ hrow _ => hrow) ?_
      rintro _ ⟨⟩ _ _ ⟨⟩
      exact inspect_rendered hinspect
    · cases hwork
      refine h.idle hr hnone rfl rfl rfl (fun _ _ hrow _ => hrow) ?_
      rintro _ ⟨⟩ _ _ ⟨⟩
  | putting todo processed =>
    have hkeys : run.keys = processed.variants := by rw [Run.keys, hphase]
    rw [Store.work, hphase] at hwork
    cases todo with
    | cons object todo =>
      obtain ⟨key, body⟩ := object
      cases hwork
      have htodo := h.todo r run _ _ hr hphase
      -- The run holds the keys of everything it renders, before and after each put.
      have hheld : ∀ key' ∈ processed.variants,
          Covered ({ s with published := update s.published key (some body) }.goes r run
            (.putting todo processed)) key' := fun key' hkey' =>
        .held (update_self r _ s.runs) hkey'
      refine h.turn hr rfl rfl (fun _ _ hrow _ => hrow) (fun key' hkey' => ?_) ?_ ?_
      · by_cases heq : key' = key
        · exact .inr (hheld key' (heq ▸ (htodo _ List.mem_cons_self).1))
        · refine .inl ⟨?_, fun hmem => hheld key' (hkeys ▸ hmem)⟩
          exact (congrArg Option.isSome (update_of_ne heq ..)).symm.trans hkey'
      · rintro _ ⟨⟩ _ _ ⟨⟩
        exact fun o ho => htodo o (List.mem_cons_of_mem _ ho)
      · intro key' body' hbody
        rcases Machine.update_cases hbody with ⟨-, hbody⟩ | ⟨-, hbody⟩
        · cases hbody
          exact (htodo _ List.mem_cons_self).2
        · exact h.rendered key' body' hbody
    | nil =>
      obtain ⟨rows, hmark, hwork⟩ := Option.map_eq_some_iff.1 hwork
      have hready : ∀ j m, s.rows.media.row j = some m → m.status = .ready →
          rows.media.row j = some m := fun j m => Covered.mark hmark fun m hm => by
        rw [ListingMedia.markReady, hm]
        rfl
      split at hwork
      · next hstatus =>
        -- The row takes the keys over from the run.
        cases hwork
        obtain ⟨m, hrow, hprocessing⟩ := (Option.any_eq_true _ _).1 hstatus
        refine h.turn hr rfl rfl hready (fun key hkey => .inl ⟨hkey, fun hmem => ?_⟩)
          (by rintro _ ⟨⟩) h.rendered
        refine .named (j := run.mediaId) (m := m.markReady processed) ?_ ?_ ?_
        · show rows.media.row run.mediaId = _
          rw [(mark_eq_some hmark).1, hrow, Option.elim_some, Rows.row_put_self]
        · rw [ListingMedia.markReady, if_pos (of_decide_eq_true hprocessing)]
        · rw [ListingMedia.markReady, if_pos (of_decide_eq_true hprocessing)]
          exact hkeys ▸ hmem
      · -- The row is gone: the run keeps its keys, and cleans up next.
        cases hwork
        refine h.turn hr rfl rfl hready (fun key hkey => .inl ⟨hkey, fun hmem => ?_⟩)
          (by rintro _ ⟨⟩ _ _ ⟨⟩) h.rendered
        exact .held (update_self r _ s.runs) (hkeys ▸ hmem)
  | rejecting reason =>
    have hnone : run.keys = [] := by rw [Run.keys, hphase]
    rw [Store.work, hphase] at hwork
    cases hwork
    exact h.idle hr hnone rfl rfl rfl (fun _ _ hrow _ => hrow) (by rintro _ ⟨⟩ _ _ ⟨⟩)
  | failing reason =>
    have hnone : run.keys = [] := by rw [Run.keys, hphase]
    rw [Store.work, hphase] at hwork
    obtain ⟨rows, hmark, rfl⟩ := Option.map_eq_some_iff.1 hwork
    refine h.idle hr hnone rfl rfl rfl (fun j m => Covered.mark hmark fun m hm => ?_)
      (by rintro _ ⟨⟩)
    rw [ListingMedia.markFailed, hm]
    rfl
  | cleaning keys =>
    have hkeys : run.keys = keys := by rw [Run.keys, hphase]
    rw [Store.work, hphase] at hwork
    cases hwork
    refine h.turn hr rfl rfl (fun _ _ hrow _ => hrow) (fun key hkey => .inl ?_) (by rintro _ ⟨⟩)
      fun key body hbody => h.rendered key body (of_deleteObjects hbody).2
    obtain ⟨body, hbody⟩ := Option.isSome_iff_exists.1 hkey
    obtain ⟨hmem, hbody⟩ := of_deleteObjects hbody
    exact ⟨Option.isSome_iff_exists.2 ⟨body, hbody⟩, fun hown => absurd (hkeys ▸ hown) hmem⟩

theorem Tidy.sweep (h : Tidy settings imaging s) {i : Nat} {acknowledged : Bool}
    (hsweep : s.sweep i acknowledged [] = some s') : Tidy settings imaging s' := by
  obtain ⟨task, htask, rfl⟩ := Option.map_eq_some_iff.1 hsweep
  have hleft : ∀ key, (deleteObjects [] s.published (keysIn .media task) key).isSome →
      (s.published key).isSome ∧ (.media, key) ∉ task := fun key hkey => by
    obtain ⟨body, hbody⟩ := Option.isSome_iff_exists.1 hkey
    obtain ⟨hmem, hbody⟩ := of_deleteObjects hbody
    refine ⟨Option.isSome_iff_exists.2 ⟨body, hbody⟩, fun hin => hmem ?_⟩
    exact List.mem_map.2 ⟨_, List.mem_filter.2 ⟨hin, decide_eq_true rfl⟩, rfl⟩
  refine ⟨fun key hkey => ?_, h.todo, fun key body hbody =>
    h.rendered key body (of_deleteObjects hbody).2⟩
  obtain ⟨hkey, hnot⟩ := hleft key hkey
  cases h.covered key hkey with
  | named hrow hready hmem => exact .named hrow hready hmem
  | held hr hmem => exact .held hr hmem
  | @queued task' ht hmem =>
    refine .queued (t := task') ?_ hmem
    dsimp only
    split
    · obtain ⟨j, hj⟩ := List.mem_iff_getElem?.1 ht
      -- A key of another task stays queued: the executed one is taken out alone.
      refine List.mem_eraseIdx_iff_getElem?.2 ⟨j, fun hij => hnot ?_, hj⟩
      rw [hij, htask] at hj
      cases hj
      exact hmem
    · exact ht

theorem buckets_tidy (settings : MediaSettings) (imaging : Imaging) :
    (buckets settings imaging).Inductive Intact (Tidy settings imaging) where
  init s hs := hs ▸ .start
  step s l s' h hG hst := by
    cases l with
    | request label => exact h.request (requested_of_request hst)
    | put tenantId listingId mediaId body =>
      cases hst
      refine ⟨fun key hkey => ?_, h.todo, h.rendered⟩
      cases h.covered key hkey with
      | named hrow hready hmem => exact .named hrow hready hmem
      | held hr hmem => exact .held hr hmem
      | queued ht hmem => exact .queued ht hmem
    | snapshot r mediaId =>
      obtain ⟨hnone, hst⟩ := Option.ite_none_right_eq_some.1 hst
      obtain ⟨m, hrow, hst⟩ := Option.bind_eq_some_iff.1 hst
      obtain ⟨storageKey, hkey, hst⟩ := Option.bind_eq_some_iff.1 hst
      obtain ⟨contentType, -, hst⟩ := Option.bind_eq_some_iff.1 hst
      obtain ⟨rows, hrows, rfl⟩ := Option.map_eq_some_iff.1 hst
      obtain ⟨-, hrows⟩ := Option.ite_none_right_eq_some.1 hrows
      cases hrows
      have hnone := Option.isNone_iff_eq_none.1 hnone
      refine ⟨fun key hkey => ?_, fun r' run' todo processed hr' hphase => ?_, h.rendered⟩
      · cases h.covered key hkey with
        | named hrow hready hmem => exact .named hrow hready hmem
        | @held r' run' hr' hmem =>
          have hne : r' ≠ r := fun hne => by
            rw [hne, hnone] at hr'
            cases hr'
          exact .held ((update_of_ne hne ..).trans hr') hmem
        | queued ht hmem => exact .queued ht hmem
      · rcases Machine.update_cases hr' with ⟨-, hrun⟩ | ⟨-, hr'⟩
        · cases hrun
          cases hphase
        · exact h.todo r' run' todo processed hr' hphase
    | work r missed =>
      cases hG
      obtain ⟨run, hr, hst⟩ := Option.bind_eq_some_iff.1 hst
      exact h.work hr hst
    | crash r | lose i => exact hG.elim
    | sweep i acknowledged missed =>
      cases hG
      exact h.sweep hst

end Objects

end Media

end RealEstate
