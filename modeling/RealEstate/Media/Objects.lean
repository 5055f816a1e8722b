import RealEstate.Media.Buckets

/-!
# Ready media are served

- `Alone`: the guard: a run starts only while no other run of that media is under way.
- `RunInv`: while a run is under way only a deletion touches its row.
- `ready_objects`: every object that a ready row names is there.
- `double_delivery`: two runs of one media, and a ready photo whose objects are gone.
-/

namespace RealEstate

namespace Media

namespace Objects

open RealEstate.Core Listings Tenants Systems Function

variable {settings : MediaSettings} {imaging : Imaging} {s s' : Store} {missed : List String}

/-- No two runs of one media overlap. -/
def Alone (s : Store) : Label → Prop
  | .snapshot _ mediaId => mediaId ∉ s.rows.running
  | _ => True

/-- By cases of the label. -/
instance (s : Store) : ∀ l, Decidable (Alone s l)
  | .snapshot _ mediaId => inferInstanceAs (Decidable (mediaId ∉ s.rows.running))
  | .request _ | .put .. | .work .. | .crash _ | .sweep .. | .lose _ =>
    inferInstanceAs (Decidable True)

/-! ### Rows, runs and tasks -/

/-- The objects of the media are at least those there were, and its row is the same. -/
def Kept (s s' : Store) (mediaId : Uuid) : Prop :=
  s'.rows.media.row mediaId = s.rows.media.row mediaId ∧ ∀ key, Under mediaId key →
    ((s.docs key).isSome → (s'.docs key).isSome) ∧
      ((s.published key).isSome → (s'.published key).isSome)

/-- A row names objects of its own, and those of a ready row are there. -/
structure RowInv (s : Store) (mediaId : Uuid) (m : ListingMedia) : Prop where
  original : ∀ key ∈ m.storageKey, Under mediaId key
  variants : ∀ key ∈ m.variants, Under mediaId key
  ready : m.status = .ready →
    (∀ key ∈ m.variants, (s.published key).isSome) ∧ ∀ key ∈ m.storageKey, (s.docs key).isSome

/-- The row of a run as the snapshot saw it, and what the run has put. -/
structure Live (s : Store) (run : Run) : Prop where
  row : ∃ m, s.rows.media.row run.mediaId = some m ∧ m.status = .processing ∧
    m.storageKey = some run.storageKey
  put : ∀ todo processed, run.phase = .putting todo processed →
    (s.docs run.storageKey).isSome ∧
      ∀ key ∈ processed.variants, key ∈ todo.map Prod.fst ∨ (s.published key).isSome

/-- While a run is under way only a deletion touches its row. -/
structure RunInv (s : Store) (run : Run) : Prop where
  base : ∃ tenantId listingId, run.base = keyPrefix tenantId listingId run.mediaId
  original : Under run.mediaId run.storageKey
  keys : ∀ key ∈ run.keys, Under run.mediaId key
  running : run.active → run.mediaId ∈ s.rows.running
  row : Gone s run.mediaId ∨ (run.active ∧ Live s run)

/-- The invariant. -/
structure Inv (s : Store) : Prop where
  rows : ∀ mediaId m, s.rows.media.row mediaId = some m → RowInv s mediaId m
  runs : ∀ r run, s.runs r = some run → RunInv s run
  alone : ∀ r r' run run', s.runs r = some run → s.runs r' = some run' → run.active →
    run'.active → run.mediaId = run'.mediaId → r = r'
  tasks : ∀ task ∈ s.tasks, ∀ o ∈ task, ∃ mediaId, Under mediaId o.2 ∧ Gone s mediaId

theorem Inv.start : Inv .start where
  rows _ _ h := by cases h
  runs _ _ h := by cases h
  alone _ _ _ _ h := by cases h
  tasks _ h := absurd h List.not_mem_nil

theorem RowInv.kept {mediaId : Uuid} {m : ListingMedia} (h : RowInv s mediaId m)
    (hkept : Kept s s' mediaId) : RowInv s' mediaId m where
  original := h.original
  variants := h.variants
  ready hready :=
    ⟨fun key hkey => (hkept.2 key (h.variants key hkey)).2 ((h.ready hready).1 key hkey),
      fun key hkey => (hkept.2 key (h.original key hkey)).1 ((h.ready hready).2 key hkey)⟩

/-- A run whose row is gone, or stays. -/
theorem RunInv.kept {run : Run} (h : RunInv s run)
    (hgone : Gone s run.mediaId → Gone s' run.mediaId)
    (hkept : Gone s' run.mediaId ∨ Kept s s' run.mediaId)
    (hrunning : run.active → run.mediaId ∈ s'.rows.running) : RunInv s' run where
  base := h.base
  original := h.original
  keys := h.keys
  running := hrunning
  row := by
    rcases h.row with hgone' | ⟨hactive, hlive⟩
    · exact .inl (hgone hgone')
    · refine hkept.imp_right fun hkept => ⟨hactive, ?_, ?_⟩
      · rw [hkept.1]
        exact hlive.row
      · intro todo processed hphase
        obtain ⟨hdocs, hput⟩ := hlive.put todo processed hphase
        have hkeys : ∀ key ∈ processed.variants, Under run.mediaId key := fun key hkey =>
          h.keys key (by rw [Run.keys, hphase]; exact hkey)
        exact ⟨(hkept.2 _ h.original).1 hdocs, fun key hkey =>
          (hput key hkey).imp_right (hkept.2 key (hkeys key hkey)).2⟩

/-- The media of a run was registered. -/
theorem RunInv.mem_keys {run : Run} (h : RunInv s run) : run.mediaId ∈ s.rows.media.keys := by
  rcases h.row with hgone | ⟨-, hlive⟩
  · exact hgone.1
  · obtain ⟨m, hrow, -⟩ := hlive.row
    exact s.rows.media.row_keys hrow

/-- Another run is about another media, unless that is gone. -/
theorem Inv.apart (h : Inv s) {r r' : Nat} {run run' : Run} (hr : s.runs r = some run)
    (hr' : s.runs r' = some run') (hne : r' ≠ r) :
    run'.mediaId ≠ run.mediaId ∨ Gone s run'.mediaId := by
  by_contra hboth
  rw [not_or, not_not] at hboth
  obtain ⟨hid, hgone⟩ := hboth
  obtain ⟨hactive', -⟩ := (h.runs r' run' hr').row.resolve_left hgone
  obtain ⟨hactive, -⟩ := (h.runs r run hr).row.resolve_left (hid ▸ hgone)
  exact hne (h.alone r' r run' run hr' hr hactive' hactive hid)

/-- What a step owes the invariant: nothing for what it keeps. -/
theorem Inv.move (h : Inv s) (hgone : ∀ mediaId, Gone s mediaId → Gone s' mediaId)
    (hrows : ∀ mediaId m, s'.rows.media.row mediaId = some m →
      Kept s s' mediaId ∨ RowInv s' mediaId m)
    (hruns : ∀ r run, s'.runs r = some run → RunInv s' run ∨
      (s.runs r = some run ∧ (Gone s' run.mediaId ∨ Kept s s' run.mediaId) ∧
        (run.active → run.mediaId ∈ s'.rows.running)))
    (halone : ∀ r r' run run', s'.runs r = some run → s'.runs r' = some run' → run.active →
      run'.active → run.mediaId = run'.mediaId → r = r')
    (htasks : ∀ task ∈ s'.tasks, task ∈ s.tasks ∨
      ∀ o ∈ task, ∃ mediaId, Under mediaId o.2 ∧ Gone s' mediaId) : Inv s' where
  rows mediaId m hrow := by
    rcases hrows mediaId m hrow with hkept | hrow'
    · exact (h.rows mediaId m (hkept.1 ▸ hrow)).kept hkept
    · exact hrow'
  runs r run hr := by
    rcases hruns r run hr with hrun | ⟨hr, hkept, hrunning⟩
    · exact hrun
    · exact (h.runs r run hr).kept (hgone _) hkept hrunning
  alone := halone
  tasks task ht o ho := by
    rcases htasks task ht with ht | ht
    · obtain ⟨mediaId, hunder, hgone'⟩ := h.tasks task ht o ho
      exact ⟨mediaId, hunder, hgone _ hgone'⟩
    · exact ht o ho

theorem Kept.of_row {mediaId : Uuid} (hrow : s'.rows.media.row mediaId = s.rows.media.row mediaId)
    (hdocs : s'.docs = s.docs) (hpublished : s'.published = s.published) :
    Kept s s' mediaId := by
  refine ⟨hrow, fun key _ => ?_⟩
  rw [hdocs, hpublished]
  exact ⟨id, id⟩

theorem Inv.request (h : Inv s) (hrequest : Requested s s') : Inv s' := by
  cases hrequest with
  | @registered mediaId m rows hnew hmedia hrunning horiginal hvariants hready =>
    have hsame : ∀ j, j ≠ mediaId → rows.media.row j = s.rows.media.row j := fun j hj => by
      rw [hmedia, Rows.row_put_of_ne _ _ hj]
    refine h.move (fun j hgone => ?_) (fun j m' hrow => ?_) (fun r run hr => .inr ⟨hr, .inr ?_, ?_⟩)
      h.alone fun task ht => .inl ht
    · have hj : j ≠ mediaId := fun hj => hnew (hj ▸ hgone.1)
      exact ⟨by rw [hmedia]; exact Rows.mem_keys_put.2 (.inr hgone.1),
        (hsame j hj).trans hgone.2⟩
    · by_cases hj : j = mediaId
      · subst hj
        obtain rfl : m = m' := by
          rw [hmedia, Rows.row_put_self] at hrow
          exact Option.some.inj hrow
        refine .inr ⟨horiginal, ?_, fun hstatus => ?_⟩
        · rw [hvariants]
          exact fun key hkey => absurd hkey List.not_mem_nil
        · rw [hvariants, hready hstatus]
          exact ⟨fun key hkey => absurd hkey List.not_mem_nil, by rintro _ ⟨⟩⟩
      · exact .inl (.of_row (hsame j hj) rfl rfl)
    · have hj : run.mediaId ≠ mediaId := fun hj => hnew (hj ▸ (h.runs r run hr).mem_keys)
      exact .of_row (hsame _ hj) rfl rfl
    · rw [hrunning]
      exact (h.runs r run hr).running
  | @confirmed mediaId m rows hrow hpending hmedia hrunning =>
    have hsame : ∀ j, j ≠ mediaId → rows.media.row j = s.rows.media.row j := fun j hj => by
      rw [hmedia, Rows.row_put_of_ne _ _ hj]
    refine h.move (fun j hgone => ?_) (fun j m' hrow' => ?_)
      (fun r run hr => .inr ⟨hr, .inr ?_, ?_⟩) h.alone fun task ht => .inl ht
    · have hj : j ≠ mediaId := fun hj => by
        rw [hj, Gone, hrow] at hgone
        cases hgone.2
      exact ⟨by rw [hmedia]; exact Rows.mem_keys_put.2 (.inr hgone.1),
        (hsame j hj).trans hgone.2⟩
    · by_cases hj : j = mediaId
      · subst hj
        rw [hmedia, Rows.row_put_self] at hrow'
        cases hrow'
        have hold := h.rows j m hrow
        exact .inr ⟨hold.original, hold.variants, by rintro ⟨⟩⟩
      · exact .inl (.of_row (hsame j hj) rfl rfl)
    · -- The row of a run is not pending.
      have hj : run.mediaId ≠ mediaId := fun hj => by
        rcases (h.runs r run hr).row with hgone | ⟨-, hlive⟩
        · rw [hj, Gone, hrow] at hgone
          cases hgone.2
        · obtain ⟨m', hrow', hprocessing, -⟩ := hlive.row
          rw [hj, hrow] at hrow'
          cases hrow'
          rw [hpending] at hprocessing
          cases hprocessing
      exact .of_row (hsame _ hj) rfl rfl
    · rw [hrunning]
      exact (h.runs r run hr).running
  | @deleted mediaId m rows tasks hrow hmedia hrunning htasks =>
    have hsame : ∀ j, j ≠ mediaId → rows.media.row j = s.rows.media.row j := fun j hj => by
      rw [hmedia]
      exact update_of_ne hj ..
    have hdeleted : rows.media.row mediaId = none := by
      rw [hmedia]
      exact update_self ..
    have hkeys : rows.media.keys = s.rows.media.keys := by
      rw [hmedia]
      rfl
    have hgone : Gone { s with rows, tasks } mediaId :=
      ⟨hkeys ▸ s.rows.media.row_keys hrow, hdeleted⟩
    refine h.move (fun j hj => ?_) (fun j m' hrow' => .inl ?_)
      (fun r run hr => .inr ⟨hr, ?_, ?_⟩) h.alone fun task ht => ?_
    · by_cases hid : j = mediaId
      · exact hid ▸ hgone
      · exact ⟨hkeys ▸ hj.1, (hsame j hid).trans hj.2⟩
    · have hj : j ≠ mediaId := fun hj => by
        rw [hj] at hrow'
        cases hdeleted.symm.trans hrow'
      exact .of_row (hsame j hj) rfl rfl
    · by_cases hid : run.mediaId = mediaId
      · exact .inl (hid ▸ hgone)
      · exact .inr (.of_row (hsame _ hid) rfl rfl)
    · rw [hrunning]
      exact (h.runs r run hr).running
    · rcases htasks task ht with hold | rfl
      · exact .inl hold
      · -- The queued keys are those of the row deleted.
        refine .inr fun o ho => ⟨mediaId, ?_, hgone⟩
        have hrowInv := h.rows mediaId m hrow
        rcases List.mem_append.1 ho with ho | ho
        · obtain ⟨key, hkey, rfl⟩ := List.mem_map.1 ho
          exact hrowInv.original key (Option.mem_toList.1 hkey)
        · obtain ⟨key, hkey, rfl⟩ := List.mem_map.1 ho
          exact hrowInv.variants key hkey

/-- A step of run `r`, which touches nothing but its media. -/
theorem Inv.turn (h : Inv s) {r : Nat} {run : Run} (hr : s.runs r = some run) {next : Option Run}
    (hruns : s'.runs = update s.runs r next) (hgone : ∀ j, Gone s j → Gone s' j)
    (hkept : ∀ j, j ≠ run.mediaId → Kept s s' j)
    (hrow : ∀ m, s'.rows.media.row run.mediaId = some m →
      Kept s s' run.mediaId ∨ RowInv s' run.mediaId m)
    (hrunning : s'.rows.running = s.rows.running ∨
      (run.active ∧ s'.rows.running = s.rows.running.erase run.mediaId))
    (hnext : ∀ run' ∈ next, RunInv s' run' ∧ run'.mediaId = run.mediaId ∧
      (run'.active → run.active)) (htasks : s'.tasks = s.tasks) : Inv s' := by
  have hcases : ∀ {r' run'}, s'.runs r' = some run' →
      (r' = r ∧ run' ∈ next) ∨ (r' ≠ r ∧ s.runs r' = some run') := fun hr' => by
    rw [hruns] at hr'
    exact Machine.update_cases hr'
  refine h.move hgone (fun j m hm => ?_) (fun r' run' hr' => ?_) (fun r₁ r₂ run₁ run₂ h₁ h₂ => ?_)
    fun task ht => .inl (htasks ▸ ht)
  · by_cases hj : j = run.mediaId
    · subst hj
      exact hrow m hm
    · exact .inl (hkept j hj)
  · rcases hcases hr' with ⟨-, hmem⟩ | ⟨hne, hold⟩
    · exact .inl (hnext run' hmem).1
    · refine .inr ⟨hold, ?_, fun hactive => ?_⟩
      · -- Another run is of another row, or its row is gone.
        rcases h.apart hr hold hne with hid | hgone'
        · exact .inr (hkept _ hid)
        · exact .inl (hgone _ hgone')
      · have hmem := (h.runs r' run' hold).running hactive
        rcases hrunning with heq | ⟨hown, heq⟩
        · exact heq ▸ hmem
        · -- Two active runs are of different rows, so the other's mark stays.
          have hid : run'.mediaId ≠ run.mediaId := fun hid =>
            hne (h.alone r' r run' run hold hr hactive hown hid)
          rw [heq, List.mem_erase_of_ne hid]
          exact hmem
  · intro hactive₁ hactive₂ hid
    rcases hcases h₁ with ⟨rfl, hmem₁⟩ | ⟨hne₁, hold₁⟩ <;>
      rcases hcases h₂ with ⟨rfl, hmem₂⟩ | ⟨hne₂, hold₂⟩
    · rfl
    · obtain ⟨-, hsame, hback⟩ := hnext run₁ hmem₁
      exact h.alone r₁ r₂ run run₂ hr hold₂ (hback hactive₁) hactive₂ (hsame ▸ hid)
    · obtain ⟨-, hsame, hback⟩ := hnext run₂ hmem₂
      exact h.alone r₁ r₂ run₁ run hold₁ hr hactive₁ (hback hactive₂) (hid.trans hsame)
    · exact h.alone r₁ r₂ run₁ run₂ hold₁ hold₂ hactive₁ hactive₂ hid

/-- A run reads the original. -/
theorem Inv.fetch (h : Inv s) {r : Nat} {run : Run} (hr : s.runs r = some run)
    (hphase : run.phase = .fetching) (hwork : s.work settings imaging r run missed = some s') :
    Inv s' := by
  have hrun := h.runs r run hr
  have hactive : run.active := by rw [Run.active, hphase]
  rw [Store.work, hphase] at hwork
  dsimp only at hwork
  split at hwork
  · -- The originals pass the checks: the renditions are named under the row's prefix.
    next objects processed hinspect =>
    cases hwork
    obtain ⟨tenantId, listingId, hbase⟩ := hrun.base
    rw [hbase] at hinspect
    obtain ⟨hobject, hvariants, hunder⟩ := inspect_ok hinspect
    refine h.turn hr rfl (fun _ hj => hj) (fun _ _ => .of_row rfl rfl rfl)
      (fun _ _ => .inl (.of_row rfl rfl rfl)) (.inl rfl) ?_ rfl
    rintro _ ⟨⟩
    refine ⟨⟨hrun.base, hrun.original, fun key hkey => ?_, fun _ => hrun.running hactive, ?_⟩,
      rfl, fun _ => hactive⟩
    · have hkey : key ∈ processed.variants := hkey
      rw [hvariants] at hkey
      obtain ⟨o, ho, rfl⟩ := List.mem_map.1 hkey
      exact hunder o ho
    · refine hrun.row.imp_right fun hlive => ⟨rfl, hlive.2.row, ?_⟩
      rintro _ _ ⟨⟩
      exact ⟨hobject, fun key hkey => .inl (hvariants ▸ hkey)⟩
  · cases hwork
    refine h.turn hr rfl (fun _ hj => hj) (fun _ _ => .of_row rfl rfl rfl)
      (fun _ _ => .inl (.of_row rfl rfl rfl)) (.inl rfl) ?_ rfl
    rintro _ ⟨⟩
    refine ⟨⟨hrun.base, hrun.original, fun key hkey => absurd hkey List.not_mem_nil,
      fun _ => hrun.running hactive, ?_⟩, rfl, fun _ => hactive⟩
    exact hrun.row.imp_right fun hlive => ⟨rfl, hlive.2.row, by rintro _ _ ⟨⟩⟩

/-- It publishes one rendition. -/
theorem Inv.put (h : Inv s) {r : Nat} {run : Run} (hr : s.runs r = some run) {key : String}
    {body : Bytes} {todo : List (String × Bytes)} {processed : Processed}
    (hphase : run.phase = .putting ((key, body) :: todo) processed) :
    Inv ({ s with published := update s.published key (some body) }.goes r run
      (.putting todo processed)) := by
  have hrun := h.runs r run hr
  have hactive : run.active := by rw [Run.active, hphase]
  -- A put deletes nothing, so what was there is there.
  have hkept : ∀ j, Kept s ({ s with published := update s.published key (some body) }.goes r run
      (.putting todo processed)) j := fun j =>
    ⟨rfl, fun key' _ => ⟨id, isSome_update⟩⟩
  refine h.turn hr rfl (fun _ hj => hj) (fun j _ => hkept j) (fun _ _ => .inl (hkept _)) (.inl rfl)
    ?_ rfl
  rintro _ ⟨⟩
  refine ⟨⟨hrun.base, hrun.original, fun key' hkey' => hrun.keys key' ?_,
    fun _ => hrun.running hactive, ?_⟩, rfl, fun _ => hactive⟩
  · rw [Run.keys, hphase]
    exact hkey'
  · refine hrun.row.imp_right fun ⟨_, hlive⟩ => ⟨rfl, hlive.row, ?_⟩
    rintro _ _ ⟨⟩
    obtain ⟨hdocs, hput⟩ := hlive.put _ _ hphase
    refine ⟨hdocs, fun key' hkey' => ?_⟩
    rcases hput key' hkey' with htodo | hthere
    · -- The object just put is there, the others are still to come.
      rcases List.mem_cons.1 htodo with rfl | htodo
      · exact .inr (by
          show (update s.published key' (some body) key').isSome
          rw [update_self]
          rfl)
      · exact .inl htodo
    · exact .inr (isSome_update hthere)

/-- The marks end a run: they rewrite a row that is still being processed. -/
theorem Inv.mark (h : Inv s) {r : Nat} {run : Run} (hr : s.runs r = some run)
    (hactive : run.active) {rows : State} {f : ListingMedia → ListingMedia}
    (hmark : s.rows.mark run.mediaId f = some rows)
    (hrow : Live s run → ∀ m, s.rows.media.row run.mediaId = some m →
      RowInv s run.mediaId (f m)) : Inv ({ s with rows }.ends r) := by
  obtain ⟨hmedia, hrunning⟩ := mark_eq_some hmark
  have hsame : ∀ j, j ≠ run.mediaId → rows.media.row j = s.rows.media.row j := fun j hj => by
    rw [hmedia]
    cases s.rows.media.row run.mediaId with
    | none => rfl
    | some m => exact Rows.row_put_of_ne _ _ hj
  refine h.turn hr rfl (fun j hgone => ?_) (fun j hj => .of_row (hsame j hj) rfl rfl)
    (fun m hm => .inr ?_) (.inr ⟨hactive, hrunning⟩) (by rintro _ ⟨⟩) rfl
  · by_cases hj : j = run.mediaId
    · subst hj
      have hmedia : rows.media = s.rows.media := by rw [hmedia, hgone.2, Option.elim_none]
      show _ ∈ rows.media.keys ∧ rows.media.row _ = none
      rw [hmedia]
      exact hgone
    · refine ⟨?_, (hsame j hj).trans hgone.2⟩
      show j ∈ rows.media.keys
      rw [hmedia]
      cases s.rows.media.row run.mediaId with
      | none => exact hgone.1
      | some m => exact Rows.mem_keys_put.2 (.inr hgone.1)
  · have hm : rows.media.row run.mediaId = some m := hm
    rw [hmedia] at hm
    rcases (h.runs r run hr).row with hgone | ⟨-, hlive⟩
    · rw [hgone.2, Option.elim_none, hgone.2] at hm
      cases hm
    · obtain ⟨m', hrow', -⟩ := hlive.row
      rw [hrow', Option.elim_some, Rows.row_put_self] at hm
      cases hm
      have hnew := hrow hlive m' hrow'
      exact ⟨hnew.original, hnew.variants, hnew.ready⟩

/-- A run whose row was deleted meanwhile is left with its objects to clean. -/
theorem Inv.orphaned (h : Inv s) {r : Nat} {run : Run} (hr : s.runs r = some run)
    {processed : Processed} (hphase : run.phase = .putting [] processed) {rows : State}
    {f : ListingMedia → ListingMedia} (hmark : s.rows.mark run.mediaId f = some rows)
    (hstatus : ¬(s.rows.media.row run.mediaId).any (·.status = .processing)) :
    Inv ({ s with rows }.goes r run (.cleaning processed.variants)) := by
  have hrun := h.runs r run hr
  have hactive : run.active := by rw [Run.active, hphase]
  -- No row is processing, so it was deleted under the run.
  have hgone : Gone s run.mediaId := by
    refine hrun.row.resolve_right fun ⟨_, hlive⟩ => hstatus ?_
    obtain ⟨m, hrow, hprocessing, -⟩ := hlive.row
    rw [hrow, Option.any_some]
    exact decide_eq_true hprocessing
  obtain ⟨hmedia, hrunning⟩ := mark_eq_some hmark
  rw [hgone.2, Option.elim_none] at hmedia
  have hsame : ∀ j, rows.media.row j = s.rows.media.row j := fun j => by rw [hmedia]
  have hgone' : ∀ j, Gone s j →
      Gone ({ s with rows }.goes r run (.cleaning processed.variants)) j := fun j hj => by
      show j ∈ rows.media.keys ∧ rows.media.row j = none
      rw [hmedia]
      exact hj
  refine h.turn hr rfl hgone' (fun j _ => .of_row (hsame j) rfl rfl)
    (fun _ _ => .inl (.of_row (hsame _) rfl rfl)) (.inr ⟨hactive, hrunning⟩) ?_ rfl
  rintro _ ⟨⟩
  refine ⟨⟨hrun.base, hrun.original, fun key hkey => hrun.keys key ?_, (by rintro ⟨⟩),
    .inl (hgone' _ hgone)⟩, rfl, (by rintro ⟨⟩)⟩
  rw [Run.keys, hphase]
  exact hkey

/-- It deletes an original that is no image. -/
theorem Inv.reject (h : Inv s) {r : Nat} {run : Run} (hr : s.runs r = some run) {reason : String}
    (hphase : run.phase = .rejecting reason) :
    Inv ({ s with docs := deleteObjects missed s.docs [run.storageKey] }.goes r run
      (.failing reason)) := by
  have hrun := h.runs r run hr
  have hactive : run.active := by rw [Run.active, hphase]
  refine h.turn hr rfl (fun _ hj => hj) (fun j hj => ⟨rfl, fun key hkey => ⟨?_, id⟩⟩)
    (fun m hm => .inr ?_) (.inl rfl) ?_ rfl
  · refine isSome_deleteObjects fun hmem => hj ?_
    rw [List.mem_singleton.1 hmem] at hkey
    exact hkey.unique hrun.original
  · have hold := h.rows run.mediaId m hm
    refine ⟨hold.original, hold.variants, fun hready => ?_⟩
    -- The row is still the one that is being processed.
    rcases hrun.row with hgone | ⟨-, hlive⟩
    · cases hgone.2.symm.trans hm
    · obtain ⟨m', hrow, hprocessing, -⟩ := hlive.row
      cases hrow.symm.trans hm
      cases hready.symm.trans hprocessing
  · rintro _ ⟨⟩
    refine ⟨⟨hrun.base, hrun.original, fun key hkey => absurd hkey List.not_mem_nil,
      fun _ => hrun.running hactive, ?_⟩, rfl, fun _ => hactive⟩
    exact hrun.row.imp_right fun hlive => ⟨rfl, hlive.2.row, by rintro _ _ ⟨⟩⟩

/-- It cleans up after a row that has gone. -/
theorem Inv.clean (h : Inv s) {r : Nat} {run : Run} (hr : s.runs r = some run)
    {keys : List String} (hphase : run.phase = .cleaning keys) :
    Inv ({ s with published := deleteObjects missed s.published keys }.ends r) := by
  have hrun := h.runs r run hr
  have hgone : Gone s run.mediaId := by
    refine hrun.row.resolve_right fun ⟨hactive, _⟩ => ?_
    rw [Run.active, hphase] at hactive
    cases hactive
  refine h.turn hr rfl (fun _ hj => hj) (fun j hj => ⟨rfl, fun key hkey => ⟨id, ?_⟩⟩)
    (fun m hm => by cases hgone.2.symm.trans hm) (.inl rfl) (by rintro _ ⟨⟩) rfl
  refine isSome_deleteObjects fun hmem => hj (hkey.unique (hrun.keys key ?_))
  rw [Run.keys, hphase]
  exact hmem

theorem Inv.work (h : Inv s) {r : Nat} {run : Run} (hr : s.runs r = some run)
    (hwork : s.work settings imaging r run missed = some s') : Inv s' := by
  have hrun := h.runs r run hr
  cases hphase : run.phase with
  | fetching => exact h.fetch hr hphase hwork
  | putting todo processed =>
    rw [Store.work, hphase] at hwork
    cases todo with
    | cons object todo =>
      cases hwork
      exact h.put hr hphase
    | nil =>
      obtain ⟨rows, hmark, hwork⟩ := Option.map_eq_some_iff.1 hwork
      split at hwork
      · cases hwork
        refine h.mark hr (by rw [Run.active, hphase]) hmark fun hlive m hm => ?_
        obtain ⟨m', hrow, hprocessing, horiginal⟩ := hlive.row
        cases hrow.symm.trans hm
        obtain ⟨hdocs, hput⟩ := hlive.put _ _ hphase
        rw [ListingMedia.markReady, if_pos hprocessing]
        refine ⟨(h.rows _ m hm).original, fun key hkey => hrun.keys key ?_, fun _ => ⟨?_, ?_⟩⟩
        · rw [Run.keys, hphase]
          exact hkey
        · exact fun key hkey => (hput key hkey).resolve_left List.not_mem_nil
        · rintro key (hkey : m.storageKey = some key)
          cases horiginal.symm.trans hkey
          exact hdocs
      · -- Nobody names what was put, so the run deletes it.
        next hstatus =>
        cases hwork
        exact h.orphaned hr hphase hmark hstatus
  | rejecting reason =>
    rw [Store.work, hphase] at hwork
    cases hwork
    exact h.reject hr hphase
  | failing reason =>
    rw [Store.work, hphase] at hwork
    obtain ⟨rows, hmark, rfl⟩ := Option.map_eq_some_iff.1 hwork
    refine h.mark hr (by rw [Run.active, hphase]) hmark fun hlive m hm => ?_
    obtain ⟨m', hrow, hprocessing, -⟩ := hlive.row
    cases hrow.symm.trans hm
    rw [ListingMedia.markFailed, if_pos hprocessing]
    exact ⟨by rintro _ ⟨⟩, (h.rows _ m hm).variants, by rintro ⟨⟩⟩
  | cleaning keys =>
    rw [Store.work, hphase] at hwork
    cases hwork
    exact h.clean hr hphase

theorem Inv.crash (h : Inv s) {r : Nat} {run : Run} (hr : s.runs r = some run) :
    Inv (s.crash r run) := by
  refine h.turn hr rfl (fun _ hj => hj) (fun _ _ => .of_row rfl rfl rfl)
    (fun _ _ => .inl (.of_row rfl rfl rfl)) ?_ (by rintro _ ⟨⟩) rfl
  by_cases hactive : run.active
  · exact .inr ⟨hactive, if_pos hactive⟩
  · exact .inl (if_neg hactive)

/-- A task deletes objects of media that are gone. -/
theorem Inv.sweep (h : Inv s) {i : Nat} {acknowledged : Bool}
    (hsweep : s.sweep i acknowledged missed = some s') : Inv s' := by
  obtain ⟨task, htask, rfl⟩ := Option.map_eq_some_iff.1 hsweep
  have hkept : ∀ j, Gone s j ∨ Kept s { s with
      docs := deleteObjects missed s.docs (keysIn .docs task)
      published := deleteObjects missed s.published (keysIn .media task)
      tasks := if acknowledged then s.tasks.eraseIdx i else s.tasks } j := fun j => by
    by_cases hgone : Gone s j
    · exact .inl hgone
    · have hfar : ∀ name key, Under j key → key ∉ keysIn name task := fun name key hkey hmem => by
        obtain ⟨o, ho, rfl⟩ := List.mem_map.1 hmem
        obtain ⟨j', hkey', hgone'⟩ := h.tasks task (List.mem_of_getElem? htask) o
          (List.mem_filter.1 ho).1
        exact hgone (hkey.unique hkey' ▸ hgone')
      exact .inr ⟨rfl, fun key hkey =>
        ⟨isSome_deleteObjects (hfar .docs key hkey), isSome_deleteObjects (hfar .media key hkey)⟩⟩
  refine h.move (fun _ hj => hj) (fun j m hm => .inl ?_)
    (fun r run hr => .inr ⟨hr, hkept _, (h.runs r run hr).running⟩) h.alone fun t ht => .inl ?_
  · exact (hkept j).resolve_left fun hgone => by cases hgone.2.symm.trans hm
  · dsimp only at ht
    split at ht
    · exact List.mem_of_mem_eraseIdx ht
    · exact ht

/-- A run begins, alone on its row. -/
theorem Inv.snapshot (h : Inv s) {r : Nat} {mediaId : Uuid} (hnone : s.runs r = none)
    (halone : mediaId ∉ s.rows.running)
    (hsnapshot : s.snapshot settings r mediaId = some s') : Inv s' := by
  obtain ⟨m, hrow, hsnapshot⟩ := Option.bind_eq_some_iff.1 hsnapshot
  obtain ⟨storageKey, hkey, hsnapshot⟩ := Option.bind_eq_some_iff.1 hsnapshot
  obtain ⟨contentType, -, hsnapshot⟩ := Option.bind_eq_some_iff.1 hsnapshot
  obtain ⟨rows, hrows, rfl⟩ := Option.map_eq_some_iff.1 hsnapshot
  obtain ⟨hprocessing, hrows⟩ := Option.ite_none_right_eq_some.1 hrows
  cases hrows
  rw [hrow, Option.any_some, decide_eq_true_eq] at hprocessing
  have hold := h.rows mediaId m hrow
  have hcases : ∀ {r' run'}, update s.runs r (some (Run.mk mediaId
      (keyPrefix m.tenantId m.listingId mediaId) storageKey contentType .fetching)) r' = some run' →
      (r' = r ∧ run'.mediaId = mediaId) ∨ (r' ≠ r ∧ s.runs r' = some run') := fun hr' => by
    rcases Machine.update_cases hr' with ⟨hr, hrun⟩ | hold
    · cases hrun
      exact .inl ⟨hr, rfl⟩
    · exact .inr hold
  -- The runs that are under way are about other media.
  have hapart : ∀ r' run', s.runs r' = some run' → run'.active → run'.mediaId ≠ mediaId :=
    fun r' run' hr' hactive hid => halone (hid ▸ (h.runs r' run' hr').running hactive)
  refine h.move (fun _ hj => hj) (fun _ _ _ => .inl (.of_row rfl rfl rfl)) (fun r' run' hr' => ?_)
    (fun r₁ r₂ run₁ run₂ h₁ h₂ hactive₁ hactive₂ hid => ?_) fun task ht => .inl ht
  · rcases Machine.update_cases hr' with ⟨-, hrun⟩ | ⟨-, hr'⟩
    · cases hrun
      exact .inl ⟨⟨m.tenantId, m.listingId, rfl⟩, hold.original storageKey hkey,
        fun key hkey => absurd hkey List.not_mem_nil, fun _ => List.mem_cons_self,
        .inr ⟨rfl, ⟨m, hrow, hprocessing, hkey⟩, by rintro _ _ ⟨⟩⟩⟩
    · exact .inr ⟨hr', .inr (.of_row rfl rfl rfl), fun hactive =>
        List.mem_cons_of_mem _ ((h.runs r' run' hr').running hactive)⟩
  · rcases hcases h₁ with ⟨rfl, hid₁⟩ | ⟨-, hold₁⟩ <;>
      rcases hcases h₂ with ⟨rfl, hid₂⟩ | ⟨-, hold₂⟩
    · rfl
    · exact absurd (hid.symm.trans hid₁) (hapart r₂ run₂ hold₂ hactive₂)
    · exact absurd (hid.trans hid₂) (hapart r₁ run₁ hold₁ hactive₁)
    · exact h.alone r₁ r₂ run₁ run₂ hold₁ hold₂ hactive₁ hactive₂ hid

theorem buckets_inductive (settings : MediaSettings) (imaging : Imaging) :
    (buckets settings imaging).Inductive Alone Inv where
  init s hs := hs ▸ .start
  step s l s' h hG hst := by
    cases l with
    | request label => exact h.request (requested_of_request hst)
    | put tenantId listingId mediaId body =>
      cases hst
      exact h.move (fun _ hj => hj) (fun _ _ _ => .inl ⟨rfl, fun _ _ => ⟨isSome_update, id⟩⟩)
        (fun r run hr => .inr ⟨hr, .inr ⟨rfl, fun _ _ => ⟨isSome_update, id⟩⟩,
          (h.runs r run hr).running⟩) h.alone fun task ht => .inl ht
    | snapshot r mediaId =>
      obtain ⟨hnone, hst⟩ := Option.ite_none_right_eq_some.1 hst
      exact h.snapshot (Option.isNone_iff_eq_none.1 hnone) hG hst
    | work r missed =>
      obtain ⟨run, hr, hst⟩ := Option.bind_eq_some_iff.1 hst
      exact h.work hr hst
    | crash r =>
      obtain ⟨run, hr, rfl⟩ := Option.map_eq_some_iff.1 hst
      exact h.crash hr
    | sweep i acknowledged missed => exact h.sweep hst
    | lose i =>
      cases hst
      exact h.move (fun _ hj => hj) (fun _ _ _ => .inl (.of_row rfl rfl rfl))
        (fun r run hr => .inr ⟨hr, .inr (.of_row rfl rfl rfl), (h.runs r run hr).running⟩) h.alone
        fun task ht => .inl (List.mem_of_mem_eraseIdx ht)

/-- **Ready media are there.** While no two runs of one media overlap, every object that a ready
row names is in its bucket: the variants its pages show and the original behind its download. -/
theorem ready_objects (h : (buckets settings imaging).ReachVia Alone s) {mediaId : Uuid}
    {m : ListingMedia} (hrow : s.rows.media.row mediaId = some m) (hready : m.status = .ready) :
    (∀ key ∈ m.variants, (s.published key).isSome) ∧ ∀ key ∈ m.storageKey, (s.docs key).isSome :=
  (((buckets_inductive settings imaging).always h).rows mediaId m hrow).ready hready

/-- One run and the photo is served. -/
theorem ready_objects_photo : ∃ s m, (buckets ⟨26214400⟩ sampleImaging).ReachVia Alone s ∧
    s.rows.media.row 10 = some m ∧ m.status = .ready ∧ m.variants.length = 8 ∧
    (∀ key ∈ m.variants, (s.published key).isSome) ∧
    ∀ key ∈ m.storageKey, (s.docs key).isSome := by
  obtain ⟨s, hs, hp⟩ := Machine.exists_reachVia_of_run
    (M := buckets ⟨26214400⟩ sampleImaging) (G := Alone) (s := .start)
    (sampleUpload ++ .snapshot 0 10 :: List.replicate 10 (.work 0))
    (fun s => (s.rows.media.row 10).any fun m => m.status = .ready ∧ m.variants.length = 8) rfl
    (by decide)
  obtain ⟨m, hrow, hm⟩ := (Option.any_eq_true _ _).1 hp
  obtain ⟨hready, hlength⟩ := of_decide_eq_true hm
  exact ⟨s, m, hs, hrow, hready, hlength, ready_objects hs hrow hready⟩

/-- The task is delivered twice. Both runs put the same objects; the first marks the photo ready,
the second finds it processed and cleans up. -/
theorem double_delivery : ∃ s m, (buckets ⟨26214400⟩ sampleImaging).Reachable s ∧
    s.rows.media.row 10 = some m ∧ m.status = .ready ∧
    ∃ key ∈ m.variants, s.published key = none := by
  obtain ⟨s, hs, hp⟩ := Machine.exists_reachable_of_run
    (M := buckets ⟨26214400⟩ sampleImaging) (s := .start)
    (sampleUpload ++ .snapshot 0 10 :: .snapshot 1 10 :: List.replicate 10 (.work 0) ++
      List.replicate 11 (.work 1))
    (fun s => (s.rows.media.row 10).any fun m => m.status = .ready ∧
      (m.variants.head?.any fun key => (s.published key).isNone)) rfl (by decide)
  obtain ⟨m, hrow, hm⟩ := (Option.any_eq_true _ _).1 hp
  obtain ⟨hready, hhead⟩ := of_decide_eq_true hm
  obtain ⟨key, hkey, hnone⟩ := (Option.any_eq_true _ _).1 hhead
  exact ⟨s, m, hs, hrow, hready, key, List.mem_of_head? hkey, Option.isNone_iff_eq_none.1 hnone⟩

end Objects

end Media

end RealEstate
