import RealEstate.Leads.Drips

/-!
# Overlapping drip sweeps

What sweeps and the requests between them keep, step by step.

- `Inv`: a drip that an open sweep has advanced is still where the sweep found it, no other
  sweep has advanced it, and the sweep commits it one step further. Other writes leave the
  step alone and never take a stop back.
- `orderly`: runs of steady steps.
- `sent_twice`: sweeps that overlap, and a sweep that fails.
-/

namespace RealEstate

namespace Leads

namespace Drips

open RealEstate.Core Systems
open RowService (effectsOf)

/-! ### The invariant -/

/-- A drip that is stopped stays stopped. -/
def Stays (old new : LeadDripState) : Prop :=
  old.stoppedAt.isSome = true → new.stoppedAt.isSome = true

/-- The step that the next flush writes. -/
def Proc.pendingStep : Proc → Option (Uuid × Nat)
  | .sweep _ _ _ (.writing id columns _) => columns.stepIndex.map (id, ·)
  | _ => none

/-- The process goes by what is recorded of it. -/
structure ProcInv (advanced : List Advance) (n : Nat) (proc : Proc) : Prop where
  pending : ∀ id k, proc.pendingStep = some (id, k) →
    ∃ a ∈ advanced, a.n = n ∧ a.id = id ∧ k = a.stepIndex + 1
  flushing : ∀ id columns, proc = .flushing id columns → columns.stepIndex = none
  escalated : ∀ tenantId now sequence ids,
    proc = .sweep tenantId now sequence (.escalated ids) → ids.Nodup

/-- What a process needs that is not about to write a step. -/
def Proc.Blank : Proc → Prop
  | .sweep _ _ _ (.advancing _) | .sweep _ _ _ (.mailing ..) | .stopping .. | .done => True
  | .sweep _ _ _ (.writing _ columns _) | .flushing _ columns => columns.stepIndex = none
  | .sweep _ _ _ (.escalated ids) => ids.Nodup

/-- A sweep that has nothing in hand. -/
theorem ProcInv.of_blank {advanced : List Advance} {n : Nat} {proc : Proc} (h : proc.Blank) :
    ProcInv advanced n proc := by
  cases proc with
  | sweep tenantId now sequence phase =>
    cases phase with
    | advancing due => exact ⟨nofun, nofun, nofun⟩
    | mailing id drip due => exact ⟨nofun, nofun, nofun⟩
    | writing id columns due =>
      refine ⟨fun id k hk => ?_, nofun, nofun⟩
      have hnone : columns.stepIndex = none := h
      rw [Proc.pendingStep, hnone] at hk
      cases hk
    | escalated ids =>
      refine ⟨nofun, nofun, fun _ _ _ ids heq => ?_⟩
      cases heq
      exact h
  | stopping tenantId id reason => exact ⟨nofun, nofun, nofun⟩
  | flushing id columns =>
    refine ⟨nofun, fun _ columns heq => ?_, nofun⟩
    cases heq
    exact h
  | done => exact ⟨nofun, nofun, nofun⟩

/-- The drip is one step further as the sweep has written it, or will. -/
def Written (s : State) (a : Advance) : Prop :=
  (s.procs a.n).bind Proc.pendingStep = some (a.id, a.stepIndex + 1) ∨
    ∃ new, s.drips.dirty a.n a.id = some (some new) ∧ new.stepIndex = a.stepIndex + 1

/-- The invariant. -/
structure Inv (s : State) : Prop where
  stays : s.drips.Ascends Stays
  stopped : ∀ id, s.stopped id = true →
    ∃ drip, s.drips.rows id = some drip ∧ drip.stoppedAt.isSome = true
  accounted : Accounted Mail.stepIndex s.level
    (fun id mail => ∃ a ∈ s.advanced, a.id = id ∧ a.mail = some mail) s.mails
  late : ∀ id, ∀ mail ∈ effectsOf id s.mails, mail.late = false
  distinct : (s.advanced.map (·.id)).Nodup
  step : ∀ a ∈ s.advanced, s.level a.id = a.stepIndex ∧
    ∀ mail, a.mail = some mail → mail.stepIndex = a.stepIndex
  written : ∀ a ∈ s.advanced, Written s a
  moved : ∀ n id new, s.drips.dirty n id = some (some new) →
    new.stepIndex = s.level id ∨ ∃ a ∈ s.advanced, a.n = n ∧ a.id = id
  proc : ∀ n proc, s.procs n = some proc → ProcInv s.advanced n proc
  escalated : s.escalations.Nodup

section Columns

theorem Stays.refl (drip : LeadDripState) : Stays drip drip := id

theorem Stays.trans (a b c : LeadDripState) (h : Stays a b) (h' : Stays b c) : Stays a c :=
  h' ∘ h

/-- What the code writes to a state that has stopped leaves it stopped. -/
theorem Columns.stays (columns : Columns) (drip : LeadDripState) :
    Stays drip (columns.apply drip) := by
  intro h
  show ((columns.stopped.map (·.1)).or drip.stoppedAt).isSome = true
  cases columns.stopped with
  | none => exact h
  | some stopped => rfl

theorem advance_stepIndex (sequence : List DripStep) (drip : LeadDripState) (step : DripStep)
    (now : DateTime) : (advance sequence drip step now).stepIndex = some (drip.stepIndex + 1) := by
  unfold advance
  split <;> rfl

end Columns

section Processes

variable {s s' : State} {n : Nat} {id : Uuid} {proc : Proc} {leads : Table Uuid SweptLead Nat}
  {drips : Table Uuid LeadDripState Nat}

/-- The level of a state is its step. -/
theorem level_of_row {drip : LeadDripState} (h : s.drips.rows id = some drip) :
    s.level id = drip.stepIndex := by
  rw [State.level, h]
  rfl

theorem Inv.empty : Inv ⟨.empty, .empty, [], fun _ => none, [], [], fun _ => false⟩ where
  stays := .empty
  stopped _ h := nomatch h
  accounted := .empty
  late _ _ h := nomatch h
  distinct := List.nodup_nil
  step _ h := nomatch h
  written _ h := nomatch h
  moved _ _ _ h := nomatch h
  proc _ _ h := nomatch h
  escalated := List.nodup_nil

/-- What another process does leaves the step to its sweep. -/
theorem Written.of_ne {a : Advance} {proc : Option Proc} (h : Written s a) (hne : a.n ≠ n)
    (hprocs : s'.procs = Function.update s.procs n proc)
    (hdirty : s'.drips.dirty a.n a.id = s.drips.dirty a.n a.id) : Written s' a := by
  unfold Written at h ⊢
  rw [hprocs, Function.update_of_ne hne, hdirty]
  exact h

/-- A sweep that is not about to write a step has written it. -/
theorem Written.stepped {a : Advance} (h : Written s a)
    (hidle : (s.procs a.n).bind Proc.pendingStep = none) :
    ∃ new, s.drips.dirty a.n a.id = some (some new) ∧ new.stepIndex = a.stepIndex + 1 := by
  rcases h with hwriting | hstepped
  · rw [hidle] at hwriting
    cases hwriting
  · exact hstepped

/-- A process that is not about to write a step moves on, and leaves the drips alone. -/
theorem Written.goes {a : Advance} {proc : Option Proc} (h : Written s a)
    (hidle : (s.procs n).bind Proc.pendingStep = none)
    (hprocs : s'.procs = Function.update s.procs n proc) (hdrips : s'.drips = s.drips) :
    Written s' a := by
  by_cases hn : a.n = n
  · refine .inr ?_
    rw [hdrips]
    exact h.stepped (hn ▸ hidle)
  · exact h.of_ne hn hprocs (by rw [hdrips])

/-- Two sweeps have not advanced the same drip. -/
theorem Inv.same (h : Inv s) {a b : Advance} (ha : a ∈ s.advanced) (hb : b ∈ s.advanced)
    (hid : a.id = b.id) : a = b :=
  List.inj_on_of_nodup_map h.distinct ha hb hid

/-- A step that leaves the drips alone, of a process that has no step to write. -/
theorem Inv.goes (h : Inv s) (hidle : (s.procs n).bind Proc.pendingStep = none)
    (hproc : ProcInv s.advanced n proc) : Inv (State.goes { s with leads } n proc) where
  stays := h.stays
  stopped := h.stopped
  accounted := h.accounted
  late := h.late
  distinct := h.distinct
  step := h.step
  written a ha := (h.written a ha).goes hidle rfl rfl
  moved := h.moved
  proc := Machine.each_goes h.proc (fun _ _ _ hm => hm) hproc
  escalated := h.escalated

/-- A lead is created with its drip, at the first step. -/
theorem Inv.create (h : Inv s) {tenantId : Uuid} {now : DateTime}
    (hst : (s.drips.publish id { tenantId, nextSendAt := now }).map
      (fun drips => { s with leads, drips }) = some s') : Inv s' := by
  obtain ⟨drips, hpublish, rfl⟩ := Option.map_eq_some_iff.1 hst
  obtain ⟨hid, rfl⟩ := Table.publish_eq_some.1 hpublish
  -- A new drip has an id of its own, so the rows there stay.
  have hrows : ∀ {k drip}, s.drips.rows k = some drip →
      (s.drips.published id { tenantId, nextSendAt := now } hid).rows k = some drip := by
    intro k drip hrow
    have hk : k ≠ id := by
      rintro rfl
      exact hid (s.drips.rows_keys hrow)
    exact (Function.update_of_ne hk ..).trans hrow
  have hlevel : State.level
      { s with leads, drips := s.drips.published id { tenantId, nextSendAt := now } hid } =
        s.level := by
    funext k
    unfold State.level
    cases hrow : s.drips.rows k with
    | some drip => rw [hrows hrow]
    | none =>
      by_cases hk : k = id
      · rw [Table.published_rows, hk, Function.update_self]
        rfl
      · rw [Table.published_rows, Function.update_of_ne hk, hrow]
  -- Everything else is about rows that were there before.
  constructor
  case stays => exact h.stays.published hid
  case stopped =>
    intro k hk
    obtain ⟨drip, hrow, hstopped⟩ := h.stopped k hk
    exact ⟨drip, hrows hrow, hstopped⟩
  case accounted =>
    rw [hlevel]
    exact h.accounted
  case late => exact h.late
  case distinct => exact h.distinct
  case step =>
    rw [hlevel]
    exact h.step
  case written => exact h.written
  case moved =>
    rw [hlevel]
    exact h.moved
  case proc => exact h.proc
  case escalated => exact h.escalated

/-- A drip is advanced in memory, and its step sent. -/
theorem Inv.advance (h : Inv s) {a : Advance}
    (hidle : (s.procs a.n).bind Proc.pendingStep = none) (hlevel : s.level a.id = a.stepIndex)
    (hmail : ∀ mail, a.mail = some mail → mail.stepIndex = a.stepIndex ∧ mail.late = false)
    (hfree : ∀ other ∈ s.advanced, other.id ≠ a.id)
    (hpending : proc.pendingStep = some (a.id, a.stepIndex + 1)) :
    Inv ((s.advances a).goes a.n proc) where
  stays := h.stays
  stopped := h.stopped
  accounted := by
    have hold : ∀ k mail, (∃ b ∈ s.advanced, b.id = k ∧ b.mail = some mail) →
        ∃ b ∈ a :: s.advanced, b.id = k ∧ b.mail = some mail := by
      rintro k mail ⟨b, hb, hmail⟩
      exact ⟨b, List.mem_cons_of_mem _ hb, hmail⟩
    show Accounted Mail.stepIndex s.level
      (fun k mail => ∃ b ∈ a :: s.advanced, b.id = k ∧ b.mail = some mail)
      (s.mails ++ (a.mail.map (a.id, ·)).toList)
    cases hsent : a.mail with
    | none =>
      rw [Option.map_none, Option.toList_none, List.append_nil]
      exact h.accounted.settle (fun _ => Nat.le_refl _) fun k mail hpend => .inr (hold k mail hpend)
    | some mail =>
      -- The mail is of the step the row stands at, and no other sweep has it in hand.
      refine h.accounted.send ?_ ?_ hold ⟨a, List.mem_cons_self, rfl, hsent⟩
      · rw [hlevel, (hmail mail hsent).1]
      · rintro other ⟨b, hb, hid, -⟩
        exact absurd hid (hfree b hb)
  late k mail hmem := by
    have hmem : mail ∈ effectsOf k (s.mails ++ (a.mail.map (a.id, ·)).toList) := hmem
    rw [RowService.effectsOf_append, List.mem_append] at hmem
    rcases hmem with hold | hnew
    · exact h.late k mail hold
    · cases hsent : a.mail with
      | none =>
        rw [hsent] at hnew
        cases hnew
      | some sent =>
        rw [hsent] at hnew
        by_cases hk : a.id = k
        · obtain rfl : mail = sent := by simpa [effectsOf, hk] using hnew
          exact (hmail mail hsent).2
        · simp [effectsOf, hk] at hnew
  distinct := by
    show ((a :: s.advanced).map (·.id)).Nodup
    rw [List.map_cons, List.nodup_cons]
    -- The guard: nobody else is advancing this drip.
    refine ⟨fun hmem => ?_, h.distinct⟩
    obtain ⟨b, hb, hid⟩ := List.mem_map.1 hmem
    exact hfree b hb hid
  step b hb := by
    rcases List.mem_cons.1 hb with rfl | hb
    · exact ⟨hlevel, fun mail hsent => (hmail mail hsent).1⟩
    · exact h.step b hb
  written b hb := by
    rcases List.mem_cons.1 hb with rfl | hb
    · refine .inl ?_
      show (Function.update s.procs b.n (some proc) b.n).bind Proc.pendingStep = _
      rw [Function.update_self]
      exact hpending
    · exact (h.written b hb).goes hidle rfl rfl
  moved m k new hnew := by
    refine (h.moved m k new hnew).imp_right ?_
    rintro ⟨b, hb, hself⟩
    exact ⟨b, List.mem_cons_of_mem _ hb, hself⟩
  proc m proc' hm := by
    rcases Machine.update_cases hm with ⟨rfl, heq⟩ | ⟨-, hm⟩
    · cases heq
      refine ⟨fun id k hk => ?_, ?_, ?_⟩
      · obtain ⟨rfl, rfl⟩ := Prod.mk.inj (Option.some.inj (hpending.symm.trans hk))
        exact ⟨a, List.mem_cons_self, rfl, rfl, rfl⟩
      · rintro id columns rfl
        cases hpending
      · rintro tenantId now sequence ids rfl
        cases hpending
    · obtain ⟨hwriting, hflushing, hescalated⟩ := h.proc m proc' hm
      refine ⟨fun id k hk => ?_, hflushing, hescalated⟩
      obtain ⟨b, hb, hself⟩ := hwriting id k hk
      exact ⟨b, List.mem_cons_of_mem _ hb, hself⟩
  escalated := h.escalated

/-- The write of a drip is the step that its sweep owes, or comes on top of it. -/
theorem Inv.written_update (h : Inv s) {columns : Columns} {seen : LeadDripState}
    (hpending : ∀ k, (s.procs n).bind Proc.pendingStep = some k →
      columns.stepIndex.map (id, ·) = some k)
    (hcolumns : ∀ k, columns.stepIndex = some k →
      ∃ a ∈ s.advanced, a.n = n ∧ a.id = id ∧ k = a.stepIndex + 1)
    (hseen : s.drips.visible n id = some seen)
    (hwrote : Table.Wrote n id (some (columns.apply seen)) s.drips drips) {a : Advance}
    (ha : a ∈ s.advanced) : Written (State.goes { s with drips } n proc) a := by
  by_cases hn : a.n = n
  · by_cases hid : a.id = id
    · refine .inr ⟨columns.apply seen, ?_, ?_⟩
      · rw [hn, hid]
        exact hwrote.self
      · show columns.stepIndex.getD seen.stepIndex = _
        cases hcolumn : columns.stepIndex with
        | some k =>
          obtain ⟨b, hb, -, hbid, rfl⟩ := hcolumns k hcolumn
          rw [h.same ha hb (hid.trans hbid.symm)]
          rfl
        | none =>
          -- nothing was owed, so the step was written before
          rcases h.written a ha with hwriting | ⟨new, hnew, hindex⟩
          · have hnone := hpending _ (hn ▸ hwriting)
            rw [hcolumn] at hnone
            cases hnone
          · rw [hn, hid] at hnew
            obtain rfl := Option.some.inj ((Table.visible_of_dirty hnew).symm.trans hseen)
            exact hindex
    · rcases h.written a ha with hwriting | ⟨new, hnew, hindex⟩
      · have hself := hpending _ (hn ▸ hwriting)
        obtain ⟨k, -, heq⟩ := Option.map_eq_some_iff.1 hself
        exact absurd (Prod.mk.inj heq).1.symm hid
      · refine .inr ⟨new, ?_, hindex⟩
        rw [hn] at hnew ⊢
        exact (hwrote.rest a.id hid).trans hnew
  · exact (h.written a ha).of_ne hn rfl ((hwrote.other a.n hn).dirty a.id)

/-- A drip that was moved was advanced by the sweep that moved it. -/
theorem Inv.moved_update (h : Inv s) {columns : Columns} {seen new : LeadDripState} {m : Nat}
    {k : Uuid} (hcolumns : ∀ k, columns.stepIndex = some k →
      ∃ a ∈ s.advanced, a.n = n ∧ a.id = id ∧ k = a.stepIndex + 1)
    (hseen : s.drips.visible n id = some seen)
    (hwrote : Table.Wrote n id (some (columns.apply seen)) s.drips drips)
    (hnew : drips.dirty m k = some (some new)) :
    new.stepIndex = s.level k ∨ ∃ a ∈ s.advanced, a.n = m ∧ a.id = k := by
  by_cases hm : m = n
  · subst hm
    by_cases hk : k = id
    · subst hk
      obtain rfl := Option.some.inj (Option.some.inj (hwrote.self.symm.trans hnew))
      show columns.stepIndex.getD seen.stepIndex = _ ∨ _
      cases hcolumn : columns.stepIndex with
      | some i =>
        obtain ⟨b, hb, hbn, hbid, -⟩ := hcolumns i hcolumn
        exact .inr ⟨b, hb, hbn, hbid⟩
      | none =>
        -- the step is the one that the transaction saw
        cases hdirty : s.drips.dirty m k with
        | none =>
          rw [Table.visible_of_clean hdirty] at hseen
          exact .inl (level_of_row hseen).symm
        | some v =>
          rw [Table.visible_of_dirty hdirty] at hseen
          subst hseen
          exact h.moved m k seen hdirty
    · exact h.moved m k new ((hwrote.rest k hk).symm.trans hnew)
  · exact h.moved m k new (((hwrote.other m hm).dirty k).symm.trans hnew)

/-- A drip is written, by the sweep that advances it or to stop it. -/
theorem Inv.update (h : Inv s) {columns : Columns}
    (hpending : ∀ k, (s.procs n).bind Proc.pendingStep = some k →
      columns.stepIndex.map (id, ·) = some k)
    (hcolumns : ∀ k, columns.stepIndex = some k →
      ∃ a ∈ s.advanced, a.n = n ∧ a.id = id ∧ k = a.stepIndex + 1)
    (hproc : ProcInv s.advanced n proc) (hst : s.update n id columns proc = some s') : Inv s' := by
  obtain ⟨seen, hseen, hst⟩ := Option.bind_eq_some_iff.1 hst
  obtain ⟨drips, hwrite, rfl⟩ := Option.map_eq_some_iff.1 hst
  have hwrote := Table.wrote_of_write hwrite
  -- The write is not committed, so no level has moved yet.
  have hlevel : (State.goes { s with drips } n proc).level = s.level := by
    funext k
    show (drips.rows k).elim 0 _ = (s.drips.rows k).elim 0 _
    rw [hwrote.rows]
  constructor
  case stays =>
    -- Who writes the row has its lock, and read it under that lock.
    refine h.stays.wrote Stays.refl Stays.trans hwrote fun row hrow => ?_
    obtain rfl := Option.some.inj (hseen.symm.trans hrow)
    exact columns.stays seen
  case stopped =>
    intro k hk
    show ∃ drip, drips.rows k = some drip ∧ _
    rw [hwrote.rows]
    exact h.stopped k hk
  case accounted =>
    rw [hlevel]
    exact h.accounted
  case late => exact h.late
  case distinct => exact h.distinct
  case step =>
    rw [hlevel]
    exact h.step
  case written => exact fun a ha => h.written_update hpending hcolumns hseen hwrote ha
  case moved =>
    rw [hlevel]
    exact fun m k new hnew => h.moved_update hcolumns hseen hwrote hnew
  case proc => exact Machine.each_goes h.proc (fun _ _ _ hm => hm) hproc
  case escalated => exact h.escalated

/-- A process ends: the drips it has advanced are one step further, or nothing was sent. -/
theorem Inv.ends (h : Inv s) {escalations : List Uuid}
    (hstays : drips.Ascends Stays)
    (hrows : ∀ id old, s.drips.rows id = some old →
      ∃ new, drips.rows id = some new ∧ Stays old new)
    (hclean : ∀ id, drips.dirty n id = none)
    (hother : ∀ m, m ≠ n → Table.SameFor m s.drips drips)
    (hlevel : ∀ id, (drips.rows id).elim 0 (·.stepIndex) = s.level id ∨
      ∃ a ∈ s.advanced, a.n = n ∧ a.id = id ∧
        (drips.rows id).elim 0 (·.stepIndex) = a.stepIndex + 1)
    (hsettled : ∀ a ∈ s.advanced, a.n = n → a.mail ≠ none →
      (drips.rows a.id).elim 0 (·.stepIndex) = a.stepIndex + 1)
    (hescalated : escalations.Nodup) : Inv (s.ends n leads drips escalations) := by
  have hkept : ∀ {a}, a ∈ s.advanced.filter (·.n ≠ n) ↔ a ∈ s.advanced ∧ a.n ≠ n := by
    intro a
    rw [List.mem_filter, decide_eq_true_iff]
  have hsame : ∀ a ∈ s.advanced, a.n ≠ n →
      (drips.rows a.id).elim 0 (·.stepIndex) = s.level a.id := by
    intro a ha hne
    rcases hlevel a.id with heq | ⟨b, hb, hbn, hid, -⟩
    · exact heq
    · exact absurd (h.same ha hb hid.symm ▸ hbn) hne
  constructor
  case stays => exact hstays
  case stopped =>
    intro id hstopped
    rcases Bool.or_eq_true_iff.1 hstopped with hold | hnew
    · obtain ⟨old, hrow, hstop⟩ := h.stopped id hold
      obtain ⟨new, hnew, hstay⟩ := hrows id old hrow
      exact ⟨new, hnew, hstay hstop⟩
    · exact (Option.any_eq_true _ _).1 hnew
  case accounted =>
    refine h.accounted.settle (fun id => ?_) ?_
    · show s.level id ≤ (drips.rows id).elim 0 (·.stepIndex)
      rcases hlevel id with heq | ⟨a, ha, -, rfl, hnext⟩
      · rw [heq]
      · rw [hnext, (h.step a ha).1]
        exact Nat.le_succ _
    · rintro id mail ⟨a, ha, rfl, hmail⟩
      -- what the process has sent is below the step it leaves behind
      by_cases hn : a.n = n
      · refine .inl ?_
        show mail.stepIndex < (drips.rows a.id).elim 0 (·.stepIndex)
        rw [hsettled a ha hn (by rw [hmail]; nofun), (h.step a ha).2 mail hmail]
        exact Nat.lt_succ_self _
      · exact .inr ⟨a, hkept.2 ⟨ha, hn⟩, rfl, hmail⟩
  case late => exact h.late
  case distinct => exact h.distinct.sublist (List.filter_sublist.map _)
  case step =>
    intro a ha
    obtain ⟨ha, hne⟩ := hkept.1 ha
    exact ⟨(hsame a ha hne).trans (h.step a ha).1, (h.step a ha).2⟩
  case written =>
    intro a ha
    obtain ⟨ha, hne⟩ := hkept.1 ha
    exact (h.written a ha).of_ne hne rfl ((hother a.n hne).dirty a.id)
  case moved =>
    intro m id new hnew
    have hne : m ≠ n := by
      rintro rfl
      rw [show (s.ends m leads drips escalations).drips.dirty m id = none from hclean id] at hnew
      cases hnew
    have hold := ((hother m hne).dirty id).symm.trans hnew
    have hrow : drips.rows id = s.drips.rows id :=
      (hother m hne).rows id (s.drips.dirty_lock hold)
    rcases h.moved m id new hold with hindex | ⟨a, ha, han, hid⟩
    · refine .inl (hindex.trans ?_)
      show (s.drips.rows id).elim 0 _ = (drips.rows id).elim 0 _
      rw [hrow]
    · exact .inr ⟨a, hkept.2 ⟨ha, han ▸ hne⟩, han, hid⟩
  case proc =>
    intro m proc' hm
    obtain ⟨hne, hm⟩ := Machine.old_of_update hm nofun
    obtain ⟨hwriting, hflushing, hids⟩ := h.proc m proc' hm
    refine ⟨fun id k hk => ?_, hflushing, hids⟩
    obtain ⟨a, ha, han, hself⟩ := hwriting id k hk
    exact ⟨a, hkept.2 ⟨ha, han ▸ hne⟩, han, hself⟩
  case escalated => exact hescalated

/-- What the sweep has written of the drips it has advanced. -/
theorem Inv.visible (h : Inv s) (hidle : (s.procs n).bind Proc.pendingStep = none) {a : Advance}
    (ha : a ∈ s.advanced) (hn : a.n = n) :
    (s.drips.visible n a.id).elim 0 (·.stepIndex) = a.stepIndex + 1 := by
  obtain ⟨new, hnew, hindex⟩ := (h.written a ha).stepped (hn ▸ hidle)
  rw [hn] at hnew
  rw [Table.visible_of_dirty hnew]
  exact hindex

theorem Inv.commits (h : Inv s) {ids : List Uuid}
    (hidle : (s.procs n).bind Proc.pendingStep = none) (hids : ids.Nodup)
    (hnew : ∀ id ∈ ids, id ∉ s.escalations) : Inv (s.commits n ids) := by
  refine h.ends (h.stays.commit n) (fun id old hold => h.stays.commit_rows Stays.refl n hold)
    (fun _ => if_pos rfl) (fun m hm => Table.commit_sameFor hm) (fun id => ?_)
    (fun a ha hn _ => h.visible hidle ha hn) ?_
  case refine_1 =>
    show (s.drips.visible n id).elim 0 _ = s.level id ∨
      ∃ a ∈ s.advanced, a.n = n ∧ a.id = id ∧ (s.drips.visible n id).elim 0 _ = _
    cases hdirty : s.drips.dirty n id with
    | none =>
      rw [Table.visible_of_clean hdirty]
      exact .inl rfl
    | some v =>
      cases v with
      | none =>
        -- no drip is deleted
        refine .inl ?_
        unfold State.level
        cases hrow : s.drips.rows id with
        | none => rw [Table.visible_of_dirty hdirty]
        | some old =>
          obtain ⟨new, heq, -⟩ := h.stays n id none old hdirty hrow
          cases heq
      | some new =>
        rcases h.moved n id new hdirty with hindex | ⟨a, ha, hn, rfl⟩
        · rw [Table.visible_of_dirty hdirty]
          exact .inl hindex
        · exact .inr ⟨a, ha, hn, rfl, h.visible hidle ha hn⟩
  case refine_2 =>
    exact List.nodup_append'.2 ⟨h.escalated, hids, fun id hold hid => hnew id hid hold⟩

/-- A process that has sent nothing is rolled back. -/
theorem Inv.abort (h : Inv s) (hunsent : ∀ a ∈ s.advanced, a.n = n → a.mail.isNone = true) :
    Inv (s.ends n leads (s.drips.rollback n) s.escalations) := by
  refine h.ends (h.stays.rollback n) (fun id old hold => ⟨old, hold, Stays.refl old⟩)
    (fun _ => if_pos rfl) (fun m hm => Table.rollback_sameFor hm) (fun _ => .inl rfl)
    (fun a ha hn hmail => ?_) h.escalated
  exact absurd (Option.isNone_iff_eq_none.1 (hunsent a ha hn)) hmail

/-- A process that is not writing a step owes none. -/
theorem idle_of_proc (hn : s.procs n = some proc) (hproc : proc.pendingStep = none) :
    (s.procs n).bind Proc.pendingStep = none := by
  rw [hn]
  exact hproc

/-- A sweep sends the step of a drip that is fresh in the committed row. -/
theorem Inv.mailStep (h : Inv s) {tenantId : Uuid} {now clock : DateTime}
    {sequence : List DripStep} {drip : LeadDripState} {due : List (Uuid × LeadDripState)}
    {email : Option String} (hsteady : Steady s (.mail n email clock))
    (hn : s.procs n = some (.sweep tenantId now sequence (.mailing id drip due)))
    (dripStep : DripStep) :
    Inv ((s.mailStep n id drip dripStep email).goes n (.sweep tenantId now sequence
      (.writing id (Drips.advance sequence drip dripStep clock) due))) := by
  rw [Steady, hn] at hsteady
  obtain ⟨hfresh, hfree⟩ := hsteady
  obtain ⟨row, hrow, hfresh⟩ := (Option.any_eq_true _ _).1 hfresh
  obtain ⟨hindex, hstopped⟩ := Bool.and_eq_true_iff.1 hfresh
  have hlevel : s.level id = drip.stepIndex := (level_of_row hrow).trans (of_decide_eq_true hindex)
  refine h.advance (idle_of_proc hn rfl) hlevel ?_ hfree ?_
  · intro mail hmail
    obtain ⟨recipient, haddress, rfl⟩ := Option.map_eq_some_iff.1 hmail
    refine ⟨rfl, Bool.eq_false_iff.2 fun hlate => ?_⟩
    -- the stop would show in the committed row
    obtain ⟨row', hrow', hstop⟩ := h.stopped id hlate
    obtain rfl := Option.some.inj (hrow.symm.trans hrow')
    rw [haddress, Option.isNone_some, Bool.or_false, Option.isNone_iff_eq_none] at hstopped
    rw [hstopped] at hstop
    cases hstop
  · show (Drips.advance sequence drip dripStep clock).stepIndex.map (id, ·) = _
    rw [advance_stepIndex]
    rfl

/-- The flush after a drip: it has the step that was sent, or stops the drip. -/
theorem Inv.flush (h : Inv s) {tenantId : Uuid} {now : DateTime} {sequence : List DripStep}
    {columns : Columns} {due : List (Uuid × LeadDripState)}
    (hn : s.procs n = some (.sweep tenantId now sequence (.writing id columns due)))
    (hst : s.update n id columns (.sweep tenantId now sequence (.advancing due)) = some s') :
    Inv s' := by
  have hpending : (s.procs n).bind Proc.pendingStep = columns.stepIndex.map (id, ·) := by
    rw [hn]
    rfl
  have hproc : ProcInv s.advanced n (.sweep tenantId now sequence (.advancing due)) :=
    ⟨nofun, nofun, nofun⟩
  refine h.update (fun k hk => hpending.symm.trans hk) (fun k hk => ?_) hproc hst
  exact (h.proc n _ hn).pending id k (congrArg (Option.map (id, ·)) hk)

/-- The locks of a request that may stop a drip. -/
theorem Inv.locks (h : Inv s) {tenantId : Uuid} {f : SweptLead → SweptLead}
    (hn : ¬ (s.procs n).isSome = true) (hproc : ProcInv s.advanced n proc)
    (hst : s.locks n tenantId id f proc = some s') : Inv s' := by
  obtain ⟨lead, -, hst⟩ := Option.bind_eq_some_iff.1 hst
  obtain ⟨leads, -, rfl⟩ := Option.map_eq_some_iff.1 hst
  refine h.goes ?_ hproc
  rw [Option.not_isSome_iff_eq_none.1 hn]
  rfl

/-- The flush of a stop leaves the step alone. -/
theorem Inv.flushStop (h : Inv s) {columns : Columns}
    (hn : s.procs n = some (.flushing id columns))
    (hst : s.update n id columns .done = some s') : Inv s' := by
  have hcolumns : columns.stepIndex = none := (h.proc n _ hn).flushing id columns rfl
  have hproc : ProcInv s.advanced n .done := .of_blank trivial
  refine h.update (fun k hk => ?_) (fun k hk => ?_) hproc hst
  · rw [idle_of_proc hn rfl] at hk
    cases hk
  · rw [hcolumns] at hk
    cases hk

end Processes

/-! ### Runs -/

/-- One steady step keeps the invariant. -/
theorem inv_step {s s' : State} {l : Label} (h : Inv s) (hsteady : Steady s l)
    (hst : step s l = some s') : Inv s' := by
  cases l with
  | create id tenantId agentId now =>
    obtain ⟨leads, -, hst⟩ := Option.bind_eq_some_iff.1 hst
    exact h.create hst
  | assign n id agentId =>
    obtain ⟨-, hst⟩ := Option.ite_none_left_eq_some.1 hst
    obtain ⟨lead, -, hst⟩ := Option.bind_eq_some_iff.1 hst
    obtain ⟨leads, -, rfl⟩ := Option.map_eq_some_iff.1 hst
    exact ⟨h.stays, h.stopped, h.accounted, h.late, h.distinct, h.step, h.written, h.moved,
      h.proc, h.escalated⟩
  | listDueDrips n tenantId now override order =>
    obtain ⟨hn, hst⟩ := Option.ite_none_left_eq_some.1 hst
    cases hst
    refine h.goes ?_ (.of_blank trivial)
    rw [Option.not_isSome_iff_eq_none.1 hn]
    rfl
  | check n clock =>
    rw [step] at hst
    split at hst
    · next tenantId now sequence id drip due hn =>
      cases hst
      refine h.goes (idle_of_proc hn rfl) ?_
      -- wherever the sweep goes next, it has not moved the drip yet
      refine .of_blank ?_
      unfold State.checks
      split
      · rfl
      · split <;> trivial
    · cases hst
  | mail n email clock =>
    rw [step] at hst
    split at hst
    · next tenantId now sequence id drip due hn =>
      obtain ⟨dripStep, -, rfl⟩ := Option.map_eq_some_iff.1 hst
      exact h.mailStep hsteady hn dripStep
    · cases hst
  | flush n =>
    rw [step] at hst
    split at hst
    · next hn => exact h.flush hn hst
    · cases hst
  | escalate n escalationMinutes found =>
    rw [step] at hst
    split at hst
    · next tenantId now sequence hn =>
      obtain ⟨hfound, hst⟩ := Option.ite_none_right_eq_some.1 hst
      cases hst
      exact h.goes (idle_of_proc hn rfl)
        (.of_blank (hfound.nodup_iff.2 ((Table.scan_nodup ..).filter _)))
    · cases hst
  | transitionStage n tenantId id toStage =>
    obtain ⟨hn, hst⟩ := Option.ite_none_left_eq_some.1 hst
    refine h.locks hn (.of_blank ?_) hst
    split <;> trivial
  | recordActivity n tenantId id =>
    obtain ⟨hn, hst⟩ := Option.ite_none_left_eq_some.1 hst
    have hproc : ProcInv s.advanced n (.stopping tenantId id .replied) := .of_blank trivial
    exact h.locks hn hproc hst
  | readDrip n now =>
    rw [step] at hst
    split at hst
    · next tenantId id reason hn =>
      split at hst
      · cases hst
        exact h.goes (idle_of_proc hn rfl) (.of_blank rfl)
      · cases hst
        exact h.goes (idle_of_proc hn rfl) (.of_blank trivial)
    · cases hst
  | flushStop n =>
    rw [step] at hst
    split at hst
    · next hn => exact h.flushStop hn hst
    · cases hst
  | commit n =>
    rw [step] at hst
    split at hst
    · next tenantId now sequence ids hn =>
      cases hst
      rw [Steady, hn] at hsteady
      exact h.commits (idle_of_proc hn rfl) ((h.proc n _ hn).escalated _ _ _ ids rfl) hsteady
    · next hn =>
      cases hst
      exact h.commits (idle_of_proc hn rfl) List.nodup_nil
        fun _ hid => absurd hid List.not_mem_nil
    · cases hst
  | abort n =>
    obtain ⟨-, hst⟩ := Option.ite_none_right_eq_some.1 hst
    cases hst
    exact h.abort hsteady

theorem inv_inductive : machine.Inductive Steady Inv where
  init s hs := by
    cases hs
    exact .empty
  step s l t h hsteady hst := inv_step h hsteady hst

/-- **A drip is sent step by step**, each at most once and none after a stop, and a lead is
escalated at most once, in every state that steady steps reach. -/
theorem orderly {s : State} (h : machine.ReachVia Steady s) : Orderly s := by
  have hinv := inv_inductive.always h
  refine ⟨fun id => ?_, hinv.late, fun id => List.nodup_iff_count_le_one.1 hinv.escalated id⟩
  rw [State.steps, List.pairwise_map]
  exact hinv.accounted.increasing id

/-! ### Sweeps that overlap, and a sweep that fails -/

/-- For `mergeSort`. -/
instance : Std.Total fun a b : Uuid × LeadDripState => a.2.nextSendAt ≤ b.2.nextSendAt :=
  ⟨fun a b => le_total a.2.nextSendAt b.2.nextSendAt⟩

/-- For `mergeSort`. -/
instance : IsTrans (Uuid × LeadDripState) fun a b => a.2.nextSendAt ≤ b.2.nextSendAt :=
  ⟨fun _ _ _ => le_trans⟩

/-- The order of the query, by insertion. -/
def byNextSendAt : ByNextSendAt := .insertion _

/-- Lead 5 of tenant 7 has no agent yet. -/
def created : List Label := [.create 5 7 none 0]

/-- A sweep lists the drip, and reads the lead. -/
def listed (n : Nat) (now : DateTime) : List Label :=
  [.listDueDrips n 7 now [] byNextSendAt, .check n now]

/-- A mail to the lead's address. -/
def mailed (n : Nat) (now : DateTime) : Label := .mail n (some "c@x") now

/-- The rest of a sweep. -/
def swept (n : Nat) (found : List Uuid) : List Label := [.flush n, .escalate n 30 found, .commit n]

/-- Two sweeps list the drip, an agent's reply stops it, and both sweeps go on. -/
def overlapping : List Label :=
  List.flatten
    [created, listed 1 60, listed 2 60,
      [.recordActivity 3 7 5, .readDrip 3 61, .flushStop 3, .commit 3, mailed 1 62, mailed 2 62],
      swept 1 [], swept 2 []]

/-- A sweep fails after its mail, and the next one sends it again. -/
def failing : List Label :=
  List.flatten
    [created, listed 1 60, [mailed 1 62, .abort 1], listed 2 960, [mailed 2 962], swept 2 []]

/-- Two sweeps that have no drip to advance escalate the lead. -/
def escalatedTwice : List Label :=
  List.flatten
    [created, listed 1 60, [mailed 1 62], swept 1 [],
      [.listDueDrips 2 7 3600 [] byNextSendAt, .listDueDrips 3 7 3600 [] byNextSendAt,
        .escalate 2 30 [5], .escalate 3 30 [5], .commit 2, .commit 3]]

/-- **A step is sent twice**, and after the drip was stopped, by sweeps that overlap; it is sent
twice by sweeps one after the other, the first of which fails; **a lead is escalated twice**. -/
theorem sent_twice :
    (∃ s, machine.Reachable s ∧ s.steps 5 = [0, 0] ∧
      (effectsOf 5 s.mails).all (·.late) = true ∧ ¬ Orderly s) ∧
      (∃ s, machine.Reachable s ∧ s.steps 5 = [0, 0] ∧ ¬ Orderly s) ∧
        ∃ s, machine.Reachable s ∧ s.escalations = [5, 5] ∧ ¬ Orderly s := by
  have hsteps : ∀ {s : State}, s.steps 5 = [0, 0] → ¬ Orderly s := by
    intro s hs horderly
    have hpair := horderly.steps 5
    rw [hs] at hpair
    exact absurd hpair (by decide)
  refine ⟨?_, ?_, ?_⟩
  · -- Two sweeps overlap.
    obtain ⟨s, hs, hp⟩ := Machine.exists_reachable_of_run (M := machine) overlapping
      (fun s => decide (s.steps 5 = [0, 0]) && (effectsOf 5 s.mails).all (·.late)) rfl
      (by decide)
    obtain ⟨htwice, hlate⟩ := Bool.and_eq_true_iff.1 hp
    have htwice := of_decide_eq_true htwice
    exact ⟨s, hs, htwice, hlate, hsteps htwice⟩
  · -- The mail is out, and the transaction rolls back.
    obtain ⟨s, hs, hp⟩ := Machine.exists_reachable_of_run (M := machine) failing
      (fun s => s.steps 5 = [0, 0]) rfl (by decide)
    have htwice := of_decide_eq_true hp
    exact ⟨s, hs, htwice, hsteps htwice⟩
  · -- Two sweeps escalate one lead.
    obtain ⟨s, hs, hp⟩ := Machine.exists_reachable_of_run (M := machine) escalatedTwice
      (fun s => s.escalations = [5, 5]) rfl (by decide)
    have htwice := of_decide_eq_true hp
    refine ⟨s, hs, htwice, fun horderly => ?_⟩
    have hcount := horderly.escalated 5
    rw [htwice] at hcount
    exact absurd hcount (by decide)

/-- Sweeps one after the other: two steps, an escalation, and nothing after the reply. -/
theorem orderly_replied :
    ∃ s, machine.ReachVia Steady s ∧ s.steps 5 = [0, 1] ∧ s.escalations = [5] ∧
      s.stopped 5 = true ∧ Orderly s := by
  obtain ⟨s, hs, hp⟩ := Machine.exists_reachVia_of_run (M := machine) (G := Steady)
    (List.flatten
      [created, listed 1 60, [mailed 1 62], swept 1 [], listed 2 172862, [mailed 2 172863],
        swept 2 [5], [.recordActivity 3 7 5, .readDrip 3 172900, .flushStop 3, .commit 3,
          .listDueDrips 4 7 900000 [] byNextSendAt, .escalate 4 30 [], .commit 4]])
    (fun s => decide (s.steps 5 = [0, 1] ∧ s.escalations = [5]) && s.stopped 5) rfl
    (by decide)
  obtain ⟨hsent, hstopped⟩ := Bool.and_eq_true_iff.1 hp
  obtain ⟨hsteps, hescalations⟩ := of_decide_eq_true hsent
  exact ⟨s, hs, hsteps, hescalations, hstopped, orderly hs⟩

end Drips

end Leads

end RealEstate
