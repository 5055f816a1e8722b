import RealEstate.Systems.Dicts
import RealEstate.Systems.Machine
import RealEstate.Systems.Rows

/-!
# Rollups of an append-only log

A job groups the events of a log and writes one row for each group, in place of what was there.
The log lies in partitions, which are dropped as a whole when they are old.

- `Rollup`: how events are grouped and summarised, and what a job plans to write. `Rollup.Sound`:
  it plans a row for each group that has events, and no group lies in two partitions.
- `Rollup.machine`: appends, drops and jobs, in any order. A job reads the events in one step and
  commits its rows in another.
- `row_of_prefix`: every row summarises an initial part of its group's log.
- `commit_exact`: when a group gets no more events, the next job leaves its row exact, and no later
  one changes it.
-/

namespace RealEstate

namespace Systems

/-- `E` are events, `K` groups, `V` rows and `S` the scopes of jobs. -/
structure Rollup (E K V S : Type) where
  partition : E → Nat
  /-- The group an event counts in. -/
  group : E → Option K
  summary : List E → V
  covers : S → K → Bool
  /-- What a job writes after it read the events. -/
  plan : S → List E → List (K × V)

namespace Rollup

variable {E K V S : Type}

/-- A job between its read and its commit. -/
structure Job (K V S : Type) where
  scope : S
  rows : List (K × V)
  deriving DecidableEq

/-- The events, the rollup table and the jobs under way. -/
structure State (E K V S : Type) where
  /-- Every event accepted so far. -/
  log : List E
  /-- Those whose partition is still there. -/
  raw : List E
  dropped : List Nat
  table : Rows K V
  jobs : Nat → Option (Job K V S)

/-- Events, a partition that is dropped, or a step of a job. -/
inductive Label (E S : Type) where
  /-- An event without a partition is refused, and all that came with it. -/
  | append (events : List E)
  | drop (partition : Nat)
  | read (t : Nat) (scope : S)
  | commit (t : Nat)
  | abort (t : Nat)

variable [DecidableEq K] (R : Rollup E K V S)

/-- The events of a group. -/
def members (k : K) (events : List E) : List E := events.filter fun e => R.group e = some k

/-- What a rollup must satisfy: groups lie within partitions, and jobs plan what they read. -/
structure Sound : Prop where
  partition_eq : ∀ {e e' k}, R.group e = some k → R.group e' = some k →
    R.partition e = R.partition e'
  mem_plan : ∀ {scope events k v}, (k, v) ∈ R.plan scope events ↔
    R.covers scope k ∧ R.members k events ≠ [] ∧ v = R.summary (R.members k events)

/-- `ON CONFLICT DO UPDATE` with the new values. -/
def upsertAll (table : Rows K V) (rows : List (K × V)) : Rows K V :=
  rows.foldl (fun table row => table.put row.1 row.2) table

/-- One step. -/
def step (s : State E K V S) : Label E S → Option (State E K V S)
  | .append events =>
    if events.all fun e => R.partition e ∉ s.dropped then
      some { s with log := s.log ++ events, raw := s.raw ++ events }
    else none
  | .drop partition =>
    some { s with
      raw := s.raw.filter fun e => R.partition e ≠ partition
      dropped := partition :: s.dropped }
  | .read t scope =>
    if (s.jobs t).isNone then
      some { s with jobs := Function.update s.jobs t (some ⟨scope, R.plan scope s.raw⟩) }
    else none
  | .commit t => (s.jobs t).map fun job =>
    { s with table := upsertAll s.table job.rows, jobs := Function.update s.jobs t none }
  | .abort t => some { s with jobs := Function.update s.jobs t none }

/-- The log and its rollups, from an empty log on. -/
def machine : Machine (State E K V S) (Label E S) where
  init s := s = ⟨[], [], [], .empty, fun _ => none⟩
  step := R.step

/-- The events of a step. -/
def Label.appended : Label E S → List E
  | .append events => events
  | _ => []

/-- No event of the group is appended. -/
def Still (k : K) (_ : State E K V S) (l : Label E S) : Prop := R.members k l.appended = []

/-! ### Groups and rows -/

variable {R} {s s' : State E K V S}

/-- The log only grows. -/
theorem log_step {l : Label E S} (hst : R.step s l = some s') : s'.log = s.log ++ l.appended := by
  cases l with
  | append events =>
    obtain ⟨-, hst⟩ := Option.ite_none_right_eq_some.1 hst
    cases hst
    rfl
  | drop partition =>
    cases hst
    exact (List.append_nil _).symm
  | read t scope =>
    obtain ⟨-, hst⟩ := Option.ite_none_right_eq_some.1 hst
    cases hst
    exact (List.append_nil _).symm
  | commit t =>
    obtain ⟨job, -, rfl⟩ := Option.map_eq_some_iff.1 hst
    exact (List.append_nil _).symm
  | abort t =>
    cases hst
    exact (List.append_nil _).symm

/-- The members of a group, and those added. -/
theorem members_append (k : K) (events events' : List E) :
    R.members k (events ++ events') = R.members k events ++ R.members k events' :=
  List.filter_append ..

theorem row_upsertAll (rows : List (K × V)) (k : K) :
    ∀ table : Rows K V, (upsertAll table rows).row k = (dictGet rows k).or (table.row k) := by
  induction rows with
  | nil => exact fun table => rfl
  | cons row rows ih =>
    intro table
    show (upsertAll (table.put row.1 row.2) rows).row k = _
    rw [ih, dictGet, Option.or_assoc]
    congr 1
    by_cases hk : row.1 = k
    · subst hk
      rw [Rows.row_put_self, if_pos rfl, Option.some_or]
    · rw [Rows.row_put_of_ne _ _ (Ne.symm hk), if_neg hk, Option.none_or]

/-- What a plan says of a group is what the group's events say. -/
theorem Sound.dictGet_plan (hR : R.Sound) {scope : S} {events : List E} {k : K} {v : V}
    (h : dictGet (R.plan scope events) k = some v) :
    R.members k events ≠ [] ∧ v = R.summary (R.members k events) :=
  (hR.mem_plan.1 (mem_of_dictGet h)).2

/-- Whatever partitions are dropped, a group is there as a whole or not at all. -/
theorem Sound.members_filter (hR : R.Sound) (kept : Nat → Bool) (events : List E) (k : K) :
    R.members k (events.filter fun e => kept (R.partition e)) = [] ∨
      R.members k (events.filter fun e => kept (R.partition e)) = R.members k events := by
  rw [members, members, List.filter_filter]
  by_cases hsome : ∃ e ∈ events, R.group e = some k ∧ kept (R.partition e) = false
  · obtain ⟨e, -, hgroup, hdropped⟩ := hsome
    refine .inl (List.filter_eq_nil_iff.2 fun e' _ hboth => ?_)
    obtain ⟨hgroup', hkept⟩ := Bool.and_eq_true _ _ ▸ hboth
    rw [hR.partition_eq (of_decide_eq_true hgroup') hgroup, hdropped] at hkept
    cases hkept
  · refine .inr (List.filter_congr fun e he => ?_)
    by_cases hgroup : R.group e = some k
    · have hkept : kept (R.partition e) = true := by
        cases hkept : kept (R.partition e) with
        | true => rfl
        | false => exact absurd ⟨e, he, hgroup, hkept⟩ hsome
      rw [hkept, Bool.and_true]
    · rw [decide_eq_false hgroup, Bool.false_and]

/-! ### Rows summarise initial parts -/

variable (R) in
/-- The row summarises an initial part of the group's log. -/
def Initial (log : List E) (k : K) (v : V) : Prop :=
  ∃ events, events <+: R.members k log ∧ events ≠ [] ∧ v = R.summary events

/-- What was true of a part of the log still is. -/
theorem Initial.append {log : List E} {k : K} {v : V} (h : R.Initial log k v)
    (events : List E) : R.Initial (log ++ events) k v := by
  obtain ⟨initial, hprefix, hne, hv⟩ := h
  refine ⟨initial, hprefix.trans ?_, hne, hv⟩
  rw [members_append]
  exact List.prefix_append ..

variable (R) in
/-- Rows and plans are of what was in the log at some time. -/
structure Inv (s : State E K V S) : Prop where
  raw : s.raw = s.log.filter fun e => R.partition e ∉ s.dropped
  rows : ∀ k v, s.table.row k = some v → R.Initial s.log k v
  jobs : ∀ t job, s.jobs t = some job → ∀ k v, dictGet job.rows k = some v →
    R.Initial s.log k v

/-- One step keeps the invariant. -/
theorem Inv.step (hR : R.Sound) (h : R.Inv s) {l : Label E S} (hst : R.step s l = some s') :
    R.Inv s' := by
  cases l with
  | append events =>
    obtain ⟨hall, hst⟩ := Option.ite_none_right_eq_some.1 hst
    -- What is appended is in partitions that are still there.
    cases hst
    refine ⟨?_, fun k v hv => (h.rows k v hv).append events,
      fun t job ht k v hv => (h.jobs t job ht k v hv).append events⟩
    show s.raw ++ events = (s.log ++ events).filter _
    rw [List.filter_append, ← h.raw, List.filter_eq_self.2 (List.all_eq_true.1 hall)]
  | drop partition =>
    cases hst
    refine ⟨?_, h.rows, h.jobs⟩
    show s.raw.filter _ = s.log.filter _
    rw [h.raw, List.filter_filter]
    refine List.filter_congr fun e _ => ?_
    -- Dropping a partition filters the raw events once more.
    simp only [List.mem_cons, not_or, Bool.decide_and]
  | read t scope =>
    obtain ⟨-, hst⟩ := Option.ite_none_right_eq_some.1 hst
    cases hst
    refine ⟨h.raw, h.rows, fun t' job ht' k v hv => ?_⟩
    rcases Machine.update_cases ht' with ⟨-, hjob⟩ | ⟨-, ht'⟩
    · cases hjob
      obtain ⟨hne, rfl⟩ := hR.dictGet_plan hv
      -- A key lives in one partition, so it reads all of its events or none.
      have hall : R.members k s.raw = R.members k s.log := by
        rw [h.raw] at hne ⊢
        exact (hR.members_filter (fun p => p ∉ s.dropped) s.log k).resolve_left hne
      exact ⟨_, hall ▸ List.prefix_refl _, hne, rfl⟩
    · exact h.jobs t' job ht' k v hv
  | commit t =>
    obtain ⟨job, ht, rfl⟩ := Option.map_eq_some_iff.1 hst
    refine ⟨h.raw, fun k v hv => ?_, fun t' job' ht' => ?_⟩
    · rw [row_upsertAll] at hv
      -- A key the job has read is overwritten, the others keep their value.
      rcases Option.or_eq_some_iff.1 hv with hnew | ⟨-, hold⟩
      · exact h.jobs t job ht k v hnew
      · exact h.rows k v hold
    · exact h.jobs t' job' (Machine.old_of_update ht' (Option.some_ne_none job').symm).2
  | abort t =>
    cases hst
    exact ⟨h.raw, h.rows, fun t' job' ht' =>
      h.jobs t' job' (Machine.old_of_update ht' (Option.some_ne_none job').symm).2⟩

theorem inductive_inv (hR : R.Sound) : R.machine.Inductive (fun _ _ => True) R.Inv where
  init s hs := by
    cases hs
    refine ⟨rfl, fun k v h => ?_, fun t job h => ?_⟩
    · cases (Rows.row_empty k).symm.trans h
    · cases h
  step _ _ _ h _ hst := h.step hR hst

/-- In every reachable state. -/
theorem inv (hR : R.Sound) (hs : R.machine.Reachable s) : R.Inv s := (inductive_inv hR).always hs

/-- **No row is ever more than its log.** However appends, drops and jobs interleave, a row
summarises an initial part of its group's log. -/
theorem row_of_prefix (hR : R.Sound) (hs : R.machine.Reachable s) {k : K} {v : V}
    (hrow : s.table.row k = some v) : R.Initial s.log k v :=
  (inv hR hs).rows k v hrow

/-! ### A group without new events -/

variable (R) in
/-- What jobs are about to write of the group is what its log says. -/
structure Current (k : K) (s : State E K V S) : Prop where
  raw : R.members k s.raw = [] ∨ R.members k s.raw = R.members k s.log
  jobs : ∀ t job, s.jobs t = some job → ∀ v, dictGet job.rows k = some v →
    v = R.summary (R.members k s.log)

/-- A still step leaves the group and its plans as they are. -/
theorem Current.step (hR : R.Sound) {k : K} (h : R.Current k s) {l : Label E S}
    (hstill : R.Still k s l) (hst : R.step s l = some s') :
    R.Current k s' ∧ R.members k s'.log = R.members k s.log ∧
      (s'.table.row k = s.table.row k ∨
        s'.table.row k = some (R.summary (R.members k s.log))) := by
  cases l with
  | append events =>
    obtain ⟨-, hst⟩ := Option.ite_none_right_eq_some.1 hst
    cases hst
    -- The new events are of other keys.
    have hlog : R.members k (s.log ++ events) = R.members k s.log := by
      rw [members_append, show R.members k events = [] from hstill, List.append_nil]
    have hraw : R.members k (s.raw ++ events) = R.members k s.raw := by
      rw [members_append, show R.members k events = [] from hstill, List.append_nil]
    refine ⟨⟨?_, ?_⟩, hlog, .inl rfl⟩
    · show R.members k (s.raw ++ events) = [] ∨
        R.members k (s.raw ++ events) = R.members k (s.log ++ events)
      rw [hraw, hlog]
      exact h.raw
    · show ∀ t job, s.jobs t = some job → ∀ v, _ → v = R.summary (R.members k (s.log ++ events))
      rw [hlog]
      exact h.jobs
  | drop partition =>
    cases hst
    refine ⟨⟨?_, h.jobs⟩, rfl, .inl rfl⟩
    show R.members k (s.raw.filter _) = [] ∨ R.members k (s.raw.filter _) = R.members k s.log
    -- A dropped partition takes all the events of a key or none.
    rcases hR.members_filter (fun p => p ≠ partition) s.raw k with hnone | hall
    · exact .inl hnone
    · rw [hall]
      exact h.raw
  | read t scope =>
    obtain ⟨-, hst⟩ := Option.ite_none_right_eq_some.1 hst
    cases hst
    refine ⟨⟨h.raw, fun t' job ht' v hv => ?_⟩, rfl, .inl rfl⟩
    rcases Machine.update_cases ht' with ⟨-, hjob⟩ | ⟨-, ht'⟩
    · cases hjob
      obtain ⟨hne, rfl⟩ := hR.dictGet_plan hv
      -- What a job reads of this key is all of it.
      exact congrArg R.summary (h.raw.resolve_left hne)
    · exact h.jobs t' job ht' v hv
  | commit t =>
    obtain ⟨job, ht, rfl⟩ := Option.map_eq_some_iff.1 hst
    refine ⟨⟨h.raw, fun t' job' ht' => ?_⟩, rfl, ?_⟩
    · exact h.jobs t' job' (Machine.old_of_update ht' (Option.some_ne_none job').symm).2
    · -- A job writes the key's value as it is now, or leaves it.
      show (upsertAll s.table job.rows).row k = _ ∨ (upsertAll s.table job.rows).row k = _
      rw [row_upsertAll]
      cases hv : dictGet job.rows k with
      | none => exact .inl (Option.none_or)
      | some v => exact .inr (congrArg some (h.jobs t job ht v hv))
  | abort t =>
    cases hst
    exact ⟨⟨h.raw, fun t' job' ht' =>
      h.jobs t' job' (Machine.old_of_update ht' (Option.some_ne_none job').symm).2⟩, rfl, .inl rfl⟩

/-- Without a job of the group, nothing stale is planned. -/
theorem current_of_idle (hR : R.Sound) (hs : R.machine.Reachable s) {k : K}
    (hidle : ∀ t job, s.jobs t = some job → dictGet job.rows k = none) : R.Current k s where
  raw := by
    rw [(inv hR hs).raw]
    exact hR.members_filter (fun p => p ∉ s.dropped) s.log k
  jobs t job ht v hv := by cases (hidle t job ht).symm.trans hv

/-- From a state whose jobs leave the group alone, as long as it gets no events: every job that
writes its row writes the recount, and the row stays so. -/
theorem Current.run (hR : R.Sound) {k : K} (h : R.Current k s)
    (hs' : (R.machine.startingAt s).ReachVia (R.Still k) s') :
    R.Current k s' ∧ R.members k s'.log = R.members k s.log ∧
      (s'.table.row k = s.table.row k ∨
        s'.table.row k = some (R.summary (R.members k s.log))) := by
  induction hs' with
  | init hs =>
    cases hs
    exact ⟨h, rfl, .inl rfl⟩
  | step _ hstill hst ih =>
    obtain ⟨hcurrent, hlog, hrow⟩ := ih
    obtain ⟨hcurrent', hlog', hrow'⟩ := hcurrent.step hR hstill hst
    refine ⟨hcurrent', hlog'.trans hlog, ?_⟩
    rw [hlog] at hrow'
    rcases hrow' with heq | heq
    · rw [heq]
      exact hrow
    · exact .inr heq

/-- **One job is enough.** Let `s` be a state whose jobs leave the group alone. As long as it gets
no events, a job that writes its row leaves the recount there, and whatever jobs and drops follow,
the row stays so. -/
theorem commit_exact (hR : R.Sound) (hs : R.machine.Reachable s) {k : K}
    (hidle : ∀ t job, s.jobs t = some job → dictGet job.rows k = none)
    {s₁ s₂ s₃ : State E K V S} (h₁ : (R.machine.startingAt s).ReachVia (R.Still k) s₁)
    {t : Nat} {job : Job K V S} {v : V} (ht : s₁.jobs t = some job)
    (hv : dictGet job.rows k = some v) (hcommit : R.step s₁ (.commit t) = some s₂)
    (h₃ : (R.machine.startingAt s₂).ReachVia (R.Still k) s₃) :
    s₃.table.row k = some (R.summary (R.members k s₃.log)) := by
  obtain ⟨hcurrent₁, -, -⟩ := (current_of_idle hR hs hidle).run hR h₁
  have hstill : R.Still k s₁ (.commit t) := rfl
  obtain ⟨hcurrent₂, hlog₂, -⟩ := hcurrent₁.step hR hstill hcommit
  have hrow₂ : s₂.table.row k = some (R.summary (R.members k s₂.log)) := by
    rw [hlog₂, ← hcurrent₁.jobs t job ht v hv]
    obtain ⟨job', ht', rfl⟩ := Option.map_eq_some_iff.1 hcommit
    cases ht.symm.trans ht'
    rw [row_upsertAll, hv, Option.some_or]
  obtain ⟨-, hlog₃, hrow₃⟩ := hcurrent₂.run hR h₃
  rw [hlog₃]
  exact hrow₃.elim (fun h => h.trans hrow₂) id

end Rollup

end Systems

end RealEstate
