import RealEstate.Content.Legal
import RealEstate.Core.Json
import RealEstate.Systems.Upsert

/-!
# Market reports and their PDFs

The report routes of `modules/content/service.py` and `generate_report_pdf` of
`workers/tasks/content.py`, over `market_reports` and the private bucket.

- `step`: `publish_report` locks its row; `unpublish_report` and `update_report` read it
  without a lock and write the columns that changed. A task takes a snapshot, uploads under
  a fixed key, marks the row in a transaction of its own that reads without a lock, and
  deletes its upload if the row was not `published` then.
- `Sound`: a report that was unpublished stays a draft until it is published, and the PDF of
  a report that is ready exists, once no task is about to delete or to keep its upload.
- `Steady`: a report is no draft when it is marked ready and its PDF in place when that
  commits; a task deletes no PDF of a report that is ready; an unpublish that changes nothing
  commits while the report is a draft. `reports_sound`: runs of such steps.
- `ready_without_pdf`: what happens otherwise.
-/

namespace RealEstate

namespace Content

open RealEstate.Core Systems

/-- `ReportStatus`. -/
inductive ReportStatus where
  | draft
  | published
  | ready
  deriving DecidableEq, Repr

/-- `tenants/{tenant_id}/reports/{report_id}/report.pdf`, in the private bucket. -/
structure ReportKey where
  tenantId : Uuid
  reportId : Uuid
  deriving DecidableEq

/-- A row of `market_reports`. -/
structure MarketReport where
  tenantId : Uuid
  slug : String
  title : I18nText
  stats : JsonObject
  pdfObjectKey : Option ReportKey := none
  status : ReportStatus := .draft
  generatedAt : Option DateTime := none
  publishedAt : Option DateTime := none

/-- A patch; a null raises. -/
structure ReportUpdate where
  slug : Option String := none
  title : Option I18nText := none
  stats : Option JsonObject := none

/-- The columns that an update sets. -/
def ReportUpdate.apply (data : ReportUpdate) (report : MarketReport) : MarketReport :=
  { report with
    slug := data.slug.getD report.slug
    title := data.title.getD report.title
    stats := data.stats.getD report.stats }

/-- The attributes whose value the patch changes. -/
def ReportUpdate.changes (data : ReportUpdate) (report : MarketReport) : ReportUpdate where
  slug := data.slug.filter (· ≠ report.slug)
  title := data.title.filter (· ≠ report.title)
  stats := data.stats.filter (· ≠ report.stats)

/-- A patch that names none of them. -/
def ReportUpdate.isEmpty (data : ReportUpdate) : Bool :=
  data.slug.isNone && data.title.isNone && data.stats.isNone

/-- `publish_report` on the row it has locked. -/
def MarketReport.publish (now : DateTime) (report : MarketReport) : MarketReport :=
  { report with status := .published, publishedAt := report.publishedAt <|> some now }

theorem MarketReport.publish_status (now : DateTime) (report : MarketReport) :
    (report.publish now).status = .published := rfl

/-- `_mark_ready`. -/
def MarketReport.ready (key : ReportKey) (now : DateTime) (report : MarketReport) :
    MarketReport :=
  { report with pdfObjectKey := some key, status := .ready, generatedAt := some now }

/-- What a PDF is rendered from. -/
structure Snapshot where
  title : I18nText
  stats : JsonObject

namespace Reports

/-- Where a task stands: after its snapshot, its upload, the read and the write of
`_mark_ready`, or after a `_mark_ready` that found the report not published. -/
inductive TaskPhase where
  | rendering (snapshot : Snapshot)
  | uploaded
  | marking
  | marked
  | lost

/-- A request or a task. -/
inductive Proc where
  | publishing (id : Uuid) (flipped : Bool)
  | unpublishing (id : Uuid) (status : ReportStatus)
  | unpublished (id : Uuid) (wrote : Bool)
  | updating (id : Uuid) (changes : ReportUpdate)
  | updated (id : Uuid) (wrote : Bool)
  | task (key : ReportKey) (phase : TaskPhase)

/-- The reports, the stored files and the requests and renderings under way. -/
structure State where
  table : Table Uuid MarketReport Nat
  objects : ReportKey → Option Snapshot
  procs : Nat → Option Proc
  /-- An unpublish of the report has committed, and no publish since. -/
  withdrawn : Uuid → Bool

/-- A step of a request or of a rendering. -/
inductive Label where
  | create (tenantId id : Uuid) (slug : String) (title : I18nText) (stats : JsonObject)
  | publish (n : Nat) (tenantId id : Uuid) (now : DateTime)
  | readUnpublish (n : Nat) (tenantId id : Uuid)
  | flushUnpublish (n : Nat)
  | readUpdate (n : Nat) (tenantId id : Uuid) (data : ReportUpdate)
  | flushUpdate (n : Nat)
  | snapshot (n : Nat) (tenantId id : Uuid)
  | upload (n : Nat)
  | readReady (n : Nat)
  | flushReady (n : Nat) (now : DateTime)
  | delete (n : Nat)
  | commit (n : Nat)
  /-- A request or a task raises; a task may be tried again. -/
  | abort (n : Nat)

/-- `n` goes on. -/
def State.goes (s : State) (n : Nat) (proc : Proc) : State :=
  { s with procs := Function.update s.procs n (some proc) }

/-- The row of a report of the tenant. -/
def State.report (s : State) (n : Nat) (tenantId id : Uuid) : Option MarketReport :=
  (s.table.visible n id).filter (·.tenantId = tenantId)

/-- The `UPDATE` of the columns that changed, on the row as it is by then. -/
def State.update (s : State) (n : Nat) (id : Uuid) (f : MarketReport → MarketReport)
    (proc : Proc) : Option State :=
  (s.table.visible n id).bind fun report =>
    (s.table.write n id (some (f report))).map fun table => { s with table }.goes n proc

/-- The withdrawals after a commit. -/
def State.withdraws (s : State) : Proc → Uuid → Bool
  | .publishing id _ => Function.update s.withdrawn id false
  | .unpublished id _ => Function.update s.withdrawn id true
  | _ => s.withdrawn

/-- The process has written what it will write. -/
def Proc.flushed : Proc → Bool
  | .publishing _ _ | .unpublished _ _ | .updated _ _ | .task _ .marked => true
  | _ => false

/-- One statement, one store operation, or the end of a transaction. -/
def step (s : State) : Label → Option State
  | .create tenantId id slug title stats =>
    (s.table.publish id { tenantId, slug, title, stats }).map fun table => { s with table }
  | .publish n tenantId id now =>
    if (s.procs n).isSome then none
    else
      (s.report n tenantId id).bind fun report =>
        -- `FOR UPDATE`, kept until the commit
        (s.table.acquire n id).bind fun table =>
          if report.status = .draft then
            State.update { s with table } n id (·.publish now) (.publishing id true)
          else some (State.goes { s with table } n (.publishing id false))
  | .readUnpublish n tenantId id =>
    if (s.procs n).isSome then none
    else (s.report n tenantId id).map fun report => s.goes n (.unpublishing id report.status)
  | .flushUnpublish n =>
    match s.procs n with
    | some (.unpublishing id status) =>
      -- the status it has read, whatever it is by now
      if status ≠ .draft then
        s.update n id (fun report => { report with status := .draft }) (.unpublished id true)
      else some (s.goes n (.unpublished id false))
    | _ => none
  | .readUpdate n tenantId id data =>
    if (s.procs n).isSome then none
    else
      (s.report n tenantId id).map fun report => s.goes n (.updating id (data.changes report))
  | .flushUpdate n =>
    match s.procs n with
    | some (.updating id changes) =>
      if changes.isEmpty then some (s.goes n (.updated id false))
      else s.update n id changes.apply (.updated id true)
    | _ => none
  | .snapshot n tenantId id =>
    if (s.procs n).isSome then none
    else
      (s.report n tenantId id).bind fun report =>
        if report.status = .published then
          some (s.goes n (.task ⟨tenantId, id⟩ (.rendering ⟨report.title, report.stats⟩)))
        else none
  | .upload n =>
    match s.procs n with
    | some (.task key (.rendering snapshot)) =>
      some (State.goes { s with objects := Function.update s.objects key (some snapshot) } n
        (.task key .uploaded))
    | _ => none
  | .readReady n =>
    match s.procs n with
    | some (.task key .uploaded) =>
      -- deleted, withdrawn or made ready by another task: all count as a lost race
      if (s.report n key.tenantId key.reportId).any (·.status = .published) then
        some (s.goes n (.task key .marking))
      else some (s.goes n (.task key .lost))
    | _ => none
  | .flushReady n now =>
    match s.procs n with
    | some (.task key .marking) =>
      s.update n key.reportId (·.ready key now) (.task key .marked)
    | _ => none
  | .delete n =>
    match s.procs n with
    | some (.task key .lost) =>
      some { s with
        objects := Function.update s.objects key none
        procs := Function.update s.procs n none }
    | _ => none
  | .commit n =>
    (s.procs n).bind fun proc =>
      if proc.flushed then
        some { s with
          table := s.table.commit n
          procs := Function.update s.procs n none
          withdrawn := s.withdraws proc }
      else none
  | .abort n =>
    if (s.procs n).isSome then
      some { s with table := s.table.rollback n, procs := Function.update s.procs n none }
    else none

/-- Any number of reports, requests and tasks, from an empty table on. -/
def machine : Machine State Label where
  init s := s = ⟨.empty, fun _ => none, fun _ => none, fun _ => false⟩
  step := step

/-! ### What is expected, and of which runs -/

/-- The task has done its upload, and has not come to its end. -/
def Proc.unsettled (id : Uuid) : Proc → Prop
  | .task _ (.rendering _) => False
  | .task key _ => key.reportId = id
  | _ => False

/-- What the claims say of a state. -/
structure Sound (s : State) : Prop where
  stays_draft : ∀ id report, s.table.rows id = some report → s.withdrawn id = true →
    report.status = .draft
  pdf : ∀ id report, s.table.rows id = some report → report.status = .ready →
    (∀ n proc, s.procs n = some proc → ¬ proc.unsettled id) →
      ∃ key, report.pdfObjectKey = some key ∧ (s.objects key).isSome = true

/-- The committed status of a report. -/
def State.status (s : State) (id : Uuid) : Option ReportStatus :=
  (s.table.rows id).map (·.status)

/-- A report that is marked ready is not a draft by then, and its PDF is in place when the mark
commits; the PDF of a ready report is not deleted; an unpublish that changed nothing commits
while the report is a draft. -/
def Steady (s : State) : Label → Prop
  | .flushReady n _ =>
    match s.procs n with
    | some (.task key .marking) => s.status key.reportId ≠ some .draft
    | _ => True
  | .delete n =>
    match s.procs n with
    | some (.task key .lost) => s.status key.reportId ≠ some .ready
    | _ => True
  | .commit n =>
    match s.procs n with
    | some (.task key .marked) => (s.objects key).isSome = true
    | some (.unpublished id false) => s.status id = some .draft
    | _ => True
  | _ => True

/-- By cases, as `Steady` is defined. -/
instance (s : State) (l : Label) : Decidable (Steady s l) := by
  unfold Steady
  split
  · split <;> infer_instance
  · split <;> infer_instance
  · split <;> infer_instance
  · infer_instance

/-! ### The invariant -/

/-- What a process has written. -/
def Rewrote (table : Table Uuid MarketReport Nat) (n : Nat) (id : Uuid)
    (R : MarketReport → MarketReport → Prop) : Prop :=
  table.lock id = some n ∧ (∃ old new, table.rows id = some old ∧
    table.dirty n id = some (some new) ∧ R old new) ∧ ∀ k, k ≠ id → table.dirty n k = none

/-- A draft is not marked. -/
def Marks (key : ReportKey) (old new : MarketReport) : Prop :=
  old.status ≠ .draft ∧ new.status = .ready ∧ new.pdfObjectKey = some key

/-- The columns of the publication are left alone. -/
def SameStatus (old new : MarketReport) : Prop :=
  new.status = old.status ∧ new.pdfObjectKey = old.pdfObjectKey

/-- What a request has written and not yet committed. -/
def ProcInv (table : Table Uuid MarketReport Nat) (n : Nat) : Proc → Prop
  | .publishing id true => Rewrote table n id fun _ new => new.status = .published
  | .unpublished id true => Rewrote table n id fun _ new => new.status = .draft
  | .updated id true => Rewrote table n id SameStatus
  | .task key .marked => Rewrote table n key.reportId (Marks key)
  | _ => ∀ k, table.dirty n k = none

/-- The invariant. -/
structure Inv (s : State) : Prop where
  idle : ∀ n, s.procs n = none → ∀ k, s.table.dirty n k = none
  proc : ∀ n proc, s.procs n = some proc → ProcInv s.table n proc
  stays_draft : ∀ id report, s.table.rows id = some report → s.withdrawn id = true →
    report.status = .draft
  pdf : ∀ id report, s.table.rows id = some report → report.status = .ready →
    ∃ key, report.pdfObjectKey = some key ∧ key.reportId = id ∧ (s.objects key).isSome = true

section Processes

variable {s s' : State} {table table' : Table Uuid MarketReport Nat} {n : Nat} {id : Uuid}
  {proc : Proc} {R : MarketReport → MarketReport → Prop}

theorem Rewrote.of_same (h : Rewrote table n id R) (hsame : Table.SameFor n table table') :
    Rewrote table' n id R := by
  obtain ⟨hlock, ⟨old, new, hold, hnew, hR⟩, hrest⟩ := h
  exact ⟨(hsame.lock id).2 hlock,
    ⟨old, new, (hsame.rows id hlock).trans hold, (hsame.dirty id).trans hnew, hR⟩,
    fun k hk => (hsame.dirty k).trans (hrest k hk)⟩

/-- A request whose row nobody else has written keeps its part. -/
theorem ProcInv.of_same (h : ProcInv table n proc) (hsame : Table.SameFor n table table') :
    ProcInv table' n proc := by
  have hclean : (∀ k, table.dirty n k = none) → ∀ k, table'.dirty n k = none :=
    fun hclean k => (hsame.dirty k).trans (hclean k)
  match proc, h with
  | .publishing _ true, h | .unpublished _ true, h | .updated _ true, h | .task _ .marked, h =>
    exact Rewrote.of_same h hsame
  | .publishing _ false, h | .unpublished _ false, h | .updated _ false, h
  | .unpublishing _ _, h | .updating _ _, h | .task _ (.rendering _), h | .task _ .uploaded, h
  | .task _ .marking, h | .task _ .lost, h => exact hclean h

/-- What the process sees, and will commit. -/
theorem Rewrote.visible (h : Rewrote table n id R) {k : Uuid} {new : MarketReport}
    (hvisible : table.visible n k = some new) :
    (k = id ∧ ∃ old, table.rows id = some old ∧ R old new) ∨
      (k ≠ id ∧ table.rows k = some new) := by
  obtain ⟨-, ⟨old, new', hold, hnew, hR⟩, hrest⟩ := h
  by_cases hk : k = id
  · subst hk
    rw [Table.visible_of_dirty hnew] at hvisible
    cases hvisible
    exact .inl ⟨rfl, old, hold, hR⟩
  · rw [Table.visible_of_clean (hrest k hk)] at hvisible
    exact .inr ⟨hk, hvisible⟩

/-- The one write of a process. -/
theorem rewrote_of_wrote {old new : MarketReport} (hclean : ∀ k, table.dirty n k = none)
    (hwrote : Table.Wrote n id (some new) table table') (hold : table.visible n id = some old)
    (hR : R old new) : Rewrote table' n id R := by
  refine ⟨(hwrote.lock id).2 (.inl rfl), ⟨old, new, ?_, hwrote.self, hR⟩, fun k hk => ?_⟩
  · rw [hwrote.rows, ← Table.visible_of_clean (hclean id)]
    exact hold
  · rw [hwrote.rest k hk]
    exact hclean k

/-- A write of a request to the report that it sees. -/
theorem update_cases {f : MarketReport → MarketReport} (hst : s.update n id f proc = some s') :
    ∃ old table, s.table.visible n id = some old ∧
      Table.Wrote n id (some (f old)) s.table table ∧
        s' = State.goes { s with table } n proc := by
  obtain ⟨old, hold, hst⟩ := Option.bind_eq_some_iff.1 hst
  obtain ⟨table, hwrite, rfl⟩ := Option.map_eq_some_iff.1 hst
  exact ⟨old, table, hold, Table.wrote_of_write hwrite, rfl⟩

theorem Inv.empty :
    Inv ⟨.empty, fun _ => none, fun _ => none, fun _ => false⟩ where
  idle _ _ _ := rfl
  proc _ _ h := nomatch h
  stays_draft _ _ h := nomatch h
  pdf _ _ h := nomatch h

/-- A process goes on, and the committed reports stay as they are. -/
theorem Inv.goes (h : Inv s) (hrows : table.rows = s.table.rows)
    (hother : ∀ m, m ≠ n → Table.SameFor m s.table table) (hproc : ProcInv table n proc) :
    Inv (State.goes { s with table } n proc) where
  idle := Table.Clean.goes h.idle hother
  proc := Machine.each_goes h.proc (fun m _ hne hm => hm.of_same (hother m hne)) hproc
  stays_draft id report hrow := h.stays_draft id report (hrows ▸ hrow)
  pdf id report hrow := h.pdf id report (hrows ▸ hrow)

/-- A request goes on without a write. -/
theorem Inv.goes_same (h : Inv s) (hproc : ProcInv s.table n proc) : Inv (s.goes n proc) :=
  h.goes rfl (fun m _ => Table.SameFor.refl m _) hproc

/-- A process writes its row. -/
theorem Inv.update (h : Inv s) {f : MarketReport → MarketReport}
    (hclean : ∀ k, s.table.dirty n k = none) (hst : s.update n id f proc = some s')
    (hproc : ∀ old table, s.table.rows id = some old →
      (∀ R : MarketReport → MarketReport → Prop, R old (f old) → Rewrote table n id R) →
        ProcInv table n proc) : Inv s' := by
  obtain ⟨old, table, hold, hwrote, rfl⟩ := update_cases hst
  refine h.goes hwrote.rows hwrote.other (hproc old table ?_ fun R hR => ?_)
  · rw [← Table.visible_of_clean (hclean id)]
    exact hold
  · exact rewrote_of_wrote hclean hwrote hold hR

/-- A new report is a draft. -/
theorem Inv.create (h : Inv s) {report : MarketReport} (hstatus : report.status = .draft)
    (hst : (s.table.publish id report).map (fun table => { s with table }) = some s') :
    Inv s' := by
  obtain ⟨table, hpublish, rfl⟩ := Option.map_eq_some_iff.1 hst
  obtain ⟨hid, rfl⟩ := Table.publish_eq_some.1 hpublish
  constructor
  case idle => exact h.idle
  case proc =>
    intro n proc hn
    exact (h.proc n proc hn).of_same (Table.published_sameFor n hid)
  case stays_draft =>
    intro k row hrow hwithdrawn
    rcases Machine.update_cases hrow with ⟨rfl, heq⟩ | ⟨-, hrow⟩
    · cases heq
      exact hstatus
    · exact h.stays_draft k row hrow hwithdrawn
  case pdf =>
    intro k row hrow hready
    rcases Machine.update_cases hrow with ⟨rfl, heq⟩ | ⟨-, hrow⟩
    · cases heq
      cases hstatus.symm.trans hready
    · exact h.pdf k row hrow hready

theorem Inv.publish (h : Inv s) {tenantId : Uuid} {now : DateTime}
    (hst : step s (.publish n tenantId id now) = some s') : Inv s' := by
  obtain ⟨hidle, hst⟩ := Option.ite_none_left_eq_some.1 hst
  obtain ⟨report, hreport, hst⟩ := Option.bind_eq_some_iff.1 hst
  obtain ⟨table, hacquire, hst⟩ := Option.bind_eq_some_iff.1 hst
  obtain ⟨hid, rfl⟩ := Table.acquire_eq_some.1 hacquire
  have hclean : ∀ k, (s.table.acquired n id hid).dirty n k = none :=
    h.idle n (Option.not_isSome_iff_eq_none.1 hidle)
  have hother := fun m (hm : m ≠ n) => Table.acquired_sameFor hm hid
  split at hst
  · obtain ⟨old, table, hold, hwrote, rfl⟩ := update_cases hst
    have hproc : Rewrote table n id fun _ new => new.status = .published :=
      rewrote_of_wrote hclean hwrote hold (old.publish_status now)
    exact h.goes hwrote.rows (fun m hm => (hother m hm).trans (hwrote.other m hm)) hproc
  · cases hst
    exact h.goes rfl hother hclean

/-- The upload goes to the key of the report, whatever was there. -/
theorem Inv.upload (h : Inv s) {key : ReportKey} {snapshot : Snapshot}
    (hn : s.procs n = some (.task key (.rendering snapshot))) :
    Inv (State.goes { s with objects := Function.update s.objects key (some snapshot) } n
      (.task key .uploaded)) := by
  have hstored : Inv { s with objects := Function.update s.objects key (some snapshot) } := by
    refine ⟨h.idle, h.proc, h.stays_draft, fun id report hrow hready => ?_⟩
    obtain ⟨key', hkey, hid, hobject⟩ := h.pdf id report hrow hready
    refine ⟨key', hkey, hid, ?_⟩
    show (Function.update s.objects key (some snapshot) key').isSome = true
    -- an upload over a PDF leaves a PDF
    by_cases heq : key' = key
    · rw [heq, Function.update_self]
      rfl
    · rw [Function.update_of_ne heq]
      exact hobject
  have hclean : ∀ k, s.table.dirty n k = none := h.proc n _ hn
  exact hstored.goes_same hclean

/-- A process ends. -/
theorem Inv.ends (h : Inv s) {objects : ReportKey → Option Snapshot} {withdrawn : Uuid → Bool}
    (hclean : ∀ k, table.dirty n k = none)
    (hother : ∀ m, m ≠ n → Table.SameFor m s.table table)
    (hstays : ∀ id report, table.rows id = some report → withdrawn id = true →
      report.status = .draft)
    (hpdf : ∀ id report, table.rows id = some report → report.status = .ready →
      ∃ key, report.pdfObjectKey = some key ∧ key.reportId = id ∧ (objects key).isSome = true) :
    Inv ⟨table, objects, Function.update s.procs n none, withdrawn⟩ where
  idle := Table.Clean.ends h.idle hclean hother
  proc := Machine.each_ends h.proc fun m _ hne hm => hm.of_same (hother m hne)
  stays_draft := hstays
  pdf := hpdf

theorem Inv.abort (h : Inv s) (n : Nat) :
    Inv { s with table := s.table.rollback n, procs := Function.update s.procs n none } :=
  h.ends (fun _ => if_pos rfl) (fun _ hm => Table.rollback_sameFor hm) h.stays_draft h.pdf

/-- A task that lost the race deletes the PDF of a report that is not ready. -/
theorem Inv.delete (h : Inv s) {key : ReportKey} (hn : s.procs n = some (.task key .lost))
    (hready : s.status key.reportId ≠ some .ready) :
    Inv { s with
      objects := Function.update s.objects key none
      procs := Function.update s.procs n none } := by
  have hclean : ∀ k, s.table.dirty n k = none := h.proc n _ hn
  refine h.ends hclean (fun m _ => Table.SameFor.refl m _) h.stays_draft ?_
  intro id report hrow hst
  obtain ⟨key', hkey, hid, hobject⟩ := h.pdf id report hrow hst
  refine ⟨key', hkey, hid, ?_⟩
  have hne : key' ≠ key := by
    rintro rfl
    apply hready
    rw [State.status, hid, hrow]
    exact congrArg some hst
  rw [Function.update_of_ne hne]
  exact hobject

/-- What the process commits is a draft again, if it was withdrawn. -/
theorem Inv.stays_draft_commit (h : Inv s) (hn : s.procs n = some proc)
    (hflushed : proc.flushed = true) (hsteady : Steady s (.commit n)) {new : MarketReport}
    (hnew : (s.table.commit n).rows id = some new) (hwithdrawn : s.withdraws proc id = true) :
    new.status = .draft := by
  have hproc := h.proc n proc hn
  rw [Steady, hn] at hsteady
  match proc, hproc, hflushed, hsteady with
  | .publishing _ true, hproc, _, _ =>
    -- a publish ends the withdrawal of its own report only
    obtain ⟨hne, hwithdrawn⟩ := Machine.old_of_update hwithdrawn nofun
    rcases Rewrote.visible hproc hnew with ⟨heq, -⟩ | ⟨-, hrow⟩
    · exact absurd heq hne
    · exact h.stays_draft id new hrow hwithdrawn
  | .publishing _ false, hclean, _, _ =>
    obtain ⟨-, hwithdrawn⟩ := Machine.old_of_update hwithdrawn nofun
    exact h.stays_draft id new ((Table.visible_of_clean (hclean id)).symm.trans hnew) hwithdrawn
  | .unpublished _ true, hproc, _, _ =>
    rcases Rewrote.visible hproc hnew with ⟨-, old, -, hdraft⟩ | ⟨hne, hrow⟩
    · exact hdraft
    · rw [State.withdraws, Function.update_of_ne hne] at hwithdrawn
      exact h.stays_draft id new hrow hwithdrawn
  | .unpublished _ false, hclean, _, hdraft =>
    -- it found a draft when it read, and `Steady` says that it still is one
    have hrow := (Table.visible_of_clean (hclean id)).symm.trans hnew
    rcases Machine.update_cases hwithdrawn with ⟨rfl, -⟩ | ⟨-, hwithdrawn⟩
    · have hstatus : s.status id = some new.status := by
        rw [State.status, hrow]
        rfl
      exact Option.some.inj (hstatus.symm.trans hdraft)
    · exact h.stays_draft id new hrow hwithdrawn
  | .updated _ true, hproc, _, _ =>
    rcases Rewrote.visible hproc hnew with ⟨rfl, old, hold, hsame, -⟩ | ⟨-, hrow⟩
    · rw [hsame]
      exact h.stays_draft id old hold hwithdrawn
    · exact h.stays_draft id new hrow hwithdrawn
  | .updated _ false, hclean, _, _ =>
    exact h.stays_draft id new ((Table.visible_of_clean (hclean id)).symm.trans hnew) hwithdrawn
  | .task _ .marked, hproc, _, _ =>
    rcases Rewrote.visible hproc hnew with ⟨rfl, old, hold, hmarks, -⟩ | ⟨-, hrow⟩
    · exact absurd (h.stays_draft _ old hold hwithdrawn) hmarks
    · exact h.stays_draft id new hrow hwithdrawn

/-- What the process commits has its PDF, if it is ready. -/
theorem Inv.pdf_commit (h : Inv s) (hn : s.procs n = some proc) (hflushed : proc.flushed = true)
    (hsteady : Steady s (.commit n)) {new : MarketReport}
    (hnew : (s.table.commit n).rows id = some new) (hready : new.status = .ready) :
    ∃ key, new.pdfObjectKey = some key ∧ key.reportId = id ∧
      (s.objects key).isSome = true := by
  have hproc := h.proc n proc hn
  rw [Steady, hn] at hsteady
  match proc, hproc, hflushed, hsteady with
  | .publishing _ true, hproc, _, _ =>
    rcases Rewrote.visible hproc hnew with ⟨-, old, -, hpublished⟩ | ⟨-, hrow⟩
    · cases hpublished.symm.trans hready
    · exact h.pdf id new hrow hready
  | .unpublished _ true, hproc, _, _ =>
    rcases Rewrote.visible hproc hnew with ⟨-, old, -, hdraft⟩ | ⟨-, hrow⟩
    · cases hdraft.symm.trans hready
    · exact h.pdf id new hrow hready
  | .updated _ true, hproc, _, _ =>
    rcases Rewrote.visible hproc hnew with ⟨rfl, old, hold, hstatus, hkey⟩ | ⟨-, hrow⟩
    · rw [hkey]
      exact h.pdf id old hold (hstatus.symm.trans hready)
    · exact h.pdf id new hrow hready
  | .task key .marked, hproc, _, hobject =>
    rcases Rewrote.visible hproc hnew with ⟨rfl, old, hold, -, -, hkey⟩ | ⟨-, hrow⟩
    · exact ⟨key, hkey, rfl, hobject⟩
    · exact h.pdf id new hrow hready
  -- nothing was written
  | .publishing _ false, hclean, _, _ | .unpublished _ false, hclean, _, _
  | .updated _ false, hclean, _, _ =>
    exact h.pdf id new ((Table.visible_of_clean (hclean id)).symm.trans hnew) hready

/-- What the process writes keeps the committed reports as they should be. -/
theorem Inv.commit (h : Inv s) (hn : s.procs n = some proc) (hflushed : proc.flushed = true)
    (hsteady : Steady s (.commit n)) :
    Inv { s with
      table := s.table.commit n
      procs := Function.update s.procs n none
      withdrawn := s.withdraws proc } := by
  refine h.ends (fun _ => if_pos rfl) (fun _ hm => Table.commit_sameFor hm) ?_ ?_
  · intro id new hnew hwithdrawn
    exact h.stays_draft_commit hn hflushed hsteady hnew hwithdrawn
  · intro id new hnew hready
    exact h.pdf_commit hn hflushed hsteady hnew hready

end Processes

/-! ### Runs -/

/-- One steady step keeps the invariant. -/
theorem inv_step {s s' : State} {l : Label} (h : Inv s) (hsteady : Steady s l)
    (hst : step s l = some s') : Inv s' := by
  cases l with
  | create tenantId id slug title stats => exact h.create rfl hst
  | publish n tenantId id now => exact h.publish hst
  | readUnpublish n tenantId id =>
    obtain ⟨hidle, hst⟩ := Option.ite_none_left_eq_some.1 hst
    obtain ⟨report, -, rfl⟩ := Option.map_eq_some_iff.1 hst
    have hclean := h.idle n (Option.not_isSome_iff_eq_none.1 hidle)
    -- A request that has only read has written nothing.
    exact h.goes_same hclean
  | flushUnpublish n =>
    rw [step] at hst
    split at hst
    · next id status hn =>
      have hclean : ∀ k, s.table.dirty n k = none := h.proc n _ hn
      split at hst
      · exact h.update hclean hst fun old table _ hrewrote => hrewrote _ rfl
      · cases hst
        exact h.goes_same hclean
    · cases hst
  | readUpdate n tenantId id data =>
    obtain ⟨hidle, hst⟩ := Option.ite_none_left_eq_some.1 hst
    obtain ⟨report, -, rfl⟩ := Option.map_eq_some_iff.1 hst
    have hclean := h.idle n (Option.not_isSome_iff_eq_none.1 hidle)
    exact h.goes_same hclean
  | flushUpdate n =>
    rw [step] at hst
    split at hst
    · next id changes hn =>
      have hclean : ∀ k, s.table.dirty n k = none := h.proc n _ hn
      split at hst
      · cases hst
        exact h.goes_same hclean
      · exact h.update hclean hst fun old table _ hrewrote => hrewrote _ ⟨rfl, rfl⟩
    · cases hst
  | snapshot n tenantId id =>
    obtain ⟨hidle, hst⟩ := Option.ite_none_left_eq_some.1 hst
    obtain ⟨report, -, hst⟩ := Option.bind_eq_some_iff.1 hst
    obtain ⟨-, hst⟩ := Option.ite_none_right_eq_some.1 hst
    cases hst
    have hclean := h.idle n (Option.not_isSome_iff_eq_none.1 hidle)
    exact h.goes_same hclean
  | upload n =>
    rw [step] at hst
    split at hst
    · next key snapshot hn =>
      cases hst
      exact h.upload hn
    · cases hst
  | readReady n =>
    rw [step] at hst
    split at hst
    · next key hn =>
      have hclean : ∀ k, s.table.dirty n k = none := h.proc n _ hn
      split at hst <;> cases hst <;> exact h.goes_same hclean
    · cases hst
  | flushReady n now =>
    rw [step] at hst
    split at hst
    · next key hn =>
      have hclean : ∀ k, s.table.dirty n k = none := h.proc n _ hn
      -- The report may have been taken back while it was built; the guard says it was not.
      rw [Steady, hn] at hsteady
      refine h.update hclean hst fun old table hold hrewrote => hrewrote (Marks key) ?_
      refine ⟨fun hdraft => hsteady ?_, rfl, rfl⟩
      rw [State.status, hold]
      exact congrArg some hdraft
    · cases hst
  | delete n =>
    rw [step] at hst
    split at hst
    · next key hn =>
      cases hst
      rw [Steady, hn] at hsteady
      exact h.delete hn hsteady
    · cases hst
  | commit n =>
    obtain ⟨proc, hn, hst⟩ := Option.bind_eq_some_iff.1 hst
    obtain ⟨hflushed, hst⟩ := Option.ite_none_right_eq_some.1 hst
    cases hst
    exact h.commit hn hflushed hsteady
  | abort n =>
    obtain ⟨-, hst⟩ := Option.ite_none_right_eq_some.1 hst
    cases hst
    exact h.abort n

theorem inv_inductive : machine.Inductive Steady Inv where
  init s hs := by
    cases hs
    exact .empty
  step s l t h hsteady hst := inv_step h hsteady hst

/-- **Unpublished reports stay drafts and ready ones have their PDF**, in every state that
steady steps reach. -/
theorem reports_sound {s : State} (h : machine.ReachVia Steady s) : Sound s := by
  have hinv := inv_inductive.always h
  refine ⟨hinv.stays_draft, fun id report hrow hready _ => ?_⟩
  obtain ⟨key, hkey, -, hobject⟩ := hinv.pdf id report hrow hready
  exact ⟨key, hkey, hobject⟩

/-! ### Two tasks, and a task behind an unpublish -/

/-- Report 5 of tenant 7 is published, and task 2 stores its PDF. -/
def rendered : List Label :=
  [.create 7 5 "q1" [("en", "Q1")] [], .publish 1 7 5 10, .commit 1, .snapshot 2 7 5, .upload 2]

/-- A second task stores the PDF again, finds the report ready and deletes it. -/
def twoTasks : List Label :=
  List.flatten
    [rendered, [.snapshot 3 7 5, .upload 3, .readReady 2, .flushReady 2 11, .commit 2,
      .readReady 3, .delete 3]]

/-- The report is unpublished after the task has read it again. -/
def unpublishedMeanwhile : List Label :=
  List.flatten
    [rendered, [.readReady 2, .readUnpublish 4 7 5, .flushUnpublish 4, .commit 4,
      .flushReady 2 11, .commit 2]]

/-- **A ready report is left without its PDF**, with no task under way, and **a report that was
unpublished becomes ready** without being published again. -/
theorem ready_without_pdf :
    (∃ s, machine.Reachable s ∧ (∀ n, s.procs n = none) ∧ s.status 5 = some .ready ∧
      s.objects ⟨7, 5⟩ = none ∧ ¬ Sound s) ∧
      ∃ s, machine.Reachable s ∧ s.withdrawn 5 = true ∧ s.status 5 = some .ready ∧ ¬ Sound s := by
  let start : State := ⟨.empty, fun _ => none, fun _ => none, fun _ => false⟩
  have htasks : (machine.run start twoTasks).isSome = true := by decide
  have hunpublish : (machine.run start unpublishedMeanwhile).isSome = true := by decide
  constructor
  · refine ⟨(machine.run start twoTasks).get htasks, .of_get_run (.init rfl) htasks, ?_, rfl, rfl,
      fun hsound => ?_⟩
    · intro n
      match n with
      | 0 | 1 | 2 | 3 | 4 | n + 5 => rfl
    · obtain ⟨key, hkey, hobject⟩ := hsound.pdf 5 _ rfl rfl fun n proc hn => by
        match n with
        | 0 | 1 | 2 | 3 | 4 | n + 5 => cases hn
      cases hkey
      cases hobject
  · refine ⟨(machine.run start unpublishedMeanwhile).get hunpublish,
      .of_get_run (.init rfl) hunpublish, rfl, rfl, fun hsound => ?_⟩
    cases hsound.stays_draft 5 _ rfl rfl

/-- One task at a time: the report is ready and its PDF is there. -/
theorem sound_rendered :
    ∃ s, machine.ReachVia Steady s ∧ s.status 5 = some .ready ∧
      (s.objects ⟨7, 5⟩).isSome = true ∧ Sound s := by
  obtain ⟨s, hs, hp⟩ := Machine.exists_reachVia_of_run (M := machine) (G := Steady)
    (List.flatten [rendered, [.readReady 2, .flushReady 2 11, .commit 2]])
    (fun s => decide (s.status 5 = some .ready) && (s.objects ⟨7, 5⟩).isSome) rfl
    (by decide)
  obtain ⟨hready, hobject⟩ := Bool.and_eq_true_iff.1 hp
  exact ⟨s, hs, of_decide_eq_true hready, hobject, reports_sound hs⟩

end Reports

end Content

end RealEstate
