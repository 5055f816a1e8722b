import RealEstate.Systems.Ascent
import RealEstate.Systems.History
import RealEstate.Systems.Transactions
import RealEstate.Systems.UniqueIndex

/-!
# Units of work

A session that takes no lock when it reads: it loads the rows of its operation, edits them in
memory, and flushes the difference. An `INSERT` adds a row, a `DELETE` removes one, and an
`UPDATE` sets the columns whose values were edited, on the row as it is once its lock is
granted; the other columns keep what somebody else may have put there since.

- `UnitOfWork.machine`: sessions over a `Table`, one statement a step. Rows of append-only
  tables that go with a write commit with it.
- `Meets`: each flush meets a row that fits it.
- `Keeps`: what each kind of write owes a row invariant `I` (a row and its effects) and a
  relation `R` between the versions of a row.
- `Keeps.committed`, `Keeps.later`: then every committed row satisfies `I`, and every run moves
  every row along `R`.
- `Keeps.replaced`: what a session is about to replace fits one of its writes.
-/

namespace RealEstate

namespace Systems

/-- One column after an `UPDATE`: the edited value if it was edited, else what is there. -/
def column {A : Type} [DecidableEq A] (read edited current : A) : A :=
  if edited = read then current else edited

@[simp] theorem column_self {A : Type} [DecidableEq A] (read edited : A) :
    column read edited read = edited := by
  unfold column
  split
  · next h => exact h.symm
  · rfl

@[simp] theorem column_unedited {A : Type} [DecidableEq A] (read current : A) :
    column read read current = current :=
  if_pos rfl

/-- What a flush does to one row. -/
inductive Change (V : Type) where
  | insert (v : V)
  | update (read edited : V)
  | delete
  deriving DecidableEq

/-- A change under a key, and the rows of other tables that go with it. -/
structure Write (K V E : Type) where
  key : K
  change : Change V
  effects : List E := []
  deriving DecidableEq

/-- A row that was loaded and not edited is not written. -/
def Write.emits {K V E : Type} [DecidableEq V] (w : Write K V E) : Bool :=
  match w.change with
  | .update read edited => read ≠ edited
  | _ => true

/-- How a service reads and writes its rows. -/
structure UnitOfWork (K V E I Op : Type) where
  /-- The rows an operation loads. -/
  loads : Op → K → V → Bool
  /-- What it makes of them; `none` if it raises. -/
  plan : Op → List (K × V) → Option (List (Write K V E))
  /-- `overlay read edited current` is the row after the `UPDATE`. -/
  overlay : V → V → V → V
  /-- The unique index of the table. -/
  index : V → Option I

namespace UnitOfWork

open RowService (effectsOf)

variable {K V E I Op : Type}

/-- An open session: the writes ahead of it, and the effects of those behind it. -/
structure Session (K V E Op : Type) where
  op : Op
  todo : List (Write K V E)
  effects : List (K × E)

/-- The table, the committed effects and the open sessions. -/
structure State (K V E Op : Type) where
  table : Table K V Nat
  log : List (K × E)
  txns : Nat → Option (Session K V E Op)

/-- No rows. -/
def State.empty : State K V E Op where
  table := .empty
  log := []
  txns _ := none

/-- A step of a request. -/
inductive Label (Op : Type) where
  | load (t : Nat) (op : Op)
  | flush (t : Nat)
  | commit (t : Nat)
  | rollback (t : Nat)

/-- The effects of a session that are not committed yet. -/
def State.pending (s : State K V E Op) (t : Nat) : List (K × E) :=
  match s.txns t with
  | none => []
  | some session => session.effects

/-- Session `t` goes on. -/
def State.goes (s : State K V E Op) (t : Nat) (table : Table K V Nat)
    (session : Session K V E Op) : State K V E Op :=
  { s with table, txns := Function.update s.txns t (some session) }

/-- Session `t` ends. -/
def State.ends (s : State K V E Op) (t : Nat) (table : Table K V Nat)
    (effects : List (K × E)) : State K V E Op :=
  { table, log := s.log ++ effects, txns := Function.update s.txns t none }

section Machine

variable [DecidableEq K] [DecidableEq V] [DecidableEq I] (uow : UnitOfWork K V E I Op)

/-- The rows that the `SELECT` of an operation returns in session `t`. -/
def loaded (tb : Table K V Nat) (t : Nat) (op : Op) : List (K × V) :=
  (tb.load t tb.keys).filter fun row => uow.loads op row.1 row.2

/-- The statement for one row. It waits for the row's lock, or for a row that is about to take
its place in the index; a row gone missing, or one already in that place, make it fail. -/
def apply (tb : Table K V Nat) (t : Nat) (w : Write K V E) : Option (Table K V Nat) :=
  match w.change with
  | .insert v => if tb.Admits uow.index t w.key v then tb.insert t w.key v else none
  | .update read edited =>
    (tb.visible t w.key).bind fun current =>
      let v := uow.overlay read edited current
      if tb.Admits uow.index t w.key v then tb.write t w.key (some v) else none
  | .delete => tb.write t w.key none

/-- One statement, or the end of a session. -/
def step (s : State K V E Op) : Label Op → Option (State K V E Op)
  | .load t op =>
    if (s.txns t).isSome then none
    else (uow.plan op (uow.loaded s.table t op)).map fun writes =>
      s.goes t s.table ⟨op, writes.filter Write.emits, []⟩
  | .flush t =>
    match s.txns t with
    | some ⟨op, w :: todo, effects⟩ =>
      (uow.apply s.table t w).map fun table =>
        s.goes t table ⟨op, todo, effects ++ w.effects.map (w.key, ·)⟩
    | _ => none
  | .commit t =>
    match s.txns t with
    | some ⟨_, [], effects⟩ => some (s.ends t (s.table.commit t) effects)
    | _ => none
  | .rollback t =>
    match s.txns t with
    | some _ => some (s.ends t (s.table.rollback t) [])
    | none => none

/-- The service, from an empty table on. -/
def machine : Machine (State K V E Op) (Label Op) where
  init s := s = .empty
  step := uow.step

/-- The row version that a statement wrote. -/
inductive Produces (tb : Table K V Nat) (t : Nat) (w : Write K V E) : Option V → Prop where
  | insert {v : V} (h : w.change = .insert v) (hkey : w.key ∉ tb.keys) :
    Produces tb t w (some v)
  | update {read edited current : V} (h : w.change = .update read edited)
    (hcurrent : tb.visible t w.key = some current) :
    Produces tb t w (some (uow.overlay read edited current))
  | delete (h : w.change = .delete) : Produces tb t w none

/-- What a step comes to, and where its session stood. -/
inductive Stepped (s : State K V E Op) : Label Op → State K V E Op → Prop where
  | load {t : Nat} {op : Op} {writes : List (Write K V E)} : s.txns t = none →
    uow.plan op (uow.loaded s.table t op) = some writes →
    Stepped s (.load t op) (s.goes t s.table ⟨op, writes.filter Write.emits, []⟩)
  | flush {t : Nat} {op : Op} {w : Write K V E} {todo : List (Write K V E)}
    {effects : List (K × E)} {v : Option V} {table : Table K V Nat} :
    s.txns t = some ⟨op, w :: todo, effects⟩ → uow.Produces s.table t w v →
    Table.Wrote t w.key v s.table table →
    Stepped s (.flush t) (s.goes t table ⟨op, todo, effects ++ w.effects.map (w.key, ·)⟩)
  | commit {t : Nat} {op : Op} {effects : List (K × E)} : s.txns t = some ⟨op, [], effects⟩ →
    Stepped s (.commit t) (s.ends t (s.table.commit t) effects)
  | rollback {t : Nat} {session : Session K V E Op} : s.txns t = some session →
    Stepped s (.rollback t) (s.ends t (s.table.rollback t) [])

variable {uow}

omit [DecidableEq V] in
/-- What a write does to the table. -/
theorem wrote_of_apply {tb tb' : Table K V Nat} {t : Nat} {w : Write K V E}
    (h : uow.apply tb t w = some tb') :
    ∃ v, uow.Produces tb t w v ∧ Table.Wrote t w.key v tb tb' := by
  unfold apply at h
  split at h
  · next v hchange =>
    obtain ⟨-, hinsert⟩ := Option.ite_none_right_eq_some.mp h
    obtain ⟨hkey, -⟩ := Table.insert_eq_some.mp hinsert
    exact ⟨some v, .insert hchange hkey, Table.wrote_of_insert hinsert⟩
  · next read edited hchange =>
    obtain ⟨current, hcurrent, h⟩ := Option.bind_eq_some_iff.mp h
    obtain ⟨-, hwrite⟩ := Option.ite_none_right_eq_some.mp h
    exact ⟨_, .update hchange hcurrent, Table.wrote_of_write hwrite⟩
  · next hchange => exact ⟨none, .delete hchange, Table.wrote_of_write h⟩

/-- What each step does. -/
theorem stepped_of_step {s s' : State K V E Op} {l : Label Op} (h : uow.step s l = some s') :
    uow.Stepped s l s' := by
  cases l with
  | load t op =>
    obtain ⟨ht, h⟩ := Option.ite_none_left_eq_some.mp h
    obtain ⟨writes, hplan, rfl⟩ := Option.map_eq_some_iff.mp h
    exact .load (Option.not_isSome_iff_eq_none.mp ht) hplan
  | flush t =>
    -- The session's list of writes says which label may come.
    dsimp only [step] at h
    split at h
    · next ht =>
      obtain ⟨table, happly, rfl⟩ := Option.map_eq_some_iff.mp h
      obtain ⟨v, hproduces, hwrote⟩ := wrote_of_apply happly
      exact .flush ht hproduces hwrote
    · cases h
  | commit t =>
    dsimp only [step] at h
    split at h
    · next ht =>
      cases h
      exact .commit ht
    · cases h
  | rollback t =>
    dsimp only [step] at h
    split at h
    · next ht =>
      cases h
      exact .rollback ht
    · cases h

omit [DecidableEq K] [DecidableEq V] [DecidableEq I] in
/-- What a request has loaded. -/
theorem mem_loaded {tb : Table K V Nat} {t : Nat} {op : Op} {k : K} {v : V}
    (h : (k, v) ∈ uow.loaded tb t op) : tb.visible t k = some v ∧ uow.loads op k v = true := by
  obtain ⟨hload, hloads⟩ := List.mem_filter.1 h
  exact ⟨(Table.mem_load hload).2, hloads⟩

omit [DecidableEq K] [DecidableEq V] [DecidableEq I] in
/-- And what it has not missed. -/
theorem mem_loaded_of_visible {tb : Table K V Nat} {t : Nat} {op : Op} {k : K} {v : V}
    (hv : tb.visible t k = some v) (h : uow.loads op k v = true) :
    (k, v) ∈ uow.loaded tb t op := by
  refine List.mem_filter.2 ⟨List.mem_filterMap.2 ⟨k, Table.visible_keys hv, ?_⟩, h⟩
  rw [hv]
  rfl

end Machine

/-! ### Invariants of a row -/

/-- The operation plans this write from some rows that it may load, and that once satisfied
`P`. -/
def Plans (uow : UnitOfWork K V E I Op) (P : K → V → List E → Prop) (op : Op) (w : Write K V E) :
    Prop :=
  ∃ rows writes, (∀ row ∈ rows, uow.loads op row.1 row.2 = true ∧ ∃ es, P row.1 row.2 es) ∧
    uow.plan op rows = some writes ∧ w ∈ writes

/-- The write ahead of a flush fits the row that it meets. -/
def Meets (Fits : Op → Write K V E → V → Prop) (s : State K V E Op) : Label Op → Prop
  | .flush t =>
    match s.txns t with
    | some ⟨op, w :: _, _⟩ => ∀ current ∈ s.table.visible t w.key, Fits op w current
    | _ => True
  | _ => True

/-- By cases of the label. -/
instance {Fits : Op → Write K V E → V → Prop} [∀ op w v, Decidable (Fits op w v)]
    (s : State K V E Op) (l : Label Op) : Decidable (Meets Fits s l) := by
  unfold Meets
  split
  · split <;> infer_instance
  · infer_instance

theorem Meets.mono {Fits Fits' : Op → Write K V E → V → Prop} {s : State K V E Op}
    {l : Label Op} (hfits : ∀ op w v, Fits op w v → Fits' op w v) (h : Meets Fits s l) :
    Meets Fits' s l := by
  cases l with
  | flush t =>
    unfold Meets at h ⊢
    dsimp only at h ⊢
    split
    · next ht =>
      rw [ht] at h
      exact fun current hcurrent => hfits _ _ current (h current hcurrent)
    · trivial
  | load | commit | rollback => trivial

/-- What each kind of write owes the row invariant `P`, which relates a row to its effects, and
the relation `R` from a version of a row to the next. -/
structure Keeps (uow : UnitOfWork K V E I Op) (Fits : Op → Write K V E → V → Prop)
    (P : K → V → List E → Prop) (R : V → V → Prop) : Prop where
  refl : ∀ v, R v v
  trans : ∀ u v w : V, R u v → R v w → R u w
  insert : ∀ {op w v}, uow.Plans P op w → w.change = .insert v → P w.key v w.effects
  update : ∀ {op w read edited current es}, uow.Plans P op w → w.change = .update read edited →
    Fits op w current → P w.key current es →
    P w.key (uow.overlay read edited current) (es ++ w.effects) ∧
      R current (uow.overlay read edited current)
  delete : ∀ {op w}, uow.Plans P op w → w.change ≠ .delete

section Invariants

variable [DecidableEq K] [DecidableEq V] [DecidableEq I] {uow : UnitOfWork K V E I Op}
  {Fits : Op → Write K V E → V → Prop} {P : K → V → List E → Prop} {R : V → V → Prop}
  {s s' : State K V E Op} {t : Nat} {session : Session K V E Op} {table : Table K V Nat}

/-- The row versions satisfy `P` and follow `R`, and what is ahead was planned. -/
structure Inv (uow : UnitOfWork K V E I Op) (P : K → V → List E → Prop) (R : V → V → Prop)
    (s : State K V E Op) : Prop where
  fresh : ∀ k, k ∉ s.table.keys → effectsOf k s.log = []
  recorded : Recorded P s.table s.log s.pending
  ascends : Table.Ascends R s.table
  planned : ∀ t session, s.txns t = some session → ∀ w ∈ session.todo, uow.Plans P session.op w

omit [DecidableEq K] [DecidableEq V] [DecidableEq I] in
theorem pending_goes : (s.goes t table session).pending =
    Function.update s.pending t session.effects := by
  funext u
  unfold State.pending State.goes
  by_cases hu : u = t
  · simp [hu]
  · simp [hu]

omit [DecidableEq K] [DecidableEq V] [DecidableEq I] in
theorem pending_ends {effects : List (K × E)} : (s.ends t table effects).pending =
    Function.update s.pending t [] := by
  funext u
  unfold State.pending State.ends
  by_cases hu : u = t
  · simp [hu]
  · simp [hu]

omit [DecidableEq K] [DecidableEq V] [DecidableEq I] in
theorem pending_eq (h : s.txns t = some session) : s.pending t = session.effects := by
  rw [State.pending, h]

omit [DecidableEq V] [DecidableEq I] in
/-- The effects of a session are effects of rows it has written. -/
theorem Inv.pending_eq_nil (h : Inv uow P R s) {k : K} (hk : k ∉ s.table.keys) :
    effectsOf k (s.pending t) = [] := by
  refine h.recorded.clean ?_
  cases hd : s.table.dirty t k with
  | none => rfl
  | some v => exact absurd (s.table.lock_keys (s.table.dirty_lock hd)) hk

omit [DecidableEq V] [DecidableEq I] in
/-- A write, on the row as it is then. -/
theorem Inv.flush (h : Inv uow P R s) (hK : Keeps uow Fits P R) {op : Op} {w : Write K V E}
    {todo : List (Write K V E)} {effects : List (K × E)} {v : Option V}
    (ht : s.txns t = some ⟨op, w :: todo, effects⟩)
    (hfits : ∀ current ∈ s.table.visible t w.key, Fits op w current)
    (hproduces : uow.Produces s.table t w v) (hwrote : Table.Wrote t w.key v s.table table) :
    Inv uow P R (s.goes t table ⟨op, todo, effects ++ w.effects.map (w.key, ·)⟩) := by
  have hplans : uow.Plans P op w := h.planned t _ ht w List.mem_cons_self
  have hpending : s.pending t = effects := pending_eq ht
  have hversion : (∀ v', v = some v' →
      P w.key v' (effectsOf w.key s.log ++ effectsOf w.key (s.pending t) ++ w.effects)) ∧
        ∃ v', v = some v' ∧ ∀ seen, s.table.visible t w.key = some seen → R seen v' := by
    cases hproduces with
    | insert hchange hkey =>
      refine ⟨?_, _, rfl, fun seen hseen => absurd (Table.visible_keys hseen) hkey⟩
      rintro v' ⟨⟩
      rw [h.fresh _ hkey, h.pending_eq_nil hkey]
      exact hK.insert hplans hchange
    | update hchange hcurrent =>
      -- The row still fits what the unit of work read.
      obtain ⟨hP, hR⟩ := hK.update hplans hchange (hfits _ hcurrent)
        (h.recorded.visible hcurrent)
      refine ⟨?_, _, rfl, fun seen hseen => ?_⟩
      · rintro v' ⟨⟩
        exact hP
      · cases hcurrent.symm.trans hseen
        exact hR
    | delete hchange => exact absurd hchange (hK.delete hplans)
  obtain ⟨hP, v', rfl, hR⟩ := hversion
  constructor
  case fresh =>
    intro k hk
    refine h.fresh k fun hmem => hk ?_
    rcases hwrote.keys with hkeys | ⟨-, hkeys⟩
    · exact hkeys ▸ hmem
    · exact hkeys ▸ List.mem_cons_of_mem _ hmem
  case recorded =>
    rw [pending_goes, ← hpending]
    exact h.recorded.wrote w.effects hwrote hP
  case ascends => exact h.ascends.wrote hK.refl hK.trans hwrote hR
  case planned =>
    refine Machine.each_goes h.planned (fun _ _ _ hu => hu) fun w' hw' => ?_
    exact h.planned t _ ht w' (List.mem_cons_of_mem _ hw')

/-- One step keeps the invariant. -/
theorem Inv.step (h : Inv uow P R s) (hK : Keeps uow Fits P R) {l : Label Op}
    (hmeets : Meets Fits s l) (hst : uow.step s l = some s') : Inv uow P R s' := by
  cases stepped_of_step hst with
  | @load t op writes ht hplan =>
    refine ⟨h.fresh, ?_, h.ascends, Machine.each_goes h.planned (fun _ _ _ hu => hu) ?_⟩
    · have hnone : s.pending t = [] := by rw [State.pending, ht]
      rw [pending_goes, ← hnone, Function.update_eq_self]
      exact h.recorded
    · intro w hw
      refine ⟨_, writes, fun row hrow => ?_, hplan, List.mem_of_mem_filter hw⟩
      obtain ⟨hvisible, hloads⟩ := mem_loaded hrow
      exact ⟨hloads, _, h.recorded.visible hvisible⟩
  | @flush t op w todo effects v table ht hproduces hwrote =>
    refine h.flush hK ht (fun current hcurrent => ?_) hproduces hwrote
    rw [Meets, ht] at hmeets
    exact hmeets current hcurrent
  | @commit t op effects ht =>
    refine ⟨fun k hk => ?_, ?_, h.ascends.commit t,
      Machine.each_ends h.planned fun _ _ _ hu => hu⟩
    · have hpending : effectsOf k (s.pending t) = [] := h.pending_eq_nil hk
      -- The effects of the session go to the log with its rows.
      rw [pending_eq ht] at hpending
      show effectsOf k (s.log ++ effects) = []
      rw [RowService.effectsOf_append, h.fresh k hk, hpending]
      rfl
    · rw [pending_ends]
      have hrecorded := h.recorded.commit t
      rw [pending_eq ht] at hrecorded
      exact hrecorded
  | @rollback t session ht =>
    refine ⟨fun k hk => ?_, ?_, h.ascends.rollback t,
      Machine.each_ends h.planned fun _ _ _ hu => hu⟩
    · -- A rolled-back session leaves neither row nor effect.
      show effectsOf k (s.log ++ []) = []
      rw [List.append_nil]
      exact h.fresh k hk
    · rw [pending_ends]
      show Recorded P _ (s.log ++ []) _
      rw [List.append_nil]
      exact h.recorded.rollback t

/-- **An invariant that every write keeps** holds in every state reached. -/
theorem Keeps.inv (hK : Keeps uow Fits P R) (h : uow.machine.ReachVia (Meets Fits) s) :
    Inv uow P R s := by
  refine Machine.Inductive.always ⟨?_, fun s l s' hs hmeets hst => hs.step hK hmeets hst⟩ h
  rintro _ rfl
  exact ⟨fun _ _ => rfl, Recorded.empty, Table.Ascends.empty, fun _ _ h => nomatch h⟩

/-- **Rows.** Every committed row satisfies `P` with its effects. -/
theorem Keeps.committed (hK : Keeps uow Fits P R) (h : uow.machine.ReachVia (Meets Fits) s)
    {k : K} {v : V} (hv : s.table.rows k = some v) : P k v (effectsOf k s.log) :=
  (hK.inv h).recorded.committed hv

/-- **Versions.** A run moves every committed row along `R`, wherever it starts. -/
theorem Keeps.later (hK : Keeps uow Fits P R) (h : uow.machine.ReachVia (Meets Fits) s)
    (hlater : (uow.machine.startingAt s).ReachVia (Meets Fits) s') {k : K} {v : V}
    (hv : s.table.rows k = some v) : ∃ v', s'.table.rows k = some v' ∧ R v v' := by
  suffices hboth : Inv uow P R s' ∧ ∃ v', s'.table.rows k = some v' ∧ R v v' from hboth.2
  induction hlater with
  | init hs =>
    cases hs
    exact ⟨hK.inv h, v, hv, hK.refl v⟩
  | @step s₁ s₂ l _ hmeets hst ih =>
    obtain ⟨hinv, v', hv', hR⟩ := ih
    refine ⟨hinv.step hK hmeets hst, ?_⟩
    have hrows : s₂.table.rows = s₁.table.rows ∨ ∃ t, s₂.table.rows = s₁.table.visible t := by
      cases stepped_of_step hst with
      | load | rollback => exact .inl rfl
      | flush ht hproduces hwrote => exact .inl hwrote.rows
      | @commit t op effects ht => exact .inr ⟨t, rfl⟩
    rcases hrows with hrows | ⟨t, hrows⟩
    · exact ⟨v', hrows ▸ hv', hR⟩
    · obtain ⟨v'', hv'', hR'⟩ := hinv.ascends.visible (t := t) hK.refl hv'
      exact ⟨v'', hrows ▸ hv'', hK.trans v v' v'' hR hR'⟩

/-- What a session has written replaces rows that its writes fit. -/
structure Replaces (uow : UnitOfWork K V E I Op) (Fits : Op → Write K V E → V → Prop)
    (P : K → V → List E → Prop) (s : State K V E Op) : Prop where
  clean : Table.Clean s.txns s.table
  fits : ∀ t session, s.txns t = some session → ∀ k version row,
    s.table.dirty t k = some version → s.table.rows k = some row →
      ∃ w, w.key = k ∧ uow.Plans P session.op w ∧ Fits session.op w row

theorem Replaces.step (h : Replaces uow Fits P s) (hinv : Inv uow P R s) {l : Label Op}
    (hmeets : Meets Fits s l) (hst : uow.step s l = some s') : Replaces uow Fits P s' := by
  cases stepped_of_step hst with
  | @load t op writes ht hplan =>
    refine ⟨h.clean.goes fun u _ => Table.SameFor.refl u _,
      Machine.each_goes h.fits (fun _ _ _ hu => hu) fun k version row hdirty => ?_⟩
    cases (h.clean t ht k).symm.trans hdirty
  | @flush t op w todo effects v table ht hproduces hwrote =>
    have hrows : table.rows = s.table.rows := hwrote.rows
    refine ⟨h.clean.goes hwrote.other, Machine.each_goes h.fits ?_ ?_⟩
    · intro u session hu hfits k version row hdirty hrow
      exact hfits k version row (((hwrote.other u hu).dirty k).symm.trans hdirty) (hrows ▸ hrow)
    · intro k version row hdirty hrow
      replace hrow : s.table.rows k = some row := hrows ▸ hrow
      by_cases hk : k = w.key
      · subst hk
        cases hd : s.table.dirty t w.key with
        | some earlier => exact h.fits t _ ht w.key earlier row hd hrow
        | none =>
          -- The first statement for the row: it met the committed version.
          refine ⟨w, rfl, hinv.planned t _ ht w List.mem_cons_self, ?_⟩
          rw [Meets, ht] at hmeets
          exact hmeets row ((Table.visible_of_clean hd).trans hrow)
      · exact h.fits t _ ht k version row ((hwrote.rest k hk).symm.trans hdirty) hrow
  | @commit t op effects ht =>
    refine ⟨h.clean.ends (fun k => if_pos rfl) fun u hu => Table.commit_sameFor hu,
      Machine.each_ends h.fits fun u session hu hfits k version row hdirty hrow => ?_⟩
    obtain ⟨-, hdirty⟩ := Table.commit_dirty.mp hdirty
    refine hfits k version row hdirty ?_
    exact (Table.commit_rows_of_lock (s.table.dirty_lock hdirty) hu).symm.trans hrow
  | @rollback t session ht =>
    refine ⟨h.clean.ends (fun k => if_pos rfl) fun u hu => Table.rollback_sameFor hu,
      Machine.each_ends h.fits fun u session hu hfits k version row hdirty hrow => ?_⟩
    exact hfits k version row (Table.rollback_dirty.mp hdirty).2 hrow

/-- **Replaced rows.** The committed row that an open session is about to replace fits one of
its writes. -/
theorem Keeps.replaced (hK : Keeps uow Fits P R) (h : uow.machine.ReachVia (Meets Fits) s)
    (ht : s.txns t = some session) {k : K} {version : Option V} {row : V}
    (hdirty : s.table.dirty t k = some version) (hrow : s.table.rows k = some row) :
    ∃ w, w.key = k ∧ uow.Plans P session.op w ∧ Fits session.op w row := by
  have hinductive : uow.machine.Inductive (Meets Fits) fun s =>
      Inv uow P R s ∧ Replaces uow Fits P s := by
    constructor
    case init =>
      rintro _ rfl
      exact ⟨hK.inv (.init rfl), fun _ _ _ => rfl, fun _ _ h => nomatch h⟩
    case step =>
      intro s l s' hs hmeets hst
      exact ⟨hs.1.step hK hmeets hst, hs.2.step hs.1 hmeets hst⟩
  exact (hinductive.always h).2.fits t session ht k version row hdirty hrow

end Invariants

end UnitOfWork

end Systems

end RealEstate
