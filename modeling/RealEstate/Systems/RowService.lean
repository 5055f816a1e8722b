import RealEstate.Systems.Transactions
import Mathlib.Logic.Relation

/-!
# Requests and sweeps over one table

A `RowService` says how a service reads and writes the rows of one table: what it inserts,
which operations lock the row they read, what each plans from the row it read, and which
rows its sweeps mark. A row write may come with *effects*, rows of append-only tables that
commit with it.

- `RowService.machine`: transactions over a `Table`, one statement a step. An operation
  reads its row, with `FOR UPDATE` or without, and writes later what it planned from what
  it read; a sweep reads all its rows at once and writes them one by one.
- `RowService.Keeps`: the proof obligations of a row invariant `I` (a row and its effects)
  and of a relation `R` between the versions of a row, one for each kind of write. An
  operation that locks owes them only for the row it planned from, any other for whatever
  row its write meets.
- `Keeps.committed`, `Keeps.later`: every committed row satisfies `I`, and a run moves
  every row along `R`.
-/

namespace RealEstate

namespace Systems

/-- How a service writes its rows. `V` are rows, `P` the patches a write applies, `E` effects. -/
structure RowService (K V P E New Op Sweep : Type) where
  /-- The row inserted under a key, and its effects; `none` if the request raises. -/
  create : K → New → Option (V × List E)
  /-- The operation reads its row with `FOR UPDATE`. -/
  locks : Op → Bool
  /-- What the operation writes after reading a row; `none` if it raises. -/
  plan : K → Op → V → Option (P × List E)
  apply : P → V → V
  /-- The rows a sweep selects, and what it writes to each. -/
  due : Sweep → V → Bool
  mark : Sweep → P

namespace RowService

variable {K V P E New Op Sweep : Type}

/-- Where a transaction stands. -/
inductive Phase (K P E Op Sweep : Type) where
  | reading (op : Op) (k : K)
  | writing (op : Op) (k : K) (patch : P) (effects : List E)
  | sweeping (sweep : Sweep) (todo : List K)
  | done (effects : List (K × E))

/-- The effects the transaction has written so far. -/
def Phase.effects : Phase K P E Op Sweep → List (K × E)
  | .done effects => effects
  | _ => []

/-- The transaction has no read or write of an operation before it. -/
def Phase.Settled : Phase K P E Op Sweep → Prop
  | .reading _ _ | .writing _ _ _ _ => False
  | .sweeping _ _ | .done _ => True

/-- The table, the committed effects and the transactions in flight. -/
structure State (K V P E Op Sweep : Type) where
  table : Table K V Nat
  effects : List (K × E)
  txns : Nat → Option (Phase K P E Op Sweep)

/-- A step of a request or of a sweep. -/
inductive Label (K New Op Sweep : Type) where
  | create (t : Nat) (k : K) (new : New)
  | start (t : Nat) (op : Op) (k : K)
  | read (t : Nat)
  | write (t : Nat)
  | sweep (t : Nat) (sweep : Sweep)
  | mark (t : Nat)
  | commit (t : Nat)
  | rollback (t : Nat)

/-- Transaction `t` goes on. -/
def State.goes (s : State K V P E Op Sweep) (t : Nat) (table : Table K V Nat)
    (phase : Phase K P E Op Sweep) : State K V P E Op Sweep :=
  { s with table, txns := Function.update s.txns t (some phase) }

/-- Transaction `t` ends. -/
def State.ends (s : State K V P E Op Sweep) (t : Nat) (table : Table K V Nat)
    (effects : List (K × E)) : State K V P E Op Sweep :=
  { table, effects := s.effects ++ effects, txns := Function.update s.txns t none }

/-- The effects of one row. -/
def effectsOf [DecidableEq K] (k : K) (effects : List (K × E)) : List E :=
  (effects.filter (·.1 = k)).map Prod.snd

variable [DecidableEq K]

@[simp] theorem effectsOf_append (k : K) (es fs : List (K × E)) :
    effectsOf k (es ++ fs) = effectsOf k es ++ effectsOf k fs := by
  simp [effectsOf]

@[simp] theorem effectsOf_nil (k : K) : effectsOf k ([] : List (K × E)) = [] := rfl

theorem effectsOf_map_self (k : K) (es : List E) : effectsOf k (es.map (k, ·)) = es := by
  simp [effectsOf, List.filter_map, Function.comp_def]

theorem effectsOf_map_of_ne {j k : K} (h : k ≠ j) (es : List E) :
    effectsOf j (es.map (k, ·)) = [] := by
  simp [effectsOf, List.filter_map, Function.comp_def, h]

section Machine

variable (sv : RowService K V P E New Op Sweep)

/-- The `SELECT` of an operation, and what it plans. A row that is not there, a check that fails
or a row lock held elsewhere leave the step disabled: the transaction rolls back, or waits. -/
def State.read (s : State K V P E Op Sweep) (t : Nat) (op : Op) (k : K) :
    Option (State K V P E Op Sweep) :=
  (if sv.locks op then s.table.acquire t k else some s.table).bind fun table =>
    (table.visible t k).bind fun v =>
      (sv.plan k op v).map fun (patch, effects) => s.goes t table (.writing op k patch effects)

/-- The `UPDATE` of one row: it applies to the row as it is once its lock is granted. -/
def State.update (s : State K V P E Op Sweep) (t : Nat) (k : K) (patch : P)
    (phase : Phase K P E Op Sweep) : Option (State K V P E Op Sweep) :=
  (s.table.visible t k).bind fun v =>
    (s.table.write t k (some (sv.apply patch v))).map fun table => s.goes t table phase

/-- One statement, or the end of a transaction. -/
def step (s : State K V P E Op Sweep) :
    Label K New Op Sweep → Option (State K V P E Op Sweep)
  | .create t k new =>
    if (s.txns t).isSome then none
    else (sv.create k new).bind fun (v, effects) =>
      (s.table.insert t k v).map fun table => s.goes t table (.done (effects.map (k, ·)))
  | .start t op k =>
    if (s.txns t).isSome then none else some (s.goes t s.table (.reading op k))
  | .read t =>
    match s.txns t with
    | some (.reading op k) => s.read sv t op k
    | _ => none
  | .write t =>
    match s.txns t with
    | some (.writing _ k patch effects) =>
      s.update sv t k patch (.done (effects.map (k, ·)))
    | _ => none
  | .sweep t sweep =>
    if (s.txns t).isSome then none
    else some (s.goes t s.table (.sweeping sweep (s.table.scan t (sv.due sweep))))
  | .mark t =>
    match s.txns t with
    | some (.sweeping sweep (k :: todo)) =>
      s.update sv t k (sv.mark sweep) (.sweeping sweep todo)
    | _ => none
  | .commit t =>
    match s.txns t with
    | some (.done effects) => some (s.ends t (s.table.commit t) effects)
    | some (.sweeping _ []) => some (s.ends t (s.table.commit t) [])
    | _ => none
  | .rollback t =>
    match s.txns t with
    | some _ => some (s.ends t (s.table.rollback t) [])
    | none => none

/-- What a step comes to, and where its transaction stood. -/
inductive Stepped (s : State K V P E Op Sweep) :
    Label K New Op Sweep → State K V P E Op Sweep → Prop where
  | create {t : Nat} {k : K} {new : New} {v : V} {es : List E} {table : Table K V Nat} :
    s.txns t = none → sv.create k new = some (v, es) → s.table.insert t k v = some table →
    Stepped s (.create t k new) (s.goes t table (.done (es.map (k, ·))))
  | start {t : Nat} {op : Op} {k : K} : s.txns t = none →
    Stepped s (.start t op k) (s.goes t s.table (.reading op k))
  | read {t : Nat} {op : Op} {k : K} {s' : State K V P E Op Sweep} :
    s.txns t = some (.reading op k) → s.read sv t op k = some s' → Stepped s (.read t) s'
  | write {t : Nat} {op : Op} {k : K} {patch : P} {new : List E} {s' : State K V P E Op Sweep} :
    s.txns t = some (.writing op k patch new) →
    s.update sv t k patch (.done (new.map (k, ·))) = some s' → Stepped s (.write t) s'
  | sweep {t : Nat} {sweep : Sweep} : s.txns t = none →
    Stepped s (.sweep t sweep)
      (s.goes t s.table (.sweeping sweep (s.table.scan t (sv.due sweep))))
  | mark {t : Nat} {sweep : Sweep} {k : K} {todo : List K} {s' : State K V P E Op Sweep} :
    s.txns t = some (.sweeping sweep (k :: todo)) →
    s.update sv t k (sv.mark sweep) (.sweeping sweep todo) = some s' → Stepped s (.mark t) s'
  | commit {t : Nat} {effects : List (K × E)} : s.txns t = some (.done effects) →
    Stepped s (.commit t) (s.ends t (s.table.commit t) effects)
  | swept {t : Nat} {sweep : Sweep} : s.txns t = some (.sweeping sweep []) →
    Stepped s (.commit t) (s.ends t (s.table.commit t) [])
  | rollback {t : Nat} : Stepped s (.rollback t) (s.ends t (s.table.rollback t) [])

variable {sv}

/-- What each step does. -/
theorem stepped_of_step {s s' : State K V P E Op Sweep} {l : Label K New Op Sweep}
    (h : step sv s l = some s') : Stepped sv s l s' := by
  cases l with
  | create t k new =>
    obtain ⟨ht, h⟩ := Option.ite_none_left_eq_some.mp h
    obtain ⟨⟨v, es⟩, hcreate, h⟩ := Option.bind_eq_some_iff.mp h
    obtain ⟨table, hinsert, rfl⟩ := Option.map_eq_some_iff.mp h
    exact .create (Option.not_isSome_iff_eq_none.mp ht) hcreate hinsert
  | start t op k =>
    obtain ⟨ht, h⟩ := Option.ite_none_left_eq_some.mp h
    cases h
    exact .start (Option.not_isSome_iff_eq_none.mp ht)
  | sweep t sweep =>
    obtain ⟨ht, h⟩ := Option.ite_none_left_eq_some.mp h
    cases h
    exact .sweep (Option.not_isSome_iff_eq_none.mp ht)
  | read t =>
    dsimp only [step] at h
    -- The phase decides which statement comes next, so each label has one case.
    split at h
    · next ht => exact .read ht h
    · cases h
  | write t =>
    dsimp only [step] at h
    split at h
    · next ht => exact .write ht h
    · cases h
  | mark t =>
    dsimp only [step] at h
    split at h
    · next ht => exact .mark ht h
    · cases h
  | commit t =>
    dsimp only [step] at h
    split at h
    · next ht =>
      cases h
      exact .commit ht
    · next ht =>
      cases h
      exact .swept ht
    · cases h
  | rollback t =>
    dsimp only [step] at h
    split at h
    · cases h
      exact .rollback
    · cases h

variable (sv)

/-- The service, from an empty table on. -/
def machine : Machine (State K V P E Op Sweep) (Label K New Op Sweep) where
  init s := s = ⟨.empty, [], fun _ => none⟩
  step := step sv

end Machine

/-! ### Invariants of a row -/

/-- What each kind of write owes the row invariant `I`, which relates a row to its effects, and
the relation `R` from a version of a row to the next. Sweeps are held to rows that are `Due`
when they are written. -/
structure Keeps (sv : RowService K V P E New Op Sweep) (Due : Sweep → V → Prop)
    (I : K → V → List E → Prop) (R : V → V → Prop) : Prop where
  refl : ∀ v, R v v
  trans : ∀ {u v w : V}, R u v → R v w → R u w
  create : ∀ {k new v es}, sv.create k new = some (v, es) → I k v es
  /-- A locked row is still the one planned from. -/
  locked : ∀ {k op v patch new es}, sv.locks op = true → sv.plan k op v = some (patch, new) →
    I k v es → I k (sv.apply patch v) (es ++ new) ∧ R v (sv.apply patch v)
  /-- A row that was not locked may have become any other. -/
  unlocked : ∀ {k op v patch new w es}, sv.locks op = false →
    sv.plan k op v = some (patch, new) →
    I k w es → I k (sv.apply patch w) (es ++ new) ∧ R w (sv.apply patch w)
  mark : ∀ {sweep k w es}, Due sweep w → I k w es →
    I k (sv.apply (sv.mark sweep) w) es ∧ R w (sv.apply (sv.mark sweep) w)

/-- A sweep writes a row only if it is `Due` at that moment. -/
def MarksDue (Due : Sweep → V → Prop) (s : State K V P E Op Sweep) :
    Label K New Op Sweep → Prop
  | .mark t =>
    match s.txns t with
    | some (.sweeping sweep (k :: _)) => ∀ v ∈ s.table.visible t k, Due sweep v
    | _ => True
  | _ => True

/-- Whether a sweep marks what is due is read off the rows it visits. -/
instance {Due : Sweep → V → Prop} [∀ sweep v, Decidable (Due sweep v)]
    (s : State K V P E Op Sweep) (l : Label K New Op Sweep) : Decidable (MarksDue Due s l) := by
  unfold MarksDue
  split
  · split <;> infer_instance
  · infer_instance

omit [DecidableEq K] in
/-- Sweeps that may mark any row. -/
theorem marksDue_of_forall {Due : Sweep → V → Prop} (h : ∀ sweep v, Due sweep v)
    (s : State K V P E Op Sweep) (l : Label K New Op Sweep) : MarksDue Due s l := by
  unfold MarksDue
  split
  · split
    · exact fun v _ => h _ v
    · trivial
  · trivial

/-- What the transactions have written satisfies `I` and follows `R`, and what a locking
operation plans still fits its row. -/
structure Inv (sv : RowService K V P E New Op Sweep) (I : K → V → List E → Prop)
    (R : V → V → Prop) (s : State K V P E Op Sweep) : Prop where
  idle : ∀ t, s.txns t = none → ∀ k, s.table.lock k ≠ some t
  fresh : ∀ k, k ∉ s.table.keys → effectsOf k s.effects = []
  committed : ∀ k v, s.table.rows k = some v → I k v (effectsOf k s.effects)
  written : ∀ t phase k w, s.txns t = some phase → s.table.dirty t k = some w →
    ∃ v, w = some v ∧ I k v (effectsOf k s.effects ++ effectsOf k phase.effects) ∧
      ∀ u, s.table.rows k = some u → R u v
  clean : ∀ t phase k, s.txns t = some phase → s.table.dirty t k = none →
    effectsOf k phase.effects = []
  planned : ∀ t op k patch new, s.txns t = some (.writing op k patch new) →
    (∀ j, s.table.dirty t j = none) ∧ ∃ v, sv.plan k op v = some (patch, new) ∧
      (sv.locks op = true → s.table.lock k = some t ∧ s.table.visible t k = some v)
  unread : ∀ t op k, s.txns t = some (.reading op k) → ∀ j, s.table.dirty t j = none

section Invariants

variable {sv : RowService K V P E New Op Sweep} {Due : Sweep → V → Prop}
  {I : K → V → List E → Prop} {R : V → V → Prop} {s s' : State K V P E Op Sweep}

/-- The row a transaction sees satisfies `I` with the effects it sees. -/
theorem Inv.visible (h : Inv sv I R s) (hK : Keeps sv Due I R) {t : Nat}
    {phase : Phase K P E Op Sweep} (ht : s.txns t = some phase) {k : K} {v : V}
    (hv : s.table.visible t k = some v) :
    I k v (effectsOf k s.effects ++ effectsOf k phase.effects) ∧
      ∀ u, s.table.rows k = some u → R u v := by
  cases hd : s.table.dirty t k with
  | none =>
    rw [Table.visible_of_clean hd] at hv
    rw [h.clean t phase k ht hd, List.append_nil]
    refine ⟨h.committed k v hv, fun u hu => ?_⟩
    cases hu.symm.trans hv
    exact hK.refl _
  | some w =>
    rw [Table.visible_of_dirty hd] at hv
    obtain ⟨v', rfl, hI, hR⟩ := h.written t phase k w ht hd
    cases hv
    exact ⟨hI, hR⟩

theorem Inv.empty : Inv sv I R (⟨.empty, [], fun _ => none⟩ : State K V P E Op Sweep) where
  idle _ _ _ := nofun
  fresh _ _ := rfl
  committed _ _ h := nomatch h
  written _ _ _ _ h _ := nomatch h
  clean _ _ _ h _ := nomatch h
  planned _ _ _ _ _ h := nomatch h
  unread _ _ _ h := nomatch h

/-- The other transactions do not notice a statement of `t`. -/
theorem Inv.goes (h : Inv sv I R s) {t : Nat} {table : Table K V Nat}
    {phase : Phase K P E Op Sweep} (hrows : table.rows = s.table.rows)
    (hkeys : ∀ k ∈ s.table.keys, k ∈ table.keys)
    (hother : ∀ u, u ≠ t → Table.SameFor u s.table table)
    (hwritten : ∀ k w, table.dirty t k = some w →
      ∃ v, w = some v ∧ I k v (effectsOf k s.effects ++ effectsOf k phase.effects) ∧
        ∀ u, s.table.rows k = some u → R u v)
    (hclean : ∀ k, table.dirty t k = none → effectsOf k phase.effects = [])
    (hplanned : ∀ op k patch new, phase = .writing op k patch new →
      (∀ j, table.dirty t j = none) ∧ ∃ v, sv.plan k op v = some (patch, new) ∧
        (sv.locks op = true → table.lock k = some t ∧ table.visible t k = some v))
    (hunread : ∀ op k, phase = .reading op k → ∀ j, table.dirty t j = none) :
    Inv sv I R (s.goes t table phase) where
  idle := Table.Idle.goes h.idle hother
  fresh k hk := h.fresh k fun hm => hk (hkeys k hm)
  committed k v hv := h.committed k v (hrows ▸ hv)
  written u phase' k w hu hd := by
    show ∃ v, w = some v ∧ _ ∧ ∀ u, table.rows k = some u → R u v
    rw [hrows]
    rcases Machine.update_cases hu with ⟨rfl, hphase⟩ | ⟨hne, hu⟩
    · cases hphase
      exact hwritten k w hd
    · exact h.written u phase' k w hu (((hother u hne).dirty k).symm.trans hd)
  clean u phase' k hu hd := by
    rcases Machine.update_cases hu with ⟨rfl, hphase⟩ | ⟨hne, hu⟩
    · cases hphase
      exact hclean k hd
    · exact h.clean u phase' k hu (((hother u hne).dirty k).symm.trans hd)
  planned u op k patch new hu := by
    rcases Machine.update_cases hu with ⟨rfl, hphase⟩ | ⟨hne, hu⟩
    · exact hplanned op k patch new (Option.some.inj hphase)
    · obtain ⟨hdirty, v, hplan, hlock⟩ := h.planned u op k patch new hu
      have hsame := hother u hne
      -- A lock of another transaction stays, and with it what that one read.
      refine ⟨fun j => (hsame.dirty j).trans (hdirty j), v, hplan, fun hlocks => ?_⟩
      obtain ⟨hl, hv⟩ := hlock hlocks
      exact ⟨(hsame.lock k).mpr hl, (hsame.visible hl).trans hv⟩
  unread u op k hu j := by
    rcases Machine.update_cases hu with ⟨rfl, hphase⟩ | ⟨hne, hu⟩
    · exact hunread op k (Option.some.inj hphase) j
    · exact ((hother u hne).dirty j).trans (h.unread u op k hu j)

/-- A transaction that has written nothing yet goes on without a write. -/
theorem Inv.goes_clean (h : Inv sv I R s) {t : Nat} {table : Table K V Nat}
    {phase : Phase K P E Op Sweep} (hrows : table.rows = s.table.rows)
    (hkeys : ∀ k ∈ s.table.keys, k ∈ table.keys)
    (hother : ∀ u, u ≠ t → Table.SameFor u s.table table)
    (hdirty : ∀ k, table.dirty t k = none) (heffects : phase.effects = [])
    (hplanned : ∀ op k patch new, phase = .writing op k patch new →
      ∃ v, sv.plan k op v = some (patch, new) ∧
        (sv.locks op = true → table.lock k = some t ∧ table.visible t k = some v)) :
    Inv sv I R (s.goes t table phase) := by
  refine h.goes hrows hkeys hother (fun k w hd => ?_) (fun k _ => ?_) ?_ fun _ _ _ => hdirty
  · cases (hdirty k).symm.trans hd
  · rw [heffects, effectsOf_nil]
  · exact fun op k patch new hphase => ⟨hdirty, hplanned op k patch new hphase⟩

theorem Inv.create (h : Inv sv I R s) (hK : Keeps sv Due I R) {t : Nat} {k : K} {new : New}
    {v : V} {es : List E} (ht : s.txns t = none) (hcreate : sv.create k new = some (v, es))
    {table : Table K V Nat} (hinsert : s.table.insert t k v = some table) :
    Inv sv I R (s.goes t table (.done (es.map (k, ·)))) := by
  obtain ⟨hk, rfl⟩ := Table.insert_eq_some.mp hinsert
  have hnone : s.table.rows k = none := by
    cases hr : s.table.rows k with
    | none => rfl
    | some v => exact absurd (s.table.rows_keys hr) hk
  refine h.goes rfl (fun j hj => List.mem_cons_of_mem _ hj)
    (fun u hu => Table.inserted_sameFor hu hk) (fun j w hd => ?_) (fun j hd => ?_)
    (fun _ _ _ _ hphase => nomatch hphase) (fun _ _ hphase => nomatch hphase)
  · by_cases hj : j = k
    · subst hj
      rw [Table.inserted_dirty, Table.setDirty_self] at hd
      cases hd
      refine ⟨_, rfl, ?_, fun u hu => ?_⟩
      · rw [h.fresh j hk, List.nil_append, Phase.effects, effectsOf_map_self]
        exact hK.create hcreate
      · cases hnone.symm.trans hu
    · rw [Table.inserted_dirty, Table.setDirty_of_ne_key hj, Table.Idle.clean h.idle t ht] at hd
      cases hd
  · by_cases hj : j = k
    · subst hj
      rw [Table.inserted_dirty, Table.setDirty_self] at hd
      cases hd
    · exact effectsOf_map_of_ne (Ne.symm hj) _

theorem Inv.read (h : Inv sv I R s) {t : Nat} {op : Op} {k : K}
    (ht : s.txns t = some (.reading op k)) (hst : s.read sv t op k = some s') :
    Inv sv I R s' := by
  obtain ⟨table, htable, hst⟩ := Option.bind_eq_some_iff.mp hst
  obtain ⟨v, hv, hst⟩ := Option.bind_eq_some_iff.mp hst
  obtain ⟨⟨patch, new⟩, hplan, rfl⟩ := Option.map_eq_some_iff.mp hst
  have hdirty := h.unread t op k ht
  by_cases hlocks : sv.locks op = true
  · rw [if_pos hlocks] at htable
    obtain ⟨hk, rfl⟩ := Table.acquire_eq_some.mp htable
    refine h.goes_clean rfl (fun _ hj => hj) (fun u hu => Table.acquired_sameFor hu hk)
      hdirty rfl ?_
    intro op' k' patch' new' hphase
    cases hphase
    exact ⟨v, hplan, fun _ => ⟨Function.update_self .., hv⟩⟩
  · rw [if_neg hlocks] at htable
    cases htable
    refine h.goes_clean rfl (fun _ hj => hj) (fun u _ => Table.SameFor.refl u _) hdirty rfl ?_
    intro op' k' patch' new' hphase
    cases hphase
    exact ⟨v, hplan, fun hl => absurd hl hlocks⟩

/-- A row is written: the new version keeps `I` with the effects that come with it. -/
theorem Inv.update (h : Inv sv I R s) (hK : Keeps sv Due I R) {t : Nat} {k : K} {patch : P}
    {phase phase' : Phase K P E Op Sweep} {new : List E} (ht : s.txns t = some phase)
    (heffects : phase'.effects = phase.effects ++ new.map (k, ·))
    (hsettled : phase'.Settled)
    (hkeeps : ∀ v es, s.table.visible t k = some v → I k v es →
      I k (sv.apply patch v) (es ++ new) ∧ R v (sv.apply patch v))
    (hst : s.update sv t k patch phase' = some s') : Inv sv I R s' := by
  obtain ⟨v, hv, hst⟩ := Option.bind_eq_some_iff.mp hst
  obtain ⟨table, hwrite, rfl⟩ := Option.map_eq_some_iff.mp hst
  obtain ⟨hk, rfl⟩ := Table.write_eq_some.mp hwrite
  obtain ⟨hI, hR⟩ := h.visible hK ht hv
  obtain ⟨hI', hR'⟩ := hkeeps v _ hv hI
  refine h.goes rfl (fun _ hj => hj) (fun u hu => Table.written_sameFor hu hk)
    (fun j w hd => ?_) (fun j hd => ?_) (fun op j patch new hphase => ?_)
    (fun op j hphase => ?_)
  · -- The row that is written, or one the transaction wrote before.
    rw [heffects, effectsOf_append]
    by_cases hj : j = k
    · subst hj
      rw [Table.written_dirty, Table.setDirty_self] at hd
      cases hd
      rw [effectsOf_map_self, ← List.append_assoc]
      exact ⟨_, rfl, hI', fun u hu => hK.trans (hR u hu) hR'⟩
    · rw [Table.written_dirty, Table.setDirty_of_ne_key hj] at hd
      rw [effectsOf_map_of_ne (Ne.symm hj), List.append_nil]
      exact h.written t phase j w ht hd
  · have hj : j ≠ k := by
      rintro rfl
      rw [Table.written_dirty, Table.setDirty_self] at hd
      cases hd
    rw [Table.written_dirty, Table.setDirty_of_ne_key hj] at hd
    rw [heffects, effectsOf_append, effectsOf_map_of_ne (Ne.symm hj), List.append_nil]
    exact h.clean t phase j ht hd
  · -- A transaction that has written plans nothing more.
    rw [hphase] at hsettled
    exact hsettled.elim
  · rw [hphase] at hsettled
    exact hsettled.elim

/-- A transaction ends; the others keep what they have. -/
theorem Inv.ends (h : Inv sv I R s) {t : Nat} {table : Table K V Nat} {effects : List (K × E)}
    (hkeys : table.keys = s.table.keys)
    (hdirty : ∀ u k w, table.dirty u k = some w → u ≠ t ∧ s.table.dirty u k = some w)
    (hlock : ∀ u k, table.lock k = some u → u ≠ t ∧ s.table.lock k = some u)
    (hother : ∀ u, u ≠ t → Table.SameFor u s.table table)
    (hfresh : ∀ k, k ∉ s.table.keys → effectsOf k effects = [])
    (hcommitted : ∀ k v, table.rows k = some v →
      I k v (effectsOf k s.effects ++ effectsOf k effects))
    (hwritten : ∀ u k w, u ≠ t → s.table.dirty u k = some w →
      table.rows k = s.table.rows k ∧ effectsOf k effects = []) :
    Inv sv I R (s.ends t table effects) where
  idle := Table.Idle.ends h.idle hlock
  fresh k hk := by
    have hk : k ∉ s.table.keys := hkeys ▸ hk
    show effectsOf k (s.effects ++ effects) = []
    -- A key that no table has is named by no effect.
    rw [effectsOf_append, h.fresh k hk, hfresh k hk, List.append_nil]
  committed k v hv := by
    show I k v (effectsOf k (s.effects ++ effects))
    rw [effectsOf_append]
    exact hcommitted k v hv
  written u phase k w hu hd := by
    obtain ⟨hne, hd⟩ := hdirty u k w hd
    obtain ⟨-, hu⟩ := Machine.old_of_update hu nofun
    obtain ⟨hrows, heffects⟩ := hwritten u k w hne hd
    show ∃ v, w = some v ∧ I k v (effectsOf k (s.effects ++ effects) ++ _) ∧
      ∀ u, table.rows k = some u → R u v
    rw [hrows, effectsOf_append, heffects, List.append_nil]
    exact h.written u phase k w hu hd
  clean u phase k hu hd := by
    obtain ⟨hne, hu⟩ := Machine.old_of_update hu nofun
    exact h.clean u phase k hu (((hother u hne).dirty k).symm.trans hd)
  planned u op k patch new hu := by
    obtain ⟨hne, hu⟩ := Machine.old_of_update hu nofun
    obtain ⟨hclean, v, hplan, hl⟩ := h.planned u op k patch new hu
    have hsame := hother u hne
    refine ⟨fun j => (hsame.dirty j).trans (hclean j), v, hplan, fun hlocks => ?_⟩
    obtain ⟨hl, hv⟩ := hl hlocks
    exact ⟨(hsame.lock k).mpr hl, (hsame.visible hl).trans hv⟩
  unread u op k hu j := by
    obtain ⟨hne, hu⟩ := Machine.old_of_update hu nofun
    exact ((hother u hne).dirty j).trans (h.unread u op k hu j)

/-- A commit publishes what was written. -/
theorem Inv.commit (h : Inv sv I R s) (hK : Keeps sv Due I R) {t : Nat}
    {phase : Phase K P E Op Sweep} (ht : s.txns t = some phase) :
    Inv sv I R (s.ends t (s.table.commit t) phase.effects) := by
  refine h.ends rfl (fun u k w => Table.commit_dirty.mp) (fun u k => Table.commit_lock.mp)
    (fun u hu => Table.commit_sameFor hu) (fun k hk => ?_) (fun k v hv => ?_)
    fun u k w hu hd => ?_
  · refine h.clean t phase k ht ?_
    cases hd : s.table.dirty t k with
    | none => rfl
    | some w => exact absurd (s.table.lock_keys (s.table.dirty_lock hd)) hk
  · exact (h.visible hK ht hv).1
  · -- A row another transaction wrote is not among those of `t`.
    have hclean : s.table.dirty t k = none :=
      Table.dirty_none_of_lock (s.table.dirty_lock hd) hu.symm
    exact ⟨Table.visible_of_clean hclean, h.clean t phase k ht hclean⟩

theorem Inv.rollback (h : Inv sv I R s) (t : Nat) :
    Inv sv I R (s.ends t (s.table.rollback t) []) := by
  refine h.ends rfl (fun u k w => Table.rollback_dirty.mp) (fun u k => Table.rollback_lock.mp)
    (fun u hu => Table.rollback_sameFor hu) (fun _ _ => rfl) (fun k v hv => ?_)
    fun _ _ _ _ _ => ⟨rfl, rfl⟩
  rw [effectsOf_nil, List.append_nil]
  exact h.committed k v hv

/-- One step keeps the invariant. -/
theorem Inv.step {l : Label K New Op Sweep} (h : Inv sv I R s) (hK : Keeps sv Due I R)
    (hdue : MarksDue Due s l) (hst : step sv s l = some s') : Inv sv I R s' := by
  cases stepped_of_step hst with
  | create ht hcreate hinsert => exact h.create hK ht hcreate hinsert
  | start ht =>
    refine h.goes_clean rfl (fun _ hj => hj) (fun u _ => Table.SameFor.refl u _)
      (Table.Idle.clean h.idle _ ht) rfl ?_
    exact fun _ _ _ _ hphase => nomatch hphase
  | read ht hread => exact h.read ht hread
  | @write t op k patch new _ ht hwrite =>
    obtain ⟨-, v, hplan, hlock⟩ := h.planned t op k patch new ht
    refine h.update hK ht rfl ?_ ?_ hwrite
    · trivial
    intro w es hw hI
    by_cases hlocks : sv.locks op = true
    · -- Since the lock was taken, nobody else has written the row.
      obtain ⟨-, hv⟩ := hlock hlocks
      cases hv.symm.trans hw
      exact hK.locked hlocks hplan hI
    · -- Without a lock the row may be another than the one read.
      exact hK.unlocked (Bool.not_eq_true _ ▸ hlocks) hplan hI
  | sweep ht =>
    refine h.goes_clean rfl (fun _ hj => hj) (fun u _ => Table.SameFor.refl u _)
      (Table.Idle.clean h.idle _ ht) rfl ?_
    exact fun _ _ _ _ hphase => nomatch hphase
  | @mark t sweep k todo _ ht hmark =>
    simp only [MarksDue, ht] at hdue
    -- The mark is due of the row as it is now.
    have hkeeps : ∀ w es, s.table.visible t k = some w → I k w es →
        I k (sv.apply (sv.mark sweep) w) (es ++ []) ∧ R w (sv.apply (sv.mark sweep) w) := by
      intro w es hw hI
      rw [List.append_nil]
      exact hK.mark (hdue w hw) hI
    refine h.update hK ht rfl ?_ hkeeps hmark
    trivial
  | commit ht => exact h.commit hK ht
  | swept ht => exact h.commit hK ht
  | rollback => exact h.rollback _

/-! ### Runs -/

variable {G : State K V P E Op Sweep → Label K New Op Sweep → Prop}

/-- **An invariant of rows that every request keeps** holds in every state reached. -/
theorem Keeps.inv (hK : Keeps sv Due I R) (hG : ∀ s l, G s l → MarksDue Due s l)
    (h : sv.machine.ReachVia G s) : Inv sv I R s := by
  refine Machine.Inductive.always (I := Inv sv I R) ⟨?_, ?_⟩ h
  · rintro s rfl
    exact .empty
  · exact fun s l t hs hg hst => hs.step hK (hG s l hg) hst

/-- Every committed row satisfies its invariant. -/
theorem Keeps.committed (hK : Keeps sv Due I R) (hG : ∀ s l, G s l → MarksDue Due s l)
    (h : sv.machine.ReachVia G s) {k : K} {v : V} (hv : s.table.rows k = some v) :
    I k v (effectsOf k s.effects) :=
  (hK.inv hG h).committed k v hv

/-- Only a commit changes the committed rows. -/
theorem rows_of_step {l : Label K New Op Sweep} (hst : RowService.step sv s l = some s') :
    s'.table.rows = s.table.rows ∨
      ∃ t phase, l = .commit t ∧ s.txns t = some phase ∧
        s'.table.rows = s.table.visible t := by
  -- A write is seen by its own transaction only.
  have hupdate : ∀ {t k patch phase}, s.update sv t k patch phase = some s' →
      s'.table.rows = s.table.rows := by
    intro t k patch phase hst
    obtain ⟨w, -, hst⟩ := Option.bind_eq_some_iff.mp hst
    obtain ⟨table, hwrite, rfl⟩ := Option.map_eq_some_iff.mp hst
    obtain ⟨hk, rfl⟩ := Table.write_eq_some.mp hwrite
    rfl
  cases stepped_of_step hst with
  | create _ _ hinsert =>
    obtain ⟨hk, rfl⟩ := Table.insert_eq_some.mp hinsert
    exact .inl rfl
  | start | sweep | rollback => exact .inl rfl
  | @read _ op _ _ _ hread =>
    obtain ⟨table, htable, hread⟩ := Option.bind_eq_some_iff.mp hread
    obtain ⟨w, -, hread⟩ := Option.bind_eq_some_iff.mp hread
    obtain ⟨⟨patch, new⟩, -, rfl⟩ := Option.map_eq_some_iff.mp hread
    -- A lock changes no row.
    by_cases hlocks : sv.locks op = true
    · rw [if_pos hlocks] at htable
      obtain ⟨hk, rfl⟩ := Table.acquire_eq_some.mp htable
      exact .inl rfl
    · rw [if_neg hlocks] at htable
      cases htable
      exact .inl rfl
  | write _ hwrite => exact .inl (hupdate hwrite)
  | mark _ hmark => exact .inl (hupdate hmark)
  | commit ht | swept ht => exact .inr ⟨_, _, rfl, ht, rfl⟩

/-- A commit publishes what the request sees. -/
theorem rows_of_commit {t : Nat} (hst : RowService.step sv s (.commit t) = some s') :
    ∃ phase, s.txns t = some phase ∧ s'.table.rows = s.table.visible t := by
  cases stepped_of_step hst with
  | commit ht | swept ht => exact ⟨_, ht, rfl⟩

/-- A step keeps every committed row, or moves it along `R`. -/
theorem Inv.step_related {l : Label K New Op Sweep} (h : Inv sv I R s) (hK : Keeps sv Due I R)
    (hst : RowService.step sv s l = some s') {k : K} {v : V} (hv : s.table.rows k = some v) :
    ∃ v', s'.table.rows k = some v' ∧ R v v' := by
  rcases rows_of_step hst with hrows | ⟨t, phase, -, ht, hrows⟩
  · exact ⟨v, hrows ▸ hv, hK.refl v⟩
  · rw [hrows]
    cases hd : s.table.dirty t k with
    | none =>
      rw [Table.visible_of_clean hd]
      exact ⟨v, hv, hK.refl v⟩
    | some w =>
      rw [Table.visible_of_dirty hd]
      obtain ⟨v', rfl, -, hR⟩ := h.written t phase k w ht hd
      exact ⟨v', rfl, hR v hv⟩

/-- One run goes on from another's end. -/
def Later (sv : RowService K V P E New Op Sweep) :
    State K V P E Op Sweep → State K V P E Op Sweep → Prop :=
  Relation.ReflTransGen fun s t => ∃ l, sv.machine.step s l = some t

/-- A replayed trace goes on. -/
theorem Later.of_run {t : State K V P E Op Sweep} : ∀ {s : State K V P E Op Sweep}
    {ls : List (Label K New Op Sweep)}, sv.machine.run s ls = some t → Later sv s t
  | s, [], h => by
    cases h
    exact .refl
  | s, l :: ls, h => by
    obtain ⟨u, hu, hrest⟩ := Option.bind_eq_some_iff.1 h
    exact .head ⟨l, hu⟩ (of_run hrest)

/-- However a run goes on, it moves a committed row along `R`. -/
theorem Keeps.later (hK : Keeps sv Due I R) (hdue : ∀ sweep v, Due sweep v)
    (h : sv.machine.Reachable s) (hlater : Later sv s s') {k : K} {v : V}
    (hv : s.table.rows k = some v) : ∃ v', s'.table.rows k = some v' ∧ R v v' := by
  suffices hboth : sv.machine.Reachable s' ∧ ∃ v', s'.table.rows k = some v' ∧ R v v' from
    hboth.2
  induction hlater with
  | refl => exact ⟨h, v, hv, hK.refl v⟩
  | tail _ hstep ih =>
    obtain ⟨hreach, w, hw, hR⟩ := ih
    obtain ⟨l, hst⟩ := hstep
    have hinv := hK.inv (fun s l _ => marksDue_of_forall hdue s l) hreach
    obtain ⟨v', hv', hR'⟩ := hinv.step_related hK hst hw
    exact ⟨hreach.step hst, v', hv', hK.trans hR hR'⟩

end Invariants

/-! ### Operations write one row -/

/-- The versions a transaction may have written, by where it stands. -/
def Wrote (phase : Option (Phase K P E Op Sweep)) (dirty : K → Option (Option V)) : Prop :=
  match phase with
  | none | some (.reading _ _) | some (.writing _ _ _ _) => ∀ k, dirty k = none
  | some (.sweeping _ _) => True
  | some (.done _) => ∀ j k, dirty j ≠ none → dirty k ≠ none → j = k

/-- Every transaction that is not a sweep has written at most one row. -/
def OneRow (s : State K V P E Op Sweep) : Prop := ∀ t, Wrote (s.txns t) (s.table.dirty t)

section OneRow

variable {sv : RowService K V P E New Op Sweep} {s s' : State K V P E Op Sweep}

omit [DecidableEq K] in
theorem OneRow.goes (h : OneRow s) {t : Nat} {table : Table K V Nat}
    {phase : Phase K P E Op Sweep} (hother : ∀ u, u ≠ t → table.dirty u = s.table.dirty u)
    (ht : Wrote (some phase) (table.dirty t)) : OneRow (s.goes t table phase) := by
  intro u
  show Wrote (Function.update s.txns t (some phase) u) (table.dirty u)
  by_cases hu : u = t
  · rw [hu, Function.update_self]
    exact ht
  · rw [Function.update_of_ne hu, hother u hu]
    exact h u

omit [DecidableEq K] in
theorem OneRow.ends (h : OneRow s) {t : Nat} {table : Table K V Nat} {effects : List (K × E)}
    (hdirty : ∀ u k w, table.dirty u k = some w ↔ u ≠ t ∧ s.table.dirty u k = some w) :
    OneRow (s.ends t table effects) := by
  intro u
  show Wrote (Function.update s.txns t none u) (table.dirty u)
  by_cases hu : u = t
  · rw [hu, Function.update_self]
    intro k
    cases hd : table.dirty t k with
    | none => rfl
    | some w => exact absurd rfl ((hdirty t k w).1 hd).1
  · have hsame : table.dirty u = s.table.dirty u := by
      funext k
      refine Option.ext fun w => ?_
      rw [hdirty]
      exact and_iff_right hu
    rw [Function.update_of_ne hu, hsame]
    exact h u

omit [DecidableEq K] in
/-- What was clean has one row in it after one write. -/
theorem wrote_of_clean {k : K} {effects : List (K × E)} {dirty : K → Option (Option V)}
    (h : ∀ j, j ≠ k → dirty j = none) :
    Wrote (some (.done effects : Phase K P E Op Sweep)) dirty := by
  have hk : ∀ j, dirty j ≠ none → j = k := by
    intro j hj
    by_contra hne
    exact hj (h j hne)
  intro i j hi hj
  rw [hk i hi, hk j hj]

theorem OneRow.update (h : OneRow s) {t : Nat} {k : K} {patch : P}
    {phase : Phase K P E Op Sweep}
    (ht : ∀ table : Table K V Nat, (∀ j, j ≠ k → table.dirty t j = s.table.dirty t j) →
      Wrote (some phase) (table.dirty t))
    (hst : s.update sv t k patch phase = some s') : OneRow s' := by
  obtain ⟨v, -, hst⟩ := Option.bind_eq_some_iff.mp hst
  obtain ⟨table, hwrite, rfl⟩ := Option.map_eq_some_iff.mp hst
  obtain ⟨hk, rfl⟩ := Table.write_eq_some.mp hwrite
  refine h.goes (fun u hu => ?_) (ht _ fun j hj => ?_)
  · exact funext fun j => (Table.written_sameFor hu hk).dirty j
  · rw [Table.written_dirty, Table.setDirty_of_ne_key hj]

/-- One step leaves every request with one row. -/
theorem OneRow.step {l : Label K New Op Sweep} (h : OneRow s)
    (hst : RowService.step sv s l = some s') : OneRow s' := by
  cases stepped_of_step hst with
  | @create t k new v es table ht hcreate hinsert =>
    obtain ⟨hk, rfl⟩ := Table.insert_eq_some.mp hinsert
    have hclean := h t
    rw [ht] at hclean
    refine h.goes (fun u hu => funext fun j => (Table.inserted_sameFor hu hk).dirty j) ?_
    refine wrote_of_clean (k := k) fun j hj => ?_
    rw [Table.inserted_dirty, Table.setDirty_of_ne_key hj]
    exact hclean j
  | @start t op k ht =>
    have hclean := h t
    rw [ht] at hclean
    exact h.goes (fun _ _ => rfl) hclean
  | @read t op k _ ht hread =>
    have hclean := h t
    rw [ht] at hclean
    obtain ⟨table, htable, hread⟩ := Option.bind_eq_some_iff.mp hread
    obtain ⟨v, -, hread⟩ := Option.bind_eq_some_iff.mp hread
    obtain ⟨⟨patch, new⟩, -, rfl⟩ := Option.map_eq_some_iff.mp hread
    -- Reading, with a lock or without, writes nothing.
    have hdirty : table.dirty = s.table.dirty := by
      split at htable
      · obtain ⟨hk, rfl⟩ := Table.acquire_eq_some.mp htable
        rfl
      · cases htable
        rfl
    refine h.goes (fun u _ => by rw [hdirty]) ?_
    rw [hdirty]
    exact hclean
  | @write t op k patch new _ ht hwrite =>
    have hclean := h t
    rw [ht] at hclean
    refine h.update (fun table hsame => wrote_of_clean (k := k) fun j hj => ?_) hwrite
    exact (hsame j hj).trans (hclean j)
  | sweep ht => exact h.goes (fun _ _ => rfl) trivial
  | mark ht hmark =>
    refine h.update (fun table _ => ?_) hmark
    trivial
  | commit ht | swept ht => exact h.ends fun _ _ _ => Table.commit_dirty
  | rollback => exact h.ends fun _ _ _ => Table.rollback_dirty

theorem oneRow (h : sv.machine.Reachable s) : OneRow s := by
  refine Machine.Inductive.always (G := fun _ _ => True) ⟨?_, ?_⟩ h
  · rintro _ rfl t k
    rfl
  · exact fun _ _ _ hs _ hst => hs.step hst

omit [DecidableEq K] in
/-- A transaction about to commit has written one row, if its writes are no sweep's. -/
theorem OneRow.eq_of_dirty (h : OneRow s) {t : Nat} {phase : Phase K P E Op Sweep}
    (ht : s.txns t = some phase) (hphase : ∀ sweep todo, phase ≠ .sweeping sweep todo) {j k : K}
    (hj : s.table.dirty t j ≠ none) (hk : s.table.dirty t k ≠ none) : j = k := by
  have hwrote := h t
  rw [ht] at hwrote
  cases phase with
  | reading | writing => exact absurd (hwrote j) hj
  | sweeping sweep todo => exact absurd rfl (hphase sweep todo)
  | done effects => exact hwrote j k hj hk

end OneRow

end RowService

end Systems

end RealEstate
