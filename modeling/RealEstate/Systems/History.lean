import RealEstate.Systems.RowService
import RealEstate.Systems.Upsert

/-!
# Rows and their histories

Transactions over a `Table` that also write rows of append-only tables, or that a log keeps
account of: `log` is what has been committed, `pending t` what transaction `t` has added so
far.

- `Recorded`: every row version, committed or not, stands in the relation `I` to the events
  of its row that come with it.
- `Recorded.wrote`, `commit`, `rollback`: a write owes `I` for the row it writes, and the
  end of a transaction owes nothing.
-/

namespace RealEstate

namespace Systems

open RowService (effectsOf)

variable {K V E T : Type} [DecidableEq K]

/-- Every version of a row is related to the events of the row. -/
structure Recorded (I : K → V → List E → Prop) (tb : Table K V T) (log : List (K × E))
    (pending : T → List (K × E)) : Prop where
  committed : ∀ {k v}, tb.rows k = some v → I k v (effectsOf k log)
  written : ∀ {t k v}, tb.dirty t k = some (some v) →
    I k v (effectsOf k log ++ effectsOf k (pending t))
  clean : ∀ {t k}, tb.dirty t k = none → effectsOf k (pending t) = []

namespace Recorded

variable {I : K → V → List E → Prop} {tb tb' : Table K V T} {log : List (K × E)}
  {pending : T → List (K × E)} {t : T} {k : K}

theorem empty : Recorded I (.empty : Table K V T) [] fun _ => [] where
  committed h := nomatch h
  written h := nomatch h
  clean _ := rfl

/-- What a transaction sees, with the events it knows of. -/
theorem visible (h : Recorded I tb log pending) {v : V} (hv : tb.visible t k = some v) :
    I k v (effectsOf k log ++ effectsOf k (pending t)) := by
  cases hd : tb.dirty t k with
  | none =>
    rw [Table.visible_of_clean hd] at hv
    rw [h.clean hd, List.append_nil]
    exact h.committed hv
  | some w =>
    rw [Table.visible_of_dirty hd] at hv
    subst hv
    exact h.written hd

/-- A table with the same rows. -/
theorem of_same (h : Recorded I tb log pending) (hrows : tb'.rows = tb.rows)
    (hdirty : tb'.dirty = tb.dirty) : Recorded I tb' log pending where
  committed hv := h.committed (hrows ▸ hv)
  written hd := h.written (hdirty ▸ hd)
  clean hd := h.clean (hdirty ▸ hd)

/-- A row inserted and committed on its own, with no history. -/
theorem published (h : Recorded I tb log pending) {v : V} (hk : k ∉ tb.keys)
    (hI : I k v (effectsOf k log)) : Recorded I (tb.published k v hk) log pending where
  committed {j w} hw := by
    rcases Machine.update_cases hw with ⟨rfl, heq⟩ | ⟨-, hw⟩
    · cases heq
      exact hI
    · exact h.committed hw
  written hd := h.written hd
  clean hd := h.clean hd

variable [DecidableEq T]

/-- A write of one row, and its events. -/
theorem wrote (h : Recorded I tb log pending) {w : Option V} (es : List E)
    (hw : Table.Wrote t k w tb tb')
    (hI : ∀ v, w = some v → I k v (effectsOf k log ++ effectsOf k (pending t) ++ es)) :
    Recorded I tb' log (Function.update pending t (pending t ++ es.map (k, ·))) := by
  -- Only this writer's own row changes, and only its own list of events grows.
  have hother : ∀ {u j}, u ≠ t ∨ j ≠ k → tb'.dirty u j = tb.dirty u j ∧
      effectsOf j (Function.update pending t (pending t ++ es.map (k, ·)) u) =
        effectsOf j (pending u) := by
    intro u j hne
    by_cases hu : u = t
    · have hj : j ≠ k := hne.resolve_left fun hne => hne hu
      subst hu
      rw [Function.update_self, RowService.effectsOf_append,
        RowService.effectsOf_map_of_ne (Ne.symm hj), List.append_nil]
      exact ⟨hw.rest j hj, rfl⟩
    · rw [Function.update_of_ne hu]
      exact ⟨(hw.other u hu).dirty j, rfl⟩
  constructor
  case committed =>
    intro j v hv
    exact h.committed (hw.rows ▸ hv)
  case written =>
    intro u j v hd
    -- The row just written, with the events just recorded.
    by_cases hself : u = t ∧ j = k
    · obtain ⟨rfl, rfl⟩ := hself
      rw [Function.update_self, RowService.effectsOf_append, RowService.effectsOf_map_self,
        ← List.append_assoc]
      exact hI v (Option.some.inj (hw.self.symm.trans hd))
    · obtain ⟨hsame, hevents⟩ := hother (not_and_or.1 hself)
      rw [hevents]
      exact h.written (hsame.symm.trans hd)
  case clean =>
    intro u j hd
    by_cases hself : u = t ∧ j = k
    · obtain ⟨rfl, rfl⟩ := hself
      cases hw.self.symm.trans hd
    · obtain ⟨hsame, hevents⟩ := hother (not_and_or.1 hself)
      rw [hevents]
      exact h.clean (hsame.symm.trans hd)

/-- A commit publishes the row versions with their events. -/
theorem commit (h : Recorded I tb log pending) (t : T) :
    Recorded I (tb.commit t) (log ++ pending t) (Function.update pending t []) where
  committed {k v} hv := by
    rw [RowService.effectsOf_append]
    exact h.visible hv
  written {u k v} hd := by
    obtain ⟨hne, hd⟩ := Table.commit_dirty.1 hd
    have hclean : tb.dirty t k = none := by
      cases hdt : tb.dirty t k with
      | none => rfl
      | some w => exact absurd (Table.dirty_unique hd hdt) hne
    rw [Function.update_of_ne hne, RowService.effectsOf_append, h.clean hclean,
      List.append_nil]
    exact h.written hd
  clean {u k} hd := by
    by_cases hu : u = t
    · rw [hu, Function.update_self]
      rfl
    · rw [Function.update_of_ne hu]
      exact h.clean ((if_neg hu).symm.trans hd)

theorem rollback (h : Recorded I tb log pending) (t : T) :
    Recorded I (tb.rollback t) log (Function.update pending t []) where
  committed hv := h.committed hv
  written {u k v} hd := by
    obtain ⟨hne, hd⟩ := Table.rollback_dirty.1 hd
    rw [Function.update_of_ne hne]
    exact h.written hd
  clean {u k} hd := by
    by_cases hu : u = t
    · rw [hu, Function.update_self]
      rfl
    · rw [Function.update_of_ne hu]
      exact h.clean ((if_neg hu).symm.trans hd)

end Recorded

end Systems

end RealEstate
