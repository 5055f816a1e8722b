import RealEstate.Systems.RowService

/-!
# Messages that leave before the commit

A transaction sends the messages of a row, in the order of their ranks, and then raises the
level of the row above the rank it has sent. A message cannot be taken back: between the
sending and the commit nothing but the transaction itself knows of it.

- `Accounted`: per row, ranks are sent in increasing order, and each one sent lies below the
  level of the row or is still `pending` with the transaction that sent it.
- `Accounted.send`: a message may leave when it lies at or above the level and above
  everything pending.
- `Accounted.settle`: levels rise, and what is pending no more lies below them.
-/

namespace RealEstate

namespace Systems

open RowService (effectsOf)

variable {K E : Type} [DecidableEq K]

/-- The messages sent so far, against the levels of the rows. -/
structure Accounted (rank : E → Nat) (level : K → Nat) (pending : K → E → Prop)
    (log : List (K × E)) : Prop where
  increasing : ∀ k, (effectsOf k log).Pairwise fun e f => rank e < rank f
  settled : ∀ k, ∀ e ∈ effectsOf k log, rank e < level k ∨ pending k e

namespace Accounted

variable {rank : E → Nat} {level level' : K → Nat} {pending pending' : K → E → Prop}
  {log : List (K × E)}

theorem empty : Accounted rank level pending [] where
  increasing _ := List.Pairwise.nil
  settled _ _ h := nomatch h

/-- The end of a transaction, or a step that sends nothing. -/
theorem settle (h : Accounted rank level pending log) (hlevel : ∀ k, level k ≤ level' k)
    (hpending : ∀ k e, pending k e → rank e < level' k ∨ pending' k e) :
    Accounted rank level' pending' log where
  increasing := h.increasing
  settled k e he := by
    rcases h.settled k e he with hlt | hpend
    · exact .inl (Nat.lt_of_lt_of_le hlt (hlevel k))
    · exact hpending k e hpend

/-- A message leaves. -/
theorem send (h : Accounted rank level pending log) {k : K} {e : E} (hlevel : level k ≤ rank e)
    (hfree : ∀ f, pending k f → rank f < rank e)
    (hpending : ∀ j f, pending j f → pending' j f) (hself : pending' k e) :
    Accounted rank level pending' (log ++ [(k, e)]) := by
  have hevents : ∀ j, effectsOf j (log ++ [(k, e)]) =
      effectsOf j log ++ if k = j then [e] else [] := by
    intro j
    rw [RowService.effectsOf_append]
    by_cases hj : k = j <;> simp [effectsOf, hj]
  constructor
  case increasing =>
    intro j
    rw [hevents j]
    by_cases hj : k = j
    · subst hj
      rw [if_pos rfl, List.pairwise_append]
      refine ⟨h.increasing k, List.pairwise_singleton _ e, fun f hf g hg => ?_⟩
      obtain rfl := List.mem_singleton.1 hg
      -- What was sent before is settled, or still pending; both are of a lower rank.
      rcases h.settled k f hf with hlt | hpend
      · exact Nat.lt_of_lt_of_le hlt hlevel
      · exact hfree f hpend
    · rw [if_neg hj, List.append_nil]
      exact h.increasing j
  case settled =>
    intro j f hf
    rw [hevents j, List.mem_append] at hf
    rcases hf with hold | hnew
    · exact (h.settled j f hold).imp id (hpending j f)
    · by_cases hj : k = j
      · subst hj
        rw [if_pos rfl, List.mem_singleton] at hnew
        subst hnew
        exact .inr hself
      · rw [if_neg hj] at hnew
        cases hnew

end Accounted

end Systems

end RealEstate
