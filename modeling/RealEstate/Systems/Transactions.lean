import RealEstate.Systems.Machine
import RealEstate.Systems.Table

/-!
# Open transactions

`txns t` is what the open transaction `t` of a `Table` has come to, and `none` if it is not
open. A statement of `t` replaces its entry, and its end clears it.

- `Idle`: a transaction that is not open holds no lock; then it has written nothing.
- `Clean`: the weaker fact that it has written nothing.
- `each_goes`, `each_ends`: what holds of every open transaction still holds when `t` moves,
  if the others do not notice.
-/

namespace RealEstate

namespace Systems

universe u v

variable {K V T : Type u} {X : Type v} {txns : T → Option X} {tb tb' : Table K V T} {t : T}

namespace Table

/-- A transaction that is not open holds no lock. -/
def Idle (txns : T → Option X) (tb : Table K V T) : Prop :=
  ∀ u, txns u = none → ∀ k, tb.lock k ≠ some u

/-- A transaction that is not open has written nothing. -/
def Clean (txns : T → Option X) (tb : Table K V T) : Prop :=
  ∀ u, txns u = none → ∀ k, tb.dirty u k = none

/-- Whoever holds no lock has written nothing. -/
theorem Idle.clean (h : Idle txns tb) : Clean txns tb := by
  intro u hu k
  cases hd : tb.dirty u k with
  | none => rfl
  | some w => exact absurd (tb.dirty_lock hd) (h u hu k)

variable [DecidableEq T]

theorem Idle.goes (h : Idle txns tb) (hother : ∀ u, u ≠ t → SameFor u tb tb') {x : X} :
    Idle (Function.update txns t (some x)) tb' := by
  intro u hu k hl
  obtain ⟨hne, hidle⟩ := Machine.old_of_update hu nofun
  exact h u hidle k (((hother u hne).lock k).mp hl)

/-- The end of a transaction that leaves it no lock. -/
theorem Idle.ends (h : Idle txns tb)
    (hlock : ∀ u k, tb'.lock k = some u → u ≠ t ∧ tb.lock k = some u) :
    Idle (Function.update txns t none) tb' := by
  intro u hu k hl
  obtain ⟨hne, hl⟩ := hlock u k hl
  have hidle : txns u = none := (Function.update_of_ne hne ..).symm.trans hu
  exact h u hidle k hl

theorem Idle.commit (h : Idle txns tb) : Idle (Function.update txns t none) (tb.commit t) :=
  h.ends fun _ _ hl => commit_lock.mp hl

theorem Idle.rollback (h : Idle txns tb) : Idle (Function.update txns t none) (tb.rollback t) :=
  h.ends fun _ _ hl => rollback_lock.mp hl

theorem Clean.goes (h : Clean txns tb) (hother : ∀ u, u ≠ t → SameFor u tb tb') {x : X} :
    Clean (Function.update txns t (some x)) tb' := by
  intro u hu k
  obtain ⟨hne, hidle⟩ := Machine.old_of_update hu nofun
  exact ((hother u hne).dirty k).trans (h u hidle k)

theorem Clean.ends (h : Clean txns tb) (hclean : ∀ k, tb'.dirty t k = none)
    (hother : ∀ u, u ≠ t → SameFor u tb tb') : Clean (Function.update txns t none) tb' := by
  intro u hu k
  rcases Machine.update_cases hu with ⟨rfl, -⟩ | ⟨hne, hidle⟩
  · exact hclean k
  · exact ((hother u hne).dirty k).trans (h u hidle k)

end Table

namespace Machine

variable [DecidableEq T] {P Q : T → X → Prop}

/-- `t` moves, and the other transactions are as before. -/
theorem each_goes {x : X} (h : ∀ u y, txns u = some y → P u y)
    (hother : ∀ u y, u ≠ t → P u y → Q u y) (hself : Q t x) :
    ∀ u y, Function.update txns t (some x) u = some y → Q u y := by
  intro u y hu
  rcases update_cases hu with ⟨rfl, heq⟩ | ⟨hne, hu⟩
  · exact Option.some.inj heq ▸ hself
  · exact hother u y hne (h u y hu)

/-- `t` ends, and the other transactions are as before. -/
theorem each_ends (h : ∀ u y, txns u = some y → P u y)
    (hother : ∀ u y, u ≠ t → P u y → Q u y) :
    ∀ u y, Function.update txns t none u = some y → Q u y := by
  intro u y hu
  obtain ⟨hne, hu⟩ := old_of_update hu (Option.some_ne_none y).symm
  exact hother u y hne (h u y hu)

end Machine

end Systems

end RealEstate
