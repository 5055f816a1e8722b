import Mathlib.Logic.Function.Basic

/-!
# State machines, guarded runs and inductive invariants

The vocabulary every interleaving argument below is phrased in. A `Machine`
is a set of initial states and a *partial* step function: a label carries
everything the environment chooses (which request moves, what the clock or a
remote party answers), and `none` says the step is not enabled — a blocked
lock, a check that fails, a program counter elsewhere.

- `Machine.ReachVia M G`: the states reached by runs all of whose steps meet
  the guard `G`, a condition on the state before the step and its label.
  `Machine.Reachable M` is the unguarded case.
- `Machine.Inductive M G I`: `I` holds initially and is kept by every guarded
  step; `Inductive.always` turns it into "`I` holds of every state reached",
  and `Inductive.relative` lets a proof use invariants already established.
- `Machine.run` / `Machine.runVia`: executable runs over a list of labels, for
  replaying a concrete trace.
- `Machine.Projects`: a relation between the states of the whole and of one party alone, which the
  party's steps keep in both and the steps of the others keep in the whole only, as long as all
  meet a guard; `Machine.Projects.run`: what the party does in such a run of the whole, it does
  alone.
-/

namespace RealEstate

namespace Systems

universe u v

/-- A state machine with a partial, executable step function. -/
structure Machine (S : Type u) (L : Type v) where
  init : S → Prop
  step : S → L → Option S

namespace Machine

variable {S : Type u} {L : Type v} {M : Machine S L}

/-- States reached from an initial state by steps that all satisfy `G`. -/
inductive ReachVia (M : Machine S L) (G : S → L → Prop) : S → Prop where
  | init {s : S} : M.init s → ReachVia M G s
  | step {s t : S} {l : L} : ReachVia M G s → G s l → M.step s l = some t → ReachVia M G t

/-- States reached by any run. -/
def Reachable (M : Machine S L) : S → Prop := M.ReachVia fun _ _ => True

/-- A weaker guard reaches as much. -/
theorem ReachVia.mono {G H : S → L → Prop} (hGH : ∀ s l, G s l → H s l) {s : S}
    (h : M.ReachVia G s) : M.ReachVia H s := by
  induction h with
  | init hs => exact .init hs
  | step _ hg hst ih => exact .step ih (hGH _ _ hg) hst

/-- A guarded run is a run. -/
theorem ReachVia.reachable {G : S → L → Prop} {s : S} (h : M.ReachVia G s) :
    M.Reachable s :=
  h.mono fun _ _ _ => trivial

theorem Reachable.init {s : S} (h : M.init s) : M.Reachable s := ReachVia.init h

theorem Reachable.step {s t : S} {l : L} (h : M.Reachable s) (hst : M.step s l = some t) :
    M.Reachable t :=
  ReachVia.step h trivial hst

/-! ### Inductive invariants -/

/-- `I` holds initially and every step allowed by `G` keeps it. -/
structure Inductive (M : Machine S L) (G : S → L → Prop) (I : S → Prop) : Prop where
  init : ∀ s, M.init s → I s
  step : ∀ s l t, I s → G s l → M.step s l = some t → I t

/-- An inductive invariant holds in every state a guarded run reaches. -/
theorem Inductive.always {G : S → L → Prop} {I : S → Prop} (hI : M.Inductive G I) {s : S}
    (h : M.ReachVia G s) : I s := by
  induction h with
  | init hs => exact hI.init _ hs
  | step _ hg hst ih => exact hI.step _ _ _ ih hg hst

/-- `I` is inductive relative to facts `J` already known of every reached state. -/
theorem ReachVia.relative {G : S → L → Prop} {I J : S → Prop}
    (hJ : ∀ s, M.ReachVia G s → J s) (hinit : ∀ s, M.init s → I s)
    (hstep : ∀ s l t, J s → J t → I s → G s l → M.step s l = some t → I t) {s : S}
    (h : M.ReachVia G s) : I s := by
  induction h with
  | init hs => exact hinit _ hs
  | step hr hg hst ih => exact hstep _ _ _ (hJ _ hr) (hJ _ (.step hr hg hst)) ih hg hst

/-- The machine from one state on. -/
def startingAt (M : Machine S L) (s₀ : S) : Machine S L where
  init s := s = s₀
  step := M.step

/-- What is reached from a reachable state is reachable. -/
theorem Reachable.of_startingAt {s₀ s : S} {G : S → L → Prop} (h₀ : M.Reachable s₀)
    (h : (M.startingAt s₀).ReachVia G s) : M.Reachable s := by
  induction h with
  | init hs =>
    cases hs
    exact h₀
  | step _ _ hst ih => exact ih.step hst

/-- Reading a map after one of its entries was overwritten. -/
theorem update_cases {A : Type u} {B : Type v} [DecidableEq A] {f : A → B} {a b : A} {x y : B}
    (h : Function.update f a x b = y) : (b = a ∧ x = y) ∨ (b ≠ a ∧ f b = y) := by
  by_cases hb : b = a
  · subst hb
    exact .inl ⟨rfl, (Function.update_self ..).symm.trans h⟩
  · exact .inr ⟨hb, (Function.update_of_ne hb ..).symm.trans h⟩

/-- What was not written there was there before. -/
theorem old_of_update {A : Type u} {B : Type v} [DecidableEq A] {f : A → B} {a b : A} {x y : B}
    (h : Function.update f a x b = y) (hne : x ≠ y) : b ≠ a ∧ f b = y := by
  rcases update_cases h with ⟨-, heq⟩ | hold
  · exact absurd heq hne
  · exact hold

/-! ### Executable runs -/

/-- Replay a list of labels. -/
def run (M : Machine S L) : S → List L → Option S
  | s, [] => some s
  | s, l :: ls => (M.step s l).bind fun t => M.run t ls

/-- Replay a list of labels, giving up at the first step that breaks `G`. -/
def runVia (M : Machine S L) (G : S → L → Prop) [∀ s l, Decidable (G s l)] :
    S → List L → Option S
  | s, [] => some s
  | s, l :: ls => if G s l then (M.step s l).bind fun t => M.runVia G t ls else none

/-- A replayed guarded run is one. -/
theorem ReachVia.of_runVia {G : S → L → Prop} [∀ s l, Decidable (G s l)] {t : S} :
    ∀ {s : S} {ls : List L}, M.ReachVia G s → M.runVia G s ls = some t → M.ReachVia G t
  | s, [], hs, h => by
    simp only [runVia, Option.some.injEq] at h
    exact h ▸ hs
  | s, l :: ls, hs, h => by
    by_cases hg : G s l
    · rw [runVia, if_pos hg, Option.bind_eq_some_iff] at h
      obtain ⟨u, hu, hrest⟩ := h
      exact of_runVia (.step hs hg hu) hrest
    · rw [runVia, if_neg hg] at h
      cases h

/-- A replayed run is one. -/
theorem Reachable.of_run {t : S} :
    ∀ {s : S} {ls : List L}, M.Reachable s → M.run s ls = some t → M.Reachable t
  | s, [], hs, h => by
    simp only [run, Option.some.injEq] at h
    exact h ▸ hs
  | s, l :: ls, hs, h => by
    rw [run, Option.bind_eq_some_iff] at h
    obtain ⟨u, hu, hrest⟩ := h
    exact of_run (hs.step hu) hrest

/-- The end of a trace that does not get stuck. -/
theorem Reachable.of_get_run {s : S} {ls : List L} (hs : M.Reachable s)
    (h : (M.run s ls).isSome = true) : M.Reachable ((M.run s ls).get h) :=
  of_run hs (Option.some_get h).symm

/-- A replayed trace whose end state passes a check witnesses a reachable state
with the checked property. -/
theorem exists_reachable_of_run {s : S} (ls : List L) (p : S → Bool) (hs : M.init s)
    (h : (M.run s ls).map p = some true) : ∃ t, M.Reachable t ∧ p t = true := by
  rw [Option.map_eq_some_iff] at h
  obtain ⟨t, ht, hp⟩ := h
  exact ⟨t, Reachable.of_run (Reachable.init hs) ht, hp⟩

/-- The guarded form of `exists_reachable_of_run`. -/
theorem exists_reachVia_of_run {G : S → L → Prop} [∀ s l, Decidable (G s l)] {s : S}
    (ls : List L) (p : S → Bool) (hs : M.init s)
    (h : (M.runVia G s ls).map p = some true) : ∃ t, M.ReachVia G t ∧ p t = true := by
  rw [Option.map_eq_some_iff] at h
  obtain ⟨t, ht, hp⟩ := h
  exact ⟨t, ReachVia.of_runVia (.init hs) ht, hp⟩

/-- Where a run starts is nothing to its steps. -/
theorem runVia_startingAt {G : S → L → Prop} [∀ s l, Decidable (G s l)] (s₀ : S) :
    ∀ (s : S) (ls : List L), (M.startingAt s₀).runVia G s ls = M.runVia G s ls
  | _, [] => rfl
  | s, l :: ls => by
    rw [runVia, runVia]
    exact ite_congr rfl (fun _ => congrArg _ (funext fun t => runVia_startingAt s₀ t ls))
      fun _ => rfl

/-- A replayed trace, and one that goes on from its end: both ends, with the checked property. -/
theorem exists_later_of_runVia {G : S → L → Prop} [∀ s l, Decidable (G s l)] {s : S}
    (ls ls' : List L) (p : S → S → Bool) (hs : M.init s)
    (h : ((M.runVia G s ls).bind fun t => (M.runVia G t ls').map (p t)) = some true) :
    ∃ t t', M.ReachVia G t ∧ (M.startingAt t).ReachVia G t' ∧ p t t' = true := by
  obtain ⟨t, ht, h⟩ := Option.bind_eq_some_iff.1 h
  obtain ⟨t', ht', hp⟩ := Option.map_eq_some_iff.1 h
  have hrun : (M.startingAt t).runVia G t ls' = some t' := (runVia_startingAt t t ls').trans ht'
  exact ⟨t, t', ReachVia.of_runVia (.init hs) ht, ReachVia.of_runVia (.init rfl) hrun, hp⟩

/-! ### What a run is to one party -/

section Projections

variable {G : S → L → Prop} {mine : S → L → Bool} {R : S → S → Prop}

/-- The labels of a run whose steps are `mine`. -/
def purge (M : Machine S L) (mine : S → L → Bool) : S → List L → List L
  | _, [] => []
  | s, l :: ls =>
    match M.step s l with
    | none => []
    | some t => if mine s l then l :: M.purge mine t ls else M.purge mine t ls

/-- `R s t`: `t` is `s` with all that the others did left out. -/
structure Projects (M : Machine S L) (G : S → L → Prop) (mine : S → L → Bool)
    (R : S → S → Prop) : Prop where
  own : ∀ s t l s', R s t → G s l → mine s l = true → M.step s l = some s' →
    ∃ t', M.step t l = some t' ∧ R s' t'
  other : ∀ s t l s', R s t → G s l → mine s l = false → M.step s l = some s' → R s' t

/-- What the party does in a guarded run of the whole, it does alone. -/
theorem Projects.run [∀ s l, Decidable (G s l)] (h : M.Projects G mine R) {s' : S} :
    ∀ {s t : S} {ls : List L}, R s t → M.runVia G s ls = some s' →
      ∃ t', M.run t (M.purge mine s ls) = some t' ∧ R s' t'
  | s, t, [], hR, hrun => by
    cases hrun
    exact ⟨t, rfl, hR⟩
  | s, t, l :: ls, hR, hrun => by
    rw [runVia] at hrun
    obtain ⟨hg, hrun⟩ := Option.ite_none_right_eq_some.1 hrun
    obtain ⟨s₁, hst, hrest⟩ := Option.bind_eq_some_iff.1 hrun
    cases hmine : mine s l with
    | true =>
      obtain ⟨t₁, hst', hR₁⟩ := h.own s t l s₁ hR hg hmine hst
      obtain ⟨t', hrun', hR'⟩ := h.run hR₁ hrest
      refine ⟨t', ?_, hR'⟩
      rw [purge, hst]
      dsimp only
      rw [if_pos hmine, Machine.run, hst']
      exact hrun'
    | false =>
      -- The step of another is left out on the projected side.
      obtain ⟨t', hrun', hR'⟩ := h.run (h.other s t l s₁ hR hg hmine hst) hrest
      refine ⟨t', ?_, hR'⟩
      rw [purge, hst]
      dsimp only
      rw [if_neg (by rw [hmine]; exact Bool.false_ne_true)]
      exact hrun'

end Projections

end Machine

end Systems

end RealEstate
