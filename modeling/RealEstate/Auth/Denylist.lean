import RealEstate.Auth.Sessions
import RealEstate.Systems.Machine
import RealEstate.Systems.Store

/-!
# Access-token tracking and the denylist

`_track_jti`, `_revoke_tracked_jtis` and `_denylist_jti` of
`modules/auth/service.py`, command by command. The set of a user's live `jti`s is
read in one command and denylisted and deleted in a later pipeline, and tokens
issued in between are tracked in the same set.

No entry expires in these runs: every command acts at one instant and every time
to live is positive.

- `NoneForgotten`: between revocations, every tracked `jti` is denylisted or
  still in its user's set.
- `DeletesWhatItRead`: a revocation deletes a set only while every member is one
  it read, or is otherwise taken care of. `none_forgotten` proves
  `NoneForgotten` of every run of such steps.
- `forgotten_token`: a login between the read and the delete.
-/

namespace RealEstate

namespace Auth

namespace Denylist

open RealEstate.Core Systems
open Machine (update_cases)

/-- An access token's id. -/
abbrev Jti := Nat

/-- `user_jtis_key` and `jti_denylist_key`. -/
inductive Key where
  | userJtis (userId : Uuid)
  | deny (jti : Jti)
  deriving DecidableEq

/-- A set of `jti`s, or the `"1"` of the denylist. -/
inductive Value where
  | members (jtis : List Jti)
  | one

/-- The keys of access tokens. -/
abbrev Redis := Store Key Value

/-- `SMEMBERS`. -/
def smembers (r : Redis) (userId : Uuid) : List Jti :=
  match r.get (.userJtis userId) with
  | some (.members jtis) => jtis
  | _ => []

/-- The pipeline of `_track_jti`: `SADD` and `EXPIRE`. -/
def trackJti (settings : AuthSettings) (r : Redis) (userId : Uuid) (jti : Jti) : Redis :=
  let jtis := smembers r userId
  let r := r.set (.userJtis userId) (.members (if jti ∈ jtis then jtis else jti :: jtis)) none
  r.expire (.userJtis userId) settings.accessTokenTtlSeconds

/-- `_denylist_jti`. -/
def denylistJti (settings : AuthSettings) (r : Redis) (jti : Jti) : Redis :=
  r.set (.deny jti) .one (some settings.accessTokenTtlSeconds)

/-- The pipeline of `_revoke_tracked_jtis`: one `SET` for each `jti` read, and the `DEL`. -/
def revokeJtis (settings : AuthSettings) (r : Redis) (userId : Uuid) (jtis : List Jti) : Redis :=
  (jtis.foldl (denylistJti settings) r).del (.userJtis userId)

/-- The `jti` is on the denylist. -/
def Denied (r : Redis) (jti : Jti) : Prop := (r.get (.deny jti)).isSome = true

/-- A lookup. -/
instance (r : Redis) (jti : Jti) : Decidable (Denied r jti) :=
  inferInstanceAs (Decidable (_ = true))

/-! ### What the pipelines do -/

section Pipelines

variable (settings : AuthSettings) (r : Redis)

/-- Tracking adds one token to one set. -/
theorem mem_smembers_trackJti {userId u : Uuid} {jti j : Jti} :
    j ∈ smembers (trackJti settings r userId jti) u ↔
      (u = userId ∧ j = jti) ∨ j ∈ smembers r u := by
  unfold trackJti
  rw [smembers, Store.get_expire _ _ _ settings.accessTokenTtl_pos]
  by_cases hu : u = userId
  · subst hu
    rw [Store.get_set_self _ _ _ (by simp)]
    show j ∈ (if jti ∈ smembers r u then smembers r u else jti :: smembers r u) ↔ _
    by_cases hj : jti ∈ smembers r u
    · rw [if_pos hj]
      refine ⟨.inr, ?_⟩
      rintro (⟨-, rfl⟩ | h)
      · exact hj
      · exact h
    · rw [if_neg hj, List.mem_cons]
      simp
  · rw [Store.get_set_of_ne _ _ _ (by simpa using hu)]
    show j ∈ smembers r u ↔ _
    simp [hu]

theorem denied_trackJti {userId : Uuid} {jti j : Jti} :
    Denied (trackJti settings r userId jti) j ↔ Denied r j := by
  unfold trackJti Denied
  rw [Store.get_expire _ _ _ settings.accessTokenTtl_pos, Store.get_set_of_ne _ _ _ (by simp)]

theorem denied_denylistJti {jti j : Jti} :
    Denied (denylistJti settings r jti) j ↔ j = jti ∨ Denied r j := by
  unfold denylistJti Denied
  by_cases hj : j = jti
  · subst hj
    rw [Store.get_set_self _ _ _ fun n hn => Option.some.inj hn ▸ settings.accessTokenTtl_pos]
    simp
  · rw [Store.get_set_of_ne _ _ _ (by simpa using hj)]
    simp [hj]

theorem smembers_denylistJti {jti : Jti} {u : Uuid} :
    smembers (denylistJti settings r jti) u = smembers r u := by
  unfold denylistJti smembers
  rw [Store.get_set_of_ne _ _ _ (by simp)]

theorem foldl_denylistJti (jtis : List Jti) : ∀ r : Redis,
    (∀ j, Denied (jtis.foldl (denylistJti settings) r) j ↔ j ∈ jtis ∨ Denied r j) ∧
      ∀ u, smembers (jtis.foldl (denylistJti settings) r) u = smembers r u := by
  induction jtis with
  | nil => intro r; simp
  | cons jti jtis ih =>
    intro r
    obtain ⟨hdenied, hmembers⟩ := ih (denylistJti settings r jti)
    refine ⟨fun j => ?_, fun u => ?_⟩
    · rw [List.foldl_cons, hdenied, denied_denylistJti, List.mem_cons]
      tauto
    · rw [List.foldl_cons, hmembers, smembers_denylistJti]

/-- Revoking a list denies what it lists. -/
theorem denied_revokeJtis {userId : Uuid} {jtis : List Jti} {j : Jti} :
    Denied (revokeJtis settings r userId jtis) j ↔ j ∈ jtis ∨ Denied r j := by
  rw [← (foldl_denylistJti settings jtis r).1 j]
  unfold revokeJtis Denied
  rw [Store.get_del_of_ne _ (by simp)]

theorem smembers_revokeJtis {userId u : Uuid} {jtis : List Jti} (h : u ≠ userId) :
    smembers (revokeJtis settings r userId jtis) u = smembers r u := by
  rw [← (foldl_denylistJti settings jtis r).2 u]
  unfold revokeJtis smembers
  rw [Store.get_del_of_ne _ (by simpa using h)]

end Pipelines

/-! ### The machine -/

/-- A revocation that has read the set, and what it read. -/
inductive Phase where
  | idle
  | read (userId : Uuid) (jtis : List Jti)
  | finished

/-- `tracked` is every `jti` ever tracked; `revocations` the requests that started one. -/
structure State where
  redis : Redis
  requests : Nat → Phase
  revocations : List Nat
  tracked : List (Uuid × Jti)

/-- A command of a request; a revocation takes two. -/
inductive Label where
  | track (userId : Uuid) (jti : Jti)
  | denylist (jti : Jti)
  /-- `SMEMBERS`; an empty set ends the revocation. -/
  | smembers (t : Nat) (userId : Uuid)
  | execute (t : Nat)

/-- One step: `SMEMBERS` and the pipeline after it are two. -/
def step (settings : AuthSettings) (s : State) : Label → Option State
  | .track userId jti =>
    some { s with
      redis := trackJti settings s.redis userId jti
      tracked := (userId, jti) :: s.tracked }
  | .denylist jti => some { s with redis := denylistJti settings s.redis jti }
  | .smembers t userId =>
    match s.requests t with
    | .idle =>
      let jtis := smembers s.redis userId
      let phase := if jtis.isEmpty then Phase.finished else .read userId jtis
      some { s with
        requests := Function.update s.requests t phase
        revocations := t :: s.revocations }
    | _ => none
  | .execute t =>
    match s.requests t with
    | .read userId jtis =>
      some { s with
        redis := revokeJtis settings s.redis userId jtis
        requests := Function.update s.requests t .finished }
    | _ => none

/-- Token tracking from an empty store. -/
def tokenTracking (settings : AuthSettings) : Machine State Label where
  init s := s = ⟨.empty, fun _ => .idle, [], []⟩
  step := step settings

/-- The revocation holds the `jti` of this user in what it read. -/
def Phase.holds (userId : Uuid) (jti : Jti) : Phase → Prop
  | .read u jtis => u = userId ∧ jti ∈ jtis
  | _ => False

/-- By cases of the phase. -/
instance (userId : Uuid) (jti : Jti) (phase : Phase) : Decidable (phase.holds userId jti) := by
  unfold Phase.holds
  split <;> infer_instance

/-- When no revocation is between its read and its delete, every `jti` ever tracked is
denylisted or reachable by the next revocation. -/
def NoneForgotten (s : State) : Prop :=
  (∀ t userId jtis, s.requests t ≠ .read userId jtis) →
    ∀ p ∈ s.tracked, Denied s.redis p.2 ∨ p.2 ∈ smembers s.redis p.1

/-- A revocation deletes the set while each of its members is one it read, is denylisted
already, or was read by another revocation that has yet to execute. -/
def DeletesWhatItRead (s : State) : Label → Prop
  | .execute t =>
    match s.requests t with
    | .read userId jtis => ∀ j ∈ smembers s.redis userId, j ∈ jtis ∨ Denied s.redis j ∨
        ∃ u ∈ s.revocations, u ≠ t ∧ (s.requests u).holds userId j
    | _ => True
  | _ => True

/-- By cases of the label. -/
instance (s : State) (l : Label) : Decidable (DeletesWhatItRead s l) := by
  unfold DeletesWhatItRead
  split
  · split <;> infer_instance
  · infer_instance

/-! ### No token is forgotten -/

/-- Every tracked `jti` is denylisted, in the set, or held by a running revocation. -/
def Inv (s : State) : Prop :=
  ∀ p ∈ s.tracked, Denied s.redis p.2 ∨ p.2 ∈ smembers s.redis p.1 ∨
    ∃ t, (s.requests t).holds p.1 p.2

section Steps

variable {settings : AuthSettings} {s s' : State}

theorem Inv.smembers {t : Nat} {userId : Uuid} (hI : Inv s)
    (h : step settings s (.smembers t userId) = some s') : Inv s' := by
  simp only [step] at h
  split at h
  · next hidle =>
    obtain rfl := Option.some.inj h
    intro p hp
    rcases hI p hp with hd | hm | ⟨u, hu⟩
    · exact .inl hd
    · exact .inr (.inl hm)
    · refine .inr (.inr ⟨u, ?_⟩)
      have hut : u ≠ t := by
        rintro rfl
        rw [hidle] at hu
        exact hu
      show (Function.update s.requests t _ u).holds _ _
      rw [Function.update_of_ne hut]
      exact hu
  · cases h

/-- The pipeline, if the set is still what was read. -/
theorem Inv.execute {t : Nat} (hI : Inv s) (hguard : DeletesWhatItRead s (.execute t))
    (h : step settings s (.execute t) = some s') : Inv s' := by
  simp only [step] at h
  split at h
  · next userId jtis hphase =>
    obtain rfl := Option.some.inj h
    simp only [DeletesWhatItRead, hphase] at hguard
    intro p hp
    have hheld : ∀ {u}, u ≠ t → (s.requests u).holds p.1 p.2 →
        (Function.update s.requests t .finished u).holds p.1 p.2 := by
      intro u hut hu
      rw [Function.update_of_ne hut]
      exact hu
    rcases hI p hp with hd | hm | ⟨u, hu⟩
    · exact .inl ((denied_revokeJtis ..).mpr (.inr hd))
    · by_cases hp1 : p.1 = userId
      · -- The set goes with this delete: what was in it must be denied or held elsewhere.
        rcases hguard p.2 (hp1 ▸ hm) with hread | hd | ⟨u, -, hut, hu⟩
        · exact .inl ((denied_revokeJtis ..).mpr (.inl hread))
        · exact .inl ((denied_revokeJtis ..).mpr (.inr hd))
        · exact .inr (.inr ⟨u, hheld hut (hp1 ▸ hu)⟩)
      · refine .inr (.inl ?_)
        rw [smembers_revokeJtis _ _ hp1]
        exact hm
    · by_cases hut : u = t
      · -- What `t` itself held it has just denylisted.
        rw [hut, hphase] at hu
        exact .inl ((denied_revokeJtis ..).mpr (.inl hu.2))
      · exact .inr (.inr ⟨u, hheld hut hu⟩)
  · cases h

/-- One step keeps the invariant. -/
theorem Inv.step (hI : Inv s) {l : Label} (hguard : DeletesWhatItRead s l)
    (h : Denylist.step settings s l = some s') : Inv s' := by
  cases l with
  | track userId jti =>
    obtain rfl := Option.some.inj h
    intro p hp
    rcases List.mem_cons.mp hp with rfl | hp
    · exact .inr (.inl ((mem_smembers_trackJti ..).mpr (.inl ⟨rfl, rfl⟩)))
    · rcases hI p hp with hd | hm | hu
      · exact .inl ((denied_trackJti ..).mpr hd)
      · exact .inr (.inl ((mem_smembers_trackJti ..).mpr (.inr hm)))
      · exact .inr (.inr hu)
  | denylist jti =>
    obtain rfl := Option.some.inj h
    intro p hp
    rcases hI p hp with hd | hm | hu
    · exact .inl ((denied_denylistJti ..).mpr (.inr hd))
    · refine .inr (.inl ?_)
      rw [smembers_denylistJti]
      exact hm
    · exact .inr (.inr hu)
  | smembers t userId => exact hI.smembers h
  | execute t => exact hI.execute hguard h

/-- Every revocation that left `idle` is recorded. -/
theorem mem_revocations {t : Nat} (h : (tokenTracking settings).Reachable s)
    (ht : s.requests t ≠ .idle) : t ∈ s.revocations := by
  -- A request that is not idle has been started, and is on record since.
  have hrec : ∀ t, s.requests t ≠ .idle → t ∈ s.revocations := by
    refine Machine.Inductive.always (G := fun _ _ => True)
      (I := fun s => ∀ t, s.requests t ≠ .idle → t ∈ s.revocations) ⟨?_, ?_⟩ h
    · rintro _ rfl t ht
      exact absurd rfl ht
    · intro s l s' hI _ hst t ht
      cases l with
      | track | denylist =>
        obtain rfl := Option.some.inj hst
        exact hI t ht
      | smembers u userId | execute u =>
        simp only [tokenTracking, Denylist.step] at hst
        split at hst
        · next hphase =>
          obtain rfl := Option.some.inj hst
          obtain ⟨rfl, -⟩ | ⟨-, h⟩ := update_cases (rfl : Function.update s.requests u _ t = _)
          · first
              | exact List.mem_cons_self
              | exact hI t (by simp [hphase])
          · have hidle : s.requests t ≠ .idle := by
              rw [h]
              exact ht
            first
              | exact List.mem_cons_of_mem _ (hI t hidle)
              | exact hI t hidle
        · cases hst
  exact hrec t ht

/-- **No access token is forgotten while revocations delete what they read.** -/
theorem none_forgotten (h : (tokenTracking settings).ReachVia DeletesWhatItRead s) :
    NoneForgotten s := by
  have hI : Inv s := by
    refine Machine.Inductive.always (G := DeletesWhatItRead) ⟨?_, ?_⟩ h
    · rintro _ rfl p hp
      cases hp
    · exact fun s l t hI hguard hst => hI.step hguard hst
  intro hquiet p hp
  rcases hI p hp with hd | hm | ⟨t, ht⟩
  · exact .inl hd
  · exact .inr hm
  · exfalso
    generalize hphase : s.requests t = phase at ht
    cases phase with
    | idle | finished => exact ht
    | read userId jtis => exact hquiet t userId jtis hphase

end Steps

/-- A revocation that deletes what it read, with a login before and one after it. -/
theorem none_forgotten_logout : ∃ s, (tokenTracking {}).ReachVia DeletesWhatItRead s ∧
    s.tracked = [(7, 2), (7, 1)] ∧ NoneForgotten s := by
  obtain ⟨s, hs, hp⟩ := Machine.exists_reachVia_of_run (M := tokenTracking {})
    (G := DeletesWhatItRead) [.track 7 1, .smembers 0 7, .execute 0, .track 7 2]
    (fun s => s.tracked = [(7, 2), (7, 1)]) rfl (by decide)
  exact ⟨s, hs, of_decide_eq_true hp, none_forgotten hs⟩

/-! ### A login between the read and the delete -/

/-- No revocation is between its read and its delete, and some tracked `jti` is neither
denylisted nor in its set. -/
def forgets (s : State) : Bool :=
  (s.revocations.all fun t => match s.requests t with | .read .. => false | _ => true) &&
    s.tracked.any fun p => !decide (Denied s.redis p.2) && !decide (p.2 ∈ smembers s.redis p.1)

/-- A token that is neither denied nor tracked was forgotten. -/
theorem not_noneForgotten {settings : AuthSettings} {s : State}
    (h : (tokenTracking settings).Reachable s) (hs : forgets s = true) : ¬NoneForgotten s := by
  intro hnone
  obtain ⟨hquiet, hforgot⟩ := Bool.and_eq_true_iff.mp hs
  obtain ⟨p, hp, hlost⟩ := List.any_eq_true.mp hforgot
  have hread : ∀ t userId jtis, s.requests t ≠ .read userId jtis := by
    intro t userId jtis hphase
    have hmem : t ∈ s.revocations := mem_revocations h (by simp [hphase])
    have := List.all_eq_true.mp hquiet t hmem
    simp [hphase] at this
  rcases hnone hread p hp with hd | hm
  · simp [hd] at hlost
  · simp [hm] at hlost

/-- **A forgotten token.** The token tracked between `SMEMBERS` and the pipeline is deleted
from the set and never denylisted. -/
theorem forgotten_token : ∃ s, (tokenTracking {}).Reachable s ∧ ¬NoneForgotten s := by
  obtain ⟨s, hs, hp⟩ := Machine.exists_reachable_of_run (M := tokenTracking {})
    [.track 7 1, .smembers 0 7, .track 7 2, .execute 0] forgets rfl (by decide)
  exact ⟨s, hs, not_noneForgotten hs hp⟩

end Denylist

end Auth

end RealEstate
