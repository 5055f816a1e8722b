import RealEstate.Auth.Ownership

/-!
# Completeness of bulk revocations

`revoke_family` and `revoke_all_for_user` are one `UPDATE … WHERE revoked_at IS
NULL`: it revokes the rows of its snapshot. A refresh that is in flight inserts
a row the snapshot cannot contain.

- `RevocationComplete`: once a revocation has committed and the refreshes that
  had started by then are finished, nothing that descends from a session it
  covered is left unrevoked.
- `RefreshesUncontested`: a refresh commits while its row is unrevoked and no
  running revocation is still waiting for it. `revocation_complete` proves
  completeness of every run whose commits are such, without waiting for the
  refreshes.
- `escaped_session`: a refresh that commits while a force-logout waits for its
  row lock.
-/

namespace RealEstate

namespace Auth

open RealEstate.Core Users Systems
open Machine (update_cases old_of_update)

/-- The row descends, by rotations, from one of the rows `before`. -/
def Descends (s : State) (before : List Digest) (j : Digest) : Prop :=
  ∃ a ∈ s.lineage j, a ∈ before

/-- Over the lineage. -/
instance (s : State) (before : List Digest) (j : Digest) : Decidable (Descends s before j) :=
  inferInstanceAs (Decidable (∃ a ∈ s.lineage j, a ∈ before))

/-- Every committed revocation has reached all descendants of the sessions that existed
when it ran, once the refreshes started before it committed are finished. -/
def RevocationComplete (s : State) : Prop :=
  ∀ r ∈ s.revocations, (∀ u ∈ r.refreshes, s.requests u = .finished) →
    ∀ j row, s.sessions.rows j = some row → Descends s r.before j → row.revokedAt ≠ none

/-- Whether the request is a running bulk revocation that still has to lock the row. -/
def Phase.awaits (key : Digest) : Phase → Prop
  | .revoking _ _ todo => key ∈ todo
  | _ => False

/-- By cases of the phase. -/
instance (key : Digest) (phase : Phase) : Decidable (phase.awaits key) := by
  unfold Phase.awaits
  split <;> infer_instance

/-- A refresh commits while the committed version of its row is unrevoked and no
revocation that has taken its snapshot is waiting for the row. -/
def RefreshesUncontested (s : State) : Label → Prop
  | .commit t =>
    match s.requests t with
    | .rotated key _ => (s.sessions.rows key).any (·.revokedAt.isNone) = true ∧
        ∀ u ∈ s.started, ¬(s.requests u).awaits key
    | _ => True
  | _ => True

/-- By cases of the label. -/
instance (s : State) (l : Label) : Decidable (RefreshesUncontested s l) := by
  unfold RefreshesUncontested
  split
  · split <;> infer_instance
  · infer_instance

/-! ### Lines of descent -/

/-- The rows a session was rotated from are committed, and akin to it. -/
def Ancestry (s : State) : Prop :=
  ∀ j row, s.sessions.rows j = some row → ∀ a ∈ s.lineage j,
    ∃ ra, s.sessions.rows a = some ra ∧ Akin ra row

section Ancestry

variable {hashToken : Token → Digest} {settings : AuthSettings} {s s' : State}

/-- The lines of descent of committed rows are fixed. -/
theorem lineage_of_row (hI : Inv s) {l : Label}
    (h : Auth.step hashToken settings s l = some s') {j : Digest}
    (hj : j ∈ s.sessions.keys) : s'.lineage j = s.lineage j := by
  obtain ⟨u, hu⟩ : ∃ u, l.actor ≠ some u := by
    cases hact : l.actor with
    | none => exact ⟨0, nofun⟩
    | some t => exact ⟨t + 1, fun he => absurd (Option.some.inj he) (by omega)⟩
  exact (hI.step_undisturbed h hu).2.lineage j hj

/-- A row that a commit publishes has its version's kin among the committed rows, or is the
child of a rotation, or starts a family. -/
theorem Ancestry.commit (hI : Inv s) (hA : Ancestry s) {t : Nat}
    (h : Auth.step hashToken settings s (.commit t) = some s') : Ancestry s' := by
  obtain ⟨redeemed, revocations, -, rfl⟩ := commit_eq_some h
  have hown := hI.owns t
  -- An ancestor that is committed stays committed, in a later version.
  have hkeep : ∀ {a ra row}, s.sessions.rows a = some ra → Akin ra row →
      ∃ ra', s.sessions.visible t a = some ra' ∧ Akin ra' row := by
    intro a ra row hra hakin
    obtain ⟨ra', hra', hlater⟩ := hown.visible_later hra
    exact ⟨ra', hra', hlater.toAkin.symm.trans hakin⟩
  intro j row hrow a ha
  cases hold : s.sessions.rows j with
  | some old =>
    obtain ⟨row', hrow', hlater⟩ := hown.visible_later hold
    obtain rfl := Option.some.inj (hrow'.symm.trans hrow)
    obtain ⟨ra, hra, hakin⟩ := hA j old hold a ha
    exact hkeep hra (hakin.trans hlater.toAkin)
  | none =>
    have hl : s.sessions.lock j = some t := by
      by_contra hl
      cases hold.symm.trans ((Table.visible_of_unlocked hl).symm.trans hrow)
    generalize hphase : s.requests t = phase at hown
    cases phase with
    | idle | presented | revoke | finished => exact absurd hl (hown j)
    | found | identified => exact absurd hl (hown.1 j)
    | stamped key session =>
      obtain ⟨hlock, -, row', now, hrow', -⟩ := hown
      rw [(hlock j).mp hl, hrow'] at hold
      cases hold
    | rotated key child =>
      obtain ⟨hlock, -, hlin, row', now, new, hrow', -, -, hnew, hakin⟩ := hown
      rcases (hlock j).mp hl with rfl | rfl
      · obtain rfl := Option.some.inj ((Table.visible_of_dirty hnew).symm.trans hrow)
        have ha' : a ∈ s.lineage j := ha
        rw [hlin] at ha'
        rcases List.mem_cons.mp ha' with rfl | ha'
        · exact ⟨new, hrow, .refl new⟩
        · obtain ⟨ra, hra, hakin'⟩ := hA key row' hrow' a ha'
          exact hkeep hra (hakin'.trans hakin)
      · rw [hrow'] at hold
        cases hold
    | signedIn key =>
      obtain ⟨hlock, hlin, -, -⟩ := hown
      obtain rfl := (hlock j).mp hl
      have ha' : a ∈ s.lineage j := ha
      rw [hlin] at ha'
      obtain rfl := List.mem_singleton.mp ha'
      exact ⟨row, hrow, .refl row⟩
    | revoking scope before todo =>
      obtain ⟨row', now, hrow', -⟩ := hown.2.2 j hl
      rw [hrow'] at hold
      cases hold

/-- Every session has its ancestors on record. -/
theorem ancestry {G : State → Label → Prop}
    (h : (sessionRequests hashToken settings).ReachVia G s) : Ancestry s := by
  refine Machine.ReachVia.relative (J := Inv) (fun s hs => inv hs) ?_ ?_ h
  · rintro _ rfl
    exact fun _ _ h => (nomatch h)
  · intro s l s' hI _ hA _ hst
    by_cases hl : ∃ t, l = .commit t
    · obtain ⟨t, rfl⟩ := hl
      exact hA.commit hI (show Auth.step hashToken settings s (.commit t) = some s' from hst)
    · obtain ⟨hrows, -, -⟩ := step_rows hst fun t ht => hl ⟨t, ht⟩
      intro j row hrow a ha
      rw [hrows] at hrow
      rw [lineage_of_row hI hst (s.sessions.rows_keys hrow)] at ha
      rw [hrows]
      exact hA j row hrow a ha

end Ancestry

/-! ### Running and committed revocations -/

/-- A committed revocation has revoked all descendants of the rows it covered; a running
one has revoked them, holds them, or has them still to do. -/
structure SweepInv (s : State) : Prop where
  committed : ∀ r ∈ s.revocations, ∀ a ∈ r.before, ∃ row, s.sessions.rows a = some row
  done : ∀ r ∈ s.revocations, ∀ j row, s.sessions.rows j = some row →
    Descends s r.before j → row.revokedAt ≠ none
  running : ∀ u scope before todo, s.requests u = .revoking scope before todo →
    ∀ j row, s.sessions.rows j = some row → Descends s before j →
      row.revokedAt ≠ none ∨ j ∈ todo ∨ s.sessions.lock j = some u

section Sweep

variable {hashToken : Token → Digest} {settings : AuthSettings} {s s' : State} {t : Nat}

/-- Steps that publish nothing keep what is known of the committed revocations. -/
theorem SweepInv.of_rows (hI : Inv s) (hS : SweepInv s) {l : Label}
    (h : Auth.step hashToken settings s l = some s') (hl : ∀ t, l ≠ .commit t)
    (hself : ∀ u scope before todo, l.actor = some u →
      s'.requests u = .revoking scope before todo → ∀ j row, s.sessions.rows j = some row →
      Descends s before j → row.revokedAt ≠ none ∨ j ∈ todo ∨ s'.sessions.lock j = some u) :
    SweepInv s' := by
  obtain ⟨hrows, -, hrevs⟩ := step_rows h hl
  have hdesc : ∀ {before j row}, s.sessions.rows j = some row → Descends s' before j →
      Descends s before j := by
    -- Rows that were committed before have the lineage of before.
    intro before j row hrow hd
    rw [Descends, lineage_of_row hI h (s.sessions.rows_keys hrow)] at hd
    exact hd
  refine ⟨?_, fun r hr j row hrow hd => ?_, fun u scope before todo hu j row hrow hd => ?_⟩
  · rw [hrevs, hrows]
    exact hS.committed
  · rw [hrevs] at hr
    rw [hrows] at hrow
    exact hS.done r hr j row hrow (hdesc hrow hd)
  · rw [hrows] at hrow
    by_cases hact : l.actor = some u
    · -- The revocation that takes the step.
      exact hself u scope before todo hact hu j row hrow (hdesc hrow hd)
    · obtain ⟨hreq, hund⟩ := hI.step_undisturbed h hact
      rw [hreq] at hu
      rw [hund.same.lock]
      exact hS.running u scope before todo hu j row hrow (hdesc hrow hd)

/-- The snapshot of a revocation contains every unrevoked descendant of the rows it
covers. -/
theorem SweepInv.snapshot (hI : Inv s) (hA : Ancestry s) (hS : SweepInv s)
    (h : Auth.step hashToken settings s (.snapshot t) = some s') : SweepInv s' := by
  obtain ⟨scope, hphase, rfl⟩ := snapshot_eq_some h
  have hno : ∀ j, s.sessions.lock j ≠ some t := hI.owns_at hphase
  refine hS.of_rows hI h nofun fun u scope' before todo hact hu j row hrow hd => ?_
  obtain rfl := Option.some.inj hact
  rcases update_cases hu with ⟨-, he⟩ | ⟨hne, -⟩
  · obtain ⟨rfl, rfl, rfl⟩ := Phase.revoking.inj he
    by_cases hrev : row.revokedAt = none
    · refine .inr (.inl (Table.mem_scan.mpr ⟨row, ?_, ?_⟩))
      · rw [Table.visible_of_unlocked (hno j)]
        exact hrow
      · -- The row is covered together with the ancestor in the snapshot.
        obtain ⟨a, ha, hbefore⟩ := hd
        obtain ⟨ra, hra, hakin⟩ := hA j row hrow a ha
        obtain ⟨ra', hra', hcov⟩ := Table.mem_scan.mp hbefore
        rw [Table.visible_of_unlocked (hno a)] at hra'
        obtain rfl := Option.some.inj (hra.symm.trans hra')
        rw [Scope.revokes, hakin.covers, hcov, hrev]
        rfl
    · exact .inl hrev
  · exact absurd rfl hne

/-- A row of the snapshot is revoked. -/
theorem SweepInv.revokeRow (hI : Inv s) (hS : SweepInv s) {key : Digest}
    (h : Auth.step hashToken settings s (.revokeRow t key) = some s') : SweepInv s' := by
  obtain ⟨scope, before, todo, hphase, hkey, -, hcases⟩ := revokeRow_eq_some h
  obtain ⟨-, htodo, -⟩ := hI.owns_at hphase
  refine hS.of_rows hI h nofun fun u scope' before' todo' hact hu j row hrow hd => ?_
  obtain rfl := Option.some.inj hact
  have hphase' : s'.requests t = .revoking scope before (todo.erase key) := by
    rcases hcases with ⟨-, rfl⟩ | ⟨-, -, -, -, rfl⟩ <;> exact Function.update_self ..
  obtain ⟨rfl, rfl, rfl⟩ := Phase.revoking.inj (hphase'.symm.trans hu)
  have hlock : s.sessions.lock j = some t → s'.sessions.lock j = some t := by
    intro hl
    rcases hcases with ⟨-, rfl⟩ | ⟨-, hk, -, -, rfl⟩
    · exact hl
    · exact (Table.written_lock_self hk).mpr (.inr hl)
  rcases hS.running t scope before todo hphase j row hrow hd with hrev | hmem | hl
  · exact .inl hrev
  · by_cases hjk : j = key
    · subst hjk
      rcases hcases with ⟨hskip, -⟩ | ⟨-, hk, -, -, rfl⟩
      · -- The re-check failed on a covered row: it is revoked, or locked since before.
        by_cases hl : s.sessions.lock j = some t
        · exact .inr (.inr (hlock hl))
        · left
          obtain ⟨row', hrow', hcov⟩ := htodo j hmem
          obtain rfl := Option.some.inj (hrow.symm.trans hrow')
          have := hskip row ((Table.visible_of_unlocked hl).trans hrow)
          intro hnone
          simp [Scope.revokes, hcov, hnone] at this
      · exact .inr (.inr ((Table.written_lock_self hk).mpr (.inl rfl)))
    · exact .inr (.inl ((List.mem_erase_of_ne hjk).mpr hmem))
  · exact .inr (.inr (hlock hl))

section Commit

variable {redeemed : List Digest} {revocations : List Revocation}

/-- An unrevoked row that a guarded commit publishes below committed rows: it was committed and
the request does not hold it, or the request rotated it from a row that is unrevoked, that it
holds and that no revocation awaits. -/
theorem visible_descendant (hI : Inv s) (hguard : RefreshesUncontested s (.commit t))
    (hc : Commits s (s.requests t) redeemed revocations) {before : List Digest}
    (hbefore : ∀ a ∈ before, ∃ ra, s.sessions.rows a = some ra) {j : Digest} {row : AuthSession}
    (hrow : s.sessions.visible t j = some row) (hd : Descends s before j)
    (hrev : row.revokedAt = none) :
    (s.sessions.rows j = some row ∧ s.sessions.lock j ≠ some t) ∨
      ∃ key child r, s.requests t = .rotated key child ∧ s.sessions.lock key = some t ∧
        s.sessions.rows key = some r ∧ r.revokedAt = none ∧ Descends s before key ∧
        ∀ u, ¬(s.requests u).awaits key := by
  by_cases hl : s.sessions.lock j = some t
  · right
    have hown := hI.owns t
    generalize hphase : s.requests t = phase at hown hc
    cases hc with
    | signedIn =>
      -- A first session descends from itself only, and was not committed.
      obtain ⟨hlock, hlin, hnone, -⟩ := hown
      obtain rfl := (hlock j).mp hl
      obtain ⟨a, ha, hmem⟩ := hd
      rw [hlin] at ha
      obtain rfl := List.mem_singleton.mp ha
      obtain ⟨ra, hra⟩ := hbefore a hmem
      exact nomatch hnone.symm.trans hra
    | @rotated key child =>
      obtain ⟨hlock, -, hlin, r, now, new, hr, hdirty, hnone, -, -⟩ := hown
      simp only [RefreshesUncontested, hphase] at hguard
      obtain ⟨hunrev, hawait⟩ := hguard
      rw [hr] at hunrev
      rcases (hlock j).mp hl with rfl | rfl
      · have hkey := (hlock key).mpr (.inr rfl)
        refine ⟨key, j, r, rfl, hkey, hr, by simpa using hunrev, ?_, fun u hu => ?_⟩
        · obtain ⟨a, ha, hmem⟩ := hd
          rw [hlin] at ha
          rcases List.mem_cons.mp ha with rfl | ha
          · obtain ⟨ra, hra⟩ := hbefore a hmem
            exact nomatch hnone.symm.trans hra
          · exact ⟨a, ha, hmem⟩
        · refine hawait u (hI.started u ?_) hu
          intro hidle
          rw [hidle] at hu
          exact hu
      · -- The presented row is published revoked.
        rw [Table.visible_of_dirty hdirty, Option.some.injEq] at hrow
        rw [← hrow] at hrev
        cases hrev
    | revoking =>
      obtain ⟨row', now, -, hdirty⟩ := hown.2.2 j hl
      rw [Table.visible_of_dirty hdirty, Option.some.injEq] at hrow
      rw [← hrow] at hrev
      cases hrev
  · exact .inl ⟨(Table.visible_of_unlocked hl).symm.trans hrow, hl⟩

/-- The rows a revocation covers stay committed; a revocation that commits covers such rows. -/
theorem SweepInv.commit_committed (hI : Inv s) (hS : SweepInv s)
    (hc : Commits s (s.requests t) redeemed revocations) :
    ∀ r ∈ revocations ++ s.revocations, ∀ a ∈ r.before,
      ∃ row, s.sessions.visible t a = some row := by
  have hown := hI.owns t
  have hkeep : ∀ {a ra}, s.sessions.rows a = some ra →
      ∃ row, s.sessions.visible t a = some row := fun hra =>
    (hown.visible_later hra).imp fun _ h => h.1
  intro r hr a ha
  rcases List.mem_append.mp hr with hnew | hold
  · generalize hphase : s.requests t = phase at hown hc
    cases hc with
    | signedIn | rotated => cases hnew
    | revoking =>
      obtain rfl := List.mem_singleton.mp hnew
      obtain ⟨ra, hra⟩ := hown.1 a ha
      exact hkeep hra
  · obtain ⟨ra, hra⟩ := hS.committed r hold a ha
    exact hkeep hra

/-- A guarded commit publishes no unrevoked descendant of a row that a committed revocation
covered, nor of one that the revocation it commits covers. -/
theorem SweepInv.commit_done (hI : Inv s) (hS : SweepInv s)
    (hguard : RefreshesUncontested s (.commit t))
    (hc : Commits s (s.requests t) redeemed revocations) :
    ∀ r ∈ revocations ++ s.revocations, ∀ j row, s.sessions.visible t j = some row →
      Descends s r.before j → row.revokedAt ≠ none := by
  intro r hr j row hrow hd hrev
  rcases List.mem_append.mp hr with hnew | hold
  · have hown := hI.owns t
    have hc' := hc
    generalize hphase : s.requests t = phase at hown hc'
    -- Only a revocation ends with something on record.
    cases hc' with
    | signedIn | rotated => cases hnew
    | @revoking scope before =>
      obtain rfl := List.mem_singleton.mp hnew
      rcases visible_descendant hI hguard hc hown.1 hrow hd hrev with
        ⟨hold, hl⟩ | ⟨key, child, r, hrot, -⟩
      · -- Nothing is left to do, so the row is revoked or held.
        rcases hS.running t scope before [] hphase j row hold hd with hrev' | hmem | hl'
        · exact hrev' hrev
        · cases hmem
        · exact hl hl'
      · cases hphase.symm.trans hrot
  · rcases visible_descendant hI hguard hc (hS.committed r hold) hrow hd hrev with
      -- The row is published by this commit: its parent was unrevoked before.
      ⟨hrow', -⟩ | ⟨key, -, rk, -, -, hrk, hrkrev, hdk, -⟩
    · exact hS.done r hold j row hrow' hd hrev
    · exact hS.done r hold key rk hrk hdk hrkrev

/-- What a guarded commit publishes leaves the other running revocations no more to do. -/
theorem SweepInv.commit_running (hI : Inv s) (hS : SweepInv s)
    (hguard : RefreshesUncontested s (.commit t))
    (hc : Commits s (s.requests t) redeemed revocations) {u : Nat} (hut : u ≠ t) {scope : Scope}
    {before todo : List Digest} (hu : s.requests u = .revoking scope before todo) {j : Digest}
    {row : AuthSession} (hrow : s.sessions.visible t j = some row) (hd : Descends s before j) :
    row.revokedAt ≠ none ∨ j ∈ todo ∨ s.sessions.lock j = some u := by
  by_cases hrev : row.revokedAt = none
  · right
    obtain ⟨hbefore, -, -⟩ := hI.owns_at hu
    rcases visible_descendant hI hguard hc hbefore hrow hd hrev with
      ⟨hold, -⟩ | ⟨key, -, rk, -, hlk, hrk, hrkrev, hdk, hawait⟩
    · exact (hS.running u scope before todo hu j row hold hd).resolve_left fun h => h hrev
    · -- The presented row would be unrevoked, not awaited, and locked by `t`.
      rcases hS.running u scope before todo hu key rk hrk hdk with hrev' | hmem | hl
      · exact absurd hrkrev hrev'
      · exact absurd (by rw [hu]; exact hmem) (hawait u)
      · exact absurd (Option.some.inj (hl.symm.trans hlk)) hut
  · exact .inl hrev

/-- A commit, unless it brings a child that the sweep has not seen. -/
theorem SweepInv.commit (hI : Inv s) (hS : SweepInv s)
    (hguard : RefreshesUncontested s (.commit t))
    (h : Auth.step hashToken settings s (.commit t) = some s') : SweepInv s' := by
  obtain ⟨redeemed, revocations, hc, rfl⟩ := commit_eq_some h
  refine ⟨hS.commit_committed hI hc, hS.commit_done hI hguard hc, ?_⟩
  intro u scope before todo hu j row hrow hd
  obtain ⟨hut, hu⟩ := old_of_update hu nofun
  rw [(Table.commit_sameFor hut).lock]
  exact hS.commit_running hI hguard hc hut hu hrow hd

end Commit

/-- One step keeps the invariant. -/
theorem SweepInv.step (hI : Inv s) (hA : Ancestry s) (hS : SweepInv s) {l : Label}
    (hguard : RefreshesUncontested s l)
    (h : Auth.step hashToken settings s l = some s') : SweepInv s' := by
  -- Only snapshots and row locks move a running revocation.
  have hquiet : ∀ {t phase}, l.actor = some t → s'.requests t = phase →
      (∀ scope before todo, phase ≠ .revoking scope before todo) → (∀ t, l ≠ .commit t) →
      SweepInv s' := by
    intro t phase hact hreq hphase hl
    refine hS.of_rows hI h hl fun u scope before todo hu hreq' => ?_
    obtain rfl := Option.some.inj (hact.symm.trans hu)
    exact absurd (hreq.symm.trans hreq') (hphase scope before todo)
  cases l with
  | wait seconds => exact hS.of_rows hI h nofun nofun
  | signIn t identity client token familyId =>
    obtain ⟨-, -, hk, rfl⟩ := signIn_eq_some h
    exact hquiet rfl (Function.update_self ..) nofun nofun
  | refresh t tenantId presented =>
    obtain ⟨-, phase, hphase, rfl⟩ := refresh_eq_some h
    refine hquiet rfl (Function.update_self ..) ?_ nofun
    rcases hphase with rfl | ⟨key, rfl⟩ <;> nofun
  | read t =>
    obtain ⟨tid, key, -, ⟨session, -, -, rfl⟩ | ⟨fid, rfl⟩ | rfl⟩ := read_eq_some h <;>
      exact hquiet rfl (Function.update_self ..) nofun nofun
  | identify t users =>
    obtain ⟨tid, key, session, -, rfl | ⟨identity, -, -, rfl⟩⟩ := identify_eq_some h <;>
      exact hquiet rfl (Function.update_self ..) nofun nofun
  | stamp t =>
    obtain ⟨key, session, identity, row, hk, -, -, rfl⟩ := stamp_eq_some h
    exact hquiet rfl (Function.update_self ..) nofun nofun
  | insert t client token =>
    obtain ⟨key, session, identity, hk, -, rfl⟩ := insert_eq_some h
    exact hquiet rfl (Function.update_self ..) nofun nofun
  | forceLogout t tenantId userId =>
    obtain ⟨-, rfl⟩ := forceLogout_eq_some h
    exact hquiet rfl (Function.update_self ..) nofun nofun
  | snapshot t => exact hS.snapshot hI hA h
  | revokeRow t key => exact hS.revokeRow hI h
  | commit t => exact hS.commit hI hguard h
  | abort t =>
    obtain ⟨-, rfl⟩ := abort_eq_some h
    exact hquiet rfl (Function.update_self ..) nofun nofun

/-- In every state that such a run reaches. -/
theorem sweepInv (h : (sessionRequests hashToken settings).ReachVia RefreshesUncontested s) :
    SweepInv s := by
  have hJ : ∀ s, (sessionRequests hashToken settings).ReachVia RefreshesUncontested s →
      Inv s ∧ Ancestry s := fun s hs => ⟨inv hs, ancestry hs⟩
  refine Machine.ReachVia.relative hJ ?_ ?_ h
  · rintro _ rfl
    exact ⟨fun _ h => (nomatch h), fun _ h => (nomatch h), fun _ _ _ _ h => (nomatch h)⟩
  · exact fun s l s' hJ _ hS hguard hst => hS.step hJ.1 hJ.2 hguard hst

/-- **Revocations are complete while refreshes commit uncontested.** -/
theorem revocation_complete
    (h : (sessionRequests hashToken settings).ReachVia RefreshesUncontested s) :
    RevocationComplete s :=
  fun r hr _ => (sweepInv h).done r hr

end Sweep

/-! ### A session that escapes -/

/-- Some committed revocation whose refreshes are finished left a descendant unrevoked. -/
def escapes (s : State) : Bool :=
  s.revocations.any fun r => r.refreshes.all (fun u => s.requests u = .finished) &&
    s.sessions.keys.any fun j => (s.sessions.rows j).any (·.revokedAt.isNone) &&
      decide (Descends s r.before j)

/-- A descendant that is not revoked. -/
theorem not_complete_of_escapes {s : State} (h : escapes s = true) :
    ¬RevocationComplete s := by
  intro hcomplete
  rw [escapes, List.any_eq_true] at h
  obtain ⟨r, hr, hcheck⟩ := h
  rw [Bool.and_eq_true, List.all_eq_true, List.any_eq_true] at hcheck
  obtain ⟨hfinished, j, -, hrow⟩ := hcheck
  rw [Bool.and_eq_true, Option.any_eq_true] at hrow
  obtain ⟨⟨row, hrow, hrev⟩, hdesc⟩ := hrow
  refine hcomplete r hr (fun u hu => of_decide_eq_true (hfinished u hu)) j row hrow
    (of_decide_eq_true hdesc) ?_
  simpa using hrev

/-- **A session escapes a force-logout.** The refresh has inserted its new row when the
revocation takes its snapshot; it commits while the revocation waits for the old row, which
is then found revoked and skipped. Nobody revokes the new row. -/
theorem escaped_session :
    ∃ s, (sessionRequests id {}).Reachable s ∧ ¬RevocationComplete s := by
  obtain ⟨s, hs, hp⟩ := Machine.exists_reachable_of_run (M := sessionRequests id {})
    (List.flatten [signedInRun,
      [.refresh 1 (some 1) (some 1), .read 1, .identify 1 [sampleUser], .stamp 1, .insert 1 {} 2,
        .forceLogout 2 (some 1) 7, .snapshot 2, .commit 1, .revokeRow 2 1, .commit 2]])
    escapes rfl (by decide)
  exact ⟨s, hs, not_complete_of_escapes hp⟩

/-- A force-logout that runs between a refresh's read and its `UPDATE`, and the refresh
that then gives up. -/
theorem revocation_complete_logout :
    ∃ s, (sessionRequests id {}).ReachVia RefreshesUncontested s ∧ s.revocations ≠ [] ∧
      RevocationComplete s := by
  obtain ⟨s, hs, hp⟩ := Machine.exists_reachVia_of_run (M := sessionRequests id {})
    (G := RefreshesUncontested)
    (List.flatten [signedInRun, [.refresh 1 (some 1) (some 1), .read 1], redeemRun 1 2,
      [.refresh 2 (some 1) (some 2), .read 2, .forceLogout 3 (some 1) 7, .snapshot 3,
        .revokeRow 3 2, .commit 3, .identify 2 [sampleUser], .stamp 2, .insert 2 {} 3,
        .abort 2]])
    (fun s => !s.revocations.isEmpty) rfl (by decide)
  exact ⟨s, hs, by simpa using hp, revocation_complete hs⟩

end Auth

end RealEstate
