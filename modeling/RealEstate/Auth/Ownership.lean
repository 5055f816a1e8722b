import RealEstate.Auth.Requests

/-!
# What every run of the session requests keeps

`Owns s t phase` says which row versions and locks request `t` holds in each
phase and what it knows of the committed rows; `Inv` adds that families are not
shared between sign-ins. `inv` proves both for every state of every run,
whatever the order of statements and commits.

`RowsLater` is the frame of the rows: sessions never change owner or family, and
once revoked they stay revoked.
-/

namespace RealEstate

namespace Auth

open RealEstate.Core Users Systems
open Machine (update_cases old_of_update)

/-! ### What a phase means for the table -/

/-- The versions and locks a request in this phase holds, and what it knows of the
committed rows. -/
def Owns (s : State) (t : Nat) : Phase → Prop
  | .idle | .presented _ _ | .revoke _ | .finished => ∀ j, s.sessions.lock j ≠ some t
  | .found tenantId key session =>
    (∀ j, s.sessions.lock j ≠ some t) ∧ session.tenantId = tenantId ∧
      ∃ row, s.sessions.rows key = some row ∧ Later session row
  | .identified key session identity =>
    (∀ j, s.sessions.lock j ≠ some t) ∧
      (identity.id = session.userId ∧ identity.tenantId = session.tenantId) ∧
      ∃ row, s.sessions.rows key = some row ∧ Later session row
  | .stamped key session identity =>
    (∀ j, s.sessions.lock j = some t ↔ j = key) ∧
      (identity.id = session.userId ∧ identity.tenantId = session.tenantId) ∧
      ∃ row now, s.sessions.rows key = some row ∧ Later session row ∧
        s.sessions.dirty t key = some (some (row.rotateAway now))
  | .rotated key child =>
    (∀ j, s.sessions.lock j = some t ↔ j = child ∨ j = key) ∧ child ≠ key ∧
      s.lineage child = child :: s.lineage key ∧
      ∃ row now new, s.sessions.rows key = some row ∧
        s.sessions.dirty t key = some (some (row.rotateAway now)) ∧
        s.sessions.rows child = none ∧ s.sessions.dirty t child = some (some new) ∧
        Akin row new
  | .signedIn key =>
    (∀ j, s.sessions.lock j = some t ↔ j = key) ∧ s.lineage key = [key] ∧
      s.sessions.rows key = none ∧ ∃ row, s.sessions.dirty t key = some (some row)
  | .revoking scope before todo =>
    (∀ j ∈ before, ∃ row, s.sessions.rows j = some row) ∧
      (∀ j ∈ todo, ∃ row, s.sessions.rows j = some row ∧ scope.covers row = true) ∧
      ∀ j, s.sessions.lock j = some t →
        ∃ row now, s.sessions.rows j = some row ∧
          s.sessions.dirty t j = some (some (row.revoke now))

/-- Committed rows only move on to later versions. -/
def RowsLater (s s' : State) : Prop :=
  ∀ j row, s.sessions.rows j = some row →
    ∃ row', s'.sessions.rows j = some row' ∧ Later row row'

theorem RowsLater.refl (s : State) : RowsLater s s := fun _ row h => ⟨row, h, .refl row⟩

/-- What a step of another request leaves in place. -/
structure Undisturbed (t : Nat) (s s' : State) : Prop where
  same : Table.SameFor t s.sessions s'.sessions
  later : RowsLater s s'
  lineage : ∀ j ∈ s.sessions.keys, s'.lineage j = s.lineage j

/-- A request keeps what it owns while others move. -/
theorem Owns.frame {s s' : State} {t : Nat} {phase : Phase} (h : Owns s t phase)
    (hu : Undisturbed t s s') : Owns s' t phase := by
  have hfree : (∀ j, s.sessions.lock j ≠ some t) → ∀ j, s'.sessions.lock j ≠ some t :=
    fun hno j hl => hno j ((hu.same.lock j).mp hl)
  cases phase with
  | idle | presented | revoke | finished => exact hfree h
  -- Without locks, the row read may have moved on, to a later version.
  | found _ key session | identified key session _ =>
    obtain ⟨hno, hten, row, hrow, hlater⟩ := h
    obtain ⟨row', hrow', hlater'⟩ := hu.later key row hrow
    exact ⟨hfree hno, hten, row', hrow', hlater.trans hlater'⟩
  -- From here on the rows are locked, so nobody else has moved them.
  | stamped key session =>
    obtain ⟨hlock, hid, row, now, hrow, hlater, hdirty⟩ := h
    refine ⟨fun j => (hu.same.lock j).trans (hlock j), hid, row, now, ?_, hlater, ?_⟩
    · rw [hu.same.rows key ((hlock key).mpr rfl), hrow]
    · rw [hu.same.dirty, hdirty]
  | rotated key child =>
    obtain ⟨hlock, hne, hlin, row, now, new, hrow, hdirty, hnone, hnew, hakin⟩ := h
    have hkey := (hlock key).mpr (.inr rfl)
    have hchild := (hlock child).mpr (.inl rfl)
    refine ⟨fun j => (hu.same.lock j).trans (hlock j), hne, ?_, row, now, new, ?_, ?_, ?_, ?_,
      hakin⟩
    · rw [hu.lineage child (s.sessions.lock_keys hchild),
        hu.lineage key (s.sessions.lock_keys hkey), hlin]
    · rw [hu.same.rows key hkey, hrow]
    · rw [hu.same.dirty, hdirty]
    · rw [hu.same.rows child hchild, hnone]
    · rw [hu.same.dirty, hnew]
  | signedIn key =>
    obtain ⟨hlock, hlin, hnone, row, hdirty⟩ := h
    have hkey := (hlock key).mpr rfl
    refine ⟨fun j => (hu.same.lock j).trans (hlock j), ?_, ?_, row, ?_⟩
    · rw [hu.lineage key (s.sessions.lock_keys hkey), hlin]
    · rw [hu.same.rows key hkey, hnone]
    · rw [hu.same.dirty, hdirty]
  | revoking scope before todo =>
    obtain ⟨hbefore, htodo, hlocked⟩ := h
    refine ⟨fun j hj => ?_, fun j hj => ?_, fun j hj => ?_⟩
    · obtain ⟨row, hrow⟩ := hbefore j hj
      obtain ⟨row', hrow', -⟩ := hu.later j row hrow
      exact ⟨row', hrow'⟩
    · obtain ⟨row, hrow, hcov⟩ := htodo j hj
      obtain ⟨row', hrow', hlater⟩ := hu.later j row hrow
      exact ⟨row', hrow', (hlater.covers scope).trans hcov⟩
    · have hl := (hu.same.lock j).mp hj
      obtain ⟨row, now, hrow, hdirty⟩ := hlocked j hl
      refine ⟨row, now, ?_, ?_⟩
      · rw [hu.same.rows j hl, hrow]
      · rw [hu.same.dirty, hdirty]

/-- A commit publishes later versions of the committed rows. -/
theorem Owns.visible_later {s : State} {t : Nat} {phase : Phase} (h : Owns s t phase)
    {j : Digest} {row : AuthSession} (hrow : s.sessions.rows j = some row) :
    ∃ row', s.sessions.visible t j = some row' ∧ Later row row' := by
  by_cases hl : s.sessions.lock j = some t
  · cases phase with
    | idle | presented | revoke | finished => exact absurd hl (h j)
    | found | identified => exact absurd hl (h.1 j)
    | stamped key session =>
      -- A row that is stamped is the old one, ended.
      obtain ⟨hlock, -, row', now, hrow', -, hdirty⟩ := h
      obtain rfl := (hlock j).mp hl
      obtain rfl := Option.some.inj (hrow.symm.trans hrow')
      exact ⟨_, Table.visible_of_dirty hdirty, later_rotateAway row now⟩
    | rotated key child =>
      obtain ⟨hlock, -, -, row', now, new, hrow', hdirty, hnone, -, -⟩ := h
      -- Of a rotation the locked rows are the old one and its child; the child is new.
      rcases (hlock j).mp hl with rfl | rfl
      · rw [hnone] at hrow
        cases hrow
      · obtain rfl := Option.some.inj (hrow.symm.trans hrow')
        exact ⟨_, Table.visible_of_dirty hdirty, later_rotateAway row now⟩
    | signedIn key =>
      obtain ⟨hlock, -, hnone, -⟩ := h
      obtain rfl := (hlock j).mp hl
      rw [hnone] at hrow
      cases hrow
    | revoking scope before todo =>
      -- A row under revocation is written as revoked.
      obtain ⟨row', now, hrow', hdirty⟩ := h.2.2 j hl
      obtain rfl := Option.some.inj (hrow.symm.trans hrow')
      exact ⟨_, Table.visible_of_dirty hdirty, later_revoke row now⟩
  · exact ⟨row, (Table.visible_of_unlocked hl).trans hrow, .refl row⟩

/-! ### The invariant of all runs -/

/-- The family a sign-in is about to commit is nobody else's. -/
def NewFamily (s : State) (t : Nat) (key : Digest) : Prop :=
  ∀ row, s.sessions.dirty t key = some (some row) →
    row.familyId ∈ s.families ∧
    (∀ j r, s.sessions.rows j = some r → r.familyId ≠ row.familyId) ∧
    ∀ u e r, s.requests u = .signedIn e → s.sessions.dirty u e = some (some r) →
      r.familyId = row.familyId → u = t

/-- Every request owns the rows that it wrote. -/
structure Inv (s : State) : Prop where
  owns : ∀ t, Owns s t (s.requests t)
  families : ∀ j row, s.sessions.rows j = some row → row.familyId ∈ s.families
  signIns : ∀ t key, s.requests t = .signedIn key → NewFamily s t key
  started : ∀ t, s.requests t ≠ .idle → t ∈ s.started

section Preservation

variable {hashToken : Token → Digest} {settings : AuthSettings} {s s' : State} {t : Nat}

theorem inv_empty : Inv State.empty where
  owns _ _ := nofun
  families _ _ h := nomatch h
  signIns _ _ h := nomatch h
  started _ h := absurd rfl h

/-- A step belongs to one request; it leaves the others where they were. -/
theorem Inv.step_undisturbed (hI : Inv s) {l : Label}
    (h : Auth.step hashToken settings s l = some s') {u : Nat} (hu : l.actor ≠ some u) :
    s'.requests u = s.requests u ∧ Undisturbed u s s' := by
  -- A step of one request leaves the phases, writes and lineage that others rely on.
  have hreq : ∀ {t phase}, some t ≠ some u → (s.goto t phase).requests u = s.requests u :=
    fun ht => Function.update_of_ne (fun hut => ht (congrArg some hut.symm)) ..
  have hne : ∀ {t}, some t ≠ some u → u ≠ t := fun ht hut => ht (congrArg some hut.symm)
  have hnew : ∀ {key lin}, key ∉ s.sessions.keys → ∀ j ∈ s.sessions.keys,
      Function.update s.lineage key lin j = s.lineage j := fun hk j hj =>
    Function.update_of_ne (fun he => hk (by rw [← he]; exact hj)) ..
  cases l with
  | wait seconds =>
    obtain rfl := Option.some.inj h
    exact ⟨rfl, .refl u _, .refl s, fun _ _ => rfl⟩
  | signIn t identity client token familyId =>
    obtain ⟨-, -, hk, rfl⟩ := signIn_eq_some h
    exact ⟨hreq hu, Table.inserted_sameFor (hne hu) hk, .refl s, hnew hk⟩
  | refresh t tenantId presented =>
    obtain ⟨-, phase, -, rfl⟩ := refresh_eq_some h
    exact ⟨hreq hu, .refl u _, .refl s, fun _ _ => rfl⟩
  | read t =>
    obtain ⟨-, -, -, ⟨-, -, -, rfl⟩ | ⟨-, rfl⟩ | rfl⟩ := read_eq_some h <;>
      exact ⟨hreq hu, .refl u _, .refl s, fun _ _ => rfl⟩
  | identify t users =>
    obtain ⟨-, -, -, -, rfl | ⟨-, -, -, rfl⟩⟩ := identify_eq_some h <;>
      exact ⟨hreq hu, .refl u _, .refl s, fun _ _ => rfl⟩
  | stamp t =>
    obtain ⟨-, -, -, -, hk, -, -, rfl⟩ := stamp_eq_some h
    exact ⟨hreq hu, Table.written_sameFor (hne hu) hk, .refl s, fun _ _ => rfl⟩
  | insert t client token =>
    obtain ⟨-, -, -, hk, -, rfl⟩ := insert_eq_some h
    exact ⟨hreq hu, Table.inserted_sameFor (hne hu) hk, .refl s, hnew hk⟩
  | forceLogout t tenantId userId =>
    obtain ⟨-, rfl⟩ := forceLogout_eq_some h
    exact ⟨hreq hu, .refl u _, .refl s, fun _ _ => rfl⟩
  | snapshot t =>
    obtain ⟨-, -, rfl⟩ := snapshot_eq_some h
    exact ⟨hreq hu, .refl u _, .refl s, fun _ _ => rfl⟩
  | revokeRow t key =>
    obtain ⟨-, -, -, -, -, -, ⟨-, rfl⟩ | ⟨-, hk, -, -, rfl⟩⟩ := revokeRow_eq_some h
    · exact ⟨hreq hu, .refl u _, .refl s, fun _ _ => rfl⟩
    · exact ⟨hreq hu, Table.written_sameFor (hne hu) hk, .refl s, fun _ _ => rfl⟩
  | commit t =>
    -- A commit moves the rows it publishes forward only.
    obtain ⟨-, -, -, rfl⟩ := commit_eq_some h
    exact ⟨hreq hu, Table.commit_sameFor (hne hu),
      fun _ _ hrow => (hI.owns t).visible_later hrow, fun _ _ => rfl⟩
  | abort t =>
    obtain ⟨-, rfl⟩ := abort_eq_some h
    exact ⟨hreq hu, Table.rollback_sameFor (hne hu), .refl s, fun _ _ => rfl⟩

/-- Steps that publish no row and start no family: only the acting request's own phase is
left to check. -/
theorem Inv.of_local (hI : Inv s) {phase : Phase} {l : Label}
    (h : Auth.step hashToken settings s l = some s') (hact : l.actor = some t)
    (hreq : s'.requests t = phase) (hown : Owns s' t phase)
    (hphase : ∀ key, phase ≠ .signedIn key)
    (hrows : s'.sessions.rows = s.sessions.rows) (hfam : s'.families = s.families)
    (hstarted : t ∈ s'.started ∧ ∀ u ∈ s.started, u ∈ s'.started) : Inv s' := by
  have hother : ∀ {u}, u ≠ t → s'.requests u = s.requests u ∧ Undisturbed u s s' := fun hut =>
    hI.step_undisturbed h (hact ▸ fun hu => hut (Option.some.inj hu).symm)
  -- Sign-ins under way are those of before, as `t` is at none.
  have hold : ∀ {u e}, s'.requests u = .signedIn e → u ≠ t ∧ s.requests u = .signedIn e := by
    intro u e hu
    by_cases hut : u = t
    · exact absurd (hreq.symm.trans (hut ▸ hu)) (hphase e)
    · exact ⟨hut, (hother hut).1.symm.trans hu⟩
  refine ⟨fun u => ?_, fun j row hrow => ?_, fun u key hu => ?_, fun u hu => ?_⟩
  · by_cases hut : u = t
    · rw [hut, hreq]
      exact hown
    · rw [(hother hut).1]
      exact (hI.owns u).frame (hother hut).2
  · rw [hrows] at hrow
    rw [hfam]
    exact hI.families j row hrow
  · -- Families of open sign-ins stay distinct.
    obtain ⟨hut, hu⟩ := hold hu
    intro row hrow
    rw [(hother hut).2.same.dirty] at hrow
    obtain ⟨hmem, hfresh, hunique⟩ := hI.signIns u key hu row hrow
    rw [hrows, hfam]
    refine ⟨hmem, hfresh, fun v e r hv hr hf => ?_⟩
    obtain ⟨hvt, hv⟩ := hold hv
    rw [(hother hvt).2.same.dirty] at hr
    exact hunique v e r hv hr hf
  · by_cases hut : u = t
    · exact hut ▸ hstarted.1
    · rw [(hother hut).1] at hu
      exact hstarted.2 u (hI.started u hu)

/-- What request `t` owns in its phase. -/
theorem Inv.owns_at (hI : Inv s) {phase : Phase} (h : s.requests t = phase) : Owns s t phase :=
  h ▸ hI.owns t

/-- A request that has started stays recorded. -/
theorem Inv.running (hI : Inv s) {phase : Phase} (h : s.requests t = phase)
    (hphase : phase ≠ .idle) : t ∈ s.started ∧ ∀ u ∈ s.started, u ∈ s.started :=
  ⟨hI.started t (h ▸ hphase), fun _ => id⟩

/-- The read of the presented row writes nothing. -/
theorem Inv.read (hI : Inv s)
    (h : Auth.step hashToken settings s (.read t) = some s') : Inv s' := by
  obtain ⟨tenantId, key, hphase, hcases⟩ := read_eq_some h
  have hno : ∀ j, s.sessions.lock j ≠ some t := hI.owns_at hphase
  have hrun := hI.running hphase nofun
  rcases hcases with ⟨session, hrow, hten, rfl⟩ | ⟨familyId, rfl⟩ | rfl
  · rw [Table.visible_of_unlocked (hno key)] at hrow
    exact hI.of_local h rfl (Function.update_self ..)
      ⟨hno, hten, session, hrow, .refl session⟩ nofun rfl rfl hrun
  · exact hI.of_local h rfl (Function.update_self ..) hno nofun rfl rfl hrun
  · exact hI.of_local h rfl (Function.update_self ..) hno nofun rfl rfl hrun

theorem Inv.identify (hI : Inv s) {users : List User}
    (h : Auth.step hashToken settings s (.identify t users) = some s') :
    Inv s' := by
  obtain ⟨tenantId, key, session, hphase, hcases⟩ := identify_eq_some h
  obtain ⟨hno, hten, hrow⟩ := hI.owns_at hphase
  have hrun := hI.running hphase nofun
  rcases hcases with rfl | ⟨identity, hid, hten', rfl⟩
  · exact hI.of_local h rfl (Function.update_self ..) hno nofun rfl rfl hrun
  · exact hI.of_local h rfl (Function.update_self ..)
      ⟨hno, ⟨hid, hten'.trans hten.symm⟩, hrow⟩ nofun rfl rfl hrun

/-- The stamp owns the row from then on. -/
theorem Inv.stamp (hI : Inv s)
    (h : Auth.step hashToken settings s (.stamp t) = some s') : Inv s' := by
  obtain ⟨key, session, identity, row, hk, hphase, hvis, rfl⟩ := stamp_eq_some h
  obtain ⟨hno, hid, row', hrow', hlater⟩ := hI.owns_at hphase
  rw [Table.visible_of_unlocked (hno key), hrow', Option.some.injEq] at hvis
  subst hvis
  have hrun := hI.running hphase nofun
  refine hI.of_local h rfl (Function.update_self ..) ?_ nofun rfl rfl hrun
  refine ⟨fun j => ?_, hid, row', s.now, hrow', hlater, Table.setDirty_self ..⟩
  rw [Table.written_lock_self]
  exact or_iff_left (hno j)

/-- The child is a new row of a family that exists. -/
theorem Inv.insert (hI : Inv s) {client : ClientInfo} {token : Token}
    (h : Auth.step hashToken settings s (.insert t client token) = some s') : Inv s' := by
  obtain ⟨key, session, identity, hk, hphase, rfl⟩ := insert_eq_some h
  obtain ⟨hlock, hid, row, now, hrow, hlater, hdirty⟩ := hI.owns_at hphase
  have hchild : hashToken token ≠ key := fun he =>
    hk (he ▸ s.sessions.rows_keys hrow)
  have hrun := hI.running hphase nofun
  refine hI.of_local h rfl (Function.update_self ..) ?_ nofun rfl rfl hrun
  refine ⟨fun j => ?_, hchild, ?_, row, now, _, hrow, ?_, ?_, Table.setDirty_self .., ?_⟩
  · rw [Table.inserted_lock_self, hlock]
  · show Function.update s.lineage _ _ _ = _ :: Function.update s.lineage _ _ key
    rw [Function.update_self, Function.update_of_ne (Ne.symm hchild)]
  · exact (Table.setDirty_of_ne_key (Ne.symm hchild)).trans hdirty
  · cases hn : s.sessions.rows (hashToken token) with
    | none => exact hn
    | some r => exact absurd (s.sessions.rows_keys hn) hk
  · exact ⟨hlater.family.symm, hid.1.trans hlater.user.symm, hid.2.trans hlater.tenant.symm⟩

/-- A bulk `UPDATE` owns nothing yet. -/
theorem Inv.snapshot (hI : Inv s)
    (h : Auth.step hashToken settings s (.snapshot t) = some s') : Inv s' := by
  obtain ⟨scope, hphase, rfl⟩ := snapshot_eq_some h
  have hno : ∀ j, s.sessions.lock j ≠ some t := hI.owns_at hphase
  have hscan : ∀ {p j}, j ∈ s.sessions.scan t p →
      ∃ row, s.sessions.rows j = some row ∧ p row = true := by
    intro p j hj
    obtain ⟨row, hrow, hp⟩ := Table.mem_scan.mp hj
    exact ⟨row, (Table.visible_of_unlocked (hno j)).symm.trans hrow, hp⟩
  have hrun := hI.running hphase nofun
  refine hI.of_local h rfl (Function.update_self ..)
    ⟨fun j hj => ?_, fun j hj => ?_, fun j hj => absurd hj (hno j)⟩ nofun rfl rfl hrun
  · obtain ⟨row, hrow, -⟩ := hscan hj
    exact ⟨row, hrow⟩
  · obtain ⟨row, hrow, hp⟩ := hscan hj
    rw [Scope.revokes, Bool.and_eq_true] at hp
    exact ⟨row, hrow, hp.1⟩

/-- It owns the rows that it has revoked. -/
theorem Inv.revokeRow (hI : Inv s) {key : Digest}
    (h : Auth.step hashToken settings s (.revokeRow t key) = some s') :
    Inv s' := by
  obtain ⟨scope, before, todo, hphase, hkey, hfree, hcases⟩ := revokeRow_eq_some h
  obtain ⟨hbefore, htodo, hlocked⟩ := hI.owns_at hphase
  have htodo' : ∀ j ∈ todo.erase key, ∃ row, s.sessions.rows j = some row ∧
      scope.covers row = true := fun j hj => htodo j (List.mem_of_mem_erase hj)
  have hrun := hI.running hphase nofun
  rcases hcases with ⟨-, rfl⟩ | ⟨row, hk, hvis, hrev, rfl⟩
  · exact hI.of_local h rfl (Function.update_self ..) ⟨hbefore, htodo', hlocked⟩ nofun rfl
      rfl hrun
  · refine hI.of_local h rfl (Function.update_self ..) ⟨hbefore, htodo', fun j hj => ?_⟩
      nofun rfl rfl hrun
    -- The row is not yet revoked in this transaction, so it is the committed one.
    have hcommitted : s.sessions.rows key = some row := by
      by_cases hl : s.sessions.lock key = some t
      · obtain ⟨row', now, -, hdirty⟩ := hlocked key hl
        rw [Table.visible_of_dirty hdirty, Option.some.injEq] at hvis
        rw [← hvis] at hrev
        simp [Scope.revokes, AuthSession.revoke] at hrev
      · exact (Table.visible_of_unlocked hl).symm.trans hvis
    by_cases hjk : j = key
    · subst hjk
      exact ⟨row, s.now, hcommitted, Table.setDirty_self ..⟩
    · rcases (Table.written_lock_self hk).mp hj with he | hl
      · exact absurd he hjk
      · obtain ⟨row', now, hrow', hdirty⟩ := hlocked j hl
        exact ⟨row', now, hrow', (Table.setDirty_of_ne_key hjk).trans hdirty⟩

/-- A rollback gives all rows back. -/
theorem Inv.abort (hI : Inv s)
    (h : Auth.step hashToken settings s (.abort t) = some s') : Inv s' := by
  obtain ⟨hne, rfl⟩ := abort_eq_some h
  refine hI.of_local h rfl (Function.update_self ..) (fun j hj => ?_) nofun rfl rfl
    (hI.running rfl hne)
  exact (Table.rollback_lock.mp hj).1 rfl

theorem Inv.refresh (hI : Inv s) {tenantId : Option Uuid} {presented : Option Token}
    (h : Auth.step hashToken settings s (.refresh t tenantId presented) = some s') :
    Inv s' := by
  obtain ⟨hidle, phase, hphase, rfl⟩ := refresh_eq_some h
  have hno : ∀ j, s.sessions.lock j ≠ some t := hI.owns_at hidle
  refine hI.of_local h rfl (Function.update_self ..) ?_ ?_ rfl rfl
    ⟨List.mem_cons_self, fun _ => List.mem_cons_of_mem _⟩
  · rcases hphase with rfl | ⟨key, rfl⟩ <;> exact hno
  · rcases hphase with rfl | ⟨key, rfl⟩ <;> nofun

theorem Inv.forceLogout (hI : Inv s) {tenantId : Option Uuid} {userId : Uuid}
    (h : Auth.step hashToken settings s (.forceLogout t tenantId userId) = some s') :
    Inv s' := by
  obtain ⟨hidle, rfl⟩ := forceLogout_eq_some h
  have hno : ∀ j, s.sessions.lock j ≠ some t := hI.owns_at hidle
  exact hI.of_local h rfl (Function.update_self ..) hno nofun rfl rfl
    ⟨List.mem_cons_self, fun _ => List.mem_cons_of_mem _⟩

/-- A sign-in owns the first row of its family. -/
theorem Inv.signIn (hI : Inv s) {identity : UserIdentity} {client : ClientInfo}
    {token : Token} {familyId : Uuid}
    (h : Auth.step hashToken settings s (.signIn t identity client token familyId) = some s') :
    Inv s' := by
  obtain ⟨hidle, hfresh, hk, rfl⟩ := signIn_eq_some h
  have hno : ∀ j, s.sessions.lock j ≠ some t := hI.owns_at hidle
  have hund := fun u (hu : u ≠ t) => (hI.step_undisturbed h (u := u)
    (fun he => hu (Option.some.inj he).symm)).2
  refine ⟨fun u => ?_, fun j row hrow => List.mem_cons_of_mem _ (hI.families j row hrow),
    fun u key hu => ?_, fun u hu => ?_⟩
  · by_cases hut : u = t
    · subst hut
      -- The new row is under the lock of its own request.
      show Owns _ _ (Function.update s.requests u _ u)
      rw [Function.update_self]
      refine ⟨fun j => ?_, Function.update_self .., ?_, _, Table.setDirty_self ..⟩
      · rw [Table.inserted_lock_self]
        exact or_iff_left (hno j)
      · cases hn : s.sessions.rows (hashToken token) with
        | none => exact hn
        | some r => exact absurd (s.sessions.rows_keys hn) hk
    · show Owns _ _ (Function.update s.requests t _ u)
      rw [Function.update_of_ne hut]
      exact (hI.owns u).frame (hund u hut)
  · intro row hrow
    rcases update_cases hu with ⟨rfl, hkey⟩ | ⟨hut, hu⟩
    · cases hkey
      -- The row that was just issued has a family nobody has seen.
      obtain rfl : issueSession settings s.now identity client (hashToken token) familyId =
          row := by
        have := (Table.setDirty_self ..).symm.trans hrow
        exact Option.some.inj (Option.some.inj this)
      refine ⟨List.mem_cons_self, fun j r hr hf => ?_, fun v e r hv hr hf => ?_⟩
      · have hf' : r.familyId = familyId := hf
        exact hfresh (hf' ▸ hI.families j r hr)
      · have hf' : r.familyId = familyId := hf
        by_contra hvu
        rcases update_cases hv with ⟨hvu', -⟩ | ⟨-, hv⟩
        · exact hvu hvu'
        · rw [(hund v hvu).same.dirty] at hr
          exact hfresh (hf' ▸ (hI.signIns v e hv r hr).1)
    · rw [(hund u hut).same.dirty] at hrow
      -- Another sign-in: its family is not the new one either.
      obtain ⟨hmem, hnew, hunique⟩ := hI.signIns u key hu row hrow
      refine ⟨List.mem_cons_of_mem _ hmem, hnew, fun v e r hv hr hf => ?_⟩
      rcases update_cases hv with ⟨rfl, hkey⟩ | ⟨hvt, hv⟩
      · cases hkey
        have := (Table.setDirty_self ..).symm.trans hr
        obtain rfl := Option.some.inj (Option.some.inj this)
        have hf' : familyId = row.familyId := hf
        exact absurd (hf' ▸ hmem) hfresh
      · rw [(hund v hvt).same.dirty] at hr
        exact hunique v e r hv hr hf
  · by_cases hut : u = t
    · rw [hut]
      exact List.mem_cons_self
    · refine List.mem_cons_of_mem _ (hI.started u fun hi => hu ?_)
      exact (Function.update_of_ne hut ..).trans hi

/-- The family of a row a commit publishes: that of a committed row, unless a sign-in
publishes its first row. -/
theorem Owns.visible_family {phase : Phase} (h : Owns s t phase) {j : Digest}
    {row : AuthSession} (hrow : s.sessions.visible t j = some row) :
    (∃ i r, s.sessions.rows i = some r ∧ r.familyId = row.familyId) ∨
      (phase = .signedIn j ∧ s.sessions.dirty t j = some (some row)) := by
  by_cases hl : s.sessions.lock j = some t
  · cases phase with
    | idle | presented | revoke | finished => exact absurd hl (h j)
    | found | identified => exact absurd hl (h.1 j)
    | stamped key session =>
      obtain ⟨hlock, -, row', now, hrow', -, hdirty⟩ := h
      obtain rfl := (hlock j).mp hl
      rw [Table.visible_of_dirty hdirty, Option.some.injEq] at hrow
      exact .inl ⟨j, row', hrow', hrow ▸ rfl⟩
    | rotated key child =>
      obtain ⟨hlock, -, -, row', now, new, hrow', hdirty, -, hnew, hakin⟩ := h
      rcases (hlock j).mp hl with rfl | rfl
      · -- The child is of its parent's family, which is committed.
        rw [Table.visible_of_dirty hnew, Option.some.injEq] at hrow
        exact .inl ⟨key, row', hrow', hrow ▸ hakin.family.symm⟩
      · rw [Table.visible_of_dirty hdirty, Option.some.injEq] at hrow
        exact .inl ⟨j, row', hrow', hrow ▸ rfl⟩
    | signedIn key =>
      obtain ⟨hlock, -, -, row', hdirty⟩ := h
      obtain rfl := (hlock j).mp hl
      rw [Table.visible_of_dirty hdirty, Option.some.injEq] at hrow
      -- The one row of an unknown family is that of a sign-in.
      exact .inr ⟨rfl, hrow ▸ hdirty⟩
    | revoking scope before todo =>
      obtain ⟨row', now, hrow', hdirty⟩ := h.2.2 j hl
      rw [Table.visible_of_dirty hdirty, Option.some.injEq] at hrow
      exact .inl ⟨j, row', hrow', hrow ▸ rfl⟩
  · rw [Table.visible_of_unlocked hl] at hrow
    exact .inl ⟨j, row, hrow, rfl⟩

/-- A commit gives all rows to everybody. -/
theorem Inv.commit (hI : Inv s)
    (h : Auth.step hashToken settings s (.commit t) = some s') : Inv s' := by
  obtain ⟨redeemed, revocations, hc, rfl⟩ := commit_eq_some h
  have hne : s.requests t ≠ .idle := by
    intro hidle
    rw [hidle] at hc
    cases hc
  refine ⟨fun u => ?_, fun j row hrow => ?_, fun u key hu => ?_, fun u hu => ?_⟩
  · by_cases hut : u = t
    · subst hut
      show Owns _ _ (Function.update s.requests u _ u)
      rw [Function.update_self]
      -- After its commit a request holds nothing.
      exact fun j hj => (Table.commit_lock.mp hj).1 rfl
    · show Owns _ _ (Function.update s.requests t _ u)
      rw [Function.update_of_ne hut]
      exact (hI.owns u).frame
        ⟨Table.commit_sameFor hut, fun _ _ hrow => (hI.owns t).visible_later hrow,
          fun _ _ => rfl⟩
  · rcases (hI.owns t).visible_family hrow with ⟨i, r, hr, hfam⟩ | ⟨hphase, hdirty⟩
    · exact hfam ▸ hI.families i r hr
    · exact (hI.signIns t j hphase row hdirty).1
  · have hsame : ∀ {v}, v ≠ t → ∀ e,
        (s.sessions.commit t).dirty v e = s.sessions.dirty v e := fun hv =>
      (Table.commit_sameFor hv).dirty
    intro row hrow
    obtain ⟨hut, hu⟩ := old_of_update hu nofun
    rw [hsame hut] at hrow
    obtain ⟨hmem, hnew, hunique⟩ := hI.signIns u key hu row hrow
    refine ⟨hmem, fun j r hr hf => ?_, fun v e r hv hr hf => ?_⟩
    · rcases (hI.owns t).visible_family hr with ⟨i, r', hr', hfam⟩ | ⟨hphase, hdirty⟩
      · -- A committed row of this family was one before, or it is of the sign-in that commits.
        exact hnew i r' hr' (hfam.trans hf)
      · exact hut (hunique t j r hphase hdirty hf).symm
    · obtain ⟨hvt, hv⟩ := old_of_update hv nofun
      rw [hsame hvt] at hr
      exact hunique v e r hv hr hf
  · by_cases hut : u = t
    · exact hI.started u (hut ▸ hne)
    · exact hI.started u fun hi => hu ((Function.update_of_ne hut ..).trans hi)

/-- One step keeps the invariant. -/
theorem Inv.step (hI : Inv s) (l : Label) (h : Auth.step hashToken settings s l = some s') :
    Inv s' := by
  cases l with
  | wait seconds =>
    obtain rfl := Option.some.inj h
    refine ⟨fun u => (hI.owns u).frame ⟨.refl u _, .refl s, fun _ _ => rfl⟩, hI.families,
      hI.signIns, hI.started⟩
  | signIn t identity client token familyId => exact hI.signIn h
  | refresh t tenantId presented => exact hI.refresh h
  | read t => exact hI.read h
  | identify t users => exact hI.identify h
  | stamp t => exact hI.stamp h
  | insert t client token => exact hI.insert h
  | forceLogout t tenantId userId => exact hI.forceLogout h
  | snapshot t => exact hI.snapshot h
  | revokeRow t key => exact hI.revokeRow h
  | commit t => exact hI.commit h
  | abort t => exact hI.abort h

end Preservation

theorem inv_inductive (hashToken : Token → Digest) (settings : AuthSettings) :
    (sessionRequests hashToken settings).Inductive (fun _ _ => True) Inv where
  init := by
    rintro _ rfl
    exact inv_empty
  step _ l _ hI _ hst := hI.step l hst

/-- The invariant holds in every state of every run. -/
theorem inv {hashToken : Token → Digest} {settings : AuthSettings} {G : State → Label → Prop}
    {s : State} (h : (sessionRequests hashToken settings).ReachVia G s) : Inv s :=
  (inv_inductive hashToken settings).always h.reachable

/-! ### Steps that publish nothing -/

/-- Only commits change committed rows and the recorded history. -/
theorem step_rows {hashToken : Token → Digest} {settings : AuthSettings} {s s' : State}
    {l : Label} (h : Auth.step hashToken settings s l = some s')
    (hl : ∀ t, l ≠ .commit t) :
    s'.sessions.rows = s.sessions.rows ∧ s'.redeemed = s.redeemed ∧
      s'.revocations = s.revocations := by
  cases l with
  | wait seconds =>
    obtain rfl := Option.some.inj h
    exact ⟨rfl, rfl, rfl⟩
  | signIn t identity client token familyId =>
    obtain ⟨-, -, hk, rfl⟩ := signIn_eq_some h
    exact ⟨rfl, rfl, rfl⟩
  | refresh t tenantId presented =>
    obtain ⟨-, phase, -, rfl⟩ := refresh_eq_some h
    exact ⟨rfl, rfl, rfl⟩
  | read t =>
    obtain ⟨-, -, -, ⟨-, -, -, rfl⟩ | ⟨-, rfl⟩ | rfl⟩ := read_eq_some h <;>
      exact ⟨rfl, rfl, rfl⟩
  | identify t users =>
    obtain ⟨-, -, -, -, rfl | ⟨-, -, -, rfl⟩⟩ := identify_eq_some h <;>
      exact ⟨rfl, rfl, rfl⟩
  | stamp t =>
    obtain ⟨-, -, -, -, hk, -, -, rfl⟩ := stamp_eq_some h
    exact ⟨rfl, rfl, rfl⟩
  | insert t client token =>
    obtain ⟨-, -, -, hk, -, rfl⟩ := insert_eq_some h
    exact ⟨rfl, rfl, rfl⟩
  | forceLogout t tenantId userId =>
    obtain ⟨-, rfl⟩ := forceLogout_eq_some h
    exact ⟨rfl, rfl, rfl⟩
  | snapshot t =>
    obtain ⟨-, -, rfl⟩ := snapshot_eq_some h
    exact ⟨rfl, rfl, rfl⟩
  | revokeRow t key =>
    obtain ⟨-, -, -, -, -, -, ⟨-, rfl⟩ | ⟨-, hk, -, -, rfl⟩⟩ := revokeRow_eq_some h <;>
      exact ⟨rfl, rfl, rfl⟩
  | commit t => exact absurd rfl (hl t)
  | abort t =>
    obtain ⟨-, rfl⟩ := abort_eq_some h
    exact ⟨rfl, rfl, rfl⟩

end Auth

end RealEstate
