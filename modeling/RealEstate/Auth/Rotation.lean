import RealEstate.Auth.Ownership

/-!
# Refresh-token rotation

What `refresh` promises: a family never has two live sessions, and no token is
redeemed twice. The check on the presented row and its `UPDATE` are separate
statements and the `UPDATE` does not repeat the check, so the promise depends on
what commits in between.

- `RotationSafe`: the promise, of one state.
- `RedeemsUnrevoked`: a refresh commits only while the row it presents is still
  unrevoked; `rotation_safe` proves the promise of every run whose commits are
  such.
- `double_redemption`: two overlapping refreshes that break it.
-/

namespace RealEstate

namespace Auth

open RealEstate.Core Users Systems

/-- Unrevoked and unexpired. -/
def AuthSession.Live (row : AuthSession) (now : DateTime) : Prop :=
  row.revokedAt = none ∧ now < row.expiresAt

/-- At most one live session in each family, and no token redeemed twice. -/
def RotationSafe (s : State) : Prop :=
  (∀ i j ri rj, s.sessions.rows i = some ri → s.sessions.rows j = some rj →
    ri.Live s.now → rj.Live s.now → ri.familyId = rj.familyId → i = j) ∧
  s.redeemed.Nodup

/-- The row is committed and not revoked. -/
def Unrevoked (s : State) (key : Digest) : Prop :=
  (s.sessions.rows key).any (·.revokedAt.isNone) = true

/-- A lookup. -/
instance (s : State) (key : Digest) : Decidable (Unrevoked s key) :=
  inferInstanceAs (Decidable (_ = true))

/-- A session of which the row is not stamped. -/
theorem unrevoked_iff {s : State} {key : Digest} :
    Unrevoked s key ↔ ∃ row, s.sessions.rows key = some row ∧ row.revokedAt = none := by
  unfold Unrevoked
  cases s.sessions.rows key with
  | none => simp
  | some row => simp

/-- A refresh commits while the committed version of its row is unrevoked: nothing that
revokes the row was committed since the refresh read it. -/
def RedeemsUnrevoked (s : State) : Label → Prop
  | .commit t =>
    match s.requests t with
    | .rotated key _ => Unrevoked s key
    | _ => True
  | _ => True

/-- The condition, to be evaluated. -/
def redeemsUnrevoked (s : State) : Label → Bool
  | .commit t =>
    match s.requests t with
    | .rotated key _ => decide (Unrevoked s key)
    | _ => true
  | _ => true

theorem redeemsUnrevoked_iff (s : State) (l : Label) :
    redeemsUnrevoked s l = true ↔ RedeemsUnrevoked s l := by
  unfold redeemsUnrevoked RedeemsUnrevoked
  split
  · split
    · exact decide_eq_true_iff
    · exact iff_of_true rfl trivial
  · exact iff_of_true rfl trivial

/-- As `redeemsUnrevoked`. -/
instance (s : State) (l : Label) : Decidable (RedeemsUnrevoked s l) :=
  decidable_of_iff _ (redeemsUnrevoked_iff s l)

/-- The rows of a family form a chain of which only the end is unrevoked, and redeemed
tokens are behind it. -/
structure ChainInv (s : State) : Prop where
  unique : ∀ i j ri rj, s.sessions.rows i = some ri → s.sessions.rows j = some rj →
    ri.revokedAt = none → rj.revokedAt = none → ri.familyId = rj.familyId → i = j
  redeemed : ∀ key ∈ s.redeemed, ∃ row, s.sessions.rows key = some row ∧
    row.revokedAt ≠ none
  nodup : s.redeemed.Nodup

section Commit

variable {s s' : State} {t : Nat}

/-- An unrevoked row that a commit publishes was committed before, is the child of a
rotation, or starts a family. -/
theorem Owns.visible_unrevoked {phase : Phase} (h : Owns s t phase) {j : Digest}
    {row : AuthSession} (hrow : s.sessions.visible t j = some row)
    (hrev : row.revokedAt = none) :
    (s.sessions.rows j = some row ∧ s.sessions.lock j ≠ some t) ∨
    (∃ key r, phase = .rotated key j ∧ s.sessions.rows key = some r ∧
      s.sessions.lock key = some t ∧ r.familyId = row.familyId) ∨
    (phase = .signedIn j ∧ s.sessions.dirty t j = some (some row)) := by
  by_cases hl : s.sessions.lock j = some t
  · right
    -- A locked row was written by the request itself, phase by phase.
    cases phase with
    | idle | presented | revoke | finished => exact absurd hl (h j)
    | found | identified => exact absurd hl (h.1 j)
    | stamped key session =>
      obtain ⟨hlock, -, row', now, -, -, hdirty⟩ := h
      obtain rfl := (hlock j).mp hl
      rw [Table.visible_of_dirty hdirty, Option.some.injEq] at hrow
      rw [← hrow] at hrev
      cases hrev
    | rotated key child =>
      obtain ⟨hlock, -, -, row', now, new, hrow', hdirty, -, hnew, hakin⟩ := h
      rcases (hlock j).mp hl with rfl | rfl
      · -- The child of a rotation is the one row that a commit makes live.
        rw [Table.visible_of_dirty hnew, Option.some.injEq] at hrow
        exact .inl ⟨key, row', rfl, hrow', (hlock key).mpr (.inr rfl), hrow ▸ hakin.family.symm⟩
      · rw [Table.visible_of_dirty hdirty, Option.some.injEq] at hrow
        rw [← hrow] at hrev
        cases hrev
    | signedIn key =>
      obtain ⟨hlock, -, -, row', hdirty⟩ := h
      obtain rfl := (hlock j).mp hl
      rw [Table.visible_of_dirty hdirty, Option.some.injEq] at hrow
      exact .inr ⟨rfl, hrow ▸ hdirty⟩
    | revoking scope before todo =>
      obtain ⟨row', now, -, hdirty⟩ := h.2.2 j hl
      rw [Table.visible_of_dirty hdirty, Option.some.injEq] at hrow
      rw [← hrow] at hrev
      cases hrev
  · exact .inl ⟨(Table.visible_of_unlocked hl).symm.trans hrow, hl⟩

/-- No unrevoked row that was committed before shares the family of a row the commit adds. -/
theorem ChainInv.not_shared (hI : Inv s) (hC : ChainInv s)
    (hguard : RedeemsUnrevoked s (.commit t)) {i j : Digest} {ri rj : AuthSession}
    (hi : s.sessions.rows i = some ri) (hil : s.sessions.lock i ≠ some t)
    (hir : ri.revokedAt = none) (hfam : ri.familyId = rj.familyId)
    (hj : (∃ key r, s.requests t = .rotated key j ∧ s.sessions.rows key = some r ∧
        s.sessions.lock key = some t ∧ r.familyId = rj.familyId) ∨
      (s.requests t = .signedIn j ∧ s.sessions.dirty t j = some (some rj))) : False := by
  rcases hj with ⟨key, r, hphase, hr, hlock, hrfam⟩ | ⟨hphase, hdirty⟩
  · -- The presented row is the unrevoked row of the family, and `t` has it locked.
    simp only [RedeemsUnrevoked, hphase] at hguard
    obtain ⟨r', hr', hrev⟩ := unrevoked_iff.mp hguard
    obtain rfl := Option.some.inj (hr.symm.trans hr')
    have hik : i = key := hC.unique i key ri r hi hr hir hrev (hfam.trans hrfam.symm)
    exact hil (hik ▸ hlock)
  · exact (hI.signIns t j hphase rj hdirty).2.1 i ri hi hfam

/-- The commit of a refresh, whose presented row nobody else has used. -/
theorem ChainInv.commit (hI : Inv s) (hC : ChainInv s)
    (hguard : RedeemsUnrevoked s (.commit t)) (h : s.commit t = some s') : ChainInv s' := by
  obtain ⟨redeemed, revocations, hc, rfl⟩ := commit_eq_some h
  have hown := hI.owns t
  refine ⟨fun i j ri rj hi hj hir hjr hfam => ?_, fun key hkey => ?_, ?_⟩
  · rcases hown.visible_unrevoked hi hir with ⟨hi', hil⟩ | hi'
    · rcases hown.visible_unrevoked hj hjr with ⟨hj', -⟩ | hj'
      · -- Two live rows of a family that were both there before.
        exact hC.unique i j ri rj hi' hj' hir hjr hfam
      · -- One was there, the other is added: the guard speaks against it.
        exact (hC.not_shared hI hguard hi' hil hir hfam hj').elim
    · rcases hown.visible_unrevoked hj hjr with ⟨hj', hjl⟩ | hj'
      · exact (hC.not_shared hI hguard hj' hjl hjr hfam.symm hi').elim
      · -- One commit adds at most one row.
        rcases hi' with ⟨ki, -, hpi, -⟩ | ⟨hpi, -⟩
        · rcases hj' with ⟨kj, -, hpj, -⟩ | ⟨hpj, -⟩
          · exact (Phase.rotated.inj (hpi.symm.trans hpj)).2
          · cases hpi.symm.trans hpj
        · rcases hj' with ⟨kj, -, hpj, -⟩ | ⟨hpj, -⟩
          · cases hpi.symm.trans hpj
          · exact Phase.signedIn.inj (hpi.symm.trans hpj)
  · rcases List.mem_append.mp hkey with hold | hnew
    · -- A token redeemed before stays revoked.
      obtain ⟨row, hrow, hrev⟩ := hC.redeemed key hold
      obtain ⟨row', hrow', hlater⟩ := hown.visible_later hrow
      exact ⟨row', hrow', hlater.revoked hrev⟩
    · generalize hphase : s.requests t = phase at hc hown
      cases hc with
      | signedIn | revoking => cases hnew
      | rotated =>
        obtain rfl := List.mem_singleton.mp hnew
        obtain ⟨-, -, -, row, now, -, -, hdirty, -⟩ := hown
        exact ⟨_, Table.visible_of_dirty hdirty, nofun⟩
  · generalize hphase : s.requests t = phase at hc
    cases hc with
    | signedIn | revoking => exact (List.append_nil _).symm ▸ hC.nodup
    | @rotated key child =>
      -- It was live up to now, so it was not redeemed before.
      simp only [RedeemsUnrevoked, hphase] at hguard
      obtain ⟨row, hrow, hrev⟩ := unrevoked_iff.mp hguard
      rw [List.nodup_append]
      refine ⟨hC.nodup, List.nodup_singleton _, fun a ha b hb hab => ?_⟩
      obtain rfl := List.mem_singleton.mp hb
      obtain ⟨row', hrow', hrev'⟩ := hC.redeemed a ha
      obtain rfl := Option.some.inj (hrow.symm.trans (hab ▸ hrow'))
      exact hrev' hrev

end Commit

section Runs

variable {hashToken : Token → Digest} {settings : AuthSettings} {s : State}

/-- In every state that such a run reaches. -/
theorem chainInv (h : (sessionRequests hashToken settings).ReachVia RedeemsUnrevoked s) :
    ChainInv s := by
  refine Machine.ReachVia.relative (J := Inv) (fun s hs => inv hs) ?_ ?_ h
  · rintro _ rfl
    exact ⟨fun _ _ _ _ h => (nomatch h), fun _ h => (nomatch h), List.nodup_nil⟩
  · intro s l s' hI _ hC hguard hst
    by_cases hl : ∃ t, l = .commit t
    · obtain ⟨t, rfl⟩ := hl
      exact hC.commit hI hguard hst
    · obtain ⟨hrows, hred, -⟩ := step_rows hst fun t ht => hl ⟨t, ht⟩
      refine ⟨?_, ?_, hred ▸ hC.nodup⟩
      · rw [hrows]
        exact hC.unique
      · rw [hrows, hred]
        exact hC.redeemed

/-- **Rotation is safe while rows are redeemed unrevoked**: in every run in which a refresh
only ever commits while its row is unrevoked, each family has at most one live session and
each token is redeemed at most once. -/
theorem rotation_safe (h : (sessionRequests hashToken settings).ReachVia RedeemsUnrevoked s) :
    RotationSafe s := by
  have hC := chainInv h
  refine ⟨fun i j ri rj hi hj hil hjl hfam => ?_, hC.nodup⟩
  exact hC.unique i j ri rj hi hj hil.1 hjl.1 hfam

end Runs

/-! ### Two refreshes with one token -/

/-- **One token, two sessions.** Both requests read the row before either commits; the
second `UPDATE` waits for the first commit and then revokes the revoked row once more. -/
theorem double_redemption :
    ∃ s, (sessionRequests id {}).Reachable s ∧ ¬RotationSafe s ∧ s.redeemed = [1, 1] ∧
      (∃ ri rj, s.sessions.rows 2 = some ri ∧ s.sessions.rows 3 = some rj ∧
        ri.familyId = rj.familyId ∧ ri.Live s.now ∧ rj.Live s.now) := by
  obtain ⟨s, hs, hp⟩ := Machine.exists_reachable_of_run (M := sessionRequests id {})
    (List.flatten [signedInRun,
      [.refresh 1 (some 1) (some 1), .refresh 2 (some 1) (some 1), .read 1, .read 2],
      redeemRun 1 2, redeemRun 2 3])
    (fun s => s.redeemed == [1, 1] &&
      (s.sessions.rows 2).any (fun ri => (s.sessions.rows 3).any fun rj =>
        ri.familyId = rj.familyId ∧ (ri.revokedAt = none ∧ s.now < ri.expiresAt) ∧
          (rj.revokedAt = none ∧ s.now < rj.expiresAt)))
    rfl (by decide)
  rw [Bool.and_eq_true, beq_iff_eq, Option.any_eq_true] at hp
  obtain ⟨hred, ri, hri, hany⟩ := hp
  obtain ⟨rj, hrj, hcheck⟩ := (Option.any_eq_true _ _).mp hany
  obtain ⟨hfam, hi, hj⟩ := of_decide_eq_true hcheck
  refine ⟨s, hs, fun hsafe => ?_, hred, ri, rj, hri, hrj, hfam, hi, hj⟩
  have := hsafe.2
  rw [hred] at this
  exact absurd this (by decide)

/-- A refresh followed by a replay of the spent token, which revokes the family. -/
theorem rotation_safe_replay :
    ∃ s, (sessionRequests id {}).ReachVia RedeemsUnrevoked s ∧ s.redeemed = [1] ∧
      RotationSafe s := by
  obtain ⟨s, hs, hp⟩ := Machine.exists_reachVia_of_run (M := sessionRequests id {})
    (G := RedeemsUnrevoked)
    (List.flatten [signedInRun, [.refresh 1 (some 1) (some 1), .read 1], redeemRun 1 2,
      [.refresh 2 (some 1) (some 1), .read 2, .snapshot 2, .revokeRow 2 2, .commit 2]])
    (fun s => s.redeemed == [1]) rfl (by decide)
  exact ⟨s, hs, beq_iff_eq.mp hp, rotation_safe hs⟩

end Auth

end RealEstate
