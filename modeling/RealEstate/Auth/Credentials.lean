import RealEstate.Auth.Reset

/-!
# Credentials that have ended

Each kind of credential has its own way to end: a session row is revoked
(`Revoked`), an access token is expired or denylisted until it expires (`Dead`).

- `Kept`, `Keeps`: what updates of the table and commands on Redis leave as it is,
  with one lemma for each operation of `Auth.Reset`. What has ended stays ended.
- `revoked_revokeAll`, `dead_revokeTrackedJtis`: the two halves of
  `force_logout_user`.
-/

namespace RealEstate

namespace Auth

namespace Reset

open RealEstate.Core Users Systems Denylist

variable (env : Env)

/-- The call raised. -/
def Refused {α : Type} (reply : Except AppError α) : Prop := ∃ e, reply = .error e

/-! ### Sessions: rows only ever get revoked -/

/-- The digests in the table. -/
def hashes (sessions : List AuthSession) : List Digest := sessions.map (·.refreshTokenHash)

/-- `rows'` is `rows` some updates later: a row is a later version of one with its digest, or
its digest is new. -/
structure Kept (rows rows' : List AuthSession) : Prop where
  old : ∀ row' ∈ rows', row'.refreshTokenHash ∈ hashes rows →
    ∃ row ∈ rows, row.refreshTokenHash = row'.refreshTokenHash ∧ Later row row'
  subset : ∀ digest ∈ hashes rows, digest ∈ hashes rows'

/-- The token is known and its session revoked. -/
structure Revoked (rows : List AuthSession) (digest : Digest) : Prop where
  known : digest ∈ hashes rows
  revoked : ∀ row ∈ rows, row.refreshTokenHash = digest → row.revokedAt ≠ none

namespace Kept

variable {rows rows' rows'' : List AuthSession}

theorem refl (rows : List AuthSession) : Kept rows rows :=
  ⟨fun row h _ => ⟨row, h, rfl, .refl row⟩, fun _ h => h⟩

theorem trans (h : Kept rows rows') (h' : Kept rows' rows'') : Kept rows rows'' := by
  constructor
  · intro row'' hmem hknown
    obtain ⟨row', hmem', hhash', hlater'⟩ := h'.old row'' hmem (h.subset _ hknown)
    obtain ⟨row, hmem, hhash, hlater⟩ := h.old row' hmem' (hhash' ▸ hknown)
    exact ⟨row, hmem, hhash.trans hhash', hlater.trans hlater'⟩
  · intro digest hdigest
    exact h'.subset _ (h.subset _ hdigest)

theorem map {f : AuthSession → AuthSession} (hlater : ∀ row, Later row (f row))
    (hhash : ∀ row, (f row).refreshTokenHash = row.refreshTokenHash) :
    Kept rows (rows.map f) := by
  constructor
  · intro row' hmem _
    obtain ⟨row, hrow, rfl⟩ := List.mem_map.mp hmem
    exact ⟨row, hrow, (hhash row).symm, hlater row⟩
  · intro digest hdigest
    obtain ⟨row, hrow, rfl⟩ := List.mem_map.mp hdigest
    exact List.mem_map.mpr ⟨f row, List.mem_map_of_mem hrow, hhash row⟩

theorem cons {session : AuthSession} (hfresh : session.refreshTokenHash ∉ hashes rows) :
    Kept rows (session :: rows) := by
  constructor
  · intro row' hmem hknown
    rcases List.mem_cons.mp hmem with rfl | hmem
    · exact absurd hknown hfresh
    · exact ⟨row', hmem, rfl, .refl row'⟩
  · intro digest hdigest
    exact List.mem_cons_of_mem _ hdigest

theorem revoked {digest : Digest} (h : Kept rows rows') (hr : Revoked rows digest) :
    Revoked rows' digest := by
  constructor
  · exact h.subset _ hr.known
  · rintro row' hmem rfl
    obtain ⟨row, hrow, hhash, hlater⟩ := h.old row' hmem hr.known
    exact hlater.revoked (hr.revoked row hrow hhash)

end Kept

theorem hashes_map {rows : List AuthSession} {f : AuthSession → AuthSession}
    (hhash : ∀ row, (f row).refreshTokenHash = row.refreshTokenHash) :
    hashes (rows.map f) = hashes rows := by
  unfold hashes
  rw [List.map_map]
  exact List.map_congr_left fun row _ => hhash row

section Updates

variable {sessions : List AuthSession}

/-- Revoking in bulk keeps the rows. -/
theorem kept_revokeAll (scope : Scope) (now : DateTime) :
    Kept sessions (revokeAll scope now sessions) := by
  refine Kept.map (fun row => ?_) fun row => ?_
  · split
    · exact later_revoke row now
    · exact .refl row
  · split <;> rfl

theorem hashes_revokeAll (scope : Scope) (now : DateTime) :
    hashes (revokeAll scope now sessions) = hashes sessions :=
  hashes_map fun row => by split <;> rfl

/-- So does an update that keeps the hash. -/
theorem kept_updateSession (session : AuthSession) {f : AuthSession → AuthSession}
    (hlater : ∀ row, Later row (f row))
    (hhash : ∀ row, (f row).refreshTokenHash = row.refreshTokenHash) :
    Kept sessions (updateSession session f sessions) := by
  refine Kept.map (fun row => ?_) fun row => ?_
  · split
    · exact hlater row
    · exact .refl row
  · split
    · exact hhash row
    · rfl

theorem hashes_updateSession (session : AuthSession) {f : AuthSession → AuthSession}
    (hhash : ∀ row, (f row).refreshTokenHash = row.refreshTokenHash) :
    hashes (updateSession session f sessions) = hashes sessions := by
  refine hashes_map fun row => ?_
  split
  · exact hhash row
  · rfl

/-- After `revoke_all_for_user`, each session of the account is revoked. -/
theorem revoked_revokeAll {tenantId : Option Uuid} {userId : Uuid} {now : DateTime}
    {row : AuthSession} (hnodup : (hashes sessions).Nodup) (hrow : row ∈ sessions)
    (htenant : row.tenantId = tenantId) (huser : row.userId = userId) :
    Revoked (revokeAll (.user tenantId userId) now sessions) row.refreshTokenHash := by
  constructor
  · rw [hashes_revokeAll]
    exact List.mem_map_of_mem hrow
  · intro row' hmem hhash
    obtain ⟨old, hold, rfl⟩ := List.mem_map.mp hmem
    have hsame : old.refreshTokenHash = row.refreshTokenHash := by
      rw [← hhash]
      split <;> rfl
    obtain rfl := List.inj_on_of_nodup_map hnodup hold hrow hsame
    have hcovers : (Scope.user tenantId userId).covers old = true :=
      decide_eq_true ⟨htenant, huser⟩
    unfold Scope.revokes
    rw [hcovers, Bool.true_and]
    split
    · nofun
    · next hrevoked =>
      intro hnone
      exact hrevoked (by rw [hnone]; rfl)

/-- A revoked session is refused, on whatever site its token is presented. -/
theorem refused_refresh {s : State} {token : Token}
    (h : Revoked s.sessions (env.hashToken token)) (requestTenant : Option Uuid) (draws : Draws) :
    Refused (refresh env s requestTenant (some token) draws).2 := by
  simp only [refresh]
  split
  · exact ⟨_, rfl⟩
  · next session hok =>
    obtain ⟨hfound, hlive, -⟩ := checkPresented_ok hok
    have hpred := List.find?_some hfound
    simp only [decide_eq_true_eq] at hpred
    exact absurd hlive (h.revoked session (List.mem_of_find?_eq_some hfound) hpred.2)

end Updates

/-! ### Access tokens: tracked until they are dead -/

/-- The token has expired, or is on the denylist until it does. -/
def Dead (r : Redis) (claims : AccessToken) : Prop :=
  claims.exp ≤ r.now ∨ r.HoldsUntil (.deny claims.jti) .one claims.exp

/-- The token is dead, or in its user's set until it expires. -/
def Tracked (r : Redis) (claims : AccessToken) : Prop :=
  Dead r claims ∨ ∃ jtis, claims.jti ∈ jtis ∧
    r.HoldsUntil (.userJtis claims.userId) (.members jtis) claims.exp

/-- What commands on Redis keep, of tokens that live no longer than the settings allow. -/
structure Keeps (settings : AuthSettings) (r r' : Redis) : Prop where
  now : r.now ≤ r'.now
  dead : ∀ claims : AccessToken, claims.exp ≤ r.now + settings.accessTokenTtlSeconds →
    Dead r claims → Dead r' claims
  tracked : ∀ claims : AccessToken, claims.exp ≤ r.now + settings.accessTokenTtlSeconds →
    Tracked r claims → Tracked r' claims

/-- A dead token is refused. -/
theorem refused_getCurrentUser {s : State} {claims : AccessToken} (h : Dead s.redis claims)
    (requestTenant : Option Uuid) : Refused (getCurrentUser s requestTenant claims) := by
  unfold getCurrentUser
  split
  · exact ⟨_, rfl⟩
  · next hexp =>
    rcases h with h | h
    · exact absurd h hexp
    · have hdenied : Denied s.redis claims.jti := by
        unfold Denied
        rw [h.get (Int.not_le.mp hexp)]
        rfl
      rw [if_pos hdenied]
      split
      · exact ⟨_, rfl⟩
      · split <;> exact ⟨_, rfl⟩

/-- A denylisted token stays denylisted when one more is. -/
theorem holdsUntil_deny {settings : AuthSettings} {r : Redis} {j jti : Jti} {d : Int}
    (hbound : d ≤ r.now + settings.accessTokenTtlSeconds) (h : r.HoldsUntil (.deny j) .one d) :
    (denylistJti settings r jti).HoldsUntil (.deny j) .one d := by
  unfold denylistJti
  by_cases hj : j = jti
  · subst hj
    refine Store.holdsUntil_set_self _ _ _ fun n hn => ?_
    obtain rfl := Option.some.inj hn
    exact hbound
  · exact h.set_of_ne (by simpa using hj)

namespace Keeps

variable {settings : AuthSettings} {r r' r'' : Redis}

theorem refl (r : Redis) : Keeps settings r r :=
  ⟨Int.le_refl _, fun _ _ h => h, fun _ _ h => h⟩

theorem trans (h : Keeps settings r r') (h' : Keeps settings r' r'') : Keeps settings r r'' := by
  have hbound : ∀ {claims : AccessToken},
      claims.exp ≤ r.now + settings.accessTokenTtlSeconds →
      claims.exp ≤ r'.now + settings.accessTokenTtlSeconds := fun hexp =>
    Int.le_trans hexp (Int.add_le_add_right h.now _)
  constructor
  · exact Int.le_trans h.now h'.now
  · intro claims hexp hdead
    exact h'.dead claims (hbound hexp) (h.dead claims hexp hdead)
  · intro claims hexp htracked
    exact h'.tracked claims (hbound hexp) (h.tracked claims hexp htracked)

/-- Commands at one instant: it is enough to look at the denylist and at the sets. -/
theorem of_now_eq (hnow : r'.now = r.now)
    (hdeny : ∀ jti d, d ≤ r.now + settings.accessTokenTtlSeconds →
      r.HoldsUntil (.deny jti) .one d → r'.HoldsUntil (.deny jti) .one d)
    (hset : ∀ claims jtis, claims.jti ∈ jtis → r.now < claims.exp →
      claims.exp ≤ r.now + settings.accessTokenTtlSeconds →
      r.HoldsUntil (.userJtis claims.userId) (.members jtis) claims.exp →
      Tracked r' claims) : Keeps settings r r' := by
  have hdead : ∀ claims : AccessToken, claims.exp ≤ r.now + settings.accessTokenTtlSeconds →
      Dead r claims → Dead r' claims := by
    rintro claims hbound (hexp | hdenied)
    · exact .inl (hnow ▸ hexp)
    · exact .inr (hdeny _ _ hbound hdenied)
  constructor
  · exact Int.le_of_eq hnow.symm
  · exact hdead
  · rintro claims hbound (h | ⟨jtis, hmem, hholds⟩)
    · exact .inl (hdead claims hbound h)
    · by_cases hexp : claims.exp ≤ r.now
      · exact .inl (hdead claims hbound (.inl hexp))
      · exact hset claims jtis hmem (Int.not_le.mp hexp) hbound hholds

theorem wait (seconds : Nat) : Keeps settings r (r.wait seconds) := by
  have hnow : r.now ≤ (r.wait seconds).now := Int.le_add_of_nonneg_right (Int.natCast_nonneg _)
  constructor
  · exact hnow
  · rintro claims - (hexp | hdenied)
    · exact .inl (Int.le_trans hexp hnow)
    · exact .inr hdenied
  · rintro claims - ((hexp | hdenied) | hset)
    · exact .inl (.inl (Int.le_trans hexp hnow))
    · exact .inl (.inr hdenied)
    · exact .inr hset

theorem denylistJti (jti : Jti) : Keeps settings r (denylistJti settings r jti) := by
  refine of_now_eq rfl ?_ ?_
  · exact fun j d hbound hdenied => holdsUntil_deny hbound hdenied
  · intro claims jtis hmem _ _ hholds
    exact .inr ⟨jtis, hmem, hholds.set_of_ne (by simp)⟩

/-- `SADD` keeps the members, and `EXPIRE` postpones the deadline of them all. -/
theorem trackJti (userId : Uuid) (jti : Jti) :
    Keeps settings r (trackJti settings r userId jti) := by
  refine of_now_eq (Store.now_expire ..) ?_ ?_
  · intro j d _ hdenied
    exact (hdenied.set_of_ne (by simp)).expire_of_ne (by simp)
  · intro claims jtis hmem hlive hbound hholds
    by_cases hu : claims.userId = userId
    · obtain ⟨e, he, hv, hd⟩ := Store.holdsUntil_expire_set r (.userJtis userId)
        (.members (if jti ∈ smembers r userId then smembers r userId
          else jti :: smembers r userId)) settings.accessTokenTtlSeconds
      refine .inr ⟨_, ?_, e, hu ▸ he, hv, fun d' hd' => Int.le_trans hbound (hd d' hd')⟩
      have hread : smembers r userId = jtis := by
        unfold smembers
        rw [← hu, hholds.get hlive]
      rw [hread]
      split
      · exact hmem
      · exact List.mem_cons_of_mem _ hmem
    · have hne : Key.userJtis claims.userId ≠ .userJtis userId := by simpa using hu
      exact .inr ⟨jtis, hmem, (hholds.set_of_ne hne).expire_of_ne hne⟩

theorem foldl_denylistJti (jtis : List Jti) : ∀ r : Redis,
    Keeps settings r (jtis.foldl (Denylist.denylistJti settings) r) := by
  induction jtis with
  | nil => exact fun r => refl r
  | cons jti jtis ih => exact fun r => (denylistJti jti).trans (ih _)

end Keeps

section Revocation

variable {settings : AuthSettings}

/-- A token just issued is tracked. -/
theorem tracked_trackJti (r : Redis) {claims : AccessToken}
    (hexp : claims.exp = r.now + settings.accessTokenTtlSeconds) :
    Tracked (trackJti settings r claims.userId claims.jti) claims := by
  obtain ⟨e, he, hv, hd⟩ := Store.holdsUntil_expire_set r (.userJtis claims.userId)
    (.members (if claims.jti ∈ smembers r claims.userId then smembers r claims.userId
      else claims.jti :: smembers r claims.userId)) settings.accessTokenTtlSeconds
  refine .inr ⟨_, ?_, e, he, hv, fun d' hd' => hexp ▸ hd d' hd'⟩
  split
  · assumption
  · exact List.mem_cons_self

/-- A denylisted token is dead until it expires. -/
theorem dead_denylistJti (r : Redis) {claims : AccessToken}
    (hbound : claims.exp ≤ r.now + settings.accessTokenTtlSeconds) :
    Dead (denylistJti settings r claims.jti) claims := by
  refine .inr (Store.holdsUntil_set_self _ _ _ fun n hn => ?_)
  obtain rfl := Option.some.inj hn
  exact hbound

/-- So are all of a list. -/
theorem dead_foldl_denylistJti {claims : AccessToken} (jtis : List Jti) : ∀ r : Redis,
    claims.exp ≤ r.now + settings.accessTokenTtlSeconds → claims.jti ∈ jtis →
    Dead (jtis.foldl (denylistJti settings) r) claims := by
  induction jtis with
  | nil => exact fun _ _ hmem => absurd hmem List.not_mem_nil
  | cons jti jtis ih =>
    intro r hbound hmem
    rcases List.mem_cons.mp hmem with rfl | hmem
    · exact (Keeps.foldl_denylistJti jtis _).dead claims hbound (dead_denylistJti r hbound)
    · exact ih (denylistJti settings r jti) hbound hmem

/-- The `DEL` of a set leaves the denylist alone. -/
theorem Dead.del {r : Redis} {claims : AccessToken} (h : Dead r claims) (userId : Uuid) :
    Dead (r.del (.userJtis userId)) claims := by
  rcases h with hexp | hdenied
  · exact .inl hexp
  · exact .inr (hdenied.del_of_ne (by simp))

theorem now_foldl_denylistJti (jtis : List Jti) : ∀ r : Redis,
    (jtis.foldl (denylistJti settings) r).now = r.now := by
  induction jtis with
  | nil => exact fun _ => rfl
  | cons jti jtis ih => exact fun r => ih (denylistJti settings r jti)

theorem holdsUntil_foldl_denylistJti {userId : Uuid} {v : Value} {d : Int} (jtis : List Jti) :
    ∀ r : Redis, r.HoldsUntil (.userJtis userId) v d →
      (jtis.foldl (denylistJti settings) r).HoldsUntil (.userJtis userId) v d := by
  induction jtis with
  | nil => exact fun _ h => h
  | cons jti jtis ih => exact fun r h => ih _ (h.set_of_ne (by simp))

theorem holdsUntil_deny_foldl {j : Jti} {d : Int} (jtis : List Jti) : ∀ r : Redis,
    d ≤ r.now + settings.accessTokenTtlSeconds → r.HoldsUntil (.deny j) .one d →
    (jtis.foldl (denylistJti settings) r).HoldsUntil (.deny j) .one d := by
  induction jtis with
  | nil => exact fun _ _ h => h
  | cons jti jtis ih => exact fun r hbound h => ih _ hbound (holdsUntil_deny hbound h)

/-- Revoking what is in a user's set leaves the tracked tokens of that user dead. -/
theorem dead_revokeJtis {r : Redis} {claims : AccessToken}
    (hbound : claims.exp ≤ r.now + settings.accessTokenTtlSeconds) (h : Tracked r claims) :
    Dead (revokeJtis settings r claims.userId (smembers r claims.userId)) claims := by
  refine Dead.del ?_ claims.userId
  rcases h with hdead | ⟨jtis, hmem, hholds⟩
  · exact (Keeps.foldl_denylistJti _ _).dead claims hbound hdead
  · by_cases hexp : claims.exp ≤ r.now
    · exact .inl (by rw [now_foldl_denylistJti]; exact hexp)
    · refine dead_foldl_denylistJti _ r hbound ?_
      unfold smembers
      rw [hholds.get (Int.not_le.mp hexp)]
      exact hmem

/-- Revoking the tokens of one user leaves those of another tracked. -/
theorem tracked_revokeJtis {r : Redis} {claims : AccessToken} {userId : Uuid}
    (jtis : List Jti) (hne : claims.userId ≠ userId) {members : List Jti}
    (hmem : claims.jti ∈ members)
    (h : r.HoldsUntil (.userJtis claims.userId) (.members members) claims.exp) :
    Tracked (revokeJtis settings r userId jtis) claims :=
  .inr ⟨members, hmem, (holdsUntil_foldl_denylistJti jtis r h).del_of_ne (by simpa using hne)⟩

end Revocation

section Revocation

variable (env : Env) (r : Redis) (userId : Uuid)

/-- `_revoke_tracked_jtis` leaves every tracked token of the account dead. -/
theorem dead_revokeTrackedJtis {claims : AccessToken}
    (hbound : claims.exp ≤ r.now + env.settings.accessTokenTtlSeconds) (h : Tracked r claims) :
    Dead (revokeTrackedJtis env r claims.userId) claims := by
  unfold revokeTrackedJtis
  by_cases hempty : (smembers r claims.userId).isEmpty = true
  · rw [if_pos hempty]
    rcases h with hdead | ⟨jtis, hmem, hholds⟩
    · exact hdead
    · by_cases hexp : claims.exp ≤ r.now
      · exact .inl hexp
      · -- A live entry is read, so the set was not empty.
        unfold smembers at hempty
        rw [hholds.get (Int.not_le.mp hexp)] at hempty
        exact absurd (List.isEmpty_iff.mp hempty) (List.ne_nil_of_mem hmem)
  · rw [if_neg hempty]
    exact dead_revokeJtis hbound h

/-- Revoking what is tracked un-denies nothing. -/
theorem keeps_revokeTrackedJtis : Keeps env.settings r (revokeTrackedJtis env r userId) := by
  have hdead : ∀ claims : AccessToken, claims.userId = userId →
      claims.exp ≤ r.now + env.settings.accessTokenTtlSeconds → Tracked r claims →
      Dead (revokeTrackedJtis env r userId) claims := by
    rintro claims rfl
    exact dead_revokeTrackedJtis env r
  by_cases hempty : (smembers r userId).isEmpty = true
  · rw [revokeTrackedJtis, if_pos hempty]
    exact .refl r
  · have hnow : (revokeTrackedJtis env r userId).now = r.now := by
      rw [revokeTrackedJtis, if_neg hempty]
      exact now_foldl_denylistJti ..
    refine Keeps.of_now_eq hnow ?_ ?_
    · intro jti d hbound hdenied
      rw [revokeTrackedJtis, if_neg hempty]
      refine Store.HoldsUntil.del_of_ne ?_ (by simp)
      exact holdsUntil_deny_foldl _ r hbound hdenied
    · intro claims jtis hmem _ hbound hholds
      by_cases hu : claims.userId = userId
      · exact .inl (hdead claims hu hbound (.inr ⟨jtis, hmem, hholds⟩))
      · rw [revokeTrackedJtis, if_neg hempty]
        exact tracked_revokeJtis _ hu hmem hholds

end Revocation

end Reset

end Auth

end RealEstate
