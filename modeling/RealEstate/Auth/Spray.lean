import RealEstate.Core.Lockout
import RealEstate.Systems.Machine

/-!
# Spraying passwords from one address

Logins from any addresses at any accounts, one after the other, as `AuthService.login` passes
them to the lockout: `is_locked`, the password check, `record_failure` or `reset`.

- `machine`: the logins of one failure window, with an eye on one source and the failed
  attempts it makes at accounts that are not its own before it is first refused.
- `Steady`: the source does not log in after such an attempt.
- `sprayed_le`: runs of such steps keep the source within its threshold.
- `resets_sprayed`: a login that succeeds clears the record of the attempts before it.
-/

namespace RealEstate

namespace Auth

namespace Spray

open RealEstate.Core Lockout Systems

/-- What the machine is about: the settings, one source, and the accounts it owns. -/
structure Env where
  digest : String → Nat
  settings : Settings := {}
  source : String
  owns : Option Uuid → String → Bool

/-- Redis, and what the record of the sprayed accounts needs. -/
structure State where
  redis : Redis
  /-- When the failure window opened. -/
  opened : DateTime
  /-- The source has been refused, or would have been. -/
  refused : Bool
  /-- Its failed attempts at accounts of others that got to the password check before that. -/
  sprayed : Nat

/-- `verified` is what `verify_credentials` makes of the password. -/
inductive Label where
  | login (tenantId : Option Uuid) (email ip : String) (verified : Bool)
  | wait (seconds : Nat)

variable (env : Env)

/-- `is_locked` refuses the source, whatever the account. -/
def refuses (redis : Redis) : Bool := (redis.get (.locked (.ip env.source))).isSome

/-- `AuthService.login`, as far as the lockout notices. -/
def login (redis : Redis) (tenantId : Option Uuid) (email ip : String) (verified : Bool) : Redis :=
  if isLocked env.digest redis tenantId email ip then redis
  else if verified then reset env.digest redis tenantId email ip
  else recordFailure env.digest env.settings redis tenantId email ip

/-- A failed attempt of the source at an account of somebody else gets to the password check. -/
def sprays (redis : Redis) (tenantId : Option Uuid) (email ip : String) (verified : Bool) : Bool :=
  !isLocked env.digest redis tenantId email ip && !verified && ip = env.source &&
    !env.owns tenantId email

/-- A login, or time that passes. -/
def step (s : State) : Label → Option State
  | .login tenantId email ip verified =>
    let redis := login env s.redis tenantId email ip verified
    some { s with
      redis
      refused := s.refused || refuses env redis
      sprayed :=
        if sprays env s.redis tenantId email ip verified && !s.refused then s.sprayed + 1
        else s.sprayed }
  | .wait seconds =>
    if s.redis.now + seconds < s.opened + env.settings.loginFailureWindowSeconds then
      some { s with redis := s.redis.wait seconds }
    else none

/-- The logins of one failure window, from any store on. -/
def machine : Machine State Label where
  init s := s.opened = s.redis.now ∧ s.refused = refuses env s.redis ∧ s.sprayed = 0
  step := step env

/-- The source logs in with success only while it has made no failed attempt at an account of
somebody else, or after it was refused. -/
def Steady (s : State) : Label → Prop
  | .login tenantId email ip verified =>
    ip = env.source → verified = true → isLocked env.digest s.redis tenantId email ip = false →
      s.refused = true ∨ s.sprayed = 0
  | .wait _ => True

/-- Whether a login is steady is read off the state. -/
instance (s : State) (l : Label) : Decidable (Steady env s l) := by
  cases l with
  | login tenantId email ip verified =>
    exact inferInstanceAs (Decidable (ip = env.source → verified = true →
      isLocked env.digest s.redis tenantId email ip = false → s.refused = true ∨ s.sprayed = 0))
  | wait seconds => exact inferInstanceAs (Decidable True)

/-- Settings under which a lock is a lock. -/
structure Positive (settings : Settings) : Prop where
  threshold : 0 < settings.loginIpMaxFailedAttempts
  base : 0 < settings.loginLockoutBaseSeconds
  max : 0 < settings.loginLockoutMaxSeconds
  window : 0 < settings.loginFailureWindowSeconds

/-- The source's counter holds `s.sprayed` failures at least, and outlives the window. -/
structure OnRecord (s : State) : Prop where
  counted : ∃ n d, s.redis.entries (.failures (.ip env.source)) = some ⟨n, some d⟩ ∧
    s.opened + env.settings.loginFailureWindowSeconds ≤ d ∧ s.sprayed ≤ n ∧
      n < env.settings.loginIpMaxFailedAttempts

/-- What holds throughout a window. -/
structure Kept (s : State) : Prop where
  bound : s.sprayed ≤ env.settings.loginIpMaxFailedAttempts
  opened : s.opened ≤ s.redis.now
  open_ : s.redis.now < s.opened + env.settings.loginFailureWindowSeconds
  onRecord : s.refused = false → s.sprayed = 0 ∨ OnRecord env s

variable {env} {s t : State}

/-- While the window is open, the counter of the address is between the accounts that were tried and
the limit. -/
theorem OnRecord.failures_bounds (h : OnRecord env s)
    (hopen : s.redis.now < s.opened + env.settings.loginFailureWindowSeconds) :
    s.sprayed ≤ failures s.redis (.ip env.source) ∧
      failures s.redis (.ip env.source) < env.settings.loginIpMaxFailedAttempts := by
  obtain ⟨n, d, he, hd, hle, hlt⟩ := h.counted
  rw [failures, Store.get_of_entries he, if_pos (Int.lt_of_lt_of_le hopen hd)]
  exact ⟨hle, hlt⟩

/-- A step that counts no attempt keeps the record, or there is nothing to keep. -/
theorem Kept.of_entries (h : Kept env s) (hopened : t.opened = s.opened)
    (hsprayed : t.sprayed = s.sprayed) (hle : s.redis.now ≤ t.redis.now)
    (hlt : t.redis.now < t.opened + env.settings.loginFailureWindowSeconds)
    (hrecord : t.refused = false → s.refused = false ∧ (s.sprayed = 0 ∨
      t.redis.entries (.failures (.ip env.source)) =
        s.redis.entries (.failures (.ip env.source)))) : Kept env t where
  bound := hsprayed ▸ h.bound
  opened := hopened ▸ Int.le_trans h.opened hle
  open_ := hlt
  onRecord hnot := by
    obtain ⟨hs, hzero | hentries⟩ := hrecord hnot
    · exact .inl (hsprayed.trans hzero)
    · rcases h.onRecord hs with hzero | ⟨n, d, he, hd, hn⟩
      · exact .inl (hsprayed.trans hzero)
      · exact .inr ⟨n, d, hentries.trans he, hopened ▸ hd, hsprayed ▸ hn⟩

/-- Nothing but the source's own logins touches its counter. -/
theorem entries_login_of_ne {redis : Redis} {tenantId : Option Uuid} {email ip : String}
    {verified : Bool} (h : ip ≠ env.source) :
    (login env redis tenantId email ip verified).entries (.failures (.ip env.source)) =
      redis.entries (.failures (.ip env.source)) := by
  have hcounts : ¬ Counts env.digest tenantId email ip (.ip env.source) := by
    rintro (haccount | hip)
    · exact ip_ne_accountKey haccount
    · exact h (Subject.ip.inj hip).symm
  unfold login
  split
  · rfl
  · split
    · exact entries_reset_of_not hcounts
    · exact (entries_recordFailure_of_not _ _ hcounts).1

theorem now_login (redis : Redis) (tenantId : Option Uuid) (email ip : String) (verified : Bool) :
    (login env redis tenantId email ip verified).now = redis.now := by
  unfold login
  split
  · rfl
  · split
    · exact now_reset
    · exact now_recordFailure

/-- A source whose last failure reached the threshold is refused. -/
theorem refuses_recordFailure (hpos : Positive env.settings) {redis : Redis}
    {tenantId : Option Uuid} {email : String}
    (h : env.settings.loginIpMaxFailedAttempts ≤ failures redis (.ip env.source) + 1) :
    refuses env (recordFailure env.digest env.settings redis tenantId email env.source) = true := by
  have hentry := entries_locked_recordFailure env.settings redis
    (.inr rfl : Counts env.digest tenantId email env.source (.ip env.source))
  rw [threshold_ip, if_neg (Nat.not_lt.2 h)] at hentry
  have hdelay : 0 < backoffSeconds env.settings (failures redis (.ip env.source) + 1)
      env.settings.loginIpMaxFailedAttempts :=
    Nat.lt_min.2 ⟨Nat.mul_pos hpos.base (Nat.two_pow_pos _), hpos.max⟩
  rw [refuses, Store.get_of_entries hentry, now_recordFailure, if_pos (by omega)]
  rfl

/-- An attempt before the source was refused finds its counter below the threshold. -/
theorem Kept.failures_lt (h : Kept env s) (hpos : Positive env.settings)
    (hrefused : s.refused = false) :
    s.sprayed ≤ failures s.redis (.ip env.source) ∧
      s.sprayed < env.settings.loginIpMaxFailedAttempts := by
  rcases h.onRecord hrefused with hzero | hrecord
  · rw [hzero]
    exact ⟨Nat.zero_le _, hpos.threshold⟩
  · obtain ⟨hle, hlt⟩ := hrecord.failures_bounds h.open_
    exact ⟨hle, Nat.lt_of_le_of_lt hle hlt⟩

/-- A failure of the source, at an account of its own or of somebody else. -/
theorem Kept.wrongPassword (h : Kept env s) (hpos : Positive env.settings)
    (hrefused : s.refused = false) {tenantId : Option Uuid} {email : String}
    (hredis : t.redis =
      recordFailure env.digest env.settings s.redis tenantId email env.source)
    (hopened : t.opened = s.opened) (hle : t.sprayed ≤ s.sprayed + 1)
    (hnot : t.refused = false → refuses env t.redis = false) : Kept env t := by
  obtain ⟨hcounted, hbound⟩ := h.failures_lt hpos hrefused
  have hnow : t.redis.now = s.redis.now := by rw [hredis, now_recordFailure]
  refine ⟨Nat.le_trans hle hbound, ?_, ?_, fun ht => .inr ⟨?_⟩⟩
  · rw [hnow, hopened]
    exact h.opened
  · rw [hnow, hopened]
    exact h.open_
  · have hbelow : failures s.redis (.ip env.source) + 1 <
        env.settings.loginIpMaxFailedAttempts := by
      by_contra hge
      have href := hnot ht
      rw [hredis, refuses_recordFailure hpos (Nat.not_lt.1 hge)] at href
      cases href
    refine ⟨_, _, hredis ▸ entries_failures_recordFailure (.inr rfl), ?_,
      Nat.le_trans hle (Nat.succ_le_succ hcounted), hbelow⟩
    rw [hopened]
    exact Int.add_le_add_right h.opened _

/-- A login keeps the record, if it is a steady one. -/
theorem Kept.login (h : Kept env s) (hpos : Positive env.settings) {tenantId : Option Uuid}
    {email ip : String} {verified : Bool} (hg : Steady env s (.login tenantId email ip verified))
    (hst : step env s (.login tenantId email ip verified) = some t) : Kept env t := by
  have hnow : (Spray.login env s.redis tenantId email ip verified).now = s.redis.now :=
    now_login s.redis tenantId email ip verified
  cases hst
  by_cases hattempt : ip = env.source ∧ isLocked env.digest s.redis tenantId email ip = false ∧
      verified = false ∧ s.refused = false
  · -- A failed attempt of the source before it is refused: its counter goes up.
    obtain ⟨rfl, hlocked, rfl, hrefused⟩ := hattempt
    have hredis : Spray.login env s.redis tenantId email env.source false =
        recordFailure env.digest env.settings s.redis tenantId email env.source := by
      simp [Spray.login, hlocked]
    refine h.wrongPassword hpos hrefused hredis rfl ?_ ?_
    · show ite .. ≤ _
      split
      · exact Nat.le_refl _
      · exact Nat.le_succ _
    · intro hnot
      exact (Bool.or_eq_false_iff.1 hnot).2
  · have hsprayed : ∀ {n : Nat}, (if sprays env s.redis tenantId email ip verified && !s.refused
        then n + 1 else n) = n := by
      refine if_neg fun hsprays => hattempt ?_
      simp only [sprays, Bool.and_eq_true, Bool.not_eq_true', decide_eq_true_eq] at hsprays
      exact ⟨hsprays.1.1.2, hsprays.1.1.1.1, hsprays.1.1.1.2, hsprays.2⟩
    refine h.of_entries rfl hsprayed (Int.le_of_eq hnow.symm) (hnow ▸ h.open_) fun hnot => ?_
    have hrefused := (Bool.or_eq_false_iff.1 hnot).1
    refine ⟨hrefused, ?_⟩
    by_cases hsource : ip = env.source
    · cases hlocked : isLocked env.digest s.redis tenantId email ip with
      | true =>
        refine .inr ?_
        show (Spray.login ..).entries _ = _
        rw [Spray.login, if_pos hlocked]
      | false =>
        cases verified with
        | false => exact absurd ⟨hsource, hlocked, rfl, hrefused⟩ hattempt
        | true =>
          -- The source logs in: its record is deleted, so there must be nothing to keep.
          rcases hg hsource rfl hlocked with hrefused' | hzero
          · cases hrefused.symm.trans hrefused'
          · exact .inl hzero
    · exact .inr (entries_login_of_ne hsource)

/-- One steady step keeps the record. -/
theorem kept_step (hpos : Positive env.settings) {l : Label} (h : Kept env s)
    (hg : Steady env s l) (hst : step env s l = some t) : Kept env t := by
  cases l with
  | login tenantId email ip verified => exact h.login hpos hg hst
  | wait seconds =>
    rw [step] at hst
    split at hst
    · next hlt =>
      cases hst
      exact h.of_entries rfl rfl (Int.le_add_of_nonneg_right (Int.natCast_nonneg _)) hlt
        fun hnot => ⟨hnot, .inr rfl⟩
    · cases hst

theorem inductive_kept (hpos : Positive env.settings) :
    (machine env).Inductive (Steady env) (Kept env) where
  init s hs := by
    obtain ⟨hopened, -, hzero⟩ := hs
    exact {
      bound := by omega
      opened := Int.le_of_eq hopened
      open_ := hopened ▸ Int.lt_add_of_pos_right _ (Int.natCast_pos.2 hpos.window)
      onRecord := fun _ => .inl hzero }
  step _ _ _ h hg hst := kept_step hpos h hg hst

/-- **The anti-spray bound.** While the source does not log in between its attempts at the
accounts of others, at most as many of them as its threshold get to the password check before
it is refused. -/
theorem sprayed_le (hpos : Positive env.settings)
    (h : (machine env).ReachVia (Steady env) s) :
    s.sprayed ≤ env.settings.loginIpMaxFailedAttempts :=
  ((inductive_kept hpos).always h).bound

/-! ### One host, many accounts -/

/-- An agency's own account, and everybody else's, under the settings as shipped. -/
def office : Env where
  digest := String.length
  source := "203.0.113.7"
  owns tenantId _ := tenantId = some 0

/-- No failures yet. -/
def quiet : State where
  redis := Store.empty
  opened := 0
  refused := false
  sprayed := 0

/-- One failed login at each of several accounts. -/
def attempts (first count : Nat) : List Label :=
  (List.range' first count).map fun tenantId =>
    .login (some tenantId) "owner@agency.test" office.source false

/-- A login of the attacker at an account of their own. -/
def ownLogin : Label := .login (some 0) "me@agency.test" office.source true

theorem positive_shipped : Positive {} := ⟨by decide, by decide, by decide, by decide⟩

/-- A login of the source to its own account, three attempts at accounts of others, one from
another address, and later two more. -/
def morning : List Label :=
  ownLogin :: .wait 60 :: (attempts 1 3 ++
    [.login (some 2) "owner@agency.test" "198.51.100.4" false, .wait 300] ++ attempts 3 2)

/-- The five attempts of that morning are within the threshold. -/
theorem steady_sprayed_le : ∃ s, (machine office).ReachVia (Steady office) s ∧ s.sprayed = 5 ∧
    s.sprayed ≤ office.settings.loginIpMaxFailedAttempts := by
  obtain ⟨s, hs, hp⟩ := Machine.exists_reachVia_of_run (M := machine office)
    (G := Steady office) (s := quiet) morning (fun s => s.sprayed = 5) ⟨rfl, by decide, rfl⟩
    (by decide)
  exact ⟨s, hs, of_decide_eq_true hp, sprayed_le positive_shipped hs⟩

/-- 49 accounts are tried, the source logs in to its own, and two more are tried: no attempt
was refused, and the source is past its threshold. -/
theorem resets_sprayed : ¬ ∀ s, (machine office).Reachable s →
    s.sprayed ≤ office.settings.loginIpMaxFailedAttempts := by
  intro hbound
  obtain ⟨s, hs, hp⟩ := Machine.exists_reachable_of_run (M := machine office) (s := quiet)
    (attempts 1 49 ++ ownLogin :: attempts 50 2) (fun s => s.sprayed = 51)
    ⟨rfl, by decide, rfl⟩ (by decide +kernel)
  have hle := hbound s hs
  rw [of_decide_eq_true hp] at hle
  exact absurd hle (by decide)

end Spray

end Auth

end RealEstate
