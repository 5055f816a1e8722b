import Mathlib.Algebra.Group.Nat.Defs
import RealEstate.Core.Base
import RealEstate.Systems.Store

/-!
# Account lockout (`core/lockout.py`)

Failed logins are counted for the account and for the source address, each behind its own
threshold; past it the counter's lock is set, for twice as long at each further failure.

- `isLocked`, `recordFailure`, `reset`: the three calls, with Redis answering.
- `entries_failures_recordFailure`, `entries_locked_recordFailure`,
  `entries_recordFailure_of_not`: what a failure leaves under every key.
-/

namespace RealEstate

namespace Core

namespace Lockout

open Systems

/-- The lockout settings (`core/config.py`), as they are shipped. -/
structure Settings where
  loginMaxFailedAttempts : Nat := 5
  loginLockoutBaseSeconds : Nat := 60
  loginLockoutMaxSeconds : Nat := 3600
  loginFailureWindowSeconds : Nat := 900
  loginIpMaxFailedAttempts : Nat := 50

/-- What is counted. The platform's accounts have no tenant. -/
inductive Subject where
  | user (tenantId : Option Uuid) (digest : Nat)
  | ip (ip : String)
  deriving DecidableEq

/-- A counter, and its lock under `_LOCK_SUFFIX`. -/
inductive Key where
  | failures (subject : Subject)
  | locked (subject : Subject)
  deriving DecidableEq

/-- Counters, and locks with the time they were set. -/
abbrev Redis := Store Key Nat

/-- `_account_key`. `digest` is that of the lower-cased address. -/
def accountKey (digest : String → Nat) (tenantId : Option Uuid) (email : String) : Subject :=
  .user tenantId (digest email)

/-- `_backoff_seconds`. -/
def backoffSeconds (settings : Settings) (failures threshold : Nat) : Nat :=
  let excess := failures - threshold
  min (settings.loginLockoutBaseSeconds * 2 ^ excess) settings.loginLockoutMaxSeconds

/-- `INCR` and `EXPIRE` of one counter, with the reply of the first. -/
def countFailure (settings : Settings) (redis : Redis) (subject : Subject) : Redis × Nat :=
  let (redis, failures) := redis.incr (.failures subject)
  (redis.expire (.failures subject) settings.loginFailureWindowSeconds, failures)

/-- The lock of a counter that has reached its threshold. -/
def lockPast (settings : Settings) (redis : Redis) (subject : Subject)
    (failures threshold : Nat) : Redis :=
  if failures < threshold then redis
  else
    let delay := backoffSeconds settings failures threshold
    redis.set (.locked subject) redis.now.toNat (some delay)

section LoginLockout

variable (digest : String → Nat) (settings : Settings) (redis : Redis) (tenantId : Option Uuid)
  (email ip : String)

/-- `is_locked`. -/
def isLocked : Bool :=
  (redis.get (.locked (accountKey digest tenantId email))).isSome ||
    (redis.get (.locked (.ip ip))).isSome

/-- `record_failure`. -/
def recordFailure : Redis :=
  let account := accountKey digest tenantId email
  let (redis, accountFailures) := countFailure settings redis account
  let (redis, ipFailures) := countFailure settings redis (.ip ip)
  let redis := lockPast settings redis account accountFailures settings.loginMaxFailedAttempts
  lockPast settings redis (.ip ip) ipFailures settings.loginIpMaxFailedAttempts

/-- `reset`. -/
def reset : Redis :=
  let account := accountKey digest tenantId email
  (((redis.del (.failures account)).del (.locked account)).del (.failures (.ip ip))).del
    (.locked (.ip ip))

end LoginLockout

/-! ### What a failure leaves behind -/

/-- The failures on record. -/
def failures (redis : Redis) (subject : Subject) : Nat :=
  (redis.get (.failures subject)).getD 0

section Failure

variable {digest : String → Nat} {settings : Settings} {redis : Redis}
  {tenantId : Option Uuid} {email ip : String} {subject : Subject} {n threshold : Nat} {key : Key}

@[simp] theorem now_countFailure :
    (countFailure settings redis subject).1.now = redis.now := by
  simp [countFailure]

/-- `INCR` and `EXPIRE` open the window anew. -/
theorem entries_countFailure_self :
    (countFailure settings redis subject).1.entries (.failures subject) =
      some ⟨failures redis subject + 1,
        some (redis.now + settings.loginFailureWindowSeconds)⟩ :=
  redis.entries_expire_incr_self ..

theorem entries_countFailure_of_ne (h : key ≠ .failures subject) :
    (countFailure settings redis subject).1.entries key = redis.entries key :=
  redis.entries_expire_incr_of_ne _ h

@[simp] theorem now_lockPast :
    (lockPast settings redis subject n threshold).now = redis.now := by
  unfold lockPast
  split <;> rfl

/-- From the threshold on, a failure sets a lock. -/
theorem entries_lockPast_self :
    (lockPast settings redis subject n threshold).entries (.locked subject) =
      if n < threshold then redis.entries (.locked subject)
      else some ⟨redis.now.toNat, some (redis.now + backoffSeconds settings n threshold)⟩ := by
  unfold lockPast
  split
  · rfl
  · exact Function.update_self ..

theorem entries_lockPast_of_ne (h : key ≠ .locked subject) :
    (lockPast settings redis subject n threshold).entries key = redis.entries key := by
  unfold lockPast
  split
  · rfl
  · exact Function.update_of_ne h ..

/-- A counter reads the same from the same entry. -/
theorem failures_congr {redis' : Redis} (hnow : redis'.now = redis.now)
    (h : redis'.entries (.failures subject) = redis.entries (.failures subject)) :
    failures redis' subject = failures redis subject := by
  rw [failures, failures, Store.get, Store.get, h, hnow]

end Failure

/-- The threshold of a counter. -/
def Settings.threshold (settings : Settings) : Subject → Nat
  | .user _ _ => settings.loginMaxFailedAttempts
  | .ip _ => settings.loginIpMaxFailedAttempts

@[simp] theorem threshold_accountKey (settings : Settings) (digest : String → Nat)
    (tenantId : Option Uuid) (email : String) :
    settings.threshold (accountKey digest tenantId email) = settings.loginMaxFailedAttempts := rfl

@[simp] theorem threshold_ip (settings : Settings) (ip : String) :
    settings.threshold (.ip ip) = settings.loginIpMaxFailedAttempts := rfl

/-- The attempt counts against the subject. -/
def Counts (digest : String → Nat) (tenantId : Option Uuid) (email ip : String)
    (subject : Subject) : Prop :=
  subject = accountKey digest tenantId email ∨ subject = .ip ip

section Failure

variable {digest : String → Nat} {settings : Settings} {redis : Redis}
  {tenantId : Option Uuid} {email ip : String} {subject other : Subject}

theorem failures_ne_locked : Key.failures subject ≠ .locked other := nofun

theorem locked_ne_failures : Key.locked subject ≠ .failures other := nofun

theorem ip_ne_accountKey : Subject.ip ip ≠ accountKey digest tenantId email := nofun

/-- `record_failure` counts for the account and for the address, and then locks. -/
theorem recordFailure_eq : recordFailure digest settings redis tenantId email ip =
    lockPast settings
      (lockPast settings
        (countFailure settings
          (countFailure settings redis (accountKey digest tenantId email)).1 (.ip ip)).1
        (accountKey digest tenantId email) (failures redis (accountKey digest tenantId email) + 1)
        settings.loginMaxFailedAttempts)
      (.ip ip) (failures redis (.ip ip) + 1) settings.loginIpMaxFailedAttempts := by
  have hne : Key.failures (.ip ip) ≠ .failures (accountKey digest tenantId email) :=
    fun h => ip_ne_accountKey (Key.failures.inj h)
  have hentries : (countFailure settings redis (accountKey digest tenantId email)).1.entries
      (.failures (.ip ip)) = redis.entries (.failures (.ip ip)) :=
    entries_countFailure_of_ne hne
  have hip := failures_congr now_countFailure hentries
  rw [← hip]
  rfl

@[simp] theorem now_recordFailure :
    (recordFailure digest settings redis tenantId email ip).now = redis.now := by
  simp [recordFailure_eq]

/-- Both counters of an attempt go up by one and start their window again. -/
theorem entries_failures_recordFailure (h : Counts digest tenantId email ip subject) :
    (recordFailure digest settings redis tenantId email ip).entries (.failures subject) =
      some ⟨failures redis subject + 1,
        some (redis.now + settings.loginFailureWindowSeconds)⟩ := by
  rw [recordFailure_eq, entries_lockPast_of_ne failures_ne_locked,
    entries_lockPast_of_ne failures_ne_locked]
  rcases h with rfl | rfl
  · rw [entries_countFailure_of_ne fun h => ip_ne_accountKey (Key.failures.inj h).symm]
    exact entries_countFailure_self
  · rw [entries_countFailure_self, now_countFailure, failures_congr now_countFailure
      (entries_countFailure_of_ne fun h => ip_ne_accountKey (Key.failures.inj h))]

/-- A counter that has reached its threshold is locked. -/
theorem entries_locked_recordFailure (settings : Settings) (redis : Redis)
    (h : Counts digest tenantId email ip subject) :
    (recordFailure digest settings redis tenantId email ip).entries (.locked subject) =
      if failures redis subject + 1 < settings.threshold subject then
        redis.entries (.locked subject)
      else some ⟨redis.now.toNat, some (redis.now +
        backoffSeconds settings (failures redis subject + 1) (settings.threshold subject))⟩ := by
  rw [recordFailure_eq]
  rcases h with rfl | rfl
  · rw [entries_lockPast_of_ne fun h => ip_ne_accountKey (Key.locked.inj h).symm,
      entries_lockPast_self, now_countFailure, now_countFailure,
      entries_countFailure_of_ne locked_ne_failures, entries_countFailure_of_ne locked_ne_failures]
    rfl
  · rw [entries_lockPast_self, now_lockPast, now_countFailure, now_countFailure,
      entries_lockPast_of_ne fun h => ip_ne_accountKey (Key.locked.inj h),
      entries_countFailure_of_ne locked_ne_failures, entries_countFailure_of_ne locked_ne_failures]
    rfl

/-- The other subjects keep their counters and locks. -/
theorem entries_recordFailure_of_not (settings : Settings) (redis : Redis)
    (h : ¬ Counts digest tenantId email ip subject) :
    (recordFailure digest settings redis tenantId email ip).entries (.failures subject) =
        redis.entries (.failures subject) ∧
      (recordFailure digest settings redis tenantId email ip).entries (.locked subject) =
        redis.entries (.locked subject) := by
  obtain ⟨haccount, hip⟩ := not_or.1 h
  rw [recordFailure_eq]
  constructor
  · rw [entries_lockPast_of_ne failures_ne_locked, entries_lockPast_of_ne failures_ne_locked,
      entries_countFailure_of_ne fun heq => hip (Key.failures.inj heq),
      entries_countFailure_of_ne fun heq => haccount (Key.failures.inj heq)]
  · rw [entries_lockPast_of_ne fun heq => hip (Key.locked.inj heq),
      entries_lockPast_of_ne fun heq => haccount (Key.locked.inj heq),
      entries_countFailure_of_ne locked_ne_failures, entries_countFailure_of_ne locked_ne_failures]

theorem failures_recordFailure (h : Counts digest tenantId email ip subject)
    (hwindow : 0 < settings.loginFailureWindowSeconds) :
    failures (recordFailure digest settings redis tenantId email ip) subject =
      failures redis subject + 1 := by
  rw [failures, Store.get_of_entries (entries_failures_recordFailure h), now_recordFailure,
    if_pos (by omega)]
  rfl

theorem failures_recordFailure_of_not (h : ¬ Counts digest tenantId email ip subject) :
    failures (recordFailure digest settings redis tenantId email ip) subject =
      failures redis subject :=
  failures_congr now_recordFailure (entries_recordFailure_of_not _ _ h).1

@[simp] theorem now_reset : (reset digest redis tenantId email ip).now = redis.now := rfl

/-- A success clears what is on record for its own account and source only. -/
theorem entries_reset_of_not (h : ¬ Counts digest tenantId email ip subject) :
    (reset digest redis tenantId email ip).entries (.failures subject) =
      redis.entries (.failures subject) := by
  obtain ⟨haccount, hip⟩ := not_or.1 h
  rw [reset, Store.entries_del_of_ne _ failures_ne_locked,
    Store.entries_del_of_ne _ fun heq => hip (Key.failures.inj heq),
    Store.entries_del_of_ne _ failures_ne_locked,
    Store.entries_del_of_ne _ fun heq => haccount (Key.failures.inj heq)]

end Failure

end Lockout

end Core

end RealEstate
