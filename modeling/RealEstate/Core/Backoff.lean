import Mathlib.Tactic.IntervalCases
import RealEstate.Core.Lockout

/-!
# The backoff of an attacked account

An attacker who fails at one account for good, from any addresses, and is back the moment a
lock ends, under the shipped settings.

- `attack`: the store after each failure.
- `Waiting`: what is on record when the attacker is back.
- `waiting_attack`: every ninth failure locks the account for longer than its counter lives,
  so the attack starts over.
- `backoff_law`: the locks follow the stated law up to the ninth failure.
-/

namespace RealEstate

namespace Core

namespace Lockout

open Systems

variable (digest : String → Nat) (tenantId : Option Uuid) (email : String) (ips : Nat → String)
  (now : DateTime)

/-- The defaults. -/
def shipped : Settings := {}

/-- The seconds until the subject's lock ends. -/
def lockedFor (redis : Redis) (subject : Subject) : Nat :=
  match redis.entries (.locked subject) with
  | some ⟨_, some deadline⟩ => (deadline - redis.now).toNat
  | _ => 0

/-- A login with a wrong password. -/
def wrongPassword (redis : Redis) (ip : String) : Redis :=
  if isLocked digest redis tenantId email ip then redis
  else recordFailure digest shipped redis tenantId email ip

/-- The moment the account's lock ends. -/
def unlocking (redis : Redis) : Redis :=
  redis.wait (lockedFor redis (accountKey digest tenantId email))

/-- The store after `k` wrong passwords, the `k`-th from the address `ips k`. -/
def attack : Nat → Redis
  | 0 => { now, entries := fun _ => none }
  | k + 1 => wrongPassword digest tenantId email (unlocking digest tenantId email (attack k))
      (ips (k + 1))

/-- The lock the `k`-th failure leaves the account with. -/
def lockDuration (k : Nat) : Nat :=
  lockedFor (attack digest tenantId email ips now k) (accountKey digest tenantId email)

/-- The `k`-th failure gets to the password check and locks the account for as long as it
should, and no lock before it was longer. -/
def Lawful (k : Nat) : Prop :=
  shipped.loginMaxFailedAttempts ≤ k →
    isLocked digest (unlocking digest tenantId email (attack digest tenantId email ips now (k - 1)))
        tenantId email (ips k) = false ∧
      lockDuration digest tenantId email ips now k =
        min (shipped.loginLockoutBaseSeconds * 2 ^ (k - shipped.loginMaxFailedAttempts))
          shipped.loginLockoutMaxSeconds ∧
      ∀ j < k, lockDuration digest tenantId email ips now j ≤
        lockDuration digest tenantId email ips now k

/-! ### One round -/

/-- The lock after `n` failures on record. -/
def lockAfter (n : Nat) : Nat :=
  if n < shipped.loginMaxFailedAttempts then 0
  else backoffSeconds shipped n shipped.loginMaxFailedAttempts

/-- The attacker is back, and `n` failures are on record. -/
structure Waiting (n : Nat) (redis : Redis) : Prop where
  account : failures redis (accountKey digest tenantId email) = n
  ips : ∀ ip, failures redis (.ip ip) ≤ n
  unlocked : ∀ subject, redis.get (.locked subject) = none
  deadline : ∀ {subject e}, redis.entries (.failures subject) = some e →
    ∃ d, e.deadline = some d ∧ d ≤ redis.now + shipped.loginFailureWindowSeconds

variable {digest tenantId email ips now}

/-- An entry read some time later. -/
theorem get_wait {redis : Redis} {key : Key} {n seconds : Nat} {deadline : Int}
    (h : redis.entries key = some ⟨n, some deadline⟩) :
    (redis.wait seconds).get key = if redis.now + seconds < deadline then some n else none :=
  Store.get_of_entries (r := redis.wait seconds) h

/-- Time only lets failures expire. -/
theorem failures_wait_le (redis : Redis) (subject : Subject) (seconds : Nat) :
    failures (redis.wait seconds) subject ≤ failures redis subject := by
  unfold failures
  cases h : (redis.wait seconds).get (.failures subject) with
  | none => exact Nat.zero_le _
  | some n => exact Nat.le_of_eq (congrArg (·.getD 0) (Store.get_of_get_wait h).symm)

theorem get_wait_eq_none {redis : Redis} {key : Key} (seconds : Nat)
    (h : redis.get key = none) : (redis.wait seconds).get key = none := by
  cases hget : (redis.wait seconds).get key with
  | none => rfl
  | some n => cases h.symm.trans (Store.get_of_get_wait hget)

variable {n : Nat} {redis : Redis}

/-- In the waiting state no lock is on. -/
theorem Waiting.not_locked (h : Waiting digest tenantId email n redis) (ip : String) :
    isLocked digest redis tenantId email ip = false := by
  rw [isLocked, h.unlocked, h.unlocked]
  rfl

/-- A lock that cannot be read is over. -/
theorem lockedFor_eq_zero {subject : Subject} (h : redis.get (.locked subject) = none) :
    lockedFor redis subject = 0 := by
  unfold lockedFor
  split
  · next n deadline he =>
    rw [Store.get, he, Option.bind_some, Entry.read] at h
    split at h
    · next hnone => cases hnone
    · next d heq =>
      cases heq
      split at h
      · cases h
      · omega
  · rfl

/-- The lock set by one more failure. -/
theorem Waiting.lockedFor_recordFailure (h : Waiting digest tenantId email n redis)
    (ip : String) :
    lockedFor (recordFailure digest shipped redis tenantId email ip)
      (accountKey digest tenantId email) = lockAfter (n + 1) := by
  have hentry := entries_locked_recordFailure shipped redis
    (.inl rfl : Counts digest tenantId email ip (accountKey digest tenantId email))
  rw [h.account, threshold_accountKey] at hentry
  by_cases hn : n + 1 < shipped.loginMaxFailedAttempts
  · rw [lockAfter, if_pos hn]
    refine (lockedFor_eq_zero ?_)
    rw [if_pos hn] at hentry
    rw [Store.get, hentry, now_recordFailure]
    exact h.unlocked _
  · rw [lockAfter, if_neg hn]
    rw [if_neg hn] at hentry
    rw [lockedFor, hentry, now_recordFailure]
    show (redis.now + _ - redis.now).toNat = _
    rw [add_sub_cancel_left]
    rfl

/-- What the next round starts with: the counter, or nothing if the lock outlived it. -/
def nextRound (n : Nat) : Nat :=
  if lockAfter (n + 1) < shipped.loginFailureWindowSeconds then n + 1 else 0

/-- **One round.** A failure, and the wait until the account's lock ends. -/
theorem Waiting.round (h : Waiting digest tenantId email n redis) (hn : n < 9) (ip : String) :
    Waiting digest tenantId email (nextRound n)
      ((recordFailure digest shipped redis tenantId email ip).wait (lockAfter (n + 1))) := by
  set after := recordFailure digest shipped redis tenantId email ip with hafter
  have hnow : after.now = redis.now := now_recordFailure
  have hcounted : ∀ {subject}, Counts digest tenantId email ip subject →
      after.entries (.failures subject) = some ⟨failures redis subject + 1,
        some (redis.now + shipped.loginFailureWindowSeconds)⟩ :=
    fun hcounts => entries_failures_recordFailure hcounts
  -- whoever was not counted now was counted before
  have hdeadline : ∀ {subject e}, after.entries (.failures subject) = some e →
      ∃ d, e.deadline = some d ∧ d ≤ redis.now + shipped.loginFailureWindowSeconds := by
    intro subject e he
    by_cases hcounts : Counts digest tenantId email ip subject
    · rw [hcounted hcounts] at he
      cases he
      exact ⟨_, rfl, Int.le_refl _⟩
    · rw [(entries_recordFailure_of_not _ _ hcounts).1] at he
      exact h.deadline he
  have hget : ∀ {key}, after.entries key = redis.entries key → after.get key = redis.get key := by
    intro key he
    rw [Store.get, Store.get, he, hnow]
  constructor
  case account =>
    rw [failures, get_wait (hcounted (.inl rfl)), h.account, nextRound, hnow]
    by_cases hlt : lockAfter (n + 1) < shipped.loginFailureWindowSeconds
    · rw [if_pos hlt, if_pos (by omega)]
      rfl
    · rw [if_neg hlt, if_neg (by omega)]
      rfl
  case ips =>
    intro ip'
    rw [nextRound]
    by_cases hlt : lockAfter (n + 1) < shipped.loginFailureWindowSeconds
    · rw [if_pos hlt]
      have hle := h.ips ip'
      refine Nat.le_trans (failures_wait_le after _ _) ?_
      by_cases hcounts : Counts digest tenantId email ip (.ip ip')
      · rw [failures_recordFailure hcounts (by decide)]
        omega
      · rw [failures_recordFailure_of_not hcounts]
        omega
    · -- the lock has outlived every counter
      rw [if_neg hlt, failures]
      cases he : after.entries (.failures (.ip ip')) with
      | none =>
        have hnone : (after.wait (lockAfter (n + 1))).get (.failures (.ip ip')) = none := by
          show (after.entries _).bind _ = none
          rw [he]
          rfl
        rw [hnone]
        exact Nat.zero_le _
      | some e =>
        obtain ⟨d, hd, hle⟩ := hdeadline he
        obtain ⟨v, deadline⟩ := e
        cases hd
        rw [get_wait he, if_neg (by omega)]
        exact Nat.zero_le _
  case unlocked =>
    intro subject
    by_cases hcounts : Counts digest tenantId email ip subject
    · have hentry := entries_locked_recordFailure shipped redis hcounts
      by_cases hthreshold : failures redis subject + 1 < shipped.threshold subject
      · rw [if_pos hthreshold] at hentry
        exact get_wait_eq_none _ ((hget hentry).trans (h.unlocked subject))
      · rw [if_neg hthreshold] at hentry
        rcases hcounts with rfl | rfl
        · rw [h.account, threshold_accountKey] at hthreshold hentry
          rw [get_wait hentry, lockAfter, if_neg hthreshold, hnow]
          exact if_neg (lt_irrefl _)
        · -- no address is tried often enough
          have hle := h.ips ip
          have hmany : shipped.threshold (.ip ip) = 50 := rfl
          omega
    · have hentry := (entries_recordFailure_of_not shipped redis hcounts).2
      exact get_wait_eq_none _ ((hget hentry).trans (h.unlocked subject))
  case deadline =>
    intro subject e he
    obtain ⟨d, hd, hle⟩ := hdeadline he
    refine ⟨d, hd, ?_⟩
    show d ≤ after.now + _ + _
    omega

/-! ### The attack -/

/-- What is on record when the attacker comes back for the next failure. -/
theorem waiting_attack (k : Nat) : Waiting digest tenantId email (k % 9)
    (unlocking digest tenantId email (attack digest tenantId email ips now k)) := by
  induction k with
  | zero =>
    exact {
      account := rfl
      ips := fun _ => Nat.le_refl _
      unlocked := fun _ => rfl
      deadline := fun h => nomatch h }
  | succ k ih =>
    have hlt : k % 9 < 9 := Nat.mod_lt k (by decide)
    have hnext : nextRound (k % 9) = (k + 1) % 9 := by
      rw [Nat.add_mod]
      generalize k % 9 = n at hlt
      interval_cases n <;> rfl
    have hround := ih.round hlt (ips (k + 1))
    rw [hnext] at hround
    rw [attack, wrongPassword, if_neg (by rw [ih.not_locked]; exact Bool.false_ne_true), unlocking,
      ih.lockedFor_recordFailure]
    exact hround

/-- The durations repeat after nine locks. -/
theorem lockDuration_succ (k : Nat) :
    lockDuration digest tenantId email ips now (k + 1) = lockAfter (k % 9 + 1) := by
  have h : Waiting digest tenantId email (k % 9)
      (unlocking digest tenantId email (attack digest tenantId email ips now k)) := waiting_attack k
  rw [lockDuration, attack, wrongPassword,
    if_neg (by rw [h.not_locked]; exact Bool.false_ne_true)]
  exact h.lockedFor_recordFailure _

/-- No lock is longer than 960 seconds. -/
theorem lockAfter_le {n : Nat} (h : n ≤ 9) : lockAfter n ≤ 960 := by
  interval_cases n <;> decide

/-- Within one cycle they do not get shorter. -/
theorem lockAfter_mono {m n : Nat} (hmn : m ≤ n) (h : n ≤ 9) : lockAfter m ≤ lockAfter n := by
  interval_cases n <;> interval_cases m <;> decide

/-- From the tenth failure on the law asks for longer locks than the ninth. -/
theorem lt_backoff {k : Nat} (h : 9 < k) :
    960 < min (shipped.loginLockoutBaseSeconds * 2 ^ (k - shipped.loginMaxFailedAttempts))
      shipped.loginLockoutMaxSeconds := by
  have hpow : 2 ^ 5 ≤ 2 ^ (k - shipped.loginMaxFailedAttempts) := by
    refine Nat.pow_le_pow_right (by decide) ?_
    show 5 ≤ k - 5
    omega
  refine lt_min ?_ (by decide)
  show 960 < 60 * _
  omega

/-- **The backoff law.** In an attack from any addresses, the `k`-th failure locks the account
as it should if and only if it is one of the first nine. -/
theorem backoff_law (digest : String → Nat) (tenantId : Option Uuid) (email : String)
    (ips : Nat → String) (now : DateTime) (k : Nat) :
    Lawful digest tenantId email ips now k ↔ k ≤ 9 := by
  -- Nine failures are counted in one window; the tenth begins another.
  have hlocked : ∀ {k}, k ≤ 9 → lockDuration digest tenantId email ips now k = lockAfter k := by
    intro k hk
    cases k with
    | zero => rfl
    | succ k =>
      have hmod : k % 9 = k := Nat.mod_eq_of_lt hk
      rw [lockDuration_succ, hmod]
  constructor
  · intro h
    by_contra hgt
    obtain ⟨-, hlock, -⟩ := h (Nat.le_trans (by decide) (Nat.le_of_not_le hgt))
    obtain ⟨k, rfl⟩ : ∃ j, k = j + 1 := ⟨k - 1, by omega⟩
    rw [lockDuration_succ] at hlock
    -- Locks are sixteen minutes at most, and the law asks for more.
    have hle : lockAfter (k % 9 + 1) ≤ 960 := lockAfter_le (Nat.mod_lt k (by decide))
    have hlt := lt_backoff (Nat.lt_of_not_le hgt)
    omega
  · intro hk hthreshold
    refine ⟨(waiting_attack (k - 1)).not_locked _, ?_, fun j hj => ?_⟩
    · rw [hlocked hk, lockAfter, if_neg (Nat.not_lt.2 hthreshold)]
      rfl
    · rw [hlocked hk, hlocked (Nat.le_trans (Nat.le_of_lt hj) hk)]
      exact lockAfter_mono (Nat.le_of_lt hj) hk

/-- Nine failures lock the account for 960 seconds, and the tenth finds nothing on record:
it locks nothing, where the law asks for 1920 seconds. -/
theorem tenth_failure :
    ¬ Lawful String.length (some 1) "owner@agency.test" (fun _ => "203.0.113.7") 0 10 := by
  intro h
  obtain ⟨-, hlock, -⟩ := h (by decide)
  rw [lockDuration_succ] at hlock
  cases hlock

end Lockout

end Core

end RealEstate
