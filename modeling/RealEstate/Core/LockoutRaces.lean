import RealEstate.Core.Lockout
import RealEstate.Systems.Machine

/-!
# Failures recorded at the same time

`record_failure` counts in one pipeline and sets its locks later, one command for each key. The
lock is overwritten whatever was there, so attempts may lock in another order than they counted.

- `machine`: attempts that count and lock in any order, and time.
- `Ordered`: a lock is set only if the one before it is not longer, or is over.
- `locks_never_weaken`: in such runs no lock is replaced by one that ends earlier, and every
  failure has locked its key for as long as it should.
-/

namespace RealEstate

namespace Core

namespace LockoutRaces

open Systems Lockout

/-- The reply to one `INCR`, and when it was given. -/
structure Counted where
  subject : Subject
  failures : Nat
  time : Int

/-- What a lock was set for, and when. -/
structure Lock where
  failures : Nat
  time : Int

/-- Redis, the keys that each attempt has still to look at, and for the proofs all the counts
and the locks that were set last. -/
structure State where
  redis : Redis
  pending : Nat → List (Subject × Nat)
  counted : List Counted
  standing : Subject → Option Lock

/-- One of the two round trips of a failed attempt, or time that passes. -/
inductive Label where
  | count (attempt : Nat) (tenantId : Option Uuid) (email ip : String)
  | lock (attempt : Nat)
  | wait (seconds : Nat)

/-- When a lock ends. -/
def Lock.ends (settings : Settings) (subject : Subject) (lock : Lock) : Int :=
  lock.time + backoffSeconds settings lock.failures (settings.threshold subject)

/-- The locks on record once an attempt has looked at a key. -/
def recordLock (settings : Settings) (s : State) (subject : Subject) (failures : Nat) :
    Subject → Option Lock :=
  if failures < settings.threshold subject then s.standing
  else Function.update s.standing subject (some ⟨failures, s.redis.now⟩)

section

variable (digest : String → Nat) (settings : Settings)

/-- An attempt is counted for its two keys, or goes on to the next of them; or time passes. -/
def step (s : State) : Label → Option State
  | .count attempt tenantId email ip =>
    if s.pending attempt = [] then
      let account := accountKey digest tenantId email
      let first := countFailure settings s.redis account
      let second := countFailure settings first.1 (.ip ip)
      some { s with
        redis := second.1
        pending := Function.update s.pending attempt [(account, first.2), (.ip ip, second.2)]
        counted := ⟨account, first.2, s.redis.now⟩ :: ⟨.ip ip, second.2, s.redis.now⟩ ::
          s.counted }
    else none
  | .lock attempt =>
    match s.pending attempt with
    | [] => none
    | (subject, failures) :: rest =>
      some { s with
        redis := lockPast settings s.redis subject failures (settings.threshold subject)
        pending := Function.update s.pending attempt rest
        standing := recordLock settings s subject failures }
  | .wait seconds => some { s with redis := s.redis.wait seconds }

/-- Each lock in Redis is the one that was set last, and was set before now. -/
def Explained (s : State) : Prop :=
  ∀ subject, (s.redis.entries (.locked subject)).map Entry.deadline =
      (s.standing subject).map (fun lock => some (lock.ends settings subject)) ∧
    ∀ lock ∈ s.standing subject, lock.time ≤ s.redis.now

/-- Nobody is under way; counters and locks are whatever earlier failures left. -/
def machine : Machine State Label where
  init s := s.pending = (fun _ => []) ∧ s.counted = [] ∧ Explained settings s
  step := step digest settings

/-- The lock that an attempt sets does not cut short a longer one that still runs. -/
def Ordered (s : State) : Label → Prop
  | .lock attempt =>
    match s.pending attempt with
    | [] => True
    | (subject, failures) :: _ => settings.threshold subject ≤ failures →
        ∀ lock ∈ s.standing subject,
          backoffSeconds settings failures (settings.threshold subject) <
            backoffSeconds settings lock.failures (settings.threshold subject) →
          lock.ends settings subject ≤ s.redis.now
  | _ => True

/-- By cases of the label. -/
instance (s : State) (l : Label) : Decidable (Ordered settings s l) := by
  unfold Ordered
  split
  · split
    · infer_instance
    · infer_instance
  · infer_instance

/-- The subject is locked until some instant at least. -/
def LockedUntil (redis : Redis) (subject : Subject) (until_ : Int) : Prop :=
  ∃ e d, redis.entries (.locked subject) = some e ∧ e.deadline = some d ∧ until_ ≤ d

/-- What a count has led to: its attempt has not come to it yet; or it is below the threshold;
or the key was locked for as long as it requires, if that is not over. -/
def Served (s : State) (c : Counted) : Prop :=
  (∃ attempt, (c.subject, c.failures) ∈ s.pending attempt) ∨
    c.failures < settings.threshold c.subject ∨
    ∃ time, c.time ≤ time ∧ time ≤ s.redis.now ∧
      (s.redis.now < Lock.ends settings c.subject ⟨c.failures, time⟩ →
        ∃ lock ∈ s.standing c.subject,
          Lock.ends settings c.subject ⟨c.failures, time⟩ ≤ lock.ends settings c.subject)

/-- Every lock is explained by a failure that was counted, and every failure is served. -/
structure Inv (s : State) : Prop where
  explained : Explained settings s
  past : ∀ c ∈ s.counted, c.time ≤ s.redis.now
  served : ∀ c ∈ s.counted, Served settings s c

end

/-! ### One step -/

section

variable {digest : String → Nat} {settings : Settings} {s s' : State} {l : Label}

/-- Below the threshold there is no lock. -/
theorem recordLock_below {subject : Subject} {failures : Nat}
    (h : failures < settings.threshold subject) :
    recordLock settings s subject failures = s.standing :=
  if_pos h

/-- The lock that stands is the last one set. -/
theorem recordLock_self {subject : Subject} {failures : Nat}
    (h : ¬failures < settings.threshold subject) :
    recordLock settings s subject failures subject = some ⟨failures, s.redis.now⟩ := by
  rw [recordLock, if_neg h, Function.update_self]

theorem recordLock_of_ne {subject other : Subject} (h : other ≠ subject) (failures : Nat) :
    recordLock settings s subject failures other = s.standing other := by
  unfold recordLock
  split
  · rfl
  · exact Function.update_of_ne h ..

/-- Everything a step can do. -/
theorem step_cases (h : step digest settings s l = some s') :
    (∃ attempt tenantId email ip c c', l = .count attempt tenantId email ip ∧
      c.time = s.redis.now ∧ c'.time = s.redis.now ∧ s'.redis.now = s.redis.now ∧
      (∀ subject, s'.redis.entries (.locked subject) = s.redis.entries (.locked subject)) ∧
      s.pending attempt = [] ∧ s'.pending = Function.update s.pending attempt
        [(c.subject, c.failures), (c'.subject, c'.failures)] ∧
      s'.counted = c :: c' :: s.counted ∧ s'.standing = s.standing) ∨
    (∃ attempt subject failures rest, l = .lock attempt ∧
      s.pending attempt = (subject, failures) :: rest ∧ s' = { s with
        redis := lockPast settings s.redis subject failures (settings.threshold subject)
        pending := Function.update s.pending attempt rest
        standing := recordLock settings s subject failures }) ∨
    ∃ seconds, l = .wait seconds ∧ s' = { s with redis := s.redis.wait seconds } := by
  cases l with
  | count attempt tenantId email ip =>
    simp only [step] at h
    by_cases hpending : s.pending attempt = []
    · -- Counting does both counters in one call, and is no step for an attempt under way.
      rw [if_pos hpending] at h
      cases h
      refine .inl ⟨attempt, tenantId, email, ip, ⟨_, _, s.redis.now⟩, ⟨_, _, s.redis.now⟩, rfl,
        rfl, rfl, ?_, fun subject => ?_, hpending, rfl, rfl, rfl⟩
      · rw [now_countFailure, now_countFailure]
      · rw [entries_countFailure_of_ne locked_ne_failures,
          entries_countFailure_of_ne locked_ne_failures]
    · rw [if_neg hpending] at h
      cases h
  | lock attempt =>
    -- An attempt with nothing left to lock has no such step.
    simp only [step] at h
    cases hpending : s.pending attempt with
    | nil =>
      rw [hpending] at h
      cases h
    | cons next rest =>
      rw [hpending] at h
      exact .inr (.inl ⟨attempt, next.1, next.2, rest, rfl, hpending, (Option.some.inj h).symm⟩)
  | wait seconds => exact .inr (.inr ⟨seconds, rfl, (Option.some.inj h).symm⟩)

/-- In order, a lock that still runs gives way to none that ends earlier. -/
theorem ends_le_of_ordered {attempt failures : Nat} {subject : Subject}
    {rest : List (Subject × Nat)} (hs : Explained settings s)
    (hordered : Ordered settings s (.lock attempt))
    (hpending : s.pending attempt = (subject, failures) :: rest)
    (hpast : settings.threshold subject ≤ failures) {lock : Lock}
    (hlock : lock ∈ s.standing subject) (hruns : s.redis.now < lock.ends settings subject) :
    lock.ends settings subject ≤ Lock.ends settings subject ⟨failures, s.redis.now⟩ := by
  have htime : lock.time ≤ s.redis.now := (hs subject).2 lock hlock
  unfold Ordered at hordered
  simp only [hpending] at hordered
  by_cases hshorter : backoffSeconds settings failures (settings.threshold subject) <
      backoffSeconds settings lock.failures (settings.threshold subject)
  · have hover := hordered hpast lock hlock hshorter
    omega
  · show lock.time + (backoffSeconds settings lock.failures _ : Int) ≤
      s.redis.now + (backoffSeconds settings failures _ : Int)
    omega

/-- In order, looking at a key leaves no running lock with an earlier end. -/
theorem recordLock_ends {attempt failures : Nat} {subject other : Subject}
    {rest : List (Subject × Nat)} (hs : Explained settings s)
    (hordered : Ordered settings s (.lock attempt))
    (hpending : s.pending attempt = (subject, failures) :: rest) {lock : Lock}
    (hlock : lock ∈ s.standing other) (hruns : s.redis.now < lock.ends settings other) :
    ∃ lock' ∈ recordLock settings s subject failures other,
      lock.ends settings other ≤ lock'.ends settings other := by
  by_cases hother : other = subject
  · subst hother
    by_cases hbelow : failures < settings.threshold other
    · exact ⟨lock, recordLock_below hbelow ▸ hlock, Int.le_refl _⟩
    · exact ⟨_, recordLock_self hbelow, ends_le_of_ordered hs hordered hpending
        (Nat.le_of_not_lt hbelow) hlock hruns⟩
  · refine ⟨lock, ?_, Int.le_refl _⟩
    rw [recordLock_of_ne hother]
    exact hlock

/-- Locks come from failures only. -/
theorem explained_step (hs : Explained settings s) (h : step digest settings s l = some s') :
    Explained settings s' := by
  rcases step_cases h with ⟨_, _, _, _, _, _, -, -, -, hnow, hentries, -, -, -, hstanding⟩ |
    ⟨attempt, subject, failures, rest, -, -, rfl⟩ | ⟨seconds, -, rfl⟩
  · intro subject
    rw [hentries, hstanding, hnow]
    exact hs subject
  · intro other
    dsimp only
    rw [now_lockPast]
    by_cases hother : other = subject
    · subst hother
      rw [entries_lockPast_self]
      -- Below the threshold nothing is written, at it the entry and its record agree.
      by_cases hbelow : failures < settings.threshold other
      · rw [if_pos hbelow, recordLock_below hbelow]
        exact hs other
      · rw [if_neg hbelow, recordLock_self hbelow]
        refine ⟨rfl, ?_⟩
        rintro _ ⟨⟩
        exact Int.le_refl _
    · rw [entries_lockPast_of_ne fun heq => hother (Key.locked.inj heq), recordLock_of_ne hother]
      exact hs other
  · -- Time passes, and a lock set in the past stays in the past.
    intro subject
    refine ⟨(hs subject).1, fun lock hlock => ?_⟩
    have htime := (hs subject).2 lock hlock
    show lock.time ≤ s.redis.now + (seconds : Int)
    omega

/-- Failures were counted in the past. -/
theorem past_step (hs : ∀ c ∈ s.counted, c.time ≤ s.redis.now)
    (h : step digest settings s l = some s') : ∀ c ∈ s'.counted, c.time ≤ s'.redis.now := by
  rcases step_cases h with ⟨_, _, _, _, _, _, -, htime, htime', hnow, -, -, -, hcounted, -⟩ |
    ⟨attempt, subject, failures, rest, -, -, rfl⟩ | ⟨seconds, -, rfl⟩
  · intro c hc
    rw [hcounted] at hc
    rw [hnow]
    rcases List.mem_cons.1 hc with rfl | hc
    · exact Int.le_of_eq htime
    · rcases List.mem_cons.1 hc with rfl | hc
      · exact Int.le_of_eq htime'
      · exact hs c hc
  · intro c hc
    show c.time ≤ (lockPast settings s.redis subject failures _).now
    rw [now_lockPast]
    exact hs c hc
  · intro c hc
    have htime := hs c hc
    show c.time ≤ s.redis.now + (seconds : Int)
    omega

/-- What a count has led to is kept, and one that is looked at is served. -/
theorem served_step (hs : Inv settings s) (hordered : Ordered settings s l)
    (h : step digest settings s l = some s') : ∀ c ∈ s'.counted, Served settings s' c := by
  rcases step_cases h with
    ⟨attempt, _, _, _, c₁, c₂, -, -, -, hnow, -, hnone, hpending, hcounted, hstanding⟩ |
    ⟨attempt, subject, failures, rest, rfl, hpending, rfl⟩ | ⟨seconds, -, rfl⟩
  · intro c hc
    rw [hcounted] at hc
    have hnew : ∀ c, (c.subject, c.failures) ∈ [(c₁.subject, c₁.failures),
        (c₂.subject, c₂.failures)] → Served settings s' c := by
      intro c hc
      refine .inl ⟨attempt, ?_⟩
      rw [hpending, Function.update_self]
      exact hc
    rcases List.mem_cons.1 hc with rfl | hc
    · exact hnew c List.mem_cons_self
    rcases List.mem_cons.1 hc with rfl | hc
    · exact hnew c (List.mem_cons_of_mem _ List.mem_cons_self)
    -- An older count stays where it was: the new attempt had none under way.
    rcases hs.served c hc with ⟨other, hmem⟩ | hbelow | hlocked
    · refine .inl ⟨other, ?_⟩
      rw [hpending, Function.update_of_ne]
      · exact hmem
      · rintro rfl
        rw [hnone] at hmem
        cases hmem
    · exact .inr (.inl hbelow)
    · refine .inr (.inr ?_)
      rw [hnow, hstanding]
      exact hlocked
  · intro c hc
    rcases hs.served c hc with ⟨other, hmem⟩ | hbelow | ⟨time, hle, hnow, hlocked⟩
    · by_cases hother : other = attempt
      · subst hother
        rw [hpending] at hmem
        rcases List.mem_cons.1 hmem with hsame | hmem
        · -- The attempt comes to this count now.
          obtain ⟨rfl, rfl⟩ := Prod.mk.inj hsame
          by_cases hbelow : c.failures < settings.threshold c.subject
          · exact .inr (.inl hbelow)
          · refine .inr (.inr ⟨s.redis.now, hs.past c hc, ?_, fun _ => ?_⟩)
            · exact Int.le_of_eq now_lockPast.symm
            · exact ⟨_, recordLock_self hbelow, Int.le_refl _⟩
        · refine .inl ⟨other, ?_⟩
          show _ ∈ Function.update s.pending other rest other
          rw [Function.update_self]
          exact hmem
      · refine .inl ⟨other, ?_⟩
        show _ ∈ Function.update s.pending attempt rest other
        rw [Function.update_of_ne hother]
        exact hmem
    · exact .inr (.inl hbelow)
    · -- A count already locked: the lock it got may be overwritten, and then by no shorter one.
      refine .inr (.inr ⟨time, hle, ?_, ?_⟩)
      · exact Int.le_trans hnow (Int.le_of_eq now_lockPast.symm)
      · dsimp only
        rw [now_lockPast]
        intro hruns
        obtain ⟨lock, hlock, hends⟩ := hlocked hruns
        obtain ⟨lock', hlock', hends'⟩ := recordLock_ends hs.explained hordered hpending hlock
          (Int.lt_of_lt_of_le hruns hends)
        exact ⟨lock', hlock', Int.le_trans hends hends'⟩
  · intro c hc
    rcases hs.served c hc with hpending | hbelow | ⟨time, hle, hnow, hlocked⟩
    · exact .inl hpending
    · exact .inr (.inl hbelow)
    · refine .inr (.inr ⟨time, hle, ?_, fun hruns => hlocked ?_⟩)
      · show time ≤ s.redis.now + (seconds : Int)
        omega
      · have hruns : s.redis.now + (seconds : Int) < _ := hruns
        omega

/-! ### All runs -/

theorem machine_inductive :
    (machine digest settings).Inductive (Ordered settings) (Inv settings) where
  init s := by
    rintro ⟨-, hcounted, hexplained⟩
    refine ⟨hexplained, fun c hc => ?_, fun c hc => ?_⟩
    · rw [hcounted] at hc
      cases hc
    · rw [hcounted] at hc
      cases hc
  step s l s' hs hordered h :=
    ⟨explained_step hs.explained h, past_step hs.past h, served_step hs hordered h⟩

/-- A lock on record is in Redis. -/
theorem Explained.lockedUntil (hs : Explained settings s) {subject : Subject} {lock : Lock}
    (hlock : lock ∈ s.standing subject) {until_ : Int}
    (hle : until_ ≤ lock.ends settings subject) : LockedUntil s.redis subject until_ := by
  have hentry := (hs subject).1
  rw [hlock, Option.map_some, Option.map_eq_some_iff] at hentry
  obtain ⟨e, he, hdeadline⟩ := hentry
  exact ⟨e, _, he, hdeadline, hle⟩

/-- A lock in Redis is on record. -/
theorem Explained.exists_standing (hs : Explained settings s) {subject : Subject} {until_ : Int}
    (h : LockedUntil s.redis subject until_) :
    ∃ lock ∈ s.standing subject, until_ ≤ lock.ends settings subject := by
  obtain ⟨e, d, he, hd, hle⟩ := h
  have hentry := (hs subject).1
  rw [he, Option.map_some, hd] at hentry
  obtain ⟨lock, hlock, hends⟩ := Option.map_eq_some_iff.1 hentry.symm
  refine ⟨lock, hlock, ?_⟩
  have hends : lock.ends settings subject = d := Option.some.inj hends
  omega

/-- In order, a step does not cut a running lock short. -/
theorem lockedUntil_step (hs : Explained settings s) (hordered : Ordered settings s l)
    (h : step digest settings s l = some s') {subject : Subject} {until_ : Int}
    (hruns : s.redis.now < until_) (hlocked : LockedUntil s.redis subject until_) :
    LockedUntil s'.redis subject until_ := by
  obtain ⟨lock, hlock, hle⟩ := hs.exists_standing hlocked
  have hs' := explained_step hs h
  rcases step_cases h with ⟨_, _, _, _, _, _, -, -, -, -, -, -, -, -, hstanding⟩ |
    ⟨attempt, subject', failures, rest, rfl, hpending, rfl⟩ | ⟨seconds, -, rfl⟩
  · exact hs'.lockedUntil (hstanding.symm ▸ hlock) hle
  · obtain ⟨lock', hlock', hends⟩ := recordLock_ends hs hordered hpending hlock
      (Int.lt_of_lt_of_le hruns hle)
    exact hs'.lockedUntil hlock' (Int.le_trans hle hends)
  · exact hs'.lockedUntil hlock hle

/-- **The lockout does not weaken** in runs that set their locks in order: no step cuts a running
lock short, and once every attempt is through, each failure past the threshold has locked its key
for as long as its count requires. -/
theorem locks_never_weaken (h : (machine digest settings).ReachVia (Ordered settings) s) :
    (∀ l s', (machine digest settings).step s l = some s' → Ordered settings s l →
      ∀ subject until_, s.redis.now < until_ → LockedUntil s.redis subject until_ →
        LockedUntil s'.redis subject until_) ∧
    ((∀ attempt, s.pending attempt = []) → ∀ c ∈ s.counted,
      settings.threshold c.subject ≤ c.failures → ∃ time, c.time ≤ time ∧ time ≤ s.redis.now ∧
        (s.redis.now < Lock.ends settings c.subject ⟨c.failures, time⟩ →
          LockedUntil s.redis c.subject (Lock.ends settings c.subject ⟨c.failures, time⟩))) := by
  have hs := machine_inductive.always h
  refine ⟨fun l s' hstep hordered subject until_ hruns hlocked =>
    lockedUntil_step hs.explained hordered hstep hruns hlocked, fun hpending c hc hpast => ?_⟩
  rcases hs.served c hc with ⟨attempt, hmem⟩ | hbelow | ⟨time, hle, hnow, hlocked⟩
  · rw [hpending attempt] at hmem
    cases hmem
  · omega
  · refine ⟨time, hle, hnow, fun hruns => ?_⟩
    obtain ⟨lock, hlock, hends⟩ := hlocked hruns
    exact hs.explained.lockedUntil hlock hends

end

/-! ### Witnesses -/

/-- An account with four failures on record, at midnight. -/
def fourFailures : State where
  redis :=
    { now := 0
      entries := fun key =>
        if key = .failures (.user (some 1) 7) then some ⟨4, some 900⟩ else none }
  pending _ := []
  counted := []
  standing _ := none

theorem init_fourFailures : (machine (fun _ => 7) {}).init fourFailures :=
  ⟨rfl, rfl, fun _ => ⟨rfl, nofun⟩⟩

/-- The fifth and the sixth failure are counted before either sets its lock, and the fifth comes
first: the account is locked for the two minutes of the sixth, also while time goes on. -/
theorem locks_never_weaken_together : ∃ s s', (machine (fun _ => 7) {}).ReachVia (Ordered {}) s ∧
    s.redis.now = 10 ∧ LockedUntil s.redis (.user (some 1) 7) 120 ∧
    (machine (fun _ => 7) {}).step s (.wait 60) = some s' ∧
    LockedUntil s'.redis (.user (some 1) 7) 120 := by
  let labels : List Label := [.count 0 (some 1) "a" "b", .count 1 (some 1) "a" "c", .lock 0,
    .lock 1, .lock 1, .lock 0, .wait 10]
  obtain ⟨s, hs⟩ : ∃ s, (machine (fun _ => 7) {}).runVia (Ordered {}) fourFailures labels =
    some s := ⟨_, rfl⟩
  have hreach := Machine.ReachVia.of_runVia (.init init_fourFailures) hs
  cases hs
  have hpending : ∀ attempt, (Function.update (Function.update (Function.update (Function.update
      (Function.update (Function.update (fun _ : Nat => ([] : List (Subject × Nat)))
        0 [(.user (some 1) 7, 5), (.ip "b", 1)]) 1 [(.user (some 1) 7, 6), (.ip "c", 1)])
        0 [(.ip "b", 1)]) 1 [(.ip "c", 1)]) 1 []) 0 []) attempt = [] := by
    intro attempt
    by_cases hzero : attempt = 0
    · rw [hzero, Function.update_self]
    · rw [Function.update_of_ne hzero]
      by_cases hone : attempt = 1
      · rw [hone, Function.update_self]
      · simp only [Function.update_of_ne hzero, Function.update_of_ne hone]
  obtain ⟨hkept, hserved⟩ := locks_never_weaken hreach
  obtain ⟨time, hle, -, hlocked⟩ := hserved hpending ⟨.user (some 1) 7, 6, 0⟩
    List.mem_cons_self (by decide)
  have hle : (0 : Int) ≤ time := hle
  have hruns : (10 : Int) < time + 120 := by omega
  obtain ⟨e, d, he, hd, hend⟩ := hlocked hruns
  have hend : time + 120 ≤ d := hend
  have hlong : LockedUntil _ (.user (some 1) 7) 120 := ⟨e, d, he, hd, by omega⟩
  exact ⟨_, _, hreach, rfl, hlong, rfl, hkept (.wait 60) _ rfl trivial _ _ (by decide) hlong⟩

/-- The fifth and the sixth failure are counted, and the sixth sets its lock first. -/
def overtaken : State :=
  ((machine (fun _ => 7) {}).run fourFailures
    [.count 0 (some 1) "a" "b", .count 1 (some 1) "a" "b", .lock 1]).getD fourFailures

/-- The fifth then puts a lock of one minute in the place of one of two. -/
theorem lock_cut_short : ¬∀ s, (machine (fun _ => 7) {}).Reachable s →
    ∀ l s', (machine (fun _ => 7) {}).step s l = some s' → ∀ subject until_,
      s.redis.now < until_ → LockedUntil s.redis subject until_ →
        LockedUntil s'.redis subject until_ := by
  intro h
  have hreach : (machine (fun _ => 7) {}).Reachable overtaken :=
    .of_run (.init init_fourFailures) (show (machine (fun _ => 7) {}).run fourFailures
      [.count 0 (some 1) "a" "b", .count 1 (some 1) "a" "b", .lock 1] = some overtaken from rfl)
  obtain ⟨e, d, he, hd, hle⟩ := h overtaken hreach (.lock 0) _ rfl (.user (some 1) 7) 120
    (by decide) ⟨⟨0, some 120⟩, 120, rfl, rfl, by decide⟩
  cases he
  cases hd
  exact absurd hle (by decide)

end LockoutRaces

end Core

end RealEstate
