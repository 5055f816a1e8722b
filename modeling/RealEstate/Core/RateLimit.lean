import Mathlib.Algebra.Order.Ring.Rat
import Mathlib.Data.Rat.Floor
import RealEstate.Core.Base
import RealEstate.Systems.Machine
import RealEstate.Systems.SlidingWindow
import RealEstate.Systems.Timestamps

/-!
# The sliding-window limiter

`consume` of `core/rate_limit.py`: a sorted set of hit timestamps for each key.
The pipeline is one command, every key has one budget, and key expiry is measured
on the clock the timestamps are taken from. `time.time()` is a rational number
of seconds.

- `machine`: calls of `consume` on any keys, at nondecreasing instants.
- `Inv`: the set of a key, as far as it has not expired, still holds every
  accepted hit that is younger than the window.
- `accepted_le_limit`: no half-open interval as long as the window holds more
  accepted hits of a key than its limit.
-/

namespace RealEstate

namespace Core

namespace RateLimit

open Systems

/-- What `time.time()` returns. -/
abbrev Instant := ℚ

/-- The sorted set under a key and the instant the key expires. -/
structure Hits where
  set : SortedSet Uuid Instant
  deadline : Instant

/-- Sorted sets by key. -/
abbrev Redis := String → Option Hits

/-- The sorted set a command at `now` sees: a key that expired is gone. -/
def read (redis : Redis) (now : Instant) (key : String) : SortedSet Uuid Instant :=
  match redis key with
  | none => .empty
  | some hits => if now < hits.deadline then hits.set else .empty

/-- `ZREMRANGEBYSCORE`, `ZADD`, `ZCARD` and `EXPIRE` in one pipeline. -/
def pipeline (redis : Redis) (key : String) (member : Uuid) (now : Instant)
    (windowSeconds : Int) : Redis × Nat :=
  let trimmed := (read redis now key).zremrangebyscore 0 (now - windowSeconds)
  let set := trimmed.zadd member now
  (Function.update redis key (some ⟨set, now + windowSeconds⟩), set.zcard)

/-- The answer of `consume` when the limit is reached. -/
def retryAfter (now : Instant) (windowSeconds : Int) (oldest : Option (Uuid × Instant)) : Int :=
  match oldest with
  | none => windowSeconds
  | some hit => max 1 (truncate (windowSeconds - (now - hit.2)) + 1)

/-- The hit is recorded whether or not it is within the limit. -/
def consume (redis : Redis) (key : String) (member : Uuid) (now : Instant) (limit : Nat)
    (windowSeconds : Int) : Redis × Bool × Int :=
  let piped := pipeline redis key member now windowSeconds
  if piped.2 ≤ limit then (piped.1, true, 0)
  else (piped.1, false, retryAfter now windowSeconds (read piped.1 now key).oldest)

/-! ### One call -/

section Consume

variable (redis : Redis) (key : String) (member : Uuid) (now : Instant) (limit : Nat)
  (windowSeconds : Int)

@[simp] theorem consume_redis :
    (consume redis key member now limit windowSeconds).1 =
      (pipeline redis key member now windowSeconds).1 := by
  simp only [consume]
  split <;> rfl

/-- A call is within the limit by the count of the pipeline. -/
theorem consume_within :
    (consume redis key member now limit windowSeconds).2.1 =
      decide ((pipeline redis key member now windowSeconds).2 ≤ limit) := by
  simp only [consume]
  split
  · next hle => exact (decide_eq_true hle).symm
  · next hgt => exact (decide_eq_false hgt).symm

variable {redis key member now windowSeconds}

/-- What the pipeline leaves under the key. -/
theorem pipeline_redis :
    (pipeline redis key member now windowSeconds).1 =
      Function.update redis key (some
        ⟨((read redis now key).zremrangebyscore 0 (now - windowSeconds)).zadd member now,
          now + windowSeconds⟩) := rfl

theorem read_pipeline_of_ne {k : String} (hk : k ≠ key) (t : Instant) :
    read (pipeline redis key member now windowSeconds).1 t k = read redis t k := by
  rw [pipeline_redis, read, Function.update_of_ne hk, read]

/-- What is read after the pipeline ran, until the key expires. -/
theorem read_pipeline {t : Instant} (ht : t < now + windowSeconds) :
    read (pipeline redis key member now windowSeconds).1 t key =
      ((read redis now key).zremrangebyscore 0 (now - windowSeconds)).zadd member now := by
  rw [pipeline_redis, read, Function.update_self]
  exact if_pos ht

/-- Later a key may have expired; what is read then was there before. -/
theorem above_read_le {t : Instant} (ht : now ≤ t) (lo : Instant) :
    (read redis t key).above lo ≤ (read redis now key).above lo := by
  unfold read
  split
  · exact le_refl _
  · next hits _ =>
    by_cases hlt : t < hits.deadline
    · rw [if_pos hlt, if_pos (lt_of_le_of_lt ht hlt)]
    · rw [if_neg hlt]
      exact Nat.zero_le _

/-- The member is not one the key's set holds: `uuid4` does not repeat. -/
def Fresh (redis : Redis) (key : String) (member : Uuid) (now : Instant) : Prop :=
  ∀ hit ∈ (read redis now key).hits, hit.1 ≠ member

/-- Over the hits. -/
instance : Decidable (Fresh redis key member now) :=
  inferInstanceAs (Decidable (∀ hit ∈ (read redis now key).hits, hit.1 ≠ member))

theorem Fresh.trimmed (h : Fresh redis key member now) (lo hi : Instant) :
    ∀ hit ∈ ((read redis now key).zremrangebyscore lo hi).hits, hit.1 ≠ member :=
  fun hit hhit => h hit (List.mem_filter.1 hhit).1

/-- The count the pipeline returns covers the new hit and every hit younger than the
window. -/
theorem above_lt_count (h : Fresh redis key member now) :
    (read redis now key).above (now - windowSeconds) <
      (pipeline redis key member now windowSeconds).2 := by
  show _ < SortedSet.zcard (SortedSet.zadd _ _ _)
  rw [SortedSet.zcard_zadd _ (h.trimmed _ _)]
  have htrimmed : (read redis now key).above (now - windowSeconds) =
      ((read redis now key).zremrangebyscore 0 (now - windowSeconds)).above
        (now - windowSeconds) :=
    ((read redis now key).above_zremrangebyscore (le_refl _)).symm
  rw [htrimmed]
  exact Nat.lt_succ_of_le (SortedSet.above_le_zcard _ _)

end Consume

/-! ### Every sequence of calls -/

/-- The limit of a key and its window. -/
structure Budget where
  limit : Nat
  windowSeconds : Int

/-- `accepted` keeps the instants of a key's accepted hits, the latest first. -/
structure State where
  clock : Instant
  redis : Redis
  accepted : String → List Instant

/-- A call of `consume`, with the `uuid4` and the instant it draws. -/
structure Call where
  key : String
  member : Uuid
  now : Instant

/-- One call. -/
def perform (budget : String → Budget) (s : State) (c : Call) : State :=
  let result := consume s.redis c.key c.member c.now (budget c.key).limit
    (budget c.key).windowSeconds
  { clock := c.now
    redis := result.1
    accepted := if result.2.1
      then Function.update s.accepted c.key (c.now :: s.accepted c.key)
      else s.accepted }

/-- Calls whose clocks do not run backwards. -/
def machine (budget : String → Budget) : Machine State Call where
  init s := s.redis = (fun _ => none) ∧ s.accepted = fun _ => []
  step s c :=
    if s.clock ≤ c.now ∧ Fresh s.redis c.key c.member c.now then some (perform budget s c)
    else none

section Runs

variable {budget : String → Budget}

theorem step_cases {s t : State} {c : Call} (h : (machine budget).step s c = some t) :
    s.clock ≤ c.now ∧ Fresh s.redis c.key c.member c.now ∧ t = perform budget s c := by
  simp only [machine] at h
  split at h
  · next hc => exact ⟨hc.1, hc.2, (Option.some.inj h).symm⟩
  · cases h

/-- What the limiter's sets have to do with the hits it accepted. -/
structure Inv (budget : String → Budget) (s : State) (key : String) : Prop where
  past : ∀ t ∈ s.accepted key, t ≤ s.clock
  /-- From now on, what a command sees of the key holds every accepted hit that is still
  younger than the window. -/
  recorded : ∀ now, s.clock ≤ now →
    ((s.accepted key).countP fun t => now - (budget key).windowSeconds < t) ≤
      (read s.redis now key).above (now - (budget key).windowSeconds)
  spaced : Spaced ((budget key).windowSeconds : Instant) (budget key).limit (s.accepted key)

theorem Inv.init {s : State} (h : (machine budget).init s) (key : String) : Inv budget s key := by
  obtain ⟨-, haccepted⟩ := h
  constructor
  · intro t ht
    rw [haccepted] at ht
    cases ht
  · intro now _
    rw [haccepted]
    exact Nat.zero_le _
  · rw [haccepted]
    trivial

theorem perform_accepted_of_ne (s : State) {c : Call} {key : String} (h : key ≠ c.key) :
    (perform budget s c).accepted key = s.accepted key := by
  simp only [perform]
  split
  · exact Function.update_of_ne h ..
  · rfl

/-- The hit is accepted if the pipeline's count is within the limit. -/
theorem perform_accepted_self (budget : String → Budget) (s : State) (c : Call) :
    (perform budget s c).accepted c.key = s.accepted c.key ∨
      (pipeline s.redis c.key c.member c.now (budget c.key).windowSeconds).2 ≤
          (budget c.key).limit ∧
        (perform budget s c).accepted c.key = c.now :: s.accepted c.key := by
  simp only [perform]
  split
  · next hwithin =>
    rw [consume_within] at hwithin
    exact .inr ⟨of_decide_eq_true hwithin, Function.update_self ..⟩
  · exact .inl rfl

/-- A call on another key changes nothing of this one but the clock. -/
theorem Inv.other {s : State} {c : Call} {key : String} (h : Inv budget s key)
    (hclock : s.clock ≤ c.now) (hne : key ≠ c.key) : Inv budget (perform budget s c) key := by
  have hread : ∀ now, read (perform budget s c).redis now key = read s.redis now key := by
    intro now
    simp only [perform, consume_redis]
    exact read_pipeline_of_ne hne now
  constructor
  · intro t ht
    rw [perform_accepted_of_ne s hne] at ht
    exact le_trans (h.past t ht) hclock
  · intro now hnow
    rw [perform_accepted_of_ne s hne, hread]
    exact h.recorded now (le_trans hclock hnow)
  · rw [perform_accepted_of_ne s hne]
    exact h.spaced

/-- Right after the pipeline, what was recorded still is, and so is the new hit. -/
theorem recorded_perform {s : State} {c : Call} (h : Inv budget s c.key)
    (hclock : s.clock ≤ c.now) (hfresh : Fresh s.redis c.key c.member c.now)
    {now : Instant} (hnow : c.now ≤ now) (hlt : now < c.now + (budget c.key).windowSeconds) :
    ((c.now :: s.accepted c.key).countP fun t => now - (budget c.key).windowSeconds < t) ≤
      (read (perform budget s c).redis now c.key).above
        (now - (budget c.key).windowSeconds) := by
  have hbound : c.now - (budget c.key).windowSeconds ≤ now - (budget c.key).windowSeconds :=
    sub_le_sub_right hnow _
  have hold := le_trans (h.recorded now (le_trans hclock hnow)) (above_read_le hnow _)
  rw [List.countP_cons]
  simp only [perform, consume_redis, decide_eq_true_eq]
  rw [read_pipeline hlt, SortedSet.above_zadd _ (hfresh.trimmed _ _),
    SortedSet.above_zremrangebyscore _ hbound]
  exact Nat.add_le_add_right hold _

/-- A call on the key itself. -/
theorem Inv.self {s : State} {c : Call} (h : Inv budget s c.key) (hclock : s.clock ≤ c.now)
    (hfresh : Fresh s.redis c.key c.member c.now) : Inv budget (perform budget s c) c.key := by
  have hpast : ∀ t ∈ c.now :: s.accepted c.key, t ≤ c.now := by
    intro t ht
    rcases List.mem_cons.1 ht with rfl | ht
    · exact le_refl _
    · exact le_trans (h.past t ht) hclock
  -- an accepted hit is the new one or an old one, in either case of `perform_accepted_self`
  have hsub : ((perform budget s c).accepted c.key).Sublist (c.now :: s.accepted c.key) := by
    rcases perform_accepted_self budget s c with heq | ⟨-, heq⟩
    · rw [heq]
      exact List.sublist_cons_self _ _
    · rw [heq]
  constructor
  · intro t ht
    exact hpast t (hsub.subset ht)
  · intro now hnow
    refine le_trans (hsub.countP_le) ?_
    by_cases hlt : now < c.now + (budget c.key).windowSeconds
    · exact recorded_perform h hclock hfresh hnow hlt
    · -- the key has expired, and with it the window of every accepted hit
      have hnone : ((c.now :: s.accepted c.key).countP
          fun t => now - (budget c.key).windowSeconds < t) = 0 := by
        rw [List.countP_eq_zero]
        intro t ht
        have hle := le_trans (hpast t ht) (le_sub_iff_add_le.2 (not_lt.1 hlt))
        simpa using hle
      rw [hnone]
      exact Nat.zero_le _
  · rcases perform_accepted_self budget s c with heq | ⟨hcount, heq⟩
    · rw [heq]
      exact h.spaced
    · rw [heq]
      refine ⟨?_, h.spaced⟩
      calc (s.accepted c.key).countP (fun t => c.now - (budget c.key).windowSeconds < t)
          ≤ (read s.redis c.now c.key).above (c.now - (budget c.key).windowSeconds) :=
            h.recorded c.now hclock
        _ < (pipeline s.redis c.key c.member c.now (budget c.key).windowSeconds).2 :=
            above_lt_count hfresh
        _ ≤ (budget c.key).limit := hcount

theorem inductive_inv (key : String) :
    (machine budget).Inductive (fun _ _ => True) fun s => Inv budget s key where
  init _ h := Inv.init h key
  step s c t h _ hst := by
    obtain ⟨hclock, hfresh, rfl⟩ := step_cases hst
    by_cases hk : key = c.key
    · subst hk
      exact h.self hclock hfresh
    · exact h.other hclock hk

/-- Wherever a half-open interval of the window's length lies, it holds at most `limit`
accepted hits of the key. -/
theorem accepted_le_limit {s : State} (h : (machine budget).Reachable s) (key : String)
    (a : Instant) :
    ((s.accepted key).countP fun t => a ≤ t ∧ t < a + (budget key).windowSeconds) ≤
        (budget key).limit ∧
      ((s.accepted key).countP fun t => a < t ∧ t ≤ a + (budget key).windowSeconds) ≤
        (budget key).limit := by
  have hspaced := ((inductive_inv key).always h).spaced
  constructor
  · exact hspaced.countP_le (narrow_closed_open _ a)
  · exact hspaced.countP_le (narrow_open_closed _ a)

/-- Two hits in two seconds: the third is refused, and the fourth accepted when the first
two are out of the window. -/
theorem accepted_le_limit_two :
    ∃ s, (machine fun _ => ⟨2, 2⟩).Reachable s ∧ s.accepted "1.2.3.4" = [3, 1, 0] ∧
      ((s.accepted "1.2.3.4").countP fun t => 0 ≤ t ∧ t < 0 + ((2 : Int) : ℚ)) ≤ 2 ∧
        ((s.accepted "1.2.3.4").countP fun t => 0 < t ∧ t ≤ 0 + ((2 : Int) : ℚ)) ≤ 2 := by
  obtain ⟨s, hs, hp⟩ := Machine.exists_reachable_of_run (M := machine fun _ => ⟨2, 2⟩)
    (s := { clock := 0, redis := fun _ => none, accepted := fun _ => [] })
    [⟨"1.2.3.4", 0, 0⟩, ⟨"1.2.3.4", 1, 1⟩, ⟨"1.2.3.4", 2, 3 / 2⟩, ⟨"1.2.3.4", 3, 3⟩]
    (fun s => decide (s.accepted "1.2.3.4" = [3, 1, 0])) ⟨rfl, rfl⟩ (by decide +kernel)
  exact ⟨s, hs, of_decide_eq_true hp, accepted_le_limit hs "1.2.3.4" 0⟩

end Runs

end RateLimit

end Core

end RealEstate
