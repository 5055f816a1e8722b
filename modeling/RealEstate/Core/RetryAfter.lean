import Mathlib.Data.Fintype.EquivFin
import RealEstate.Core.RateLimit

/-!
# The wait that a refused caller is told

`consume` logs refused hits as well, and takes the wait from the oldest hit in the window alone.
The hits that are left when it is over may still fill the budget.

- `machine`: calls of `consume` on any keys, with every hit of a key on record.
- `Inv`: from now on, what a command sees of a key are its hits younger than the window.
- `retry_after_honest`: when a caller that waits is accepted.
-/

namespace RealEstate

namespace Core

namespace RetryAfter

open Systems RateLimit

/-- `hits` keeps the instants of all hits of a key, the latest first. -/
structure State where
  clock : Instant
  redis : Redis
  hits : String → List Instant

section

variable (budget : String → Budget)

/-- What a call is answered: whether it is within the limit, and the wait. -/
def answer (s : State) (c : Call) : Bool × Int :=
  (consume s.redis c.key c.member c.now (budget c.key).limit (budget c.key).windowSeconds).2

/-- One call, with a note of its time. -/
def perform (s : State) (c : Call) : State where
  clock := c.now
  redis := (consume s.redis c.key c.member c.now (budget c.key).limit
    (budget c.key).windowSeconds).1
  hits := Function.update s.hits c.key (c.now :: s.hits c.key)

/-- The clock starts at 1970 or later and does not go back. -/
def machine : Machine State Call where
  init s := 0 ≤ s.clock ∧ s.redis = (fun _ => none) ∧ s.hits = fun _ => []
  step s c :=
    if s.clock ≤ c.now ∧ Fresh s.redis c.key c.member c.now then some (perform budget s c)
    else none

end

/-- The hits younger than the window. -/
def young (now : Instant) (windowSeconds : Int) (hits : List Instant) : List Instant :=
  hits.filter fun t => now - windowSeconds < t

/-- The first instant after the oldest hit of the window that lies whole seconds from `now`. -/
def released (now : Instant) (windowSeconds : Int) (hits : List Instant) : Instant :=
  match (young now windowSeconds hits).min? with
  | some oldest => now + (⌊oldest - now⌋ + 1)
  | none => now

/-- Of the hits up to now, refused ones included, fewer than the limit come after the second in
which the oldest leaves the window. -/
def FewLater (budget : Budget) (now : Instant) (hits : List Instant) : Prop :=
  (hits.countP fun t => released now budget.windowSeconds hits < t) < budget.limit

/-- A comparison of counts. -/
instance (budget : Budget) (now : Instant) (hits : List Instant) :
    Decidable (FewLater budget now hits) :=
  inferInstanceAs (Decidable (_ < _))

/-- What the sorted set of a key has to do with its hits. -/
structure Inv (budget : String → Budget) (s : State) (key : String) : Prop where
  clock : 0 ≤ s.clock
  past : ∀ t ∈ s.hits key, t ≤ s.clock
  scores : ∀ stored, s.redis key = some stored → ∀ hit ∈ stored.set.hits, 0 ≤ hit.2
  logged : ∀ now, s.clock ≤ now →
    (young now (budget key).windowSeconds ((read s.redis now key).hits.map Prod.snd)).Perm
      (young now (budget key).windowSeconds (s.hits key))

section Runs

variable {budget : String → Budget} {s s' : State} {c : Call} {key : String}

theorem step_cases (h : (machine budget).step s c = some s') :
    s.clock ≤ c.now ∧ Fresh s.redis c.key c.member c.now ∧ s' = perform budget s c := by
  simp only [machine] at h
  split at h
  · next hc => exact ⟨hc.1, hc.2, (Option.some.inj h).symm⟩
  · cases h

theorem hits_perform_self : (perform budget s c).hits c.key = c.now :: s.hits c.key :=
  Function.update_self ..

/-- Calls of other keys are not touched. -/
theorem hits_perform_of_ne (h : key ≠ c.key) : (perform budget s c).hits key = s.hits key :=
  Function.update_of_ne h ..

theorem redis_perform : (perform budget s c).redis =
    (pipeline s.redis c.key c.member c.now (budget c.key).windowSeconds).1 :=
  consume_redis ..

/-! ### The window -/

theorem young_cons_self {now : Instant} {windowSeconds : Int} (h : 0 < windowSeconds)
    (hits : List Instant) :
    young now windowSeconds (now :: hits) = now :: young now windowSeconds hits := by
  have hwindow : (0 : Instant) < windowSeconds := by exact_mod_cast h
  exact List.filter_cons_of_pos (decide_eq_true (by linarith))

/-- A hit that is too old now stays so. -/
theorem young_young {now later : Instant} (h : now ≤ later) (windowSeconds : Int)
    (hits : List Instant) :
    young later windowSeconds (young now windowSeconds hits) = young later windowSeconds hits := by
  unfold young
  rw [List.filter_filter]
  refine List.filter_congr fun t _ => ?_
  rw [Bool.and_eq_left_iff_imp.2]
  intro hlater
  have hlater := of_decide_eq_true hlater
  exact decide_eq_true (by linarith)

/-- After a window without calls, none is young. -/
theorem young_eq_nil {now : Instant} {windowSeconds : Int} {hits : List Instant}
    (h : ∀ t ∈ hits, t + windowSeconds ≤ now) : young now windowSeconds hits = [] := by
  refine List.filter_eq_nil_iff.2 fun t ht => ?_
  have hle := h t ht
  rw [decide_eq_true_eq]
  linarith

/-- What `ZREMRANGEBYSCORE` leaves are the young hits. -/
theorem scores_zremrangebyscore {now : Instant} {windowSeconds : Int}
    {z : SortedSet Uuid Instant} (h : ∀ hit ∈ z.hits, 0 ≤ hit.2) :
    (z.zremrangebyscore 0 (now - windowSeconds)).hits.map Prod.snd =
      young now windowSeconds (z.hits.map Prod.snd) := by
  unfold young
  rw [List.filter_map]
  congr 1
  refine List.filter_congr fun hit hhit => ?_
  have hpos := h hit hhit
  simp only [Function.comp, hpos, true_and, not_le]

/-! ### One call -/

theorem Inv.scores_read (h : Inv budget s key) (now : Instant) :
    ∀ hit ∈ (read s.redis now key).hits, 0 ≤ hit.2 := by
  intro hit hhit
  unfold RateLimit.read at hhit
  cases hstored : s.redis key with
  | none =>
    rw [hstored] at hhit
    cases hhit
  | some stored =>
    rw [hstored] at hhit
    dsimp only at hhit
    split at hhit
    · exact h.scores stored hstored hit hhit
    · cases hhit

/-- The set that a call leaves: the hits younger than the window, and its own. -/
theorem Inv.scores_zadd (h : Inv budget s c.key) (hclock : s.clock ≤ c.now)
    (hfresh : Fresh s.redis c.key c.member c.now) :
    ((((read s.redis c.now c.key).zremrangebyscore 0
        (c.now - (budget c.key).windowSeconds)).zadd c.member c.now).hits.map Prod.snd).Perm
      (c.now :: young c.now (budget c.key).windowSeconds (s.hits c.key)) := by
  have hperm := (SortedSet.perm_zadd _ (hfresh.trimmed 0
    (c.now - (budget c.key).windowSeconds)) c.now).map Prod.snd
  rw [List.map_cons, scores_zremrangebyscore (h.scores_read c.now)] at hperm
  exact hperm.trans ((h.logged c.now hclock).cons _)

/-- The pipeline counts the hits younger than the window, and its own. -/
theorem Inv.count_eq (h : Inv budget s c.key) (hclock : s.clock ≤ c.now)
    (hfresh : Fresh s.redis c.key c.member c.now) :
    (pipeline s.redis c.key c.member c.now (budget c.key).windowSeconds).2 =
      (young c.now (budget c.key).windowSeconds (s.hits c.key)).length + 1 := by
  have hlength := (h.scores_zadd hclock hfresh).length_eq
  rw [List.length_map, List.length_cons] at hlength
  exact hlength

/-- **One hit** is within the limit if there are fewer young hits. -/
theorem Inv.answer_fst (h : Inv budget s c.key) (hclock : s.clock ≤ c.now)
    (hfresh : Fresh s.redis c.key c.member c.now) :
    (answer budget s c).1 = true ↔
      (young c.now (budget c.key).windowSeconds (s.hits c.key)).length <
        (budget c.key).limit := by
  unfold answer
  rw [consume_within, h.count_eq hclock hfresh, decide_eq_true_eq, Nat.succ_le_iff]

theorem Inv.self (h : Inv budget s c.key) (hclock : s.clock ≤ c.now)
    (hfresh : Fresh s.redis c.key c.member c.now) : Inv budget (perform budget s c) c.key where
  clock := le_trans h.clock hclock
  past t ht := by
    rw [hits_perform_self] at ht
    rcases List.mem_cons.1 ht with rfl | ht
    · exact le_refl _
    · exact le_trans (h.past t ht) hclock
  -- The key of this call holds the new hit and the old ones that were young.
  scores stored hstored hit hhit := by
    rw [redis_perform, pipeline_redis, Function.update_self] at hstored
    cases hstored
    have hmem := (h.scores_zadd hclock hfresh).mem_iff.1 (List.mem_map_of_mem hhit)
    rcases List.mem_cons.1 hmem with heq | hmem
    · rw [heq]
      exact le_trans h.clock hclock
    · have hmem := (h.logged c.now hclock).mem_iff.2 hmem
      obtain ⟨hit', hhit', heq⟩ := List.mem_map.1 (List.mem_filter.1 hmem).1
      rw [← heq]
      exact h.scores_read c.now hit' hhit'
  logged now hnow := by
    have hnow : c.now ≤ now := hnow
    have hpast : ∀ t ∈ c.now :: s.hits c.key, t ≤ c.now := by
      intro t ht
      rcases List.mem_cons.1 ht with rfl | ht
      · exact le_refl _
      · exact le_trans (h.past t ht) hclock
    rw [hits_perform_self, redis_perform]
    by_cases hlt : now < c.now + (budget c.key).windowSeconds
    · have hwindow : 0 < (budget c.key).windowSeconds := by
        have hpos : (0 : Instant) < (budget c.key).windowSeconds := by linarith only [hnow, hlt]
        exact_mod_cast hpos
      have hfilter := (h.scores_zadd hclock hfresh).filter
        fun t => now - (budget c.key).windowSeconds < t
      rw [← young_cons_self hwindow] at hfilter
      -- What was young at the call and is young now is young now.
      rw [read_pipeline hlt, ← young_young hnow _ (c.now :: s.hits c.key)]
      exact hfilter
    · -- The key has expired, and every hit is older than the window.
      have hread : read (pipeline s.redis c.key c.member c.now
          (budget c.key).windowSeconds).1 now c.key = .empty := by
        rw [pipeline_redis, RateLimit.read, Function.update_self]
        exact if_neg hlt
      have hnil : young now (budget c.key).windowSeconds (c.now :: s.hits c.key) = [] :=
        young_eq_nil fun t ht => by linarith [hpast t ht, not_lt.1 hlt]
      rw [hread, hnil]
      exact List.Perm.refl _

/-- A call on another key changes nothing of this one but the clock. -/
theorem Inv.other (h : Inv budget s key) (hclock : s.clock ≤ c.now) (hne : key ≠ c.key) :
    Inv budget (perform budget s c) key where
  clock := le_trans h.clock hclock
  past t ht := by
    rw [hits_perform_of_ne hne] at ht
    exact le_trans (h.past t ht) hclock
  scores stored hstored := by
    rw [redis_perform, pipeline_redis, Function.update_of_ne hne] at hstored
    exact h.scores stored hstored
  logged now hnow := by
    rw [hits_perform_of_ne hne, redis_perform, read_pipeline_of_ne hne]
    exact h.logged now (le_trans hclock hnow)

theorem Inv.step (h : Inv budget s key) (hst : (machine budget).step s c = some s') :
    Inv budget s' key := by
  obtain ⟨hclock, hfresh, rfl⟩ := step_cases hst
  by_cases hk : key = c.key
  · subst hk
    exact h.self hclock hfresh
  · exact h.other hclock hk

theorem inductive_inv (key : String) :
    (machine budget).Inductive (fun _ _ => True) fun s => Inv budget s key where
  init s := by
    rintro ⟨hclock, hredis, hhits⟩
    refine ⟨hclock, fun t ht => ?_, fun stored hstored => ?_, fun now _ => ?_⟩
    · rw [hhits] at ht
      cases ht
    · rw [hredis] at hstored
      cases hstored
    · rw [hhits, hredis]
      exact List.Perm.refl _
  step _ _ _ h _ hst := h.step hst

/-! ### The wait -/

theorem truncate_of_nonneg {x : Instant} (h : 0 ≤ x) : truncate x = ⌊x⌋ := if_pos h

/-- The wait after which the oldest hit is out of the window. -/
theorem retryAfter_young {now : Instant} {windowSeconds : Int} {hit : Uuid × Instant}
    (h : now - windowSeconds < hit.2) :
    retryAfter now windowSeconds (some hit) = windowSeconds + (⌊hit.2 - now⌋ + 1) := by
  have hnonneg : (0 : Instant) ≤ windowSeconds - (now - hit.2) := by linarith
  have hfloor : ⌊windowSeconds - (now - hit.2)⌋ = windowSeconds + ⌊hit.2 - now⌋ := by
    rw [← Int.floor_intCast_add]
    congr 1
    ring
  have hpos : 0 ≤ ⌊(windowSeconds : Instant) - (now - hit.2)⌋ := Int.floor_nonneg.2 hnonneg
  show max 1 (truncate _ + 1) = _
  rw [truncate_of_nonneg hnonneg, max_eq_right (by omega), hfloor]
  ring

/-- A refused caller is told the wait of the oldest hit. -/
theorem retry_of_refused {retry : Int} (hanswer : answer budget s c = (false, retry)) :
    retryAfter c.now (budget c.key).windowSeconds
      (read (pipeline s.redis c.key c.member c.now (budget c.key).windowSeconds).1 c.now
        c.key).oldest = retry := by
  unfold answer consume at hanswer
  dsimp only at hanswer
  split at hanswer
  · cases hanswer
  · exact (Prod.mk.inj hanswer).2

/-- **One wait** ends when hits up to `released` leave the window. -/
theorem Inv.retry_eq (h : Inv budget s c.key) (hclock : s.clock ≤ c.now)
    (hfresh : Fresh s.redis c.key c.member c.now) (hwindow : 0 < (budget c.key).windowSeconds)
    {retry : Int} (hanswer : answer budget s c = (false, retry)) :
    c.now + retry - (budget c.key).windowSeconds =
      released c.now (budget c.key).windowSeconds (c.now :: s.hits c.key) := by
  -- The window is not empty, so the key just written has not expired.
  have hlt : c.now < c.now + ((budget c.key).windowSeconds : Instant) := by
    have hpos : (0 : Instant) < (budget c.key).windowSeconds := by exact_mod_cast hwindow
    linarith only [hpos]
  have hperm := h.scores_zadd hclock hfresh
  have hretry := retry_of_refused hanswer
  rw [read_pipeline hlt] at hretry
  generalize SortedSet.zadd _ c.member c.now = z at hperm hretry
  cases hz : z.hits with
  | nil =>
    rw [hz] at hperm
    exact absurd hperm.length_eq (Nat.zero_ne_add_one _)
  | cons oldest rest =>
    have hsorted := z.sorted
    rw [hz] at hperm hsorted
    have hmem := hperm.mem_iff.1 List.mem_cons_self
    -- The set is sorted by score, so its first element is the oldest hit.
    have hleast : ∀ t ∈ c.now :: young c.now (budget c.key).windowSeconds (s.hits c.key),
        oldest.2 ≤ t := by
      intro t ht
      obtain ⟨hit, hhit, rfl⟩ := List.mem_map.1 (hperm.mem_iff.2 ht)
      rcases List.mem_cons.1 hhit with rfl | hhit
      · exact le_refl _
      · exact (List.pairwise_cons.1 hsorted).1 hit hhit
    have hyoung : c.now - (budget c.key).windowSeconds < oldest.2 := by
      rcases List.mem_cons.1 hmem with heq | hmem
      · rw [heq]
        linarith only [hlt]
      · exact of_decide_eq_true (List.mem_filter.1 hmem).2
    -- And it is the minimum of the young hits, which the log names.
    have hmin : (young c.now (budget c.key).windowSeconds (c.now :: s.hits c.key)).min? =
        some oldest.2 := by
      rw [young_cons_self hwindow]
      exact List.min?_eq_some_iff.2 ⟨hmem, hleast⟩
    rw [SortedSet.oldest, hz, List.head?_cons, retryAfter_young hyoung] at hretry
    rw [released, hmin, ← hretry]
    push_cast
    ring

/-- Calls on other keys leave the hits of this one. -/
theorem hits_of_others {s₁ : State} (h : ((machine budget).startingAt s).ReachVia
    (fun _ c => c.key ≠ key) s₁) (hs : Inv budget s key) :
    Inv budget s₁ key ∧ s₁.hits key = s.hits key := by
  induction h with
  | init heq =>
    cases heq
    exact ⟨hs, rfl⟩
  | step _ hother hst ih =>
    obtain ⟨hinv, hhits⟩ := ih
    refine ⟨hinv.step hst, ?_⟩
    obtain ⟨-, -, rfl⟩ := step_cases hst
    rw [hits_perform_of_ne (Ne.symm hother), hhits]

/-- A client is never told to retry at once. -/
theorem retryAfter_pos {now : Instant} {windowSeconds : Int} (h : 0 < windowSeconds)
    (oldest : Option (Uuid × Instant)) : 0 < retryAfter now windowSeconds oldest := by
  cases oldest with
  | none => exact h
  | some hit => exact lt_of_lt_of_le one_pos (le_max_left _ _)

/-- How many calls the window holds. -/
theorem length_young (now : Instant) (windowSeconds : Int) (hits : List Instant) :
    (young now windowSeconds hits).length = hits.countP fun t => now - windowSeconds < t :=
  (List.countP_eq_length_filter ..).symm

/-- `uuid4` can draw a new member. -/
theorem exists_fresh (redis : Redis) (key : String) (now : Instant) :
    ∃ member, Fresh redis key member now := by
  obtain ⟨member, hmember⟩ := Infinite.exists_notMem_finset
    ((read redis now key).hits.map Prod.fst).toFinset
  refine ⟨member, fun hit hhit heq => hmember ?_⟩
  rw [List.mem_toFinset, ← heq]
  exact List.mem_map_of_mem hhit

/-- Who comes back to the key at some instant, with nobody before, is accepted if fewer hits than
the limit are young then. -/
theorem answer_after_others (hs : Inv budget s key) {s₁ : State}
    (hothers : ((machine budget).startingAt s).ReachVia (fun _ c => c.key ≠ key) s₁) {s₂ : State}
    (hst : (machine budget).step s₁ c = some s₂) (hkey : c.key = key) :
    (answer budget s₁ c).1 = true ↔
      ((s.hits key).countP fun t => c.now - (budget key).windowSeconds < t) <
        (budget key).limit := by
  obtain ⟨hinv, hhits⟩ := hits_of_others hothers hs
  obtain ⟨hclock, hfresh, -⟩ := step_cases hst
  subst hkey
  rw [hinv.answer_fst hclock hfresh, hhits, length_young]

/-- **Retry-After is honest** after a refusal exactly if fewer hits than the limit, refused ones
included, come after the second in which the oldest leaves the window. -/
theorem retry_after_honest (h : (machine budget).Reachable s)
    (hst : (machine budget).step s c = some s') {retry : Int}
    (hanswer : answer budget s c = (false, retry)) :
    (∀ s₁, ((machine budget).startingAt s').ReachVia (fun _ c' => c'.key ≠ c.key) s₁ →
      ∀ c' s₂, (machine budget).step s₁ c' = some s₂ → c'.key = c.key →
        c.now + retry ≤ c'.now → (answer budget s₁ c').1 = true) ↔
    FewLater (budget c.key) c.now (c.now :: s.hits c.key) := by
  have hinv := (inductive_inv c.key).always h
  have hinv' := hinv.step hst
  obtain ⟨hclock, hfresh, rfl⟩ := step_cases hst
  have hhits : (perform budget s c).hits c.key = c.now :: s.hits c.key := hits_perform_self
  -- the first hit that comes back, as soon as it may
  have hback : (∀ s₁, ((machine budget).startingAt (perform budget s c)).ReachVia
      (fun _ c' => c'.key ≠ c.key) s₁ → ∀ c' s₂, (machine budget).step s₁ c' = some s₂ →
        c'.key = c.key → c.now + retry ≤ c'.now → (answer budget s₁ c').1 = true) →
      ((c.now :: s.hits c.key).countP fun t =>
        max c.now (c.now + retry) - (budget c.key).windowSeconds < t) < (budget c.key).limit := by
    intro hall
    obtain ⟨member, hmember⟩ := exists_fresh (perform budget s c).redis c.key
      (max c.now (c.now + retry))
    let c' : Call := ⟨c.key, member, max c.now (c.now + retry)⟩
    have hstep : (machine budget).step (perform budget s c) c' = some (perform budget _ c') :=
      if_pos ⟨le_max_left _ _, hmember⟩
    have haccepted := hall _ (.init rfl) c' _ hstep rfl (le_max_right _ _)
    rw [← hhits]
    exact (answer_after_others hinv' (.init rfl) hstep rfl).1 haccepted
  by_cases hwindow : 0 < (budget c.key).windowSeconds
  · have hretry := hinv.retry_eq hclock hfresh hwindow hanswer
    have hpos : (0 : Instant) < retry := by
      rw [← retry_of_refused hanswer]
      exact_mod_cast retryAfter_pos hwindow _
    unfold FewLater
    rw [← hretry]
    constructor
    · intro hall
      have hfew := hback hall
      rw [max_eq_right (by linarith only [hpos])] at hfew
      exact hfew
    · intro hfew s₁ hothers c' s₂ hstep hkey hle
      rw [answer_after_others hinv' hothers hstep hkey, hhits]
      refine lt_of_le_of_lt (List.countP_mono_left fun t _ ht => ?_) hfew
      have hlt := of_decide_eq_true ht
      exact decide_eq_true (by linarith only [hle, hlt])
  · -- Without a window no hit is young, so the limit is zero and nobody is accepted.
    have hnil : young c.now (budget c.key).windowSeconds (s.hits c.key) = [] := by
      refine young_eq_nil fun t ht => ?_
      have hle : ((budget c.key).windowSeconds : Instant) ≤ 0 := by exact_mod_cast not_lt.1 hwindow
      linarith [hinv.past t ht]
    have hzero : (budget c.key).limit = 0 := by
      by_contra hne
      have haccepted := (hinv.answer_fst hclock hfresh).2 (by
        rw [hnil]
        exact Nat.pos_of_ne_zero hne)
      rw [hanswer] at haccepted
      cases haccepted
    refine iff_of_false (fun hall => ?_) fun hfew => ?_
    · have hfew := hback hall
      rw [hzero] at hfew
      exact absurd hfew (Nat.not_lt_zero _)
    · rw [FewLater, hzero] at hfew
      exact absurd hfew (Nat.not_lt_zero _)

/-! ### Witnesses -/

/-- No calls yet. -/
def nobody : State where
  clock := 0
  redis _ := none
  hits _ := []

/-- Of two hits a minute, both are made within the first second. -/
theorem retry_after_honest_burst : ∃ s s', (machine fun _ => ⟨2, 60⟩).Reachable s ∧
    (machine fun _ => ⟨2, 60⟩).step s ⟨"a", 2, 30⟩ = some s' ∧
    answer (fun _ => ⟨2, 60⟩) s ⟨"a", 2, 30⟩ = (false, 31) ∧
    ∀ s₁, ((machine fun _ => ⟨2, 60⟩).startingAt s').ReachVia (fun _ c' => c'.key ≠ "a") s₁ →
      ∀ c' s₂, (machine fun _ => ⟨2, 60⟩).step s₁ c' = some s₂ → c'.key = "a" →
        (30 : Instant) + (31 : Int) ≤ c'.now → (answer (fun _ => ⟨2, 60⟩) s₁ c').1 = true := by
  obtain ⟨s, hs, hp⟩ := Machine.exists_reachable_of_run (M := machine fun _ => ⟨2, 60⟩)
    (s := nobody) [⟨"a", 0, 0⟩, ⟨"a", 1, 1 / 4⟩]
    (fun s => decide ((s.clock ≤ 30 ∧ Fresh s.redis "a" 2 30) ∧
      answer (fun _ => ⟨2, 60⟩) s ⟨"a", 2, 30⟩ = (false, 31) ∧
      FewLater ⟨2, 60⟩ 30 (30 :: s.hits "a"))) ⟨le_refl _, rfl, rfl⟩ (by decide +kernel)
  obtain ⟨hstep, hanswer, hfew⟩ := of_decide_eq_true hp
  have hstep : (machine fun _ => ⟨2, 60⟩).step s ⟨"a", 2, 30⟩ = some _ := if_pos hstep
  exact ⟨s, _, hs, hstep, hanswer, (retry_after_honest hs hstep hanswer).2 hfew⟩

/-- Of one hit a minute, the refused one fills the budget again. -/
theorem retry_after_refused : ¬∀ s, (machine fun _ => ⟨1, 60⟩).Reachable s →
    ∀ c s' retry, (machine fun _ => ⟨1, 60⟩).step s c = some s' →
      answer (fun _ => ⟨1, 60⟩) s c = (false, retry) →
      ∀ c' s₂, (machine fun _ => ⟨1, 60⟩).step s' c' = some s₂ → c'.key = c.key →
        c.now + retry ≤ c'.now → (answer (fun _ => ⟨1, 60⟩) s' c').1 = true := by
  intro h
  let refused : State → State := fun s => perform (fun _ => ⟨1, 60⟩) s ⟨"a", 1, 30⟩
  obtain ⟨s, hs, hp⟩ := Machine.exists_reachable_of_run (M := machine fun _ => ⟨1, 60⟩)
    (s := nobody) [⟨"a", 0, 0⟩]
    (fun s => decide ((s.clock ≤ 30 ∧ Fresh s.redis "a" 1 30) ∧
      answer (fun _ => ⟨1, 60⟩) s ⟨"a", 1, 30⟩ = (false, 31) ∧
      ((refused s).clock ≤ 61 ∧ Fresh (refused s).redis "a" 2 61) ∧
      (answer (fun _ => ⟨1, 60⟩) (refused s) ⟨"a", 2, 61⟩).1 = false)) ⟨le_refl _, rfl, rfl⟩
    (by decide +kernel)
  obtain ⟨hstep, hanswer, hstep', hagain⟩ := of_decide_eq_true hp
  have hstep : (machine fun _ => ⟨1, 60⟩).step s ⟨"a", 1, 30⟩ = some (refused s) := if_pos hstep
  have hstep' : (machine fun _ => ⟨1, 60⟩).step (refused s) ⟨"a", 2, 61⟩ = some _ := if_pos hstep'
  have haccepted := h s hs _ _ _ hstep hanswer _ _ hstep' rfl (by norm_num)
  rw [hagain] at haccepted
  cases haccepted

end Runs

end RetryAfter

end Core

end RealEstate
