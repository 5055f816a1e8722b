import RealEstate.Core.Idempotency

/-!
# At most once

What every interleaving of requests with idempotency keys keeps.

- `Round.Once`: one handler run in a claim, and its response or a 409 for everyone else.
- `KeyState`: a key is claimed, stored or free, and what each means for its requests.
- `Local`: a step of a request touches its own row and its own key.
- `at_most_once`: `AtMostOnce` in every run whose Redis is `Dependable`.
-/

namespace RealEstate

namespace Core

namespace Idempotency

open Systems

/-- Redis commands succeed, bodies are UTF-8, and no marker expires before the request that
holds its key is done. -/
def Dependable (s : State) : Label → Prop
  | .wait seconds =>
    (s.requests.select fun request => request.progress.holds ∧
      ¬((s.redis.wait seconds).get request.cacheKey).any Cached.isMarker) = []
  | .finish _ (.returned response) => response.body.IsValidUTF8
  | .finish _ .raised => True
  | .acquire _ _ ok | .look _ ok | .renew _ ok | .store _ ok | .free _ ok => ok = true

/-- By cases of the label. -/
instance (s : State) (l : Label) : Decidable (Dependable s l) := by
  unfold Dependable
  split <;> infer_instance

/-- The handler runs of the latest round. -/
def latestRuns : List Round → List (Nat × Outcome)
  | [] => []
  | round :: _ => round.runs

/-- The handler runs since the key was last claimed. -/
def State.runs (s : State) (k : String) : List (Nat × Outcome) := latestRuns (s.rounds k)

/-- A request that holds the key `k`, and where it stands. -/
def State.Holds (s : State) (k : String) (n : Nat) (progress : Progress) : Prop :=
  s.requests.row n = some ⟨k, progress⟩ ∧ progress.holds = true

/-- The same status, media type and body bytes. -/
def Response.Replays (copy run : Response) : Prop :=
  copy.statusCode = run.statusCode ∧ copy.mediaType = run.mediaType ∧ copy.body = run.body

/-- One handler run at most, and every other request got a 409 or a replay of it. -/
structure Round.Once (round : Round) : Prop where
  runs : round.runs.length ≤ 1
  answers : ∀ n reply, (n, reply) ∈ round.answers → reply = .conflict ∨
    ∃ m run copy, round.runs = [(m, .returned run)] ∧ run.statusCode < 500 ∧
      reply = .replayed copy ∧ copy.Replays run

/-- A request that is done ran the handler in a claim of its key or is among those answered in
one; none ran it unguarded. -/
def Accounted (rounds : List Round) (n : Nat) : Progress → Prop
  | .unguarded | .answered (.degraded _) => False
  | .answered (.ran outcome) => ∃ round ∈ rounds, (n, outcome) ∈ round.runs
  | .answered reply => ∃ round ∈ rounds, (n, reply) ∈ round.answers
  | .looking | .running | .storing _ | .freeing _ => True

/-- At most one run between two claims of a key, and its record is what is replayed. -/
structure AtMostOnce (s : State) : Prop where
  once : ∀ k, ∀ round ∈ s.rounds k, round.Once
  /-- A retained record is that of the latest claim's only run, and no handler runs. A new
  claim needs a free key. -/
  retained : ∀ k stored, s.redis.get k = some (.record stored) →
    ∃ n run, s.runs k = [(n, .returned run)] ∧ run.statusCode < 500 ∧
      run.record = some stored ∧ ∀ m progress, ¬s.Holds k m progress
  answered : ∀ n k progress, s.requests.row n = some ⟨k, progress⟩ →
    Accounted (s.rounds k) n progress
  /-- A failed run left the key free, or its `DEL` is next. -/
  freed : ∀ k n outcome, (n, outcome) ∈ s.runs k → outcome.failed = true →
    s.redis.get k = none ∨ s.requests.row n = some ⟨k, .freeing outcome⟩

/-! ### Claimed, stored or free -/

/-- What the request that holds the key has behind it. -/
def Progress.Owes (n : Nat) (runs : List (Nat × Outcome)) : Progress → Prop
  | .running => runs = []
  | .storing response =>
    runs = [(n, .returned response)] ∧ response.statusCode < 500 ∧ response.body.IsValidUTF8
  | .freeing outcome => runs = [(n, outcome)] ∧ outcome.failed = true
  | .looking | .unguarded | .answered _ => False

/-- What Redis holds under a key, and what the requests and the runs are then. -/
inductive KeyState (s : State) (k : String) : Prop where
  | claimed (n : Nat) (progress : Progress) :
    s.redis.get k = some .inProgress → s.Holds k n progress → progress.Owes n (s.runs k) →
    (∀ m other, s.Holds k m other → m = n) → KeyState s k
  | stored (n : Nat) (run : Response) (stored : Json) :
    s.redis.get k = some (.record stored) → s.runs k = [(n, .returned run)] →
    run.statusCode < 500 → run.record = some stored →
    (∀ m other, ¬s.Holds k m other) → KeyState s k
  | free : s.redis.get k = none → (∀ m other, ¬s.Holds k m other) → KeyState s k

/-- What an interleaving keeps. -/
structure Inv (s : State) : Prop where
  keys : ∀ k, KeyState s k
  rounds : ∀ k, ∀ round ∈ s.rounds k, round.Once
  requests : ∀ n k progress, s.requests.row n = some ⟨k, progress⟩ →
    Accounted (s.rounds k) n progress

theorem Inv.atMostOnce {s : State} (h : Inv s) : AtMostOnce s where
  once := h.rounds
  answered := h.requests
  retained k stored hget := by
    rcases h.keys k with
      ⟨_, _, hmarker, _⟩ | ⟨n, run, stored', hget', hruns, hstatus, hrecord, hno⟩ | ⟨hfree, _⟩
    · -- A key holds a marker, a record or nothing, by the state of its latest round.
      rw [hget] at hmarker
      cases hmarker
    · rw [hget] at hget'
      cases hget'
      exact ⟨n, run, hruns, hstatus, hrecord, hno⟩
    · rw [hget] at hfree
      cases hfree
  freed k n outcome hmem hfailed := by
    rcases h.keys k with ⟨m, progress, _, hholds, howes, _⟩ | ⟨_, run, _, _, hruns, hstatus, _⟩
      | ⟨hfree, _⟩
    · cases progress with
      | running =>
        rw [show s.runs k = [] from howes] at hmem
        cases hmem
      | storing response =>
        rw [howes.1, List.mem_singleton] at hmem
        cases hmem
        have hstatus := howes.2.1
        -- A response that is stored is no failure.
        simp only [Outcome.failed, decide_eq_true_eq] at hfailed
        omega
      | freeing outcome' =>
        rw [howes.1, List.mem_singleton] at hmem
        cases hmem
        exact .inr hholds.1
      | _ => exact howes.elim
    · rw [hruns, List.mem_singleton] at hmem
      cases hmem
      simp only [Outcome.failed, decide_eq_true_eq] at hfailed
      omega
    · exact .inl hfree

/-! ### One request's step -/

/-- A step of request `n` stores its own row, and touches its own key only. -/
structure Local (s t : State) (n : Nat) (k : String) (progress : Progress) : Prop where
  own : ∀ request, s.requests.row n = some request → request.cacheKey = k
  requests : t.requests = s.requests.put n ⟨k, progress⟩
  get : ∀ j, j ≠ k → t.redis.get j = s.redis.get j
  rounds : ∀ j, j ≠ k → t.rounds j = s.rounds j

section Local

variable {s t : State} {n : Nat} {k : String} {progress : Progress}

theorem KeyState.congr {j : String} (h : KeyState s j) (hget : t.redis.get j = s.redis.get j)
    (hruns : t.runs j = s.runs j) (hholds : ∀ m other, t.Holds j m other ↔ s.Holds j m other) :
    KeyState t j := by
  rcases h with
    ⟨m, p, hmarker, hm, howes, hone⟩ | ⟨m, run, stored, hstored, hrun, hstatus, hrec, hno⟩ |
    ⟨hfree, hno⟩
  · refine .claimed m p (hget.trans hmarker) ((hholds m p).mpr hm) (hruns ▸ howes) ?_
    intro m' other hm'
    exact hone m' other ((hholds m' other).mp hm')
  · refine .stored m run stored (hget.trans hstored) (hruns.trans hrun) hstatus hrec ?_
    exact fun m' other hm' => hno m' other ((hholds m' other).mp hm')
  · refine .free (hget.trans hfree) ?_
    exact fun m' other hm' => hno m' other ((hholds m' other).mp hm')

/-- Another request holds what it held. -/
theorem Local.holds_of_ne (h : Local s t n k progress) {j : String} {m : Nat} {other : Progress}
    (hm : m ≠ n) : t.Holds j m other ↔ s.Holds j m other := by
  unfold State.Holds
  rw [h.requests, Rows.row_put_of_ne _ _ hm]

theorem Local.row_self (h : Local s t n k progress) :
    t.requests.row n = some ⟨k, progress⟩ := by
  rw [h.requests, Rows.row_put_self]

/-- Who holds another key has not changed. -/
theorem Local.holds_of_key_ne (h : Local s t n k progress) {j : String} (hj : j ≠ k) (m : Nat)
    (other : Progress) : t.Holds j m other ↔ s.Holds j m other := by
  by_cases hm : m = n
  · subst hm
    constructor
    · rintro ⟨hrow, -⟩
      rw [h.row_self] at hrow
      cases hrow
      exact absurd rfl hj
    · rintro ⟨hrow, -⟩
      exact absurd (h.own _ hrow) hj
  · exact h.holds_of_ne hm

/-- A request that neither held the key nor holds it now. -/
theorem Local.holds_of_not (h : Local s t n k progress) (hbefore : ∀ p, ¬s.Holds k n p)
    (hafter : progress.holds = false) (m : Nat) (other : Progress) :
    t.Holds k m other ↔ s.Holds k m other := by
  by_cases hm : m = n
  · subst hm
    constructor
    · rintro ⟨hrow, hholds⟩
      rw [h.row_self] at hrow
      cases hrow
      rw [hafter] at hholds
      cases hholds
    · exact fun hholds => absurd hholds (hbefore other)
  · exact h.holds_of_ne hm

/-- The one request that held the key has let go of it. -/
theorem Local.no_holder (h : Local s t n k progress)
    (hone : ∀ m other, s.Holds k m other → m = n) (hafter : progress.holds = false) (m : Nat)
    (other : Progress) : ¬t.Holds k m other := by
  intro hholds
  by_cases hm : m = n
  · subst hm
    obtain ⟨hrow, hlater⟩ := hholds
    rw [h.row_self] at hrow
    cases hrow
    rw [hafter] at hlater
    cases hlater
  · exact hm (hone m other ((h.holds_of_ne hm).mp hholds))

/-- What is to be shown of a step: its own key, that key's rounds, and its own progress. -/
theorem Local.inv (h : Local s t n k progress) (hs : Inv s) (hkey : KeyState t k)
    (hrounds : ∀ round ∈ t.rounds k, round.Once)
    (hkept : ∀ m other, Accounted (s.rounds k) m other → Accounted (t.rounds k) m other)
    (hself : Accounted (t.rounds k) n progress) : Inv t where
  keys j := by
    by_cases hj : j = k
    · rw [hj]
      exact hkey
    · -- The other keys, their rounds and their holders are as they were.
      refine (hs.keys j).congr (h.get j hj) ?_ (h.holds_of_key_ne hj)
      unfold State.runs
      rw [h.rounds j hj]
  rounds j := by
    by_cases hj : j = k
    · rw [hj]
      exact hrounds
    · rw [h.rounds j hj]
      exact hs.rounds j
  requests m j other hrow := by
    rw [h.requests] at hrow
    rcases Rows.row_put hrow with ⟨rfl, hself'⟩ | ⟨-, hrow⟩
    · cases hself'
      exact hself
    · have haccounted := hs.requests m j other hrow
      by_cases hj : j = k
      · subst hj
        exact hkept m other haccounted
      · rw [h.rounds j hj]
        exact haccounted

end Local

/-! ### Rounds -/

/-- A run of the latest round. -/
theorem mem_latestRuns {rounds : List Round} {run : Nat × Outcome}
    (h : run ∈ latestRuns rounds) : ∃ round ∈ rounds, run ∈ round.runs := by
  cases rounds with
  | nil => cases h
  | cons round rounds => exact ⟨round, List.mem_cons_self, h⟩

theorem once_empty : Round.Once {} where
  runs := Nat.zero_le _
  answers _ _ h := by cases h

/-- A change to the latest round. -/
theorem once_onLatest {f : Round → Round} {rounds : List Round}
    (h : ∀ round ∈ rounds, round.Once)
    (hf : ∀ round, round.Once → round.runs = latestRuns rounds → (f round).Once) :
    ∀ round ∈ onLatest f rounds, round.Once := by
  intro round hround
  cases rounds with
  | nil =>
    rw [onLatest, List.mem_singleton] at hround
    rw [hround]
    exact hf {} once_empty rfl
  | cons latest rounds =>
    rcases List.mem_cons.mp hround with rfl | hround
    · exact hf latest (h latest List.mem_cons_self) rfl
    · exact h round (List.mem_cons_of_mem _ hround)

/-- Rounds only grow. -/
theorem accounted_mono {rounds rounds' : List Round}
    (h : ∀ round ∈ rounds, ∃ round' ∈ rounds', round.runs ⊆ round'.runs ∧
      round.answers ⊆ round'.answers) {n : Nat} {progress : Progress}
    (haccounted : Accounted rounds n progress) : Accounted rounds' n progress := by
  have hruns : ∀ outcome, (∃ round ∈ rounds, (n, outcome) ∈ round.runs) →
      ∃ round ∈ rounds', (n, outcome) ∈ round.runs := by
    rintro outcome ⟨round, hround, hmem⟩
    obtain ⟨round', hround', hsub, -⟩ := h round hround
    exact ⟨round', hround', hsub hmem⟩
  have hanswers : ∀ reply, (∃ round ∈ rounds, (n, reply) ∈ round.answers) →
      ∃ round ∈ rounds', (n, reply) ∈ round.answers := by
    rintro reply ⟨round, hround, hmem⟩
    obtain ⟨round', hround', -, hsub⟩ := h round hround
    exact ⟨round', hround', hsub hmem⟩
  -- Only what was answered is noted in a round.
  cases progress with
  | unguarded => exact haccounted
  | answered reply =>
    cases reply with
    | degraded => exact haccounted
    | ran outcome => exact hruns outcome haccounted
    | conflict => exact hanswers _ haccounted
    | replayed response => exact hanswers _ haccounted
  | _ => trivial

/-- What was accounted for still is. -/
theorem accounted_onLatest {f : Round → Round} {rounds : List Round}
    (hf : ∀ round, round.runs ⊆ (f round).runs ∧ round.answers ⊆ (f round).answers) {n : Nat}
    {progress : Progress} (h : Accounted rounds n progress) :
    Accounted (onLatest f rounds) n progress := by
  refine accounted_mono ?_ h
  intro round hround
  cases rounds with
  | nil => cases hround
  | cons latest rounds =>
    rcases List.mem_cons.mp hround with rfl | hround
    · exact ⟨_, List.mem_cons_self, hf round⟩
    · exact ⟨round, List.mem_cons_of_mem _ hround, fun _ h => h, fun _ h => h⟩

section Steps

variable {s : State} {n : Nat} {k : String}

theorem rounds_answer (reply : Reply) : (s.answer n k reply).rounds k =
    onLatest (fun round => { round with answers := (n, reply) :: round.answers }) (s.rounds k) :=
  Function.update_self ..

theorem rounds_ran (outcome : Outcome) (next : Progress) : (s.ran n k outcome next).rounds k =
    onLatest (fun round => { round with runs := (n, outcome) :: round.runs }) (s.rounds k) :=
  Function.update_self ..

theorem runs_answer (reply : Reply) : (s.answer n k reply).runs k = s.runs k := by
  rw [State.runs, rounds_answer, State.runs]
  cases s.rounds k <;> rfl

theorem runs_ran (outcome : Outcome) (next : Progress) :
    (s.ran n k outcome next).runs k = (n, outcome) :: s.runs k := by
  rw [State.runs, rounds_ran, State.runs]
  cases s.rounds k <;> rfl

/-- The claim of a request that holds the key. -/
theorem Inv.claimed (h : Inv s) {progress : Progress} (hholds : s.Holds k n progress) :
    s.redis.get k = some .inProgress ∧ progress.Owes n (s.runs k) ∧
      ∀ m other, s.Holds k m other → m = n := by
  rcases h.keys k with ⟨m, p, hmarker, hm, howes, hone⟩ | ⟨_, _, _, _, _, _, _, hno⟩ | ⟨_, hno⟩
  · obtain rfl : n = m := hone n progress hholds
    have hrow := hm.1
    rw [hholds.1] at hrow
    cases hrow
    exact ⟨hmarker, howes, hone⟩
  · -- A key that holds a record, or nothing, is held by no request.
    exact absurd hholds (hno n progress)
  · exact absurd hholds (hno n progress)

/-- A request that found the key taken. -/
theorem Inv.looking (h : Inv s) (hrow : ∀ request, s.requests.row n ≠ some request) :
    Inv (s.move n k .looking) := by
  have hlocal : Local s (s.move n k .looking) n k .looking :=
    ⟨fun request hrequest => absurd hrequest (hrow request), rfl, fun _ _ => rfl, fun _ _ => rfl⟩
  have hbefore : ∀ p, ¬s.Holds k n p := fun p hp => hrow _ hp.1
  refine hlocal.inv h ?_ (h.rounds k) (fun _ _ haccounted => haccounted) trivial
  exact (h.keys k).congr rfl rfl (hlocal.holds_of_not hbefore rfl)

/-- A claim: the key was free, so nobody held it. -/
theorem Inv.claim (h : Inv s) (hrow : ∀ request, s.requests.row n ≠ some request)
    {redis : Store String Cached}
    (hclaim : s.redis.setNx k .inProgress (some lockSeconds) = some redis) :
    Inv { (s.move n k .running).onRounds k ({} :: ·) with redis } := by
  obtain ⟨hfree, rfl⟩ := Store.setNx_eq_some.mp hclaim
  generalize ht : ({ (s.move n k .running).onRounds k ({} :: ·) with
    redis := s.redis.set k .inProgress (some lockSeconds) } : State) = t
  have hrounds : t.rounds k = {} :: s.rounds k := by
    rw [← ht]
    exact Function.update_self ..
  have hlocal : Local s t n k .running := by
    subst ht
    refine ⟨fun request hrequest => absurd hrequest (hrow request), rfl, ?_, ?_⟩
    · exact fun j hj => Store.get_set_of_ne _ _ _ hj
    · exact fun j hj => Function.update_of_ne hj ..
  have hno : ∀ m other, ¬s.Holds k m other := by
    intro m other hholds
    have hmarker := (h.claimed hholds).1
    rw [hfree] at hmarker
    cases hmarker
  refine hlocal.inv h ?_ ?_ ?_ trivial
  · refine .claimed n .running ?_ ⟨hlocal.row_self, rfl⟩ ?_ ?_
    · subst ht
      refine Store.get_set_self _ _ _ ?_
      intro seconds hseconds
      cases hseconds
      decide
    · show latestRuns (t.rounds k) = []
      rw [hrounds]
      rfl
    · intro m other hholds
      by_contra hm
      exact hno m other ((hlocal.holds_of_ne hm).mp hholds)
  · rw [hrounds]
    intro round hround
    rcases List.mem_cons.mp hround with rfl | hround
    · exact once_empty
    · exact h.rounds k round hround
  · intro m other haccounted
    rw [hrounds]
    refine accounted_mono ?_ haccounted
    intro round hround
    exact ⟨round, List.mem_cons_of_mem _ hround, fun _ h => h, fun _ h => h⟩

/-- A request that looked is answered with what the latest round allows. -/
theorem Inv.answer (h : Inv s) (hrow : s.requests.row n = some ⟨k, .looking⟩) {reply : Reply}
    (hreply : reply = .conflict ∨ ∃ m run copy, s.runs k = [(m, .returned run)] ∧
      run.statusCode < 500 ∧ reply = .replayed copy ∧ copy.Replays run) :
    Inv (s.answer n k reply) := by
  have hlocal : Local s (s.answer n k reply) n k (.answered reply) := by
    refine ⟨?_, rfl, fun _ _ => rfl, fun j hj => Function.update_of_ne hj ..⟩
    intro request hrequest
    rw [hrow] at hrequest
    cases hrequest
    rfl
  have hbefore : ∀ p, ¬s.Holds k n p := by
    rintro p ⟨hp, hholds⟩
    rw [hrow] at hp
    cases hp
    cases hholds
  have hmem : ∃ round ∈ (s.answer n k reply).rounds k, (n, reply) ∈ round.answers := by
    rw [rounds_answer]
    cases s.rounds k with
    | nil => exact ⟨_, List.mem_cons_self, List.mem_cons_self⟩
    | cons round rounds => exact ⟨_, List.mem_cons_self, List.mem_cons_self⟩
  refine hlocal.inv h ?_ ?_ ?_ ?_
  · exact (h.keys k).congr rfl (runs_answer reply) (hlocal.holds_of_not hbefore rfl)
  · rw [rounds_answer]
    refine once_onLatest (h.rounds k) fun round honce hruns => ⟨honce.runs, ?_⟩
    intro m other hother
    rcases List.mem_cons.mp hother with hnew | hold
    · -- The answer that is new is the one the round's only run accounts for.
      cases hnew
      rcases hreply with hconflict | ⟨m, run, copy, hrun, hrest⟩
      · exact .inl hconflict
      · exact .inr ⟨m, run, copy, hruns.trans hrun, hrest⟩
    · exact honce.answers m other hold
  · intro m other haccounted
    rw [rounds_answer]
    refine accounted_onLatest ?_ haccounted
    exact fun round => ⟨List.Subset.refl _, List.subset_cons_self _ _⟩
  · rcases hreply with rfl | ⟨_, _, _, _, _, rfl, _⟩
    · exact hmem
    · exact hmem

/-- What a request owes after its handler: the record of a response below 500, or the key. -/
theorem owes_afterRun {outcome : Outcome}
    (hbody : ∀ response, outcome = .returned response → response.body.IsValidUTF8) :
    (afterRun outcome).Owes n [(n, outcome)] ∧ (afterRun outcome).holds = true := by
  cases outcome with
  | raised => exact ⟨⟨rfl, rfl⟩, rfl⟩
  | returned response =>
    unfold afterRun
    dsimp only
    split
    · next hstatus => exact ⟨⟨rfl, hstatus, hbody response rfl⟩, rfl⟩
    · next hstatus =>
      refine ⟨⟨rfl, ?_⟩, rfl⟩
      simp only [Outcome.failed, decide_eq_true_eq]
      omega

/-- A handler run ends under its claim: it is the first of its round, and nobody has been
answered from another. -/
theorem Inv.finish (h : Inv s) (hrow : s.requests.row n = some ⟨k, .running⟩) {outcome : Outcome}
    (hbody : ∀ response, outcome = .returned response → response.body.IsValidUTF8) :
    Inv (s.ran n k outcome (afterRun outcome)) := by
  obtain ⟨hmarker, howes, hone⟩ := h.claimed ⟨hrow, rfl⟩
  -- The holder of the key has not run in this round.
  have hnone : s.runs k = [] := howes
  obtain ⟨howes', hholds'⟩ := owes_afterRun (n := n) hbody
  have hlocal : Local s (s.ran n k outcome (afterRun outcome)) n k (afterRun outcome) := by
    refine ⟨?_, rfl, fun _ _ => rfl, fun j hj => Function.update_of_ne hj ..⟩
    intro request hrequest
    rw [hrow] at hrequest
    cases hrequest
    rfl
  refine hlocal.inv h ?_ ?_ ?_ ?_
  · refine .claimed n (afterRun outcome) hmarker ⟨hlocal.row_self, hholds'⟩ ?_ ?_
    · rw [runs_ran, hnone]
      exact howes'
    · intro m other hholds
      by_contra hm
      exact hm (hone m other ((hlocal.holds_of_ne hm).mp hholds))
  · rw [rounds_ran]
    refine once_onLatest (h.rounds k) ?_
    intro round honce hruns
    -- Before this run the round had none, so its answers are conflicts.
    rw [show latestRuns (s.rounds k) = [] from hnone] at hruns
    refine ⟨by simp [hruns], ?_⟩
    intro m reply hreply
    rcases honce.answers m reply hreply with hconflict | ⟨_, _, _, hrun, _⟩
    · exact .inl hconflict
    · rw [hruns] at hrun
      cases hrun
  · intro m other haccounted
    rw [rounds_ran]
    refine accounted_onLatest ?_ haccounted
    exact fun round => ⟨List.subset_cons_self _ _, List.Subset.refl _⟩
  · cases outcome with
    | raised => trivial
    | returned response =>
      unfold afterRun
      dsimp only
      split <;> trivial

/-- The command that ends a claim: a record in place of the marker, or nothing. -/
theorem Inv.release (h : Inv s) {progress : Progress} {outcome : Outcome}
    (hholds : s.Holds k n progress) (hruns : s.runs k = [(n, outcome)])
    {redis : Store String Cached} (hget : ∀ j, j ≠ k → redis.get j = s.redis.get j)
    (hkey : redis.get k = none ∨ ∃ run stored, outcome = .returned run ∧ run.statusCode < 500 ∧
      run.record = some stored ∧ redis.get k = some (.record stored)) :
    Inv { s.move n k (.answered (.ran outcome)) with redis } := by
  obtain ⟨-, -, hone⟩ := h.claimed hholds
  have hlocal : Local s { s.move n k (.answered (.ran outcome)) with redis } n k
      (.answered (.ran outcome)) := by
    refine ⟨?_, rfl, hget, fun _ _ => rfl⟩
    intro request hrequest
    rw [hholds.1] at hrequest
    cases hrequest
    rfl
  have hno := hlocal.no_holder hone rfl
  refine hlocal.inv h ?_ (h.rounds k) (fun _ _ haccounted => haccounted) ?_
  · rcases hkey with hfree | ⟨run, stored, rfl, hstatus, hrecord, hstored⟩
    · exact .free hfree hno
    · exact .stored n run stored hstored hruns hstatus hrecord hno
  · have hmem : (n, outcome) ∈ s.runs k := by
      rw [hruns]
      exact List.mem_singleton_self _
    exact mem_latestRuns hmem

/-- Redis alone changes: keys nobody holds may be gone. -/
theorem Inv.redis (h : Inv s) {redis : Store String Cached}
    (hget : ∀ j, redis.get j = s.redis.get j ∨
      (redis.get j = none ∧ ∀ m other, ¬s.Holds j m other)) : Inv { s with redis } where
  keys j := by
    rcases hget j with hsame | ⟨hgone, hno⟩
    · exact (h.keys j).congr hsame rfl fun _ _ => Iff.rfl
    · exact .free hgone hno
  rounds := h.rounds
  requests := h.requests

/-- Time passes: held keys keep their marker, by assumption. -/
theorem Inv.wait (h : Inv s) {seconds : Nat} (hdependable : Dependable s (.wait seconds)) :
    Inv { s with redis := s.redis.wait seconds } := by
  refine h.redis fun j => ?_
  cases hget : (s.redis.wait seconds).get j with
  | some cached =>
    left
    rw [Store.get_of_get_wait hget]
  | none =>
    right
    refine ⟨rfl, fun m other hholds => ?_⟩
    have hmem : m ∈ s.requests.select fun request => request.progress.holds ∧
        ¬((s.redis.wait seconds).get request.cacheKey).any Cached.isMarker := by
      refine Rows.mem_select.mpr ⟨_, hholds.1, ?_⟩
      simp [hholds.2, hget]
    rw [show s.requests.select _ = [] from hdependable] at hmem
    cases hmem

end Steps

section Runs

variable {sha256 : String → String} {ttl : Nat} {s t : State}

/-- A record is the one of the round's run, so a request that found it is answered with it. -/
theorem Inv.replay (h : Inv s) {n : Nat} {k : String} {stored : Json}
    (hrow : s.requests.row n = some ⟨k, .looking⟩) (hget : s.redis.get k = some (.record stored)) :
    ∃ copy, Idempotency.replay stored = some copy ∧ Inv (s.answer n k (.replayed copy)) := by
  obtain ⟨m, run, hruns, hstatus, hrecord, -⟩ := h.atMostOnce.retained k stored hget
  refine ⟨_, replay_record hrecord, ?_⟩
  exact h.answer hrow (.inr ⟨m, run, _, hruns, hstatus, rfl, rfl, rfl, rfl⟩)

/-- The record of a request's response takes the place of its marker. -/
theorem Inv.store (h : Inv s) {n : Nat} {k : String} {response : Response} {stored : Json}
    (hrow : s.requests.row n = some ⟨k, .storing response⟩)
    (hrecord : response.record = some stored) :
    Inv { s.move n k (.answered (.ran (.returned response))) with
      redis := s.redis.set k (.record stored) (some ttl) } := by
  obtain ⟨-, ⟨hruns, hstatus, -⟩, -⟩ := h.claimed ⟨hrow, rfl⟩
  refine h.release ⟨hrow, rfl⟩ hruns (fun j hj => Store.get_set_of_ne _ _ _ hj) ?_
  rcases Store.get_set_cases s.redis k (.record stored) (some ttl) with hstored | hgone
  · exact .inr ⟨response, stored, rfl, hstatus, hrecord, hstored⟩
  · -- A retention of no time at all stores nothing.
    exact .inl hgone

/-- A key is freed after a run that failed. -/
theorem Inv.free (h : Inv s) {n : Nat} {k : String} {outcome : Outcome}
    (hrow : s.requests.row n = some ⟨k, .freeing outcome⟩) :
    Inv { s.move n k (.answered (.ran outcome)) with redis := s.redis.del k } := by
  obtain ⟨-, ⟨hruns, -⟩, -⟩ := h.claimed ⟨hrow, rfl⟩
  refine h.release ⟨hrow, rfl⟩ hruns (fun j hj => Store.get_del_of_ne _ hj) (.inl ?_)
  exact Store.get_del_self _ k

/-- One dependable step keeps the invariant. -/
theorem Inv.step {l : Label} (h : Inv s) (hdependable : Dependable s l)
    (hst : step sha256 ttl s l = some t) : Inv t := by
  have hnone : ∀ {n}, n ∉ s.requests.keys → ∀ request, s.requests.row n ≠ some request :=
    fun hnew request hrequest => hnew (s.requests.row_keys hrequest)
  cases effect_of_step hst with
  | wait seconds => exact h.wait hdependable
  | unclaimed => exact absurd hdependable Bool.false_ne_true
  | taken hnew => exact h.looking (hnone hnew)
  | claimed hnew hget => exact h.claim (hnone hnew) (Store.setNx_eq_some.mpr ⟨hget, rfl⟩)
  | unread hrow hread =>
    -- Redis answers, and what it holds can be replayed.
    obtain ⟨stored, hget, hbad⟩ := hread hdependable
    obtain ⟨copy, hcopy, -⟩ := h.replay hrow hget
    cases hbad.symm.trans hcopy
  | conflict hrow => exact h.answer hrow (.inl rfl)
  | replayed hrow hget hreplay =>
    obtain ⟨copy, hcopy, hinv⟩ := h.replay hrow hget
    obtain rfl := Option.some.inj (hcopy.symm.trans hreplay)
    exact hinv
  | finished hrow =>
    refine h.finish hrow ?_
    rintro response rfl
    exact hdependable
  | degraded hrow => exact (h.requests _ _ _ hrow).elim
  | renewed =>
    obtain rfl := hdependable
    exact h.redis fun j => .inl (Store.get_expire _ j _ (by decide))
  | stored hrow hrecord => exact h.store hrow hrecord
  | unstored hrow hnot =>
    obtain ⟨-, ⟨-, -, hbody⟩, -⟩ := h.claimed ⟨hrow, rfl⟩
    obtain ⟨stored, hrecord⟩ := record_of_utf8 hbody
    cases hrecord.symm.trans (hnot hdependable)
  | freed hrow =>
    obtain rfl := hdependable
    exact h.free hrow

theorem inductive_inv : (idempotency sha256 ttl).Inductive Dependable Inv where
  init s hs := by
    subst hs
    refine ⟨?_, ?_, ?_⟩
    · refine fun k => .free rfl ?_
      rintro n progress ⟨hrow, -⟩
      cases hrow
    · intro k round hround
      cases hround
    · intro n k progress hrow
      cases hrow
  step _ _ _ h hdependable hst := h.step hdependable hst

/-- **At most once.** In every interleaving over a dependable Redis, a claim of a key sees one
handler run at most; everyone else gets a 409 or a replay of it; and a failed run frees the
key. -/
theorem at_most_once (h : (idempotency sha256 ttl).ReachVia Dependable s) :
    AtMostOnce s :=
  (inductive_inv.always h).atMostOnce

end Runs

/-- A lead is posted four times under one key: the first attempt fails while the second gets a
409, the third creates the lead and the fourth is replayed. -/
theorem at_most_once_retries : ∃ s, (idempotency id 86400).ReachVia Dependable s ∧
    (s.rounds "idempotency:1:anon:/leads:k").map (fun round => (round.runs.length,
      round.answers.length)) = [(1, 1), (1, 1)] ∧ AtMostOnce s := by
  obtain ⟨s, hs, hp⟩ := Machine.exists_reachVia_of_run (M := idempotency id 86400)
    (G := Dependable) (s := ⟨.empty, .empty, fun _ => []⟩)
    [.acquire 1 ⟨some "1", "", "/leads", "k"⟩ true, .acquire 2 ⟨some "1", "", "/leads", "k"⟩ true,
      .wait 20, .renew 1 true, .wait 20, .look 2 true, .finish 1 .raised, .free 1 true,
      .acquire 3 ⟨some "1", "", "/leads", "k"⟩ true,
      .finish 3 (.returned ⟨201, some "application/json", "ok".toUTF8, []⟩), .store 3 true,
      .wait 60, .acquire 4 ⟨some "1", "", "/leads", "k"⟩ true, .look 4 true]
    (fun s => (s.rounds "idempotency:1:anon:/leads:k").map (fun round => (round.runs.length,
      round.answers.length)) = [(1, 1), (1, 1)]) rfl (by decide)
  exact ⟨s, hs, of_decide_eq_true hp, at_most_once hs⟩

end Idempotency

end Core

end RealEstate
