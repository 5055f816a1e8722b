import RealEstate.Core.Cache

/-!
# Readers and writers of the cache (`core/cache.py`, `core/database.py`)

`cache_aside` split at its Redis commands and its load, and writers that commit and then
run their `bump_version` callbacks, so that every interleaving is a run of the machine
`cacheAside`.

- `step`: one command, one load, one commit, or time passing.
- `Coherent`: a read is never answered with a value older than a commit whose bump had
  finished when the read started.
- `cache_coherent`: `Coherent` in every run whose bumps reach Redis. Values may expire and
  every other command may fail.
-/

namespace RealEstate

namespace Core

namespace Cache

open Systems

/-- The arguments of `cache_aside`. -/
structure Call where
  group : Group
  ident : String
  ttlSeconds : Nat
  /-- `enabled`, and there is a Redis to ask. -/
  enabled : Bool

/-- Where a reader stands. -/
inductive Progress (V : Type) where
  | starting
  /-- The version is read; the value is next. -/
  | versioned (version : Nat)
  /-- The loader is next; without a version its value is not stored. -/
  | loading (version : Option Nat)
  | storing (version : Nat) (value : Stamped V)
  | returned (value : Stamped V)

/-- A call of `cache_aside` under way. -/
structure Reader (V : Type) where
  call : Call
  /-- The commits whose bumps of the reader's group had finished when it started. -/
  startedAfter : List Nat
  progress : Progress V

/-- A transaction that committed and has bumps of these groups to run. -/
structure Writer where
  committedAt : Nat
  todo : List Group

/-- The committed database after `commits` transactions, Redis, and who reads and writes.
`bumped g` lists the commits whose bumps of `g` finished. -/
structure State (D V B : Type) where
  db : D
  commits : Nat
  redis : Store String (Cached B)
  readers : Rows Nat (Reader V)
  writers : Rows Nat Writer
  bumped : Group → List Nat

/-- `ok` says whether the Redis command of the step succeeded. -/
inductive Label (D : Type) where
  | wait (seconds : Nat)
  | commit (n : Nat) (db : D) (todo : List Group)
  | bump (n : Nat) (ok : Bool)
  | start (n : Nat) (call : Call)
  | version (n : Nat) (ok : Bool)
  | look (n : Nat) (ok : Bool)
  | load (n : Nat)
  | store (n : Nat) (ok : Bool)

variable {D V B : Type}

/-- Reader `n` moves on. -/
def State.move (s : State D V B) (n : Nat) (call : Call) (after : List Nat)
    (progress : Progress V) : State D V B :=
  { s with readers := s.readers.put n ⟨call, after, progress⟩ }

section Machine

variable (load : Call → D → V) (dumps : V → Option B) (deserialize : B → Option V)

/-- The cached value under a key, if it can be read back. -/
def cachedValue (redis : Store String (Cached B)) (key : String) : Option (Stamped V) :=
  (lookup redis key).bind fun b => (deserialize b.value).map (⟨·, b.loadedAt⟩)

/-- One Redis command, one load, one commit, or time passing. -/
def step (s : State D V B) : Label D → Option (State D V B)
  | .wait seconds => some { s with redis := s.redis.wait seconds }
  | .commit n db todo =>
    if n ∈ s.writers.keys then none
    else some { s with
      db
      commits := s.commits + 1
      writers := s.writers.put n ⟨s.commits + 1, todo⟩ }
  | .bump n ok =>
    match s.writers.row n with
    | some ⟨committedAt, g :: todo⟩ =>
      some { s with
        redis := if ok then bumpVersion s.redis g else s.redis
        writers := s.writers.put n ⟨committedAt, todo⟩
        bumped := Function.update s.bumped g (s.bumped g ++ [committedAt]) }
    | _ => none
  | .start n call =>
    -- Without a cache to ask, the loader runs at once.
    if n ∈ s.readers.keys then none
    else some (s.move n call (s.bumped call.group)
      (if call.enabled then .starting else .loading none))
  | .version n ok =>
    match s.readers.row n with
    | some ⟨call, after, .starting⟩ =>
      some (s.move n call after
        (if ok then .versioned (currentVersion s.redis call.group) else .loading none))
    | _ => none
  | .look n ok =>
    match s.readers.row n with
    | some ⟨call, after, .versioned version⟩ =>
      -- After a failed `GET` nothing is stored either.
      if ok = false then some (s.move n call after (.loading none))
      else match cachedValue deserialize s.redis (valueKey call.group call.ident version) with
        | some value => some (s.move n call after (.returned value))
        | none => some (s.move n call after (.loading (some version)))
    | _ => none
  | .load n =>
    match s.readers.row n with
    | some ⟨call, after, .loading none⟩ =>
      some (s.move n call after (.returned ⟨load call s.db, s.commits⟩))
    | some ⟨call, after, .loading (some version)⟩ =>
      some (s.move n call after (.storing version ⟨load call s.db, s.commits⟩))
    | _ => none
  | .store n ok =>
    match s.readers.row n with
    | some ⟨call, after, .storing version value⟩ =>
      -- A value that cannot be encoded is returned without being stored.
      let redis := match ok, dumps value.value with
        | true, some encoded =>
          remember s.redis (valueKey call.group call.ident version) ⟨encoded, value.loadedAt⟩
            call.ttlSeconds
        | _, _ => s.redis
      some { s.move n call after (.returned value) with redis }
    | _ => none

/-- Readers and writers, from an empty Redis on. -/
def cacheAside : Machine (State D V B) (Label D) where
  init s := s.commits = 0 ∧ s.redis = .empty ∧ s.readers = .empty ∧ s.writers = .empty ∧
    s.bumped = fun _ => []
  step := step load dumps deserialize

end Machine

/-- The step is no bump that fails. -/
def BumpSucceeds : Label D → Prop
  | .bump _ ok => ok = true
  | _ => True

/-- By cases of the label. -/
instance (l : Label D) : Decidable (BumpSucceeds l) := by
  unfold BumpSucceeds
  split <;> infer_instance

/-- No read returned a value loaded before a commit whose bump had finished when it started. -/
def Coherent (s : State D V B) : Prop :=
  ∀ n call after value, s.readers.row n = some ⟨call, after, .returned value⟩ →
    ∀ c ∈ after, c ≤ value.loadedAt

/-! ### The invariant -/

/-- What a reader may rely on: the version it read counts every bump that had finished when it
started, and what it loaded is as fresh as that version. -/
def Progress.Fresh (bumped after : List Nat) : Progress V → Prop
  | .starting | .loading none => True
  | .versioned version | .loading (some version) =>
    after.length ≤ version ∧ version ≤ bumped.length
  | .storing version value => after.length ≤ version ∧ version ≤ bumped.length ∧
    ∀ c ∈ bumped.take version, c ≤ value.loadedAt
  | .returned value => ∀ c ∈ after, c ≤ value.loadedAt

/-- Later bumps take nothing away. -/
theorem Progress.Fresh.later {bumped bumped' after : List Nat} {progress : Progress V}
    (h : progress.Fresh bumped after) (hgrows : bumped <+: bumped') :
    progress.Fresh bumped' after := by
  have hlength := hgrows.length_le
  cases progress with
  | starting => trivial
  | versioned version => exact ⟨h.1, Nat.le_trans h.2 hlength⟩
  | loading version =>
    cases version with
    | none => trivial
    | some version => exact ⟨h.1, Nat.le_trans h.2 hlength⟩
  | storing version value =>
    -- The bumps the version counts are a prefix, and stay one.
    obtain ⟨hafter, hversion, hfresh⟩ := h
    obtain ⟨rest, rfl⟩ := hgrows
    refine ⟨hafter, Nat.le_trans hversion hlength, ?_⟩
    rw [List.take_append_of_le_length hversion]
    exact hfresh
  | returned value => exact h

/-- The invariant. -/
structure Inv (s : State D V B) : Prop where
  versioned : Versioned s.redis s.bumped
  bumped : ∀ g, ∀ c ∈ s.bumped g, c ≤ s.commits
  writers : ∀ n writer, s.writers.row n = some writer → writer.committedAt ≤ s.commits
  started : ∀ n call after progress, s.readers.row n = some ⟨call, after, progress⟩ →
    after <+: s.bumped call.group
  fresh : ∀ n call after progress, s.readers.row n = some ⟨call, after, progress⟩ →
    progress.Fresh (s.bumped call.group) after

theorem Inv.coherent {s : State D V B} (h : Inv s) : Coherent s :=
  fun n call after value hrow => h.fresh n call after (.returned value) hrow

/-- A reader moves on to a progress that is fresh. -/
theorem Inv.move {s : State D V B} (h : Inv s) {n : Nat} {call : Call} {after : List Nat}
    {progress : Progress V} (hafter : after <+: s.bumped call.group)
    (hfresh : progress.Fresh (s.bumped call.group) after) :
    Inv (s.move n call after progress) where
  versioned := h.versioned
  bumped := h.bumped
  writers := h.writers
  started m call' after' progress' hrow := by
    rcases Rows.row_put hrow with ⟨-, heq⟩ | ⟨-, hrow⟩
    · cases heq
      exact hafter
    · exact h.started m call' after' progress' hrow
  fresh m call' after' progress' hrow := by
    rcases Rows.row_put hrow with ⟨-, heq⟩ | ⟨-, hrow⟩
    · cases heq
      exact hfresh
    · exact h.fresh m call' after' progress' hrow

/-- A value found under a version is as fresh as the version. -/
theorem Inv.cachedValue_fresh {s : State D V B} (h : Inv s) {deserialize : B → Option V}
    {g : Group} {ident : String} {version : Nat} {value : Stamped V}
    (hget : cachedValue deserialize s.redis (valueKey g ident version) = some value) :
    ∀ c ∈ (s.bumped g).take version, c ≤ value.loadedAt := by
  obtain ⟨b, hb, hvalue⟩ := Option.bind_eq_some_iff.mp hget
  obtain ⟨v, -, rfl⟩ := Option.map_eq_some_iff.mp hvalue
  exact (h.versioned.fresh g ident version b (lookup_eq_some.mp hb)).2

theorem Inv.init {s : State D V B} (hredis : s.redis = .empty) (hreaders : s.readers = .empty)
    (hwriters : s.writers = .empty) (hbumped : s.bumped = fun _ => []) : Inv s where
  versioned := by
    rw [hredis, hbumped]
    exact .empty
  bumped g c hc := by
    rw [hbumped] at hc
    cases hc
  writers n writer hrow := by
    rw [hwriters] at hrow
    cases hrow
  started n call after progress hrow := by
    rw [hreaders] at hrow
    cases hrow
  fresh n call after progress hrow := by
    rw [hreaders] at hrow
    cases hrow

/-! ### Steps -/

variable {s : State D V B}

/-- A commit, with its bumps ahead. -/
theorem Inv.commit (h : Inv s) (n : Nat) (db : D) (todo : List Group) :
    Inv { s with
      db
      commits := s.commits + 1
      writers := s.writers.put n ⟨s.commits + 1, todo⟩ } where
  versioned := h.versioned
  bumped g c hc := Nat.le_succ_of_le (h.bumped g c hc)
  writers m writer hrow := by
    rcases Rows.row_put hrow with ⟨-, rfl⟩ | ⟨-, hrow⟩
    · exact Nat.le_refl _
    · exact Nat.le_succ_of_le (h.writers m writer hrow)
  started := h.started
  fresh := h.fresh

/-- A bump makes the versions before it unreachable. -/
theorem Inv.bump (h : Inv s) {n committedAt : Nat} {g : Group} {todo : List Group}
    (hrow : s.writers.row n = some ⟨committedAt, g :: todo⟩) :
    Inv { s with
      redis := bumpVersion s.redis g
      writers := s.writers.put n ⟨committedAt, todo⟩
      bumped := Function.update s.bumped g (s.bumped g ++ [committedAt]) } where
  versioned := h.versioned.bump g committedAt
  bumped g' c hc := by
    rcases mem_update_append hc with hc | ⟨-, rfl⟩
    · exact h.bumped g' c hc
    · exact h.writers n _ hrow
  writers m writer hm := by
    rcases Rows.row_put hm with ⟨-, rfl⟩ | ⟨-, hm⟩
    · have hle := h.writers n _ hrow
      exact hle
    · exact h.writers m writer hm
  started m call after progress hm :=
    (h.started m call after progress hm).trans (prefix_update_append s.bumped g call.group _)
  fresh m call after progress hm :=
    (h.fresh m call after progress hm).later (prefix_update_append s.bumped g call.group _)

/-- A reader reads the version. -/
theorem Inv.version (h : Inv s) {n : Nat} {call : Call} {after : List Nat} {ok : Bool}
    (hrow : s.readers.row n = some ⟨call, after, .starting⟩) :
    Inv (s.move n call after
      (if ok then .versioned (currentVersion s.redis call.group) else .loading none)) := by
  have hafter := h.started n call after _ hrow
  refine h.move hafter ?_
  cases ok with
  | false => trivial
  | true =>
    -- The version just read counts every bump so far.
    show after.length ≤ currentVersion s.redis call.group ∧ _
    rw [h.versioned.currentVersion]
    exact ⟨hafter.length_le, Nat.le_refl _⟩

/-- It finds a value of that version. -/
theorem Inv.hit (h : Inv s) {n : Nat} {call : Call} {after : List Nat} {version : Nat}
    {deserialize : B → Option V} {value : Stamped V}
    (hrow : s.readers.row n = some ⟨call, after, .versioned version⟩)
    (hget : cachedValue deserialize s.redis (valueKey call.group call.ident version) =
      some value) : Inv (s.move n call after (.returned value)) := by
  have hafter := h.started n call after _ hrow
  obtain ⟨hlen, -⟩ := h.fresh n call after _ hrow
  refine h.move hafter fun c hc => ?_
  exact h.cachedValue_fresh hget c (mem_take_of_initial hafter hlen hc)

/-- It loads the value from the database. -/
theorem Inv.load (h : Inv s) {n : Nat} {call : Call} {after : List Nat} {version : Option Nat}
    (hrow : s.readers.row n = some ⟨call, after, .loading version⟩) (v : V) :
    Inv (s.move n call after
      (version.elim (.returned ⟨v, s.commits⟩) (.storing · ⟨v, s.commits⟩))) := by
  have hafter := h.started n call after _ hrow
  have hfresh := h.fresh n call after _ hrow
  refine h.move hafter ?_
  -- The load sees every commit so far, and bumps only follow their commits.
  cases version with
  | none => exact fun c hc => h.bumped call.group c (hafter.subset hc)
  | some version =>
    exact ⟨hfresh.1, hfresh.2, fun c hc => h.bumped call.group c (List.mem_of_mem_take hc)⟩

/-- It stores it, under the version that it read before. -/
theorem Inv.stored (h : Inv s) {n : Nat} {call : Call} {after : List Nat} {version : Nat}
    {value : Stamped V} (hrow : s.readers.row n = some ⟨call, after, .storing version value⟩)
    {redis : Store String (Cached B)} (hredis : Versioned redis s.bumped) :
    Inv { s.move n call after (.returned value) with redis } := by
  have hafter := h.started n call after _ hrow
  obtain ⟨hlen, -, hvalue⟩ := h.fresh n call after _ hrow
  have hmove : Inv (s.move n call after (.returned value)) :=
    h.move hafter fun c hc => hvalue c (mem_take_of_initial hafter hlen hc)
  exact { hmove with versioned := hredis }

section Machine

variable {load : Call → D → V} {dumps : V → Option B} {deserialize : B → Option V}

/-- Whatever the reader stores is as fresh as the version it stores it under. -/
theorem Inv.remembered (h : Inv s) {n : Nat} {call : Call} {after : List Nat} {version : Nat}
    {value : Stamped V} (hrow : s.readers.row n = some ⟨call, after, .storing version value⟩)
    (b : B) : Versioned (remember s.redis (valueKey call.group call.ident version)
      ⟨b, value.loadedAt⟩ call.ttlSeconds) s.bumped := by
  obtain ⟨-, hversion, hvalue⟩ := h.fresh n call after _ hrow
  exact h.versioned.remember hversion hvalue

/-- One step keeps the invariant. -/
theorem Inv.step {l : Label D} {t : State D V B} (h : Inv s) (hbump : BumpSucceeds l)
    (hst : step load dumps deserialize s l = some t) : Inv t := by
  cases l with
  | wait seconds =>
    cases hst
    exact { h with versioned := h.versioned.wait seconds }
  | commit n db todo =>
    simp only [Cache.step, Option.ite_none_left_eq_some] at hst
    obtain ⟨-, hst⟩ := hst
    cases hst
    exact h.commit n db todo
  | bump n ok =>
    obtain rfl : ok = true := hbump
    unfold Cache.step at hst
    dsimp only at hst
    split at hst
    · next hrow =>
      cases hst
      exact h.bump hrow
    · cases hst
  | start n call =>
    simp only [Cache.step, Option.ite_none_left_eq_some] at hst
    obtain ⟨-, hst⟩ := hst
    cases hst
    -- The request has done nothing yet that could go stale.
    refine h.move (List.prefix_refl _) ?_
    split <;> trivial
  | version n ok =>
    unfold Cache.step at hst
    dsimp only at hst
    split at hst
    · next hrow =>
      cases hst
      exact h.version hrow
    · cases hst
  | look n ok =>
    unfold Cache.step at hst
    dsimp only at hst
    split at hst
    · next call after version hrow =>
      have hafter := h.started n call after _ hrow
      split at hst
      · -- Without a version nothing is looked up, and nothing will be stored.
        cases hst
        exact h.move hafter trivial
      · split at hst
        · next value hget =>
          cases hst
          exact h.hit hrow hget
        · -- A miss keeps the version it was looked up under.
          cases hst
          have hfresh := h.fresh n call after _ hrow
          exact h.move hafter hfresh
    · cases hst
  | load n =>
    unfold Cache.step at hst
    dsimp only at hst
    split at hst
    · next hrow =>
      cases hst
      exact h.load hrow _
    · next hrow =>
      cases hst
      exact h.load hrow _
    · cases hst
  | store n ok =>
    unfold Cache.step at hst
    dsimp only at hst
    split at hst
    · next call after version value hrow =>
      cases hst
      refine h.stored hrow ?_
      split
      · -- What is stored goes under the version that was read before.
        next b _ => exact h.remembered hrow b
      · exact h.versioned
    · cases hst

theorem inductive_inv : (cacheAside load dumps deserialize : Machine (State D V B) _).Inductive
    (fun _ l => BumpSucceeds l) Inv where
  init s hs := by
    obtain ⟨-, hredis, hreaders, hwriters, hbumped⟩ := hs
    exact .init hredis hreaders hwriters hbumped
  step _ _ _ h hbump hst := h.step hbump hst

end Machine

/-- A read that starts once a bump has finished is never answered with a value loaded before the
bump's write committed, in whatever order readers and writers take their steps. -/
theorem cache_coherent (load : Call → D → V) (dumps : V → Option B) (deserialize : B → Option V)
    {s : State D V B}
    (h : (cacheAside load dumps deserialize).ReachVia (fun _ l => BumpSucceeds l) s) :
    Coherent s :=
  (inductive_inv.always h).coherent

/-- A read of a content page. -/
def readPage : Call where
  group := ⟨"7", "content_page", by decide, by decide⟩
  ident := "about"
  ttlSeconds := 300
  enabled := true

/-- A slow reader loads before a write and stores after its bump; the next two reads, one from
the database and one from the cache, are answered with the write. -/
theorem cache_coherent_slow_reader : ∃ s,
    (cacheAside (fun _ (db : Nat) => db) some some).ReachVia (fun _ l => BumpSucceeds l) s ∧
      Coherent s ∧ ([0, 1, 2].map fun n =>
        match s.readers.row n with
        | some ⟨_, after, .returned value⟩ => some (after, value)
        | _ => none) = [some ([], ⟨10, 0⟩), some ([1], ⟨11, 1⟩), some ([1], ⟨11, 1⟩)] := by
  obtain ⟨s, hs, hp⟩ := Machine.exists_reachVia_of_run
    (M := cacheAside (fun _ (db : Nat) => db) some some) (G := fun _ l => BumpSucceeds l)
    (s := ⟨10, 0, .empty, .empty, .empty, fun _ => []⟩)
    [.start 0 readPage, .version 0 true, .look 0 true, .load 0, .commit 0 11 [readPage.group],
      .bump 0 true, .store 0 true, .start 1 readPage, .version 1 true, .look 1 true, .load 1,
      .store 1 true, .start 2 readPage, .version 2 true, .look 2 true]
    (fun s => ([0, 1, 2].map fun n =>
        match s.readers.row n with
        | some ⟨_, after, .returned value⟩ => some (after, value)
        | _ => none) = [some ([], ⟨10, 0⟩), some ([1], ⟨11, 1⟩), some ([1], ⟨11, 1⟩)])
    ⟨rfl, rfl, rfl, rfl, rfl⟩ (by decide)
  exact ⟨s, hs, cache_coherent _ _ _ hs, of_decide_eq_true hp⟩

end Cache

end Core

end RealEstate
