import Mathlib.Algebra.Order.Ring.Nat
import Mathlib.Logic.Relation
import ComponentCatalog.Proofs.Tasks

/-!
A task in the hands of a worker, over a cached source that other workers use as well. The worker
looks into the cache, asks the source, reads the clock and stores the answer, each in a step of its
own. As long as the answers of the source do not change, the cache agrees with them after every
step.
-/
namespace ComponentCatalog

open Relation (ReflTransGen)

/-- Where a task in the hands of a pool of workers stands. -/
inductive Thread (τ α : Type) where
  /-- No worker has begun with it. -/
  | waiting (task : Task α)
  | running (task : Task α)
  /-- The cache had no value for the path. -/
  | missed (path : Text) (next : Except Failure Text → Task α)
  /-- The source gave the value, which is not stored yet. -/
  | holding (path : Text) (next : Except Failure Text → Task α) (value : Text)
  /-- The time of storing was read, but the value is not stored yet. -/
  | stamped (path : Text) (next : Except Failure Text → Task α) (value : Text) (storedAt : τ)

/-- The library with its source behind a cache. -/
def Library.cached {τ σ : Type} [Zero τ] [Sub τ] [LT τ] [DecidableLT τ] (lib : Library σ) :
    Library (Cached τ σ) :=
  { lib with provider := lib.provider.cached }

namespace Thread

variable {τ σ α : Type}

/-- What the task came to, once it is finished. -/
def result? : Thread τ α → Option (Except Failure α)
  | running (.finish r) => some r
  | _ => none

def isWaiting : Thread τ α → Bool
  | waiting _ => true
  | _ => false

/-- A worker has begun with the task and is not done with it. -/
def isBusy : Thread τ α → Bool
  | waiting _ | running (.finish _) => false
  | _ => true

section Act

variable [Zero τ] [Sub τ] [LT τ] [DecidableLT τ]

/-- The next step of the worker that has the task. -/
def act (p : Provider σ) :
    Thread τ α → Session (Cached τ σ) → Option (Thread τ α × Session (Cached τ σ))
  | waiting _, _ | running (.finish _), _ => none
  | running (.read path next), s =>
    let s := s.report .debug "library" ("Fetching ".toList ++ path)
    let (found, files) := s.state.files.lookup s.state.now path
    let s : Session (Cached τ σ) := { s with state := { s.state with files } }
    match found with
    | some value => some (running (next (.ok value)), s)
    | none =>
      some (missed path next,
        s.report .debug "sources.cache" ("Cache miss for ".toList ++ "file".toList ++ ':' :: path))
  | missed path next, s =>
    let (answer, t) := (p.fetchText path).run ⟨s.state.inner, s.log⟩
    let s : Session (Cached τ σ) := ⟨s.state.withInner t.state, t.log⟩
    match answer with
    | .ok value => some (holding path next value, s)
    | .error e => some (running (next (.error e)), s)
  | holding path next value, s => some (stamped path next value s.state.now, s)
  | stamped path next value storedAt, s =>
    let files := s.state.files.store storedAt path value s.state.fileLifetime
    some (running (next (.ok value)), { s with state := { s.state with files } })

/-- One step of a thread, with nothing else going on. -/
def Acts (p : Provider σ) (a b : Thread τ α × Session (Cached τ σ)) : Prop := a.1.act p a.2 = some b

end Act

/-- Where the files are answered by `answer`, the task of the thread comes to `outcome`. -/
def Sound (answer : Text → Except Failure Text) (outcome : Except Failure α) : Thread τ α → Prop
  | waiting task | running task => task.result answer = outcome
  | missed path next => (next (answer path)).result answer = outcome
  | holding path next value | stamped path next value _ =>
    answer path = .ok value ∧ (next (answer path)).result answer = outcome

/-- An upper bound of the number of steps that are left, where files are answered by `answer`. -/
def work (answer : Text → Except Failure Text) : Thread τ α → Nat
  | waiting task => 4 * task.reads answer + 1
  | running task => 4 * task.reads answer
  | missed path next => 4 * (next (answer path)).reads answer + 3
  | holding path next _ => 4 * (next (answer path)).reads answer + 2
  | stamped path next _ _ => 4 * (next (answer path)).reads answer + 1

variable {answer : Text → Except Failure Text} {holds : σ → Prop} {outcome : Except Failure α}

/-- A task waits, or a worker is busy with it, or it is finished. -/
theorem isWaiting_or_isBusy_or_isSome (thread : Thread τ α) :
    thread.isWaiting ∨ thread.isBusy ∨ thread.result?.isSome := by
  cases thread with
  | waiting task => exact Or.inl rfl
  | running task => cases task <;> simp [isBusy, result?]
  | missed | holding | stamped => exact Or.inr (Or.inl rfl)

theorem result?_of_sound {thread : Thread τ α} (h : thread.Sound answer outcome)
    (hdone : thread.result?.isSome) : thread.result? = some outcome := by
  unfold result? at hdone ⊢
  split at hdone
  · exact congrArg some h
  · cases hdone

variable [Zero τ] [Sub τ] [LT τ] [DecidableLT τ] {p : Provider σ}
  {thread thread' : Thread τ α} {s t : Session (Cached τ σ)}

theorem acts_of_lookup {path value : Text} {next : Except Failure Text → Task α}
    {files : Cache τ Text}
    (h : s.state.files.lookup s.state.now path = (some value, files)) :
    Acts p (running (.read path next), s)
      (running (next (.ok value)),
        { s.report .debug "library" ("Fetching ".toList ++ path) with
          state := { s.state with files } }) := by
  simp only [Acts, act, Session.report, h]

theorem acts_of_lookup_none {path : Text} {next : Except Failure Text → Task α}
    {files : Cache τ Text} (h : s.state.files.lookup s.state.now path = (none, files)) :
    Acts p (running (.read path next), s)
      (missed path next,
        Session.report .debug "sources.cache" ("Cache miss for ".toList ++ "file".toList ++ ':' :: path)
          { s.report .debug "library" ("Fetching ".toList ++ path) with
            state := { s.state with files } }) := by
  simp only [Acts, act, Session.report, h]

theorem acts_missed_ok {path value : Text} {next : Except Failure Text → Task α} {u : Session σ}
    (h : (p.fetchText path).run ⟨s.state.inner, s.log⟩ = (.ok value, u)) :
    Acts p (missed path next, s)
      (holding path next value, ⟨s.state.withInner u.state, u.log⟩) := by
  simp only [Acts, act, h]

theorem acts_missed_error {path : Text} {e : Failure} {next : Except Failure Text → Task α}
    {u : Session σ} (h : (p.fetchText path).run ⟨s.state.inner, s.log⟩ = (.error e, u)) :
    Acts p (missed path next, s)
      (running (next (.error e)), ⟨s.state.withInner u.state, u.log⟩) := by
  simp only [Acts, act, h]

/-- A busy worker can always go on. -/
theorem exists_act (h : thread.isBusy) (s : Session (Cached τ σ)) :
    ∃ thread' t, thread.act p s = some (thread', t) := by
  cases thread with
  | waiting task => cases h
  | running task =>
    cases task with
    | finish r => cases h
    | read path next =>
      unfold act
      dsimp only
      split <;> exact ⟨_, _, rfl⟩
  | missed path next =>
    unfold act
    dsimp only
    split <;> exact ⟨_, _, rfl⟩
  | holding path next value => exact ⟨_, _, rfl⟩
  | stamped path next value storedAt => exact ⟨_, _, rfl⟩

/-- No step of a worker brings anything into the cache but answers of the source, or changes what
the task of the thread comes to; and each step leaves less work. -/
theorem sound_of_act (hp : p.Steady answer holds) (hs : s.state.Faithful answer holds)
    (hthread : thread.Sound answer outcome) (h : thread.act p s = some (thread', t)) :
    t.state.Faithful answer holds ∧ thread'.Sound answer outcome ∧
      thread'.work answer < thread.work answer := by
  -- By the stage at which the thread stands; a hit skips the stages that a miss goes through.
  cases thread with
  | waiting task => cases h
  | running task =>
    cases task with
    | finish r => cases h
    | read path next =>
      have hlookup := hs.lookup s.state.now path
      simp only [act, Session.report] at h
      split at h
      next value hvalue =>
        have hanswer := hlookup.1 value hvalue
        cases h
        simp only [Sound, Task.result, work, Task.reads, hanswer] at hthread ⊢
        exact ⟨hlookup.2, hthread, by omega⟩
      next =>
        cases h
        simp only [Sound, Task.result, work, Task.reads] at hthread ⊢
        exact ⟨hlookup.2, hthread, by omega⟩
  | missed path next =>
    have hfetched := hp.fetched (s := ⟨s.state.inner, s.log⟩) path hs.inner
    have hunchanged := hp.unchanged (s := ⟨s.state.inner, s.log⟩) path hs.inner
    simp only [act] at h
    split at h
    next value hvalue =>
      rw [hvalue] at hfetched
      cases h
      simp only [Sound, work] at hthread ⊢
      exact ⟨hs.withInner hunchanged, ⟨hfetched.symm, hthread⟩, by omega⟩
    next e he =>
      rw [he] at hfetched
      cases h
      simp only [Sound, work, ← hfetched] at hthread ⊢
      exact ⟨hs.withInner hunchanged, hthread, by omega⟩
  | holding path next value =>
    cases h
    exact ⟨hs, hthread, by simp only [work]; omega⟩
  | stamped path next value storedAt =>
    cases h
    obtain ⟨hvalue, hthread⟩ := hthread
    simp only [Sound, work, hvalue] at hthread ⊢
    exact ⟨hs.store hvalue storedAt _, hthread, by omega⟩

theorem sound_of_reaches (hp : p.Steady answer holds) (hs : s.state.Faithful answer holds)
    (hthread : thread.Sound answer outcome)
    (h : ReflTransGen (Acts p) (thread, s) (thread', t)) :
    t.state.Faithful answer holds ∧ thread'.Sound answer outcome := by
  suffices hall : ∀ b, ReflTransGen (Acts p) (thread, s) b →
      b.2.state.Faithful answer holds ∧ b.1.Sound answer outcome from hall _ h
  intro b hb
  induction hb with
  | refl => exact ⟨hs, hthread⟩
  | tail _ hact ih =>
    obtain ⟨hfaithful, hsound, -⟩ := sound_of_act hp ih.1 ih.2 hact
    exact ⟨hfaithful, hsound⟩

/-- The steps of a read, taken one after the other, are the read of the library. -/
theorem reaches_fetch (lib : Library σ) (path : Text) (next : Except Failure Text → Task α)
    (s : Session (Cached τ σ)) :
    ReflTransGen (Acts lib.provider) (running (.read path next), s)
      (running (next ((lib.cached.fetch path).run s).1), ((lib.cached.fetch path).run s).2) := by
  have hrun : (lib.cached.fetch path).run s = (lib.provider.cached.read .file path).run
      (s.report .debug "library" ("Fetching ".toList ++ path)) := rfl
  rw [hrun]
  by_cases hlive : ∃ e, s.state.stored .file path = some e ∧ e.isExpired s.state.now = false
  · obtain ⟨e, he, hexpired⟩ := hlive
    rw [Cached.run_read_of_stored lib.provider (s := s.report _ _ _) he hexpired]
    exact ReflTransGen.single (acts_of_lookup (Cache.lookup_of_live he hexpired))
  · have hdead : ∀ e, s.state.stored .file path = some e → e.isExpired s.state.now = true := by
      intro e he
      by_contra hexpired
      exact hlive ⟨e, he, Bool.eq_false_iff.mpr hexpired⟩
    rw [Cached.run_read_of_not_stored lib.provider (s := s.report _ _ _) hdead]
    apply ReflTransGen.head (acts_of_lookup_none (Cache.lookup_of_not_live hdead))
    rcases hfetch : (lib.provider.read .file path).run _ with ⟨e | value, t⟩
    · exact ReflTransGen.single (acts_missed_error hfetch)
    · apply ReflTransGen.head (acts_missed_ok hfetch)
      exact ReflTransGen.head rfl (ReflTransGen.single rfl)

/-- A thread that runs alone does what the task does from its beginning to its end. -/
theorem reaches_perform (lib : Library σ) (task : Task α) (s : Session (Cached τ σ)) :
    ReflTransGen (Acts lib.provider) (running task, s)
      (running (.finish ((task.perform lib.cached).run s).1), ((task.perform lib.cached).run s).2) := by
  induction task generalizing s with
  | finish r => exact ReflTransGen.refl
  | read path next ih =>
    rw [Task.run_perform_read]
    exact (reaches_fetch lib path next s).trans (ih _ _)

end Thread

end ComponentCatalog
