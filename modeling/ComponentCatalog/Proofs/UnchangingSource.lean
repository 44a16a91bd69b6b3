import ComponentCatalog.Proofs.Dependencies
import ComponentCatalog.Proofs.Tasks

/-!
A source that does not change: asked twice for a file or a listing, it answers the same. A cache in
front of it answers the same as well, and what is read from it file by file can be told beforehand.
-/
namespace ComponentCatalog

open Provider

/-- In every state that satisfies `holds` the source answers with `answers`, and stays in such a
state. -/
structure Provider.Unchanging {σ : Type} (p : Provider σ)
    (answers : (k : Kind) → Text → Except Failure k.Answer) (holds : σ → Prop) : Prop where
  answered {s : Session σ} (k : Kind) (path : Text) : holds s.state →
    ((p.read k path).run s).1 = answers k path
  kept {s : Session σ} (k : Kind) (path : Text) : holds s.state →
    holds ((p.read k path).run s).2.state

theorem Provider.Unchanging.steady {σ : Type} {p : Provider σ}
    {answers : (k : Kind) → Text → Except Failure k.Answer} {holds : σ → Prop}
    (hp : p.Unchanging answers holds) : p.Steady (answers .file) holds where
  fetched path hs := hp.answered .file path hs
  unchanged path hs := hp.kept .file path hs

section Task

variable {σ α : Type} {lib : Library σ} {answer : Text → Except Failure Text} {holds : σ → Prop}
  {s : Session σ}

/-- Over a source that answers the same each time, a task comes to what it comes to with these
answers. -/
theorem Task.run_perform_of_steady (hp : lib.provider.Steady answer holds) (hs : holds s.state)
    (task : Task α) :
    ((task.perform lib).run s).1 = task.result answer ∧
      holds ((task.perform lib).run s).2.state := by
  induction task generalizing s with
  | finish r => exact ⟨rfl, hs⟩
  | read path next ih =>
    have hfetch : (lib.fetch path).run s = (lib.provider.fetchText path).run
        (s.report .debug "library" ("Fetching ".toList ++ path)) := by
      rw [Library.fetch, Reading.run_bind, Reading.run_report]
    have hreported : holds (s.report .debug "library" ("Fetching ".toList ++ path)).state := hs
    rw [run_perform_read, result, hfetch, hp.fetched path hreported]
    exact ih _ (hp.unchanged path hreported)

theorem Library.run_component (hp : lib.provider.Steady answer holds) (hs : holds s.state)
    (name : Text) :
    ((lib.component name).run s).1 = (Task.component lib.layout name).result answer ∧
      holds ((lib.component name).run s).2.state := by
  rw [← Task.run_perform_component]
  exact Task.run_perform_of_steady hp hs _

end Task

namespace Cached

variable {τ σ : Type}

/-- The source is in a state in which it holds, and what is stored are its answers. -/
structure Agrees (answers : (k : Kind) → Text → Except Failure k.Answer) (holds : σ → Prop)
    (c : Cached τ σ) : Prop where
  inner : holds c.inner
  stored {k : Kind} {path : Text} {e : Cache.Entry τ k.Answer} :
    c.stored k path = some e → answers k path = .ok e.value

variable {answers : (k : Kind) → Text → Except Failure k.Answer} {holds : σ → Prop}
  {c : Cached τ σ}

theorem Agrees.start {inner : σ} (h : holds inner) (now lifetime : τ)
    (fileLifetime directoryLifetime : Option τ) :
    (start now lifetime fileLifetime directoryLifetime inner).Agrees answers holds where
  inner := h
  stored {k path e} he := by cases k <;> cases he

theorem Agrees.faithful (h : c.Agrees answers holds) : c.Faithful (answers .file) holds where
  inner := h.inner
  files he := h.stored (k := .file) he

/-- What a call came to is stored for its path, unless it failed, and nothing else changes. -/
theorem Agrees.called (h : c.Agrees answers holds) {inner : σ} (hinner : holds inner) (k : Kind)
    (path : Text) :
    (((c.dropped k path).withInner inner).keeping k path (answers k path)).Agrees answers holds where
  inner := by
    rw [inner_keeping]
    exact hinner
  stored {k' path' e} he := by
    by_cases hsame : k' = k ∧ path' = path
    · obtain ⟨rfl, rfl⟩ := hsame
      rw [stored_keeping_dropped] at he
      cases hanswer : answers k' path' with
      | error e' => rw [hanswer] at he; cases he
      | ok value => rw [hanswer] at he; cases he; rfl
    · rw [stored_keeping_dropped_of_ne fun hk hpath => hsame ⟨hk, hpath⟩] at he
      exact h.stored he

end Cached

/-- A source that does not change does not change behind a cache either, whatever the lifetimes of
what is stored. -/
theorem Provider.Unchanging.cached {τ σ : Type} [Zero τ] [Sub τ] [LT τ] [DecidableLT τ]
    {p : Provider σ} {answers : (k : Kind) → Text → Except Failure k.Answer} {holds : σ → Prop}
    (hp : p.Unchanging answers holds) :
    (p.cached : Provider (Cached τ σ)).Unchanging answers (Cached.Agrees answers holds) := by
  have hread {s : Session (Cached τ σ)} (k : Kind) (path : Text)
      (hs : s.state.Agrees answers holds) :
      ((p.cached.read k path).run s).1 = answers k path ∧
        ((p.cached.read k path).run s).2.state.Agrees answers holds := by
    by_cases hlive : ∃ e, s.state.stored k path = some e ∧ e.isExpired s.state.now = false
    · obtain ⟨e, hstored, hlive⟩ := hlive
      rw [Cached.run_read_of_stored p hstored hlive]
      exact ⟨(hs.stored hstored).symm, hs⟩
    · have hexpired : ∀ e, s.state.stored k path = some e → e.isExpired s.state.now = true :=
        fun e hstored => by simpa using fun hfalse => hlive ⟨e, hstored, hfalse⟩
      have hasking : holds (Cached.asking k path s).state := hs.inner
      rw [Cached.run_read_of_not_stored p hexpired]
      dsimp only
      rw [hp.answered k path hasking]
      exact ⟨rfl, hs.called (hp.kept k path hasking) k path⟩
  exact ⟨fun k path hs => (hread k path hs).1, fun k path hs => (hread k path hs).2⟩

namespace Memory

/-- What a source in memory answers. -/
def answers (m : Memory) : (k : Kind) → Text → Except Failure k.Answer
  | .file, path => (m.file path).mapError .source
  | .directory, path => (m.directory path).mapError .source

/-- The call that asks for a file or a listing. -/
def callOf (k : Kind) (path : Text) : Call := k.choose (.file path) (.directory path)

theorem run_read (k : Kind) (path : Text) (s : Session Memory) :
    (Provider.memory.read k path).run s =
      (s.state.answers k path,
        { s with state := { s.state with calls := s.state.calls ++ [callOf k path] } }) := by
  cases k with
  | file => exact run_ask (.file path) (fun m => m.file path) s
  | directory => exact run_ask (.directory path) (fun m => m.directory path) s

/-- A source in memory answers the same until its files or listings are changed. -/
theorem unchanging (m : Memory) :
    Provider.memory.Unchanging m.answers fun m' => ∃ calls, m' = { m with calls } where
  answered {s} k path h := by
    obtain ⟨calls, hstate⟩ := h
    rw [run_read, hstate]
    cases k <;> rfl
  kept {s} k path h := by
    obtain ⟨calls, hstate⟩ := h
    rw [run_read, hstate]
    exact ⟨_, rfl⟩

end Memory

end ComponentCatalog
