import ComponentCatalog.Library.Basic
import ComponentCatalog.Proofs.CachedReading

/-!
The lookup of a component as a task: it reads one file after the other, and each answer decides how
it goes on. So a lookup can be stopped between any two of its reads.
-/
namespace ComponentCatalog

/-- A computation that reads files one after the other and goes on with what each read came to. -/
inductive Task (α : Type) where
  | finish (result : Except Failure α)
  | read (path : Text) (next : Except Failure Text → Task α)

namespace Task

variable {σ α : Type}

/-- What the task comes to where files are answered by `answer`. -/
def result (answer : Text → Except Failure Text) : Task α → Except Failure α
  | finish r => r
  | read path next => (next (answer path)).result answer

/-- How many files the task reads where they are answered by `answer`. -/
def reads (answer : Text → Except Failure Text) : Task α → Nat
  | finish _ => 0
  | read path next => (next (answer path)).reads answer + 1

/-- The task, with each file read from the library. -/
def perform (lib : Library σ) : Task α → Reading σ α
  | finish r => fun s => (r, s)
  | read path next => fun s =>
    let (answer, t) := (lib.fetch path).run s
    (next answer).perform lib t

/-- Asks for a file of a component, and goes on with whether there is one. -/
def has (layout : Layout) (name : Text) (file : ComponentFile) (next : Bool → Task α) : Task α :=
  .read (layout.componentPath name file) fun
    | .ok _ => next true
    | .error (.source e) => if e.isAbsence then next false else .finish (.error (.source e))
    | .error e => .finish (.error e)

/-- The lookup of a component. -/
def component (layout : Layout) (name : Text) : Task Component :=
  .read (layout.componentPath name .source) fun
    | .error e => .finish (.error e)
    | .ok code =>
      has layout name .stories fun hasStories =>
        has layout name .documentation fun hasDocumentation =>
          has layout name .tests fun hasTests =>
            .finish (.ok { Component.ofSource name code with hasStories, hasDocumentation, hasTests })

@[simp] theorem run_perform_finish (lib : Library σ) (r : Except Failure α) (s : Session σ) :
    ((finish r).perform lib).run s = (r, s) := rfl

theorem run_perform_read (lib : Library σ) (path : Text) (next : Except Failure Text → Task α)
    (s : Session σ) :
    ((read path next).perform lib).run s =
      ((next ((lib.fetch path).run s).1).perform lib).run ((lib.fetch path).run s).2 := rfl

theorem run_perform_has (lib : Library σ) (name : Text) (file : ComponentFile)
    (next : Bool → Task α) (s : Session σ) :
    ((has lib.layout name file next).perform lib).run s =
      (lib.has name file >>= fun found => (next found).perform lib).run s := by
  rw [has, run_perform_read, Reading.run_bind, Library.has, Reading.run_map, Reading.run_optional,
    Library.file]
  rcases (lib.fetch (lib.layout.componentPath name file)).run s with ⟨e | text, t⟩
  · cases e with
    | source e => cases he : e.isAbsence <;> simp [he, Except.map]
    | digits | noWorkers | nullInPath => rfl
  · rfl

/-- The task does what the library does to look a component up. -/
theorem run_perform_component (lib : Library σ) (name : Text) (s : Session σ) :
    ((component lib.layout name).perform lib).run s = (lib.component name).run s := by
  rw [component, run_perform_read, Library.component, Reading.run_bind, Library.file]
  rcases (lib.fetch (lib.layout.componentPath name .source)).run s with ⟨e | code, t⟩
  · rfl
  · simp only [run_perform_has, Reading.run_bind]
    rfl

section Result

variable {answer : Text → Except Failure Text} {layout : Layout} {name : Text}

/-- A task that comes to a value has gone on with whether there is the file. -/
theorem result_of_has {file : ComponentFile} {next : Bool → Task α} {a : α}
    (h : (has layout name file next).result answer = .ok a) :
    (next (answer (layout.componentPath name file)).isOk).result answer = .ok a := by
  rw [has, result] at h
  rcases hanswer : answer (layout.componentPath name file) with e | text
  · rw [hanswer] at h
    cases e with
    | source e =>
      dsimp only at h
      split at h
      · exact h
      · cases h
    | digits | noWorkers | nullInPath => cases h
  · rwa [hanswer] at h

/-- A component that is found is the one of its source, with the other files that there are. -/
theorem result_of_component {c : Component} (h : (component layout name).result answer = .ok c) :
    ∃ code, answer (layout.componentPath name .source) = .ok code ∧
      c = { Component.ofSource name code with
        hasStories := (answer (layout.componentPath name .stories)).isOk
        hasDocumentation := (answer (layout.componentPath name .documentation)).isOk
        hasTests := (answer (layout.componentPath name .tests)).isOk } := by
  rw [component, result] at h
  rcases hcode : answer (layout.componentPath name .source) with e | code
  · rw [hcode] at h
    cases h
  · rw [hcode] at h
    exact ⟨code, rfl, (Except.ok.inj (result_of_has (result_of_has (result_of_has h)))).symm⟩

end Result

end Task

/-- In every state that satisfies `holds` the source answers for files with `answer`, and stays in
such a state. -/
structure Provider.Steady {σ : Type} (p : Provider σ) (answer : Text → Except Failure Text)
    (holds : σ → Prop) : Prop where
  fetched {s : Session σ} (path : Text) : holds s.state →
    ((p.fetchText path).run s).1 = answer path
  unchanged {s : Session σ} (path : Text) : holds s.state →
    holds ((p.fetchText path).run s).2.state

namespace Cached

variable {τ σ : Type}

/-- The source is in a state in which it holds, and the cache has no other files than its
answers. -/
structure Faithful (answer : Text → Except Failure Text) (holds : σ → Prop) (c : Cached τ σ) :
    Prop where
  inner : holds c.inner
  files {path : Text} {e : Cache.Entry τ Text} :
    c.files.entry? path = some e → answer path = .ok e.value

namespace Faithful

variable {answer : Text → Except Failure Text} {holds : σ → Prop} {c : Cached τ σ} {path value : Text}

theorem withInner (h : c.Faithful answer holds) {inner : σ} (hinner : holds inner) :
    (c.withInner inner).Faithful answer holds := ⟨hinner, h.files⟩

theorem store (h : c.Faithful answer holds) (hvalue : answer path = .ok value) (storedAt : τ)
    (lifetime? : Option τ) :
    Faithful answer holds { c with files := c.files.store storedAt path value lifetime? } where
  inner := h.inner
  files {path' e} he := by
    rw [Cache.entry?, Cache.store, Entries.get?_set] at he
    split at he
    next heq =>
      cases he
      rw [heq]
      exact hvalue
    next => exact h.files he

variable [Zero τ] [Sub τ] [LT τ] [DecidableLT τ]

/-- A look-up gives the answer of the source or nothing. -/
theorem lookup (h : c.Faithful answer holds) (now : τ) (path : Text) :
    (∀ value, (c.files.lookup now path).1 = some value → answer path = .ok value) ∧
      Faithful answer holds { c with files := (c.files.lookup now path).2 } := by
  rw [Cache.lookup]
  split
  next =>
    refine ⟨fun value hnone => ?_, h.inner, h.files⟩
    cases hnone
  next e he =>
    split
    next =>
      refine ⟨fun value hnone => ?_, h.inner, fun {path' e'} he' => ?_⟩
      · cases hnone
      rw [Cache.entry?_erase] at he'
      split at he'
      · cases he'
      · exact h.files he'
    next =>
      refine ⟨fun value hvalue => ?_, h.inner, h.files⟩
      cases hvalue
      exact h.files he

end Faithful

end Cached

end ComponentCatalog
