import Mathlib.Data.Finset.Card
import ComponentCatalog.Proofs.Entries
import ComponentCatalog.Proofs.Recorded
import ComponentCatalog.Proofs.Walk
import ComponentCatalog.Source.Memory

/-!
Deep lookups of dependencies over a source that holds finitely many files and does not change. They
follow a walk over the imports, whatever cycles there are: each component reached from the root is
asked for once and expanded once.
-/
namespace ComponentCatalog

open Provider DependencyTree
open Component (siblingsIn)

/-- In every state that satisfies `holds` the source gives the text of the given files, reports
every other file as absent, and stays in such a state. -/
structure Provider.Serves {σ : Type} (p : Provider σ) (files : Entries Text) (holds : σ → Prop) :
    Prop where
  found {s : Session σ} {path text : Text} : holds s.state → Entries.get? path files = some text →
    ((p.fetchText path).run s).1 = .ok text
  absent {s : Session σ} {path : Text} : holds s.state → Entries.get? path files = none →
    ∃ e, ((p.fetchText path).run s).1 = .error (.source e) ∧ e.isAbsence = true
  unchanged {s : Session σ} (path : Text) : holds s.state →
    holds ((p.fetchText path).run s).2.state
  bounded {state : σ} : holds state → files.length ≤ p.extent state

theorem Memory.run_ask {α : Type} (call : Memory.Call) (answer : Memory → Except SourceError α)
    (s : Session Memory) :
    (Memory.ask call answer).run s =
      ((answer s.state).mapError Failure.source,
        { s with state := { s.state with calls := s.state.calls ++ [call] } }) := by
  simp only [Memory.ask, Reading.run_bind, Reading.run_get, Reading.run_modify]
  cases answer s.state <;> rfl

/-- A source in memory without failures serves its files. -/
theorem Memory.serves (files : Entries Text) :
    Provider.memory.Serves files fun m => m.files = files ∧ m.broken = [] where
  found {s path text} hs hf := by
    have hfile : s.state.file path = .ok text := by
      rw [Memory.file, hs.1, hs.2, Entries.get?_nil, hf]
    rw [Provider.memory, Memory.run_ask, hfile]
    rfl
  absent {s path} hs hf := by
    have hfile : s.state.file path = .error (.absent ("No such file: ".toList ++ path)) := by
      rw [Memory.file, hs.1, hs.2, Entries.get?_nil, hf]
    rw [Provider.memory, Memory.run_ask, hfile]
    exact ⟨_, rfl, rfl⟩
  unchanged {s} path hs := by
    rw [Provider.memory, Memory.run_ask]
    exact hs
  bounded hs := le_of_eq (congrArg List.length hs.1.symm)

theorem Layout.componentPath_injective (layout : Layout) (file : ComponentFile) :
    Function.Injective fun c => layout.componentPath c file := by
  intro c c' h
  simp only [componentPath, pathWith, List.append_assoc, List.append_cancel_left_eq] at h
  have hlength : c.length = c'.length := by
    have := congrArg List.length h
    simp at this
    omega
  exact (List.append_inj (List.cons.inj h).2 hlength).1

namespace Library

/-- The source of a component among the given files. -/
def sourceOf (layout : Layout) (files : Entries Text) (c : Text) : Option Text :=
  Entries.get? (layout.componentPath c .source) files

/-- How many of the given files are sources of components that were not visited. -/
def remaining (layout : Layout) (files : Entries Text) (visited : List Text) : Nat :=
  ((Entries.keys files).toFinset \
    (visited.map fun c => layout.componentPath c .source).toFinset).card

section Remaining

variable {layout : Layout} {files : Entries Text} {visited visited' : List Text}

theorem remaining_mono (h : visited ⊆ visited') :
    remaining layout files visited' ≤ remaining layout files visited := by
  apply Finset.card_le_card
  apply Finset.sdiff_subset_sdiff (Finset.Subset.refl _)
  intro path hpath
  simp only [List.mem_toFinset, List.mem_map] at hpath ⊢
  obtain ⟨c, hc, rfl⟩ := hpath
  exact ⟨c, h hc, rfl⟩

theorem remaining_lt {x code : Text} (hx : x ∉ visited)
    (hcode : sourceOf layout files x = some code) :
    remaining layout files (x :: visited) < remaining layout files visited := by
  have hkey : layout.componentPath x .source ∈ Entries.keys files := by
    by_contra hnot
    rw [sourceOf, Entries.get?_eq_none_iff.mpr hnot] at hcode
    cases hcode
  apply Finset.card_lt_card
  rw [Finset.ssubset_iff_of_subset (Finset.sdiff_subset_sdiff (Finset.Subset.refl _) (by simp))]
  refine ⟨layout.componentPath x .source, ?_, by simp⟩
  simp only [Finset.mem_sdiff, List.mem_toFinset, List.mem_map, not_exists, not_and]
  refine ⟨hkey, fun c hc heq => ?_⟩
  exact hx (layout.componentPath_injective .source heq ▸ hc)

theorem remaining_le_length : remaining layout files visited ≤ files.length := by
  calc remaining layout files visited ≤ (Entries.keys files).toFinset.card :=
        Finset.card_le_card Finset.sdiff_subset
    _ ≤ (Entries.keys files).length := List.toFinset_card_le _
    _ = files.length := by simp [Entries.keys]

end Remaining

variable {σ : Type}

/-- The library over its source with a record of the calls. -/
def recorded (lib : Library σ) : Library (Recorded σ) :=
  { lib with provider := lib.provider.recorded }

/-- From one session to a later one, exactly the sources of the given components were asked for. -/
structure Asked (lib : Library σ) (holds : σ → Prop) (names : List Text)
    (s t : Session (Recorded σ)) : Prop where
  holds : holds t.state.inner
  questions : t.state.calls.map Call.question =
    s.state.calls.map Call.question ++
      names.map fun c => (.file, lib.layout.componentPath c .source)

namespace Asked

variable {lib : Library σ} {holds : σ → Prop} {names names' : List Text}
  {s t u : Session (Recorded σ)}

theorem refl (hs : holds s.state.inner) : lib.Asked holds [] s s := ⟨hs, by simp⟩

theorem report (h : lib.Asked holds names s t) (level : Log.Level) (area : String)
    (message : Text) :
    lib.Asked holds names s (t.report level area message) := ⟨h.holds, h.questions⟩

theorem append (h : lib.Asked holds names s t) (h' : lib.Asked holds names' t u) :
    lib.Asked holds (names ++ names') s u :=
  ⟨h'.holds, by rw [h'.questions, h.questions, List.map_append, List.append_assoc]⟩

end Asked

section Fetch

variable {lib : Library σ} {files : Entries Text} {holds : σ → Prop} {s : Session (Recorded σ)}

theorem run_recorded_file (h : lib.provider.Serves files holds) (hs : holds s.state.inner)
    (c : Text) :
    ∃ s' t, holds s'.state ∧ (lib.recorded.file c .source).run s =
        (((lib.provider.fetchText (lib.layout.componentPath c .source)).run s').1, t) ∧
      lib.Asked holds [c] s t := by
  have hrun : (lib.recorded.file c .source).run s =
      (lib.provider.recorded.read .file (lib.layout.componentPath c .source)).run
        (s.report .debug "library" ("Fetching ".toList ++ lib.layout.componentPath c .source)) := by
    simp only [file, fetch, recorded, Reading.run_bind, Reading.run_report]
    rfl
  rw [hrun, Provider.run_recorded_read]
  exact ⟨_, _, hs, rfl, h.unchanged _ hs, by simp [Call.question, Session.report]⟩

theorem run_file_found (h : lib.provider.Serves files holds) (hs : holds s.state.inner)
    {c code : Text} (hcode : sourceOf lib.layout files c = some code) :
    ∃ t, (lib.recorded.file c .source).run s = (.ok code, t) ∧ lib.Asked holds [c] s t := by
  obtain ⟨s', t, hs', hrun, hasked⟩ := run_recorded_file h hs c
  exact ⟨t, by rw [hrun, h.found hs' hcode], hasked⟩

theorem run_file_absent (h : lib.provider.Serves files holds) (hs : holds s.state.inner)
    {c : Text} (hnone : sourceOf lib.layout files c = none) :
    ∃ t, (Reading.optional (lib.recorded.file c .source)).run s = (.ok none, t) ∧
      lib.Asked holds [c] s t := by
  obtain ⟨s', t, hs', hrun, hasked⟩ := run_recorded_file h hs c
  obtain ⟨e, herror, habsence⟩ := h.absent hs' hnone
  refine ⟨t, ?_, hasked⟩
  rw [Reading.run_optional, hrun, herror]
  simp only [habsence, if_true]

end Fetch

/-- What a deep lookup does with one sibling, after some trees were made and some names visited. -/
def visit (lib : Library σ)
    (expand : (name source : Text) → (visited : List Text) →
      Reading σ (DependencyTree × List Text)) :
    List DependencyTree × List Text → Text → Reading σ (List DependencyTree × List Text)
  | (trees, visited), sibling => do
    if visited.contains sibling then return (trees ++ [leaf sibling], visited)
    let visited := sibling :: visited
    match ← Reading.optional (lib.file sibling .source) with
    | none =>
      Reading.report .debug "library"
        ("Skipping unresolved sibling component ".toList ++ sibling)
      return (trees, visited)
    | some code =>
      let (tree, visited) ← expand sibling code visited
      return (trees ++ [tree], visited)

theorem expand_succ (lib : Library σ) (fuel : Nat) (name source : Text) (visited : List Text) :
    lib.expand (fuel + 1) name source visited = do
      let (below, visited) ← (siblingsIn source).foldlM (lib.visit (lib.expand fuel)) ([], visited)
      return (importsOf name source below, visited) := rfl

/-- The reading walks along the siblings, asks for nothing else, and gives what is made of the trees
and of the names visited in the end. -/
def Walks (lib : Library σ) (files : Entries Text) (holds : σ → Prop) {α : Type}
    (siblings visited : List Text) (s : Session (Recorded σ)) (r : Reading (Recorded σ) α)
    (value : List DependencyTree → List Text → α) : Prop :=
  ∃ requested trees t, Follows (sourceOf lib.layout files) siblings visited requested trees ∧
    r.run s = (.ok (value trees (requested.reverse ++ visited)), t) ∧
    lib.Asked holds requested s t

section Walks

variable {lib : Library σ} {files : Entries Text} {holds : σ → Prop} {fuel : Nat}

/-- If expansions with some fuel are walks, so are visits to siblings: of those left to visit there
are no more than the fuel, and each expansion leaves one fewer. -/
theorem walks_visit (h : lib.provider.Serves files holds)
    (hexpand : ∀ name source visited s, holds s.state.inner →
      remaining lib.layout files visited < fuel →
      lib.Walks files holds (siblingsIn source) visited s
        (lib.recorded.expand fuel name source visited)
        fun below visited => (importsOf name source below, visited))
    (siblings : List Text) (made : List DependencyTree) (visited : List Text)
    (s : Session (Recorded σ)) (hs : holds s.state.inner)
    (hfuel : remaining lib.layout files visited ≤ fuel) :
    lib.Walks files holds siblings visited s
      (siblings.foldlM (lib.recorded.visit (lib.recorded.expand fuel)) (made, visited))
      fun trees visited => (made ++ trees, visited) := by
  -- The fuel stays: along the siblings only what is left to visit can shrink.
  induction siblings generalizing made visited s with
  | nil => exact ⟨[], [], s, .done visited, by simp, .refl hs⟩
  | cons x rest ih =>
    have hmono : remaining lib.layout files (x :: visited) ≤ remaining lib.layout files visited :=
      remaining_mono (List.subset_cons_self x visited)
    by_cases hx : x ∈ visited
    · obtain ⟨requested, trees, t, hwalk, hrun, hasked⟩ := ih (made ++ [leaf x]) visited s hs hfuel
      refine ⟨requested, leaf x :: trees, t, .visited hx hwalk, ?_, hasked⟩
      simp only [List.foldlM_cons, visit, List.contains_iff_mem, if_pos hx, pure_bind, hrun,
        List.append_assoc, List.singleton_append]
    · cases hcode : sourceOf lib.layout files x with
      | none =>
        obtain ⟨u, hfile, hfirst⟩ := run_file_absent h hs hcode
        have hskip := hfirst.report .debug "library"
          ("Skipping unresolved sibling component ".toList ++ x)
        obtain ⟨requested, trees, t, hwalk, hrun, hasked⟩ :=
          ih made (x :: visited) _ hskip.holds (hmono.trans hfuel)
        refine ⟨x :: requested, trees, t, .absent hx hcode hwalk, ?_, hskip.append hasked⟩
        simp only [List.foldlM_cons, visit, List.contains_iff_mem, if_neg hx, Reading.run_bind,
          hfile, Reading.run_report, Reading.run_pure, hrun, List.reverse_cons, List.append_assoc,
          List.singleton_append]
      | some code =>
        obtain ⟨u, hfile, hfirst⟩ := run_file_found h hs hcode
        have hlt := remaining_lt hx hcode
        obtain ⟨inner, below, v, hInner, hrunInner, haskedInner⟩ :=
          hexpand x code (x :: visited) u hfirst.holds (hlt.trans_le hfuel)
        obtain ⟨outer, trees, t, hOuter, hrunOuter, haskedOuter⟩ :=
          ih (made ++ [importsOf x code below]) (inner.reverse ++ x :: visited) v haskedInner.holds
            ((remaining_mono (by simp)).trans (hmono.trans hfuel))
        refine ⟨x :: (inner ++ outer), importsOf x code below :: trees, t,
          .present hx hcode hInner hOuter, ?_, (hfirst.append haskedInner).append haskedOuter⟩
        simp only [List.foldlM_cons, visit, List.contains_iff_mem, if_neg hx, Reading.run_bind,
          Reading.run_optional, hfile, Reading.run_pure, hrunInner, hrunOuter, List.reverse_cons,
          List.reverse_append, List.append_assoc, List.singleton_append]

theorem walks_expand (h : lib.provider.Serves files holds) (name source : Text)
    (visited : List Text) (s : Session (Recorded σ)) (hs : holds s.state.inner)
    (hfuel : remaining lib.layout files visited < fuel) :
    lib.Walks files holds (siblingsIn source) visited s
      (lib.recorded.expand fuel name source visited)
      fun below visited => (importsOf name source below, visited) := by
  induction fuel generalizing name source visited s with
  | zero => exact absurd hfuel (Nat.not_lt_zero _)
  | succ fuel ih =>
    obtain ⟨requested, trees, t, hwalk, hrun, hasked⟩ :=
      walks_visit h ih (siblingsIn source) [] visited s hs (Nat.lt_succ_iff.mp hfuel)
    refine ⟨requested, trees, t, hwalk, ?_, hasked⟩
    simp only [expand_succ, Reading.run_bind, hrun, Reading.run_pure, List.nil_append]

/-- A deep lookup that expands fewer than `bound` components inside one another. -/
def deepWithin (lib : Library σ) (bound : Nat) (root : Text) : Reading σ DependencyTree := do
  let source ← lib.file root .source
  return (← lib.expand bound root source [root]).1

/-- The reading walks from the root, asks for nothing else, and gives the tree of the root. -/
def WalksFrom (lib : Library σ) (files : Entries Text) (holds : σ → Prop) (root : Text)
    (names : List Text) (tree : DependencyTree) (s : Session (Recorded σ))
    (r : Reading (Recorded σ) DependencyTree) : Prop :=
  Follows (sourceOf lib.layout files) [root] [] names [tree] ∧
    ∃ t, r.run s = (.ok tree, t) ∧ lib.Asked holds names s t

variable {root code : Text} {s : Session (Recorded σ)}

theorem walksFrom_deepWithin (h : lib.provider.Serves files holds) (hs : holds s.state.inner)
    (hroot : sourceOf lib.layout files root = some code) {bound : Nat}
    (hbound : files.length ≤ bound) :
    ∃ names tree, lib.WalksFrom files holds root names tree s
      (lib.recorded.deepWithin bound root) := by
  obtain ⟨u, hfile, hfirst⟩ := run_file_found h hs hroot
  have hfuel : remaining lib.layout files [root] < bound :=
    (remaining_lt List.not_mem_nil hroot).trans_le (remaining_le_length.trans hbound)
  obtain ⟨requested, below, t, hwalk, hrun, hasked⟩ :=
    walks_expand h root code [root] u hfirst.holds hfuel
  refine ⟨_, _, .present List.not_mem_nil hroot hwalk (.done _), t, ?_, ?_⟩
  · simp only [deepWithin, Reading.run_bind, hfile, hrun, Reading.run_pure]
  · rw [List.append_nil]
    exact hfirst.append hasked

theorem walksFrom_dependencies (h : lib.provider.Serves files holds) (hs : holds s.state.inner)
    (hroot : sourceOf lib.layout files root = some code) :
    ∃ names tree, lib.WalksFrom files holds root names tree s
      (lib.recorded.dependencies root true) := by
  obtain ⟨u, hfile, hfirst⟩ := run_file_found h hs hroot
  have hextent : files.length ≤ lib.recorded.provider.extent u.state := h.bounded hfirst.holds
  obtain ⟨names, tree, hwalk, t, hrun, hasked⟩ :=
    walksFrom_deepWithin h hs hroot (hextent.trans (Nat.le_add_right _ 2))
  refine ⟨names, tree, hwalk, t, ?_, hasked⟩
  simp only [deepWithin, Reading.run_bind, hfile] at hrun
  simp only [dependencies, Reading.run_bind, hfile, if_true, Reading.run_get]
  exact hrun

end Walks

section Agree

variable (lib : Library σ)

theorem agree_file (c : Text) (f : ComponentFile) :
    Recorded.Agree (lib.recorded.file c f) (lib.file c f) :=
  (Recorded.Agree.report _ _ _).bind fun _ => Recorded.agree_read lib.provider .file _

theorem agree_expand (fuel : Nat) (name source : Text) (visited : List Text) :
    Recorded.Agree (lib.recorded.expand fuel name source visited)
      (lib.expand fuel name source visited) := by
  induction fuel generalizing name source visited with
  | zero => exact .pure _
  | succ fuel ih =>
    rw [expand_succ, expand_succ]
    refine (Recorded.Agree.foldlM (fun (trees, visited) x => ?_) _ _).bind fun _ => .pure _
    dsimp only [visit]
    split
    · exact .pure _
    · refine (lib.agree_file x .source).optional.bind fun
        | none => (Recorded.Agree.report _ _ _).bind fun _ => .pure _
        | some code => (ih x code _).bind fun _ => .pure _

theorem agree_dependencies (c : Text) (deep : Bool) :
    Recorded.Agree (lib.recorded.dependencies c deep) (lib.dependencies c deep) := by
  refine (lib.agree_file c .source).bind fun code => ?_
  cases deep with
  | false => exact .pure _
  | true =>
    intro s
    have hexpand :=
      lib.agree_expand (lib.provider.extent (Recorded.forget s).state + 2) c code [c] s
    have hextent : lib.recorded.provider.extent s.state =
        lib.provider.extent (Recorded.forget s).state := rfl
    simp only [if_true, Reading.run_bind, Reading.run_get, hextent, hexpand]
    rcases (lib.recorded.expand _ c code [c]).run s with ⟨_ | _, t⟩ <;> rfl

end Agree

end Library

end ComponentCatalog
