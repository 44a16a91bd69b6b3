import ComponentCatalog.Proofs.Dependencies

/-!
What a deep lookup of dependencies asks for and what its tree holds, whatever cycles the imports
form; and when the children in the tree are exactly the imported siblings that can be resolved.
-/
namespace ComponentCatalog.Library

open Provider DependencyTree
open Component (siblingsIn)

/-- Components `A` and `B` that import each other, and both of them `M`, which is absent. -/
def entangledFiles : Entries Text :=
  [("c/A/A.tsx".toList, "import M from '../M';import B from '../B'".toList),
    ("c/B/B.tsx".toList, "import A from '../A';import M from '../M'".toList)]

def entangled : Library Memory := ⟨.memory, ⟨"c".toList, [], []⟩, 1⟩

def entangledSession : Session Memory := ⟨⟨entangledFiles, [], [], []⟩, []⟩

theorem entangled_serves : entangled.provider.Serves entangledFiles
    fun m => m.files = entangledFiles ∧ m.broken = [] := Memory.serves entangledFiles

theorem entangled_imports :
    let source := sourceOf entangled.layout entangledFiles
    source "M".toList = none ∧ Imports source "A".toList "A".toList "M".toList ∧
      Imports source "A".toList "B".toList "M".toList :=
  ⟨rfl, ⟨.root, _, rfl, by decide⟩, ⟨.sibling .root rfl (by decide), _, rfl, by decide⟩⟩

variable {σ : Type} {lib : Library σ} {files : Entries Text} {holds : σ → Prop} {s : Session σ}
  {root code : Text}

theorem run_shallow (h : lib.provider.Serves files holds) {c : Text} (hs : holds s.state)
    (hcode : sourceOf lib.layout files c = some code) :
    ∃ t, (lib.dependencies c false).run s = (.ok (importsOf c code []), t) := by
  obtain ⟨t, hfile, -⟩ := run_file_found (s := ⟨⟨s.state, []⟩, s.log⟩) h hs hcode
  refine ⟨Recorded.forget t, ?_⟩
  have hrun : (lib.recorded.dependencies c false).run ⟨⟨s.state, []⟩, s.log⟩ =
      (.ok (importsOf c code []), t) := by
    rw [dependencies, Reading.run_bind, hfile]
    rfl
  have hagree := lib.agree_dependencies c false ⟨⟨s.state, []⟩, s.log⟩
  rwa [hrun] at hagree

/-- A deep lookup ends however many components it may expand inside one another. It asks for the
source of each component that is reached from the root once, and for nothing else. In its tree each
of these that has a source stands once with what the shallow lookup gives, and is elsewhere only
mentioned. -/
theorem deep_lookup_expands_once (h : lib.provider.Serves files holds) (hs : holds s.state)
    (hroot : sourceOf lib.layout files root = some code) :
    let source := sourceOf lib.layout files
    let start : Session (Recorded σ) := ⟨⟨s.state, []⟩, s.log⟩
    ∃ (names : List Text) (tree : DependencyTree) (t : Session (Recorded σ)),
      (lib.dependencies root true).run s = (.ok tree, Recorded.forget t) ∧
      (lib.recorded.dependencies root true).run start = (.ok tree, t) ∧
      (∀ bound, files.length ≤ bound → ∃ t',
        (lib.recorded.deepWithin bound root).run start = (.ok tree, t') ∧
        t'.state.calls.map Call.question = t.state.calls.map Call.question) ∧
      t.state.calls.map Call.question =
        names.map (fun c => (.file, lib.layout.componentPath c .source)) ∧
      (t.state.calls.map Call.path).Nodup ∧
      (∀ c, c ∈ names ↔ Reached source root c) ∧
      ∀ c ∈ names, source c ≠ none → ∀ u : Session σ, holds u.state →
        ∃ shallow v, (lib.dependencies c false).run u = (.ok shallow, v) ∧
          ∃ n others, tree.nodes.filter (fun n => n.name = c) = n :: others ∧
            n.dependencies = shallow.dependencies ∧ n.components = shallow.components ∧
            ∀ m ∈ others, m = leaf c := by
  intro source start
  obtain ⟨names, tree, hwalk, t, hrun, hasked⟩ :=
    walksFrom_dependencies (s := start) h hs hroot
  have hquestions : t.state.calls.map Call.question =
      names.map fun c => (.file, lib.layout.componentPath c .source) := hasked.questions
  have hpaths : t.state.calls.map Call.path =
      names.map fun c => lib.layout.componentPath c .source := by
    have := congrArg (List.map Prod.snd) hquestions
    rwa [List.map_map, List.map_map] at this
  refine ⟨names, tree, t, ?_, hrun, ?_, hquestions, ?_, hwalk.mem_iff_reached, ?_⟩
  · have hagree := lib.agree_dependencies root true start
    rwa [hrun] at hagree
  · intro bound hbound
    obtain ⟨names', tree', hwalk', t', hrun', hasked'⟩ :=
      walksFrom_deepWithin (s := start) h hs hroot hbound
    obtain ⟨rfl, htree⟩ := hwalk'.functional hwalk
    obtain ⟨rfl, -⟩ := List.cons.inj htree
    exact ⟨t', hrun', hasked'.questions.trans hquestions.symm⟩
  · rw [hpaths]
    exact hwalk.nodup.map (lib.layout.componentPath_injective .source)
  · intro c hc hsource u hu
    obtain ⟨code, hcode⟩ := Option.ne_none_iff_exists'.mp hsource
    obtain ⟨v, hshallow⟩ := run_shallow h hu hcode
    obtain ⟨below, others, hfilter, hothers⟩ := hwalk.expanded_once hc hcode
    rw [forestNodes_cons, forestNodes_nil, List.append_nil] at hfilter
    exact ⟨_, v, hshallow, _, others, hfilter, rfl, rfl, hothers⟩

/-- The absent component is asked for once, although it is imported twice. -/
theorem absent_asked_once :
    ∃ tree t, (entangled.recorded.dependencies "A".toList true).run
        ⟨⟨entangledSession.state, []⟩, entangledSession.log⟩ = (.ok tree, t) ∧
      (t.state.calls.map Call.path).count "c/M/M.tsx".toList = 1 := by
  obtain ⟨hsource, himports, -⟩ := entangled_imports
  have hroot : sourceOf entangled.layout entangledFiles "A".toList = some _ := rfl
  obtain ⟨names, tree, t, -, hrun, -, hquestions, hnodup, hreached, -⟩ :=
    deep_lookup_expands_once (s := entangledSession) entangled_serves ⟨rfl, rfl⟩ hroot
  refine ⟨tree, t, hrun, List.count_eq_one_of_mem hnodup ?_⟩
  obtain ⟨hc, code, hcode, hx⟩ := himports
  have hmem := (hreached "M".toList).mpr (.sibling hc hcode hx)
  have hquestion : (Kind.file, entangled.layout.componentPath "M".toList .source) ∈
      t.state.calls.map Call.question := hquestions ▸ List.mem_map_of_mem hmem
  obtain ⟨call, hcall, heq⟩ := List.mem_map.mp hquestion
  exact List.mem_map.mpr ⟨call, hcall, congrArg Prod.snd heq⟩

/-- In the tree of a deep lookup the children of a node are in order among its imported siblings and
include all that have a source. A sibling without one is left out at one node only, so that the
children are exactly the siblings with a source if and only if no component without one is imported
by two components. -/
theorem deep_lookup_children_exact_iff (h : lib.provider.Serves files holds) (hs : holds s.state)
    (hroot : sourceOf lib.layout files root = some code) :
    let source := sourceOf lib.layout files
    ∃ tree t, (lib.dependencies root true).run s = (.ok tree, t) ∧
      (∀ n ∈ tree.nodes, (n.children.map name).Sublist n.components ∧
        ∀ x ∈ n.components, source x ≠ none → x ∈ n.children.map name) ∧
      (∀ x, Reached source root x → source x = none → tree.nodes.countP (leavesOut x) = 1) ∧
      ((∀ n ∈ tree.nodes,
          n.children.map name = n.components.filter fun x => (source x).isSome) ↔
        ∀ x c c', source x = none → Imports source root c x → Imports source root c' x →
          c = c') := by
  intro source
  obtain ⟨names, tree, hwalk, t, hrun, -⟩ :=
    walksFrom_dependencies (s := ⟨⟨s.state, []⟩, s.log⟩) h hs hroot
  have hforest := forestNodes_singleton tree
  refine ⟨tree, Recorded.forget t, ?_, ?_, ?_, hwalk.children_exact_iff⟩
  · have hagree := lib.agree_dependencies root true ⟨⟨s.state, []⟩, s.log⟩
    rwa [hrun] at hagree
  · intro n hn
    exact ⟨hwalk.nodes_sublist n (hforest ▸ hn), fun x hx hsource =>
      hwalk.name_mem_children (List.nodup_singleton root) (hforest ▸ hn) hx hsource⟩
  · intro x hx hsource
    rw [hwalk.leavesOut_count_root, if_pos ⟨(hwalk.mem_iff_reached x).mpr hx, hsource⟩]

/-- Some component has the absent one among its children. -/
theorem absent_child_of_shared :
    ∃ tree t, (entangled.dependencies "A".toList true).run entangledSession = (.ok tree, t) ∧
      ∃ n ∈ tree.nodes, n.children.map name ≠
        n.components.filter fun x => (sourceOf entangled.layout entangledFiles x).isSome := by
  obtain ⟨hsource, himports, himports'⟩ := entangled_imports
  have hroot : sourceOf entangled.layout entangledFiles "A".toList = some _ := rfl
  obtain ⟨tree, t, hrun, -, -, hiff⟩ :=
    deep_lookup_children_exact_iff (s := entangledSession) entangled_serves ⟨rfl, rfl⟩ hroot
  refine ⟨tree, t, hrun, ?_⟩
  by_contra hcontra
  have hsame := hiff.mp (fun n hn => by_contra fun hne => hcontra ⟨n, hn, hne⟩) _ _ _ hsource
    himports himports'
  exact absurd hsame (by decide)

end ComponentCatalog.Library
