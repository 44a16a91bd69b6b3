import Mathlib.Data.List.Nodup
import Mathlib.Data.List.Perm.Subperm
import ComponentCatalog.Library.Dependencies

/-!
The deep walk over the imports of components, as a relation free of any bound on its depth. Its laws
say what a walk visits, what its trees hold, and where it leaves out a sibling that has no source.
-/
namespace ComponentCatalog

namespace DependencyTree

mutual

/-- A tree and everything below it, each before what is below it. -/
def nodes : DependencyTree → List DependencyTree
  | .node name dependencies components children =>
    .node name dependencies components children :: forestNodes children

def forestNodes : List DependencyTree → List DependencyTree
  | [] => []
  | tree :: trees => tree.nodes ++ forestNodes trees

end

/-- The component is imported here and does not stand among the children. -/
def leavesOut (x : Text) (tree : DependencyTree) : Bool :=
  decide (x ∈ tree.components ∧ x ∉ tree.children.map name)

@[simp] theorem forestNodes_nil : forestNodes [] = [] := by simp [forestNodes]

@[simp] theorem forestNodes_cons (tree : DependencyTree) (trees : List DependencyTree) :
    forestNodes (tree :: trees) = tree.nodes ++ forestNodes trees := by simp [forestNodes]

@[simp] theorem forestNodes_singleton (tree : DependencyTree) :
    forestNodes [tree] = tree.nodes := by simp

@[simp] theorem name_leaf (c : Text) : (leaf c).name = c := rfl

@[simp] theorem nodes_leaf (c : Text) : (leaf c).nodes = [leaf c] := by
  simp [leaf, nodes, forestNodes]

theorem mem_forestNodes_leaf {n : DependencyTree} {c : Text} {trees : List DependencyTree} :
    n ∈ forestNodes (leaf c :: trees) ↔ n = leaf c ∨ n ∈ forestNodes trees := by
  rw [forestNodes_cons, nodes_leaf, List.singleton_append, List.mem_cons]

@[simp] theorem leavesOut_leaf (x c : Text) : leavesOut x (leaf c) = false := by
  simp [leavesOut, leaf, components]

end DependencyTree

namespace Library

open DependencyTree
open Component (siblingsIn)

variable {source : Text → Option Text}

@[simp] theorem name_importsOf (c code : Text) (below : List DependencyTree) :
    (importsOf c code below).name = c := rfl

@[simp] theorem nodes_importsOf (c code : Text) (below : List DependencyTree) :
    (importsOf c code below).nodes = importsOf c code below :: forestNodes below := by
  simp [importsOf, nodes]

theorem mem_forestNodes_importsOf {n : DependencyTree} {c code : Text}
    {below trees : List DependencyTree} :
    n ∈ forestNodes (importsOf c code below :: trees) ↔
      n = importsOf c code below ∨ n ∈ forestNodes below ∨ n ∈ forestNodes trees := by
  rw [forestNodes_cons, nodes_importsOf, List.cons_append, List.mem_cons, List.mem_append]

@[simp] theorem components_importsOf (c code : Text) (below : List DependencyTree) :
    (importsOf c code below).components = siblingsIn code := rfl

@[simp] theorem children_importsOf (c code : Text) (below : List DependencyTree) :
    (importsOf c code below).children = below := rfl

theorem nodup_siblingsIn (code : Text) : (siblingsIn code).Nodup := Text.nodup_distinct _

/-- A walk along siblings: those visited are mentioned, those without a source are left out, the
others are expanded. `requested` lists the components it asks for, first to last. -/
inductive Follows (source : Text → Option Text) :
    (siblings visited requested : List Text) → List DependencyTree → Prop where
  | done (visited : List Text) : Follows source [] visited [] []
  | visited {x : Text} {rest visited requested : List Text} {trees : List DependencyTree} :
      x ∈ visited → Follows source rest visited requested trees →
      Follows source (x :: rest) visited requested (leaf x :: trees)
  | absent {x : Text} {rest visited requested : List Text} {trees : List DependencyTree} :
      x ∉ visited → source x = none → Follows source rest (x :: visited) requested trees →
      Follows source (x :: rest) visited (x :: requested) trees
  | present {x code : Text} {rest visited inner outer : List Text}
      {below trees : List DependencyTree} :
      x ∉ visited → source x = some code →
      Follows source (siblingsIn code) (x :: visited) inner below →
      Follows source rest (inner.reverse ++ x :: visited) outer trees →
      Follows source (x :: rest) visited (x :: (inner ++ outer)) (importsOf x code below :: trees)

/-- The least set of components that holds the root and, with a component that has a source, the
siblings that its source imports. -/
inductive Reached (source : Text → Option Text) (root : Text) : Text → Prop where
  | root : Reached source root root
  | sibling {c code x : Text} :
      Reached source root c → source c = some code → x ∈ siblingsIn code → Reached source root x

/-- A component that is reached from the root imports another. -/
def Imports (source : Text → Option Text) (root c x : Text) : Prop :=
  Reached source root c ∧ ∃ code, source c = some code ∧ x ∈ siblingsIn code

namespace Follows

variable {siblings visited requested : List Text} {trees : List DependencyTree}

theorem notMem_visited (h : Follows source siblings visited requested trees) :
    ∀ x ∈ requested, x ∉ visited := by
  induction h with
  | done => simp
  | visited _ _ ih => exact ih
  | absent hx _ _ ih =>
    rintro y (_ | ⟨_, hy⟩)
    · exact hx
    · exact fun hv => ih y hy (List.mem_cons_of_mem _ hv)
  | present hx _ _ _ ihInner ihOuter =>
    rintro y (_ | ⟨_, hy⟩)
    · exact hx
    · intro hv
      rcases List.mem_append.mp hy with hy | hy
      · exact ihInner y hy (List.mem_cons_of_mem _ hv)
      · exact ihOuter y hy (List.mem_append_right _ (List.mem_cons_of_mem _ hv))

/-- No component is requested twice. -/
theorem nodup (h : Follows source siblings visited requested trees) : requested.Nodup := by
  induction h with
  | done => exact List.nodup_nil
  | visited _ _ ih => exact ih
  | absent _ _ h ih =>
    exact List.nodup_cons.mpr ⟨fun hm => h.notMem_visited _ hm List.mem_cons_self, ih⟩
  | present _ _ hInner hOuter ihInner ihOuter =>
    refine List.nodup_cons.mpr ⟨fun hm => ?_, List.nodup_append.mpr ⟨ihInner, ihOuter, ?_⟩⟩
    · rcases List.mem_append.mp hm with hm | hm
      · exact hInner.notMem_visited _ hm List.mem_cons_self
      · exact hOuter.notMem_visited _ hm (by simp)
    · rintro a ha _ hb rfl
      exact hOuter.notMem_visited a hb (by simp [ha])

/-- After the walk every sibling is visited. -/
theorem siblings_visited (h : Follows source siblings visited requested trees) :
    ∀ x ∈ siblings, x ∈ requested ∨ x ∈ visited := by
  induction h with
  | done => simp
  | visited hx _ ih =>
    rintro y (_ | ⟨_, hy⟩)
    · exact .inr hx
    · exact ih y hy
  | absent _ _ _ ih =>
    rintro y (_ | ⟨_, hy⟩)
    · simp
    · have := ih y hy
      grind
  | present _ _ _ _ _ ihOuter =>
    rintro y (_ | ⟨_, hy⟩)
    · simp
    · have := ihOuter y hy
      grind

/-- After the walk the siblings of every component it requested are visited. -/
theorem closed (h : Follows source siblings visited requested trees) :
    ∀ c ∈ requested, ∀ code, source c = some code →
      ∀ x ∈ siblingsIn code, x ∈ requested ∨ x ∈ visited := by
  induction h with
  | done => simp
  | visited _ _ ih => exact ih
  | absent _ hs _ ih =>
    rintro c (_ | ⟨_, hc⟩) code hcode x hx
    · simp [hs] at hcode
    · have := ih c hc code hcode x hx
      grind
  | present _ hs hInner _ ihInner ihOuter =>
    rintro c (_ | ⟨_, hc⟩) code hcode x hx
    · cases hs.symm.trans hcode
      have := hInner.siblings_visited x hx
      grind
    · rcases List.mem_append.mp hc with hc | hc
      · have := ihInner c hc code hcode x hx
        grind
      · have := ihOuter c hc code hcode x hx
        grind

/-- A walk stays within every set that holds its siblings and is closed under imports. -/
theorem within {S : Text → Prop}
    (hS : ∀ c, S c → ∀ code, source c = some code → ∀ x ∈ siblingsIn code, S x)
    (h : Follows source siblings visited requested trees) (hsiblings : ∀ x ∈ siblings, S x) :
    ∀ c ∈ requested, S c := by
  induction h with
  | done => simp
  | visited _ _ ih => exact ih fun x hx => hsiblings x (List.mem_cons_of_mem _ hx)
  | absent _ _ _ ih =>
    rintro c (_ | ⟨_, hc⟩)
    · exact hsiblings _ List.mem_cons_self
    · exact ih (fun x hx => hsiblings x (List.mem_cons_of_mem _ hx)) c hc
  | present _ hs _ _ ihInner ihOuter =>
    have hx := hsiblings _ List.mem_cons_self
    rintro c (_ | ⟨_, hc⟩)
    · exact hx
    · rcases List.mem_append.mp hc with hc | hc
      · exact ihInner (hS _ hx _ hs) c hc
      · exact ihOuter (fun x hx => hsiblings x (List.mem_cons_of_mem _ hx)) c hc

/-- The nodes of a walk are named by components that it requested or that were visited before. -/
theorem name_mem (h : Follows source siblings visited requested trees) :
    ∀ n ∈ forestNodes trees, n.name ∈ requested ∨ n.name ∈ visited := by
  induction h with
  | done => simp
  | visited hx _ ih =>
    intro n hn
    rcases mem_forestNodes_leaf.mp hn with rfl | hn
    · exact .inr hx
    · exact ih n hn
  | absent _ _ _ ih =>
    intro n hn
    have := ih n hn
    grind
  | present _ _ _ _ ihInner ihOuter =>
    intro n hn
    rcases mem_forestNodes_importsOf.mp hn with rfl | hn | hn
    · simp
    · have := ihInner n hn
      grind
    · have := ihOuter n hn
      grind

/-- A component that the walk does not expand is only mentioned. -/
theorem eq_leaf (h : Follows source siblings visited requested trees) :
    ∀ n ∈ forestNodes trees, (n.name ∉ requested ∨ source n.name = none) → n = leaf n.name := by
  induction h with
  | done => simp
  | visited _ _ ih =>
    intro n hn hname
    rcases mem_forestNodes_leaf.mp hn with rfl | hn
    · rfl
    · exact ih n hn hname
  | absent _ _ _ ih =>
    intro n hn hname
    exact ih n hn (hname.imp_left fun hm hr => hm (List.mem_cons_of_mem _ hr))
  | present _ hs _ _ ihInner ihOuter =>
    intro n hn hname
    rcases mem_forestNodes_importsOf.mp hn with rfl | hn | hn
    · simp [hs] at hname
    · exact ihInner n hn (hname.imp_left fun hm hr => hm (by simp [hr]))
    · exact ihOuter n hn (hname.imp_left fun hm hr => hm (by simp [hr]))

theorem eq_leaf_of_named (h : Follows source siblings visited requested trees) {c : Text}
    (hc : c ∉ requested) : ∀ n ∈ (forestNodes trees).filter (fun n => n.name = c), n = leaf c := by
  intro n hn
  obtain ⟨hn, hname⟩ := List.mem_filter.mp hn
  have hname : n.name = c := of_decide_eq_true hname
  exact hname ▸ h.eq_leaf n hn (.inl (hname ▸ hc))

theorem filter_named_eq_nil (h : Follows source siblings visited requested trees) {c : Text}
    (hc : c ∉ requested) (hv : c ∉ visited) :
    (forestNodes trees).filter (fun n => n.name = c) = [] := by
  rw [List.filter_eq_nil_iff]
  intro n hn hname
  have hname : n.name = c := of_decide_eq_true hname
  rcases h.name_mem n hn with hm | hm
  · exact hc (hname ▸ hm)
  · exact hv (hname ▸ hm)

/-- Of the nodes named by a requested component that has a source, the first is its expansion and
the others only mention it. -/
theorem expanded_once (h : Follows source siblings visited requested trees) {c code : Text}
    (hc : c ∈ requested) (hcode : source c = some code) :
    ∃ below others, (forestNodes trees).filter (fun n => n.name = c) =
      importsOf c code below :: others ∧ ∀ n ∈ others, n = leaf c := by
  induction h with
  | done => cases hc
  | visited hx h ih =>
    have hne : ¬ _ = c := fun he => h.notMem_visited c hc (he ▸ hx)
    simpa [hne] using ih hc
  | absent _ hs _ ih =>
    rcases List.mem_cons.mp hc with rfl | hc
    · simp [hs] at hcode
    · exact ih hc
  | @present x _ _ _ _ _ below _ _ hs hInner hOuter ihInner ihOuter =>
    -- The expansion is here, below, or after; before it the name does not occur.
    by_cases he : x = c
    · subst he
      cases hs.symm.trans hcode
      refine ⟨below, _, by simp [List.filter_append]; rfl, ?_⟩
      intro n hn
      rcases List.mem_append.mp hn with hn | hn
      · exact hInner.eq_leaf_of_named (fun hm => hInner.notMem_visited x hm List.mem_cons_self) n hn
      · exact hOuter.eq_leaf_of_named (fun hm => hOuter.notMem_visited x hm (by simp)) n hn
    · simp only [List.mem_cons, List.mem_append, Ne.symm he, false_or] at hc
      simp only [forestNodes_cons, nodes_importsOf, List.cons_append, List.filter_cons,
        name_importsOf, he, decide_false, Bool.false_eq_true, if_false, List.filter_append]
      rcases hc with hc | hc
      · obtain ⟨below', others, hfirst, hothers⟩ := ihInner hc
        refine ⟨below', _, by rw [hfirst]; rfl, fun n hn => ?_⟩
        rcases List.mem_append.mp hn with hn | hn
        · exact hothers n hn
        · exact hOuter.eq_leaf_of_named (fun hm => hOuter.notMem_visited c hm (by simp [hc])) n hn
      · have hnot := hOuter.notMem_visited c hc
        simp only [List.mem_append, List.mem_reverse, not_or] at hnot
        rw [hInner.filter_named_eq_nil hnot.1 hnot.2, List.nil_append]
        exact ihOuter hc

theorem exists_expansion (h : Follows source siblings visited requested trees) {c code : Text}
    (hc : c ∈ requested) (hcode : source c = some code) :
    ∃ below, importsOf c code below ∈ forestNodes trees ∧
      ∀ n ∈ forestNodes trees, n.name = c → n = leaf c ∨ n = importsOf c code below := by
  obtain ⟨below, others, hfilter, hothers⟩ := h.expanded_once hc hcode
  have hmem {n : DependencyTree} :
      (n ∈ forestNodes trees ∧ n.name = c) ↔ n = importsOf c code below ∨ n ∈ others := by
    rw [← List.mem_cons, ← hfilter, List.mem_filter, decide_eq_true_iff]
  refine ⟨below, (hmem.mpr (.inl rfl)).1, fun n hn hname => ?_⟩
  rcases hmem.mp ⟨hn, hname⟩ with he | hn
  · exact .inr he
  · exact .inl (hothers n hn)

/-- A node with imports is the expansion of a requested component that has a source, and the only
such node of that name. -/
theorem eq_importsOf (h : Follows source siblings visited requested trees) {n : DependencyTree}
    (hn : n ∈ forestNodes trees) {x : Text} (hx : x ∈ n.components) :
    n.name ∈ requested ∧ ∃ code below, source n.name = some code ∧
      n = importsOf n.name code below ∧
      ∀ m ∈ forestNodes trees, m.name = n.name → m = leaf n.name ∨ m = n := by
  have hne : n ≠ leaf n.name := by
    intro he
    rw [he] at hx
    cases hx
  have hmem : n.name ∈ requested := by
    by_contra hnot
    exact hne (h.eq_leaf n hn (.inl hnot))
  obtain ⟨code, hcode⟩ := Option.ne_none_iff_exists'.mp fun hnone =>
    hne (h.eq_leaf n hn (.inr hnone))
  obtain ⟨below, -, hcases⟩ := h.exists_expansion hmem hcode
  have hself := (hcases n hn rfl).resolve_left hne
  exact ⟨hmem, code, below, hcode, hself, fun m hm hname => hself ▸ hcases m hm hname⟩

/-- The children are among the imported siblings, in their order. -/
theorem names_sublist (h : Follows source siblings visited requested trees) :
    (trees.map name).Sublist siblings := by
  induction h with
  | done => exact List.Sublist.refl _
  | visited _ _ ih => exact ih.cons_cons _
  | absent _ _ _ ih => exact ih.cons _
  | present _ _ _ _ _ ihOuter => exact ihOuter.cons_cons _

theorem nodes_sublist (h : Follows source siblings visited requested trees) :
    ∀ n ∈ forestNodes trees, (n.children.map name).Sublist n.components := by
  induction h with
  | done => simp
  | visited _ _ ih =>
    intro n hn
    rcases mem_forestNodes_leaf.mp hn with rfl | hn
    · exact List.Sublist.refl _
    · exact ih n hn
  | absent _ _ _ ih => exact ih
  | present _ _ hInner _ ihInner ihOuter =>
    intro n hn
    rcases mem_forestNodes_importsOf.mp hn with rfl | hn | hn
    · exact hInner.names_sublist
    · exact ihInner n hn
    · exact ihOuter n hn

/-- How often the siblings themselves leave a component out: once, if it is among them and not
among the children. -/
def leftOut (x : Text) (siblings : List Text) (trees : List DependencyTree) : Nat :=
  if x ∈ siblings ∧ x ∉ trees.map name then 1 else 0

/-- A component is left out once in all if the walk requested it in vain, and otherwise nowhere. -/
theorem leavesOut_count (h : Follows source siblings visited requested trees)
    (hsiblings : siblings.Nodup) (x : Text) :
    (forestNodes trees).countP (leavesOut x) + leftOut x siblings trees =
      if x ∈ requested ∧ source x = none then 1 else 0 := by
  -- A sibling is left out along the siblings or below them, never both: no name comes up twice.
  induction h with
  | done => simp [leftOut]
  | @visited y rest _ _ _ hy h ih =>
    obtain ⟨hnotMem, hrest⟩ := List.nodup_cons.mp hsiblings
    rw [← ih hrest, forestNodes_cons, nodes_leaf, List.singleton_append, List.countP_cons]
    by_cases he : x = y
    · subst he
      simp [leftOut, hnotMem]
    · simp [leftOut, he]
  | @absent y rest _ requested trees hy hs h ih =>
    obtain ⟨hnotMem, hrest⟩ := List.nodup_cons.mp hsiblings
    have ih := ih hrest
    by_cases he : x = y
    · subst he
      have hnone : x ∉ requested := fun hm => h.notMem_visited x hm List.mem_cons_self
      have hchild : x ∉ trees.map name := fun hm => hnotMem (h.names_sublist.subset hm)
      rw [if_neg (by simp [hnone]), leftOut, if_neg (by simp [hnotMem])] at ih
      rw [if_pos ⟨List.mem_cons_self, hs⟩, leftOut, if_pos ⟨List.mem_cons_self, hchild⟩]
      omega
    · simpa [leftOut, he] using ih
  | @present y code rest _ inner outer below trees hy hs hInner hOuter ihInner ihOuter =>
    obtain ⟨hnotMem, hrest⟩ := List.nodup_cons.mp hsiblings
    have ihInner := ihInner (nodup_siblingsIn code)
    have ihOuter := ihOuter hrest
    have hhere : leftOut x (siblingsIn code) below =
        if leavesOut x (importsOf y code below) then 1 else 0 := by
      simp [leftOut, leavesOut]
    have hcons : leftOut x (y :: rest) (importsOf y code below :: trees) =
        leftOut x rest trees := by
      by_cases he : x = y
      · subst he
        simp [leftOut, hnotMem]
      · simp [leftOut, he]
    have hdisjoint : x ∈ inner → x ∉ outer := fun hi ho =>
      hOuter.notMem_visited x ho (by simp [hi])
    have hne : source x = none → x ≠ y := by
      rintro hx rfl
      simp [hs] at hx
    rw [forestNodes_cons, nodes_importsOf, List.cons_append, List.countP_cons,
      List.countP_append, hcons, ← hhere]
    grind

theorem nodup_components (h : Follows source siblings visited requested trees) :
    ∀ n ∈ forestNodes trees, n.components.Nodup := by
  intro n hn
  rcases hcomponents : n.components with _ | ⟨x, rest⟩
  · exact List.nodup_nil
  · obtain ⟨-, code, below, -, hself, -⟩ := h.eq_importsOf hn (hcomponents ▸ List.mem_cons_self)
    rw [← hcomponents, hself]
    exact nodup_siblingsIn code

/-- Only a component without a source is left out. -/
theorem name_mem_children (h : Follows source siblings visited requested trees)
    (hsiblings : siblings.Nodup) {n : DependencyTree} (hn : n ∈ forestNodes trees) {x : Text}
    (hx : x ∈ n.components) (hsource : source x ≠ none) : x ∈ n.children.map name := by
  by_contra hnot
  have hleft : n.leavesOut x = true := by simp [leavesOut, hx, hnot]
  have hpos := List.countP_pos_iff.mpr ⟨n, hn, hleft⟩
  have hcount := h.leavesOut_count hsiblings x
  rw [if_neg (fun hand => hsource hand.2)] at hcount
  omega

theorem functional {requested' : List Text} {trees' : List DependencyTree}
    (h : Follows source siblings visited requested trees)
    (h' : Follows source siblings visited requested' trees') :
    requested = requested' ∧ trees = trees' := by
  induction h generalizing requested' trees' with
  | done =>
    cases h'
    exact ⟨rfl, rfl⟩
  | visited hx _ ih =>
    cases h' with
    | visited _ h' =>
      obtain ⟨rfl, rfl⟩ := ih h'
      exact ⟨rfl, rfl⟩
    | absent hn => exact absurd hx hn
    | present hn => exact absurd hx hn
  | absent hx hs _ ih =>
    cases h' with
    | visited hv => exact absurd hv hx
    | absent _ _ h' =>
      obtain ⟨rfl, rfl⟩ := ih h'
      exact ⟨rfl, rfl⟩
    | present _ hs' => simp [hs] at hs'
  | present hx hs _ _ ihInner ihOuter =>
    cases h' with
    | visited hv => exact absurd hv hx
    | absent _ hs' => simp [hs] at hs'
    | present _ hs' hInner hOuter =>
      cases hs.symm.trans hs'
      obtain ⟨rfl, rfl⟩ := ihInner hInner
      obtain ⟨rfl, rfl⟩ := ihOuter hOuter
      exact ⟨rfl, rfl⟩

section Root

variable {root code : Text} {names : List Text} {tree : DependencyTree}

/-- A walk from one component requests what is reached from it. -/
theorem mem_iff_reached (h : Follows source [root] [] names [tree]) (c : Text) :
    c ∈ names ↔ Reached source root c := by
  constructor
  · refine h.within (fun c hc code hcode x hx => .sibling hc hcode hx) ?_ c
    intro x hx
    exact List.mem_singleton.mp hx ▸ .root
  · intro hc
    induction hc with
    | root => simpa using h.siblings_visited root List.mem_cons_self
    | sibling _ hcode hx ih => simpa using h.closed _ ih _ hcode _ hx

theorem leavesOut_count_root (h : Follows source [root] [] names [tree]) (x : Text) :
    tree.nodes.countP (leavesOut x) = if x ∈ names ∧ source x = none then 1 else 0 := by
  have hname : tree.name = root := by simpa using h.names_sublist
  have hroot : leftOut x [root] [tree] = 0 := by simp [leftOut, hname]
  have hcount := h.leavesOut_count (List.nodup_singleton root) x
  rwa [hroot, Nat.add_zero, forestNodes_cons, forestNodes_nil, List.append_nil] at hcount

theorem imports_of_mem (h : Follows source [root] [] names [tree]) {n : DependencyTree}
    (hn : n ∈ tree.nodes) {x : Text} (hx : x ∈ n.components) : Imports source root n.name x := by
  obtain ⟨hmem, code, below, hcode, hself, -⟩ := h.eq_importsOf (by simpa using hn) hx
  refine ⟨(h.mem_iff_reached n.name).mp hmem, code, hcode, ?_⟩
  rwa [hself] at hx

theorem exists_node_of_imports (h : Follows source [root] [] names [tree]) {c x : Text}
    (hx : Imports source root c x) : ∃ n ∈ tree.nodes, n.name = c ∧ x ∈ n.components := by
  obtain ⟨hc, code, hcode, hx⟩ := hx
  obtain ⟨below, hmem, -⟩ := h.exists_expansion ((h.mem_iff_reached c).mpr hc) hcode
  exact ⟨importsOf c code below, by simpa using hmem, rfl, hx⟩

/-- No two nodes leave out the same component. -/
theorem eq_of_leavesOut (h : Follows source [root] [] names [tree]) {m n : DependencyTree}
    {x : Text} (hm : m ∈ tree.nodes) (hn : n ∈ tree.nodes) (hmx : m.leavesOut x)
    (hnx : n.leavesOut x) : m = n := by
  -- Both stand in the list of the nodes that leave it out, which has one element at most.
  have hle : (tree.nodes.filter (leavesOut x)).length ≤ 1 := by
    rw [← List.countP_eq_length_filter, h.leavesOut_count_root]
    split <;> decide
  have hm := List.mem_filter.mpr ⟨hm, hmx⟩
  have hn := List.mem_filter.mpr ⟨hn, hnx⟩
  rcases hfilter : tree.nodes.filter (leavesOut x) with _ | ⟨k, _ | ⟨_, _⟩⟩ <;>
    rw [hfilter] at hle hm hn
  · cases hm
  · rw [List.mem_singleton.mp hm, List.mem_singleton.mp hn]
  · simp at hle

/-- A node imports a component without a source and has it as a child only if another component
imports it too. -/
theorem exists_other_of_absent_child (h : Follows source [root] [] names [tree])
    {n : DependencyTree} (hn : n ∈ tree.nodes) {x : Text} (hx : x ∈ n.children.map name)
    (hsource : source x = none) : ∃ c, c ≠ n.name ∧ Imports source root c x := by
  have hforest := forestNodes_singleton tree
  have hcomponent : x ∈ n.components := (h.nodes_sublist n (hforest ▸ hn)).subset hx
  obtain ⟨hmem, code, _, hcode, hself, honly⟩ := h.eq_importsOf (hforest ▸ hn) hcomponent
  have hxcode : x ∈ siblingsIn code := by rwa [hself] at hcomponent
  have hrequested : x ∈ names := by simpa using h.closed _ hmem _ hcode x hxcode
  have hpos : 0 < tree.nodes.countP (leavesOut x) := by
    rw [h.leavesOut_count_root, if_pos ⟨hrequested, hsource⟩]
    exact Nat.one_pos
  obtain ⟨m, hm, hmx⟩ := List.countP_pos_iff.mp hpos
  obtain ⟨hmcomponent, hmchild⟩ := of_decide_eq_true hmx
  refine ⟨m.name, fun hname => ?_, h.imports_of_mem hm hmcomponent⟩
  rcases honly m (hforest ▸ hm) hname with rfl | rfl
  · cases hmcomponent
  · exact hmchild hx

/-- The children of every node are exactly its imported siblings with a source, in their order, if
and only if no component without a source is imported by two components. -/
theorem children_exact_iff (h : Follows source [root] [] names [tree]) :
    (∀ n ∈ tree.nodes, n.children.map name = n.components.filter fun x => (source x).isSome) ↔
      ∀ x c c', source x = none → Imports source root c x → Imports source root c' x → c = c' := by
  have hforest := forestNodes_singleton tree
  constructor
  · intro hexact x c c' hsource hc hc'
    have hleft : ∀ n ∈ tree.nodes, x ∈ n.components → n.leavesOut x := by
      intro n hn hx
      rw [leavesOut, hexact n hn]
      simp [hx, hsource]
    obtain ⟨m, hm, rfl, hmx⟩ := h.exists_node_of_imports hc
    obtain ⟨n, hn, rfl, hnx⟩ := h.exists_node_of_imports hc'
    rw [h.eq_of_leavesOut hm hn (hleft m hm hmx) (hleft n hn hnx)]
  · intro hunique n hn
    have hsub := h.nodes_sublist n (hforest ▸ hn)
    have hsome : ∀ x ∈ n.children.map name, (source x).isSome := by
      intro x hx
      by_contra hnone
      have hnone : source x = none := by simpa using hnone
      obtain ⟨c, hne, hc⟩ := h.exists_other_of_absent_child hn hx hnone
      exact hne (hunique x c n.name hnone hc (h.imports_of_mem hn (hsub.subset hx)))
    have hall : n.components.filter (fun x => (source x).isSome) ⊆ n.children.map name := by
      intro x hx
      obtain ⟨hx, hsource⟩ := List.mem_filter.mp hx
      exact h.name_mem_children (List.nodup_singleton root) (hforest ▸ hn) hx
        (Option.isSome_iff_ne_none.mp hsource)
    have hnodup : n.components.Nodup := h.nodup_components n (hforest ▸ hn)
    have hsub := hsub.filter fun x => (source x).isSome
    rw [List.filter_eq_self.mpr hsome] at hsub
    exact hsub.eq_of_length_le (List.Nodup.subperm (hnodup.filter _) hall).length_le

end Root

end Follows

end Library

end ComponentCatalog
