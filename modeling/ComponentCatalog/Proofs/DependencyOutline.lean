import ComponentCatalog.Present.Presenter
import ComponentCatalog.Proofs.JoinedLines
import ComponentCatalog.Proofs.Parts

/-!
The page of a dependency tree is an outline of it: below the lines for the root it has one line for
each descendant. Descendants are told by their paths from the root, so that the order of the lines
is the lexicographic order of paths, and the depth of a line is the length of its path. The page is
what a template writes: first what trimming leaves of it, then what its loop writes for a list of
nodes, then the text as a whole.
-/
namespace ComponentCatalog

open Text

namespace DependencyTree

/-- The node that a path of places among the children leads to. -/
def at? (t : DependencyTree) : (path : List Nat) → Option DependencyTree
  | [] => some t
  | i :: path => (t.children[i]?).bind fun child => child.at? path

mutual

/-- A node and its descendants, each behind those that it is below and those to the left of it. -/
def visits : DependencyTree → List (List Nat × DependencyTree)
  | .node name dependencies components children =>
    ([], .node name dependencies components children) :: childVisits 0 children

/-- The same of siblings, the first of which has the place `i`. -/
def childVisits (i : Nat) : List DependencyTree → List (List Nat × DependencyTree)
  | [] => []
  | tree :: trees => tree.visits.map (fun v => (i :: v.1, v.2)) ++ childVisits (i + 1) trees

end

/-- The descendants of a node with their paths. -/
def descendants (t : DependencyTree) : List (List Nat × DependencyTree) := childVisits 0 t.children

/-- The list has every descendant of the tree once, in depth-first order from left to right, a node
before those below it. -/
structure Preorder (t : DependencyTree) (found : List (List Nat × DependencyTree)) : Prop where
  ordered : (found.map Prod.fst).Pairwise (· < ·)
  mem_iff : ∀ path d, (path, d) ∈ found ↔ path ≠ [] ∧ t.at? path = some d

mutual

theorem mem_visits : ∀ (t : DependencyTree) (path : List Nat) (d : DependencyTree),
    (path, d) ∈ t.visits ↔ t.at? path = some d
  | .node name dependencies components children, path, d => by
    rw [visits, List.mem_cons, mem_childVisits]
    cases path with
    | nil => simp [at?, eq_comm]
    | cons i path => simp [at?, DependencyTree.children, Option.bind_eq_some_iff]

theorem mem_childVisits : ∀ (i : Nat) (ts : List DependencyTree) (path : List Nat)
    (d : DependencyTree), (path, d) ∈ childVisits i ts ↔
      ∃ j rest, path = (i + j) :: rest ∧ ∃ t, ts[j]? = some t ∧ t.at? rest = some d
  | i, [], path, d => by simp [childVisits]
  | i, t :: ts, path, d => by
    rw [childVisits, List.mem_append, mem_childVisits (i + 1) ts]
    constructor
    · rintro (hhere | ⟨j, rest, rfl, hlater⟩)
      · obtain ⟨⟨rest, d'⟩, hmem, heq⟩ := List.mem_map.mp hhere
        cases heq
        exact ⟨0, rest, rfl, t, rfl, (mem_visits t rest d').mp hmem⟩
      · exact ⟨j + 1, rest, by rw [Nat.add_right_comm, Nat.add_assoc], hlater⟩
    · rintro ⟨j, rest, rfl, t', hget, hat⟩
      cases j with
      | zero =>
        cases hget
        exact .inl (List.mem_map.mpr ⟨(rest, d), (mem_visits t rest d).mpr hat, rfl⟩)
      | succ j => exact .inr ⟨j, rest, by rw [Nat.add_right_comm, Nat.add_assoc], t', hget, hat⟩

end

mutual

theorem pairwise_visits (t : DependencyTree) : (t.visits.map Prod.fst).Pairwise (· < ·) := by
  cases t with
  | node name dependencies components children =>
    rw [visits, List.map_cons, List.pairwise_cons]
    refine ⟨fun path hpath => ?_, pairwise_childVisits 0 children⟩
    obtain ⟨⟨path, d⟩, hmem, rfl⟩ := List.mem_map.mp hpath
    obtain ⟨j, rest, rfl, -⟩ := (mem_childVisits 0 children path d).mp hmem
    exact List.nil_lt_cons _ _

theorem pairwise_childVisits : ∀ (i : Nat) (ts : List DependencyTree),
    ((childVisits i ts).map Prod.fst).Pairwise (· < ·)
  | _, [] => .nil
  | i, t :: ts => by
    rw [childVisits, List.map_append, List.map_map]
    refine List.pairwise_append.mpr ⟨?_, pairwise_childVisits (i + 1) ts, ?_⟩
    · have hhere := (pairwise_visits t).map (i :: ·) fun path path' hlt =>
        List.cons_lt_cons_iff.mpr (.inr ⟨rfl, hlt⟩)
      rwa [List.map_map] at hhere
    · -- A path through a sibling to the left comes first.
      intro path hpath path' hpath'
      obtain ⟨⟨rest, d⟩, -, rfl⟩ := List.mem_map.mp hpath
      obtain ⟨⟨path', d'⟩, hmem, rfl⟩ := List.mem_map.mp hpath'
      obtain ⟨j, rest', rfl, -⟩ := (mem_childVisits (i + 1) ts path' d').mp hmem
      exact List.cons_lt_cons_iff.mpr (.inl (by omega))

end

theorem preorder_descendants (t : DependencyTree) : Preorder t t.descendants where
  ordered := pairwise_childVisits 0 t.children
  mem_iff path d := by
    rw [descendants, mem_childVisits]
    cases path with
    | nil => simp
    | cons i path => simp [at?, Option.bind_eq_some_iff]

end DependencyTree

namespace Text

/-- A text on one line without blanks around it. -/
structure IsLabel (s : Text) : Prop where
  ne_nil : s ≠ []
  stripped : strip s = s
  feed_notMem : '\n' ∉ s

instance (s : Text) : Decidable (IsLabel s) :=
  decidable_of_iff (s ≠ [] ∧ strip s = s ∧ '\n' ∉ s)
    ⟨fun h => ⟨h.1, h.2.1, h.2.2⟩, fun h => ⟨h.ne_nil, h.stripped, h.feed_notMem⟩⟩

/-- The text is a label, or it has one at its end. -/
def EndsInLabel (s : Text) : Prop := ∃ u v, s = u ++ v ∧ v ≠ [] ∧ strip v = v

variable {c : Char} {s : Text} {names : List Text}

theorem IsLabel.ends (h : IsLabel s) : EndsInLabel s := ⟨[], s, rfl, h.ne_nil, h.stripped⟩

theorem EndsInLabel.append (h : EndsInLabel s) (lead : Text) : EndsInLabel (lead ++ s) := by
  obtain ⟨u, v, rfl, hv⟩ := h
  exact ⟨lead ++ u, v, (List.append_assoc _ _ _).symm, hv⟩

/-- Between a character that is no blank and a label at the end nothing is stripped. -/
theorem EndsInLabel.strip_eq_self (h : EndsInLabel (c :: s)) (hc : isBlank c = false) :
    strip (c :: s) = c :: s := by
  obtain ⟨u, v, hsplit, hne, hv⟩ := h
  cases u with
  | nil => rw [hsplit, List.nil_append, hv]
  | cons d u =>
    obtain ⟨rfl, rfl⟩ := List.cons.inj hsplit
    exact strip_cons_append hc hne hv u

theorem endsInLabel_join (hne : names ≠ []) (h : ∀ s ∈ names, IsLabel s) :
    EndsInLabel (join ", ".toList names) := by
  induction names with
  | nil => exact absurd rfl hne
  | cons name names ih =>
    cases names with
    | nil =>
      have hone : join ", ".toList [name] = name := List.append_nil _
      rw [hone]
      exact (h name List.mem_cons_self).ends
    | cons next names =>
      rw [join_cons_cons]
      exact ((ih (List.cons_ne_nil _ _) fun s hs => h s (.tail _ hs)).append _).append _

theorem feed_notMem_join (h : ∀ s ∈ names, IsLabel s) : '\n' ∉ join ", ".toList names :=
  notMem_join (by decide) fun s hs => (h s hs).feed_notMem

theorem join_cons_concat (line last : Text) (ls : List Text) :
    join ['\n'] (line :: (ls ++ [last])) = line ++ '\n' :: join ['\n'] (ls ++ [last]) := by
  rw [join_cons, if_neg (by simp)]

theorem exists_join_concat (ls : List Text) (last : Text) :
    ∃ u, join ['\n'] (ls ++ [last]) = u ++ last := by
  induction ls with
  | nil => exact ⟨[], List.append_nil _⟩
  | cons line ls ih =>
    obtain ⟨u, hu⟩ := ih
    refine ⟨line ++ '\n' :: u, ?_⟩
    rw [List.cons_append, join_cons_concat, hu, List.append_assoc]
    rfl

theorem join_terminated (ls : List Text) :
    join ['\n'] (ls ++ [[]]) = ls.flatMap (· ++ ['\n']) := by
  induction ls with
  | nil => rfl
  | cons line ls ih =>
    rw [List.cons_append, join_cons_concat, ih, List.flatMap_cons, List.append_assoc]
    rfl

theorem join_concat_nil {ls : List Text} (hne : ls ≠ []) :
    join ['\n'] (ls ++ [[]]) = join ['\n'] ls ++ ['\n'] := by
  induction ls with
  | nil => exact absurd rfl hne
  | cons line ls ih =>
    rw [List.cons_append, join_cons_concat, join_cons]
    by_cases hls : ls = []
    · subst hls
      rw [if_pos rfl, List.append_nil]
      rfl
    · rw [if_neg hls, ih hls, List.append_assoc]
      rfl

end Text

namespace DependencyTree

/-- The names in a node. -/
def names (t : DependencyTree) : List Text := t.name :: (t.dependencies ++ t.components)

/-- The names in a tree are labels, at every depth. -/
def Labelled (t : DependencyTree) : Prop :=
  ∀ path d, t.at? path = some d → ∀ s ∈ d.names, IsLabel s

variable {t d : DependencyTree} {path : List Nat} {s : Text}

theorem labelled_iff_visits : t.Labelled ↔ ∀ v ∈ t.visits, ∀ s ∈ v.2.names, IsLabel s :=
  ⟨fun h v hv => h v.1 v.2 ((mem_visits t v.1 v.2).mp hv),
    fun h path d hd => h (path, d) ((mem_visits t path d).mpr hd)⟩

instance (t : DependencyTree) : Decidable t.Labelled := decidable_of_iff' _ labelled_iff_visits

theorem Labelled.name (h : t.Labelled) (hd : t.at? path = some d) : IsLabel d.name :=
  h path d hd d.name List.mem_cons_self

theorem Labelled.dependencies (h : t.Labelled) (hd : t.at? path = some d)
    (hs : s ∈ d.dependencies) : IsLabel s :=
  h path d hd s (.tail _ (List.mem_append_left _ hs))

theorem Labelled.components (h : t.Labelled) (hd : t.at? path = some d)
    (hs : s ∈ d.components) : IsLabel s :=
  h path d hd s (.tail _ (List.mem_append_right _ hs))

end DependencyTree

namespace Outline

/-- The body of a loop writes something of its own for an item, and then itself for the children. -/
def Descends (body : Scope → Text) (own : Nat → DependencyTree → Text) : Prop :=
  ∀ s : Scope, (s.node.children = [] → s.again = []) → body s = own s.depth s.node ++ s.again

variable {body : Scope → Text} {record : DependencyTree} {own : Nat → DependencyTree → Text}

mutual

theorem loopOn_eq (h : Descends body own) (depth : Nat) (t : DependencyTree) :
    loopOn body record depth t = t.visits.flatMap fun v => own (depth + v.1.length) v.2 := by
  cases t with
  | node name dependencies components children =>
    have hbelow := loopOver_eq h (depth + 1) 0 children
    have hnone : children = [] → loopOver body record (depth + 1) children = [] := by
      rintro rfl
      rfl
    have hbody := h ⟨record, .node name dependencies components children, depth,
      loopOver body record (depth + 1) children⟩ hnone
    rw [loopOn, hbody, DependencyTree.visits, List.flatMap_cons, hbelow]
    simp only [Nat.add_right_comm, Nat.add_sub_cancel, List.length_nil, Nat.add_zero]

theorem loopOver_eq (h : Descends body own) (depth i : Nat) : ∀ ts : List DependencyTree,
    loopOver body record depth ts =
      (DependencyTree.childVisits i ts).flatMap fun v => own (depth + v.1.length - 1) v.2
  | [] => rfl
  | t :: ts => by
    rw [loopOver, DependencyTree.childVisits, loopOn_eq h depth t, loopOver_eq h depth (i + 1) ts,
      List.flatMap_append, List.flatMap_map]
    rfl

end

/-- At the root such a loop writes a text for every descendant, which knows its depth. -/
theorem loopOver_children (h : Descends body own) (t : DependencyTree) :
    loopOver body t 1 t.children = t.descendants.flatMap fun v => own v.1.length v.2 := by
  rw [loopOver_eq h 1 0 t.children]
  simp only [Nat.add_sub_cancel_left, DependencyTree.descendants]

end Outline

namespace Markdown

/-- Lines that begin with a character and end in a label are a page as they stand. -/
theorem lines_page {c : Char} {line : Text} {ls : List Text} {last : Text}
    (hc : isBlank c = false) (hlast : ((c :: line) :: ls).getLast? = some last)
    (hends : EndsInLabel last) (hfeed : ∀ l ∈ (c :: line) :: ls, '\n' ∉ l) :
    Text.lines (page (((c :: line) :: ls) ++ [[]])) = ((c :: line) :: ls) ++ [[]] := by
  have hne : ((c :: line) :: ls) ≠ [] := List.cons_ne_nil _ _
  have hstrip : strip (join ['\n'] ((c :: line) :: ls)) = join ['\n'] ((c :: line) :: ls) := by
    obtain ⟨more, hmore⟩ : ∃ more, join ['\n'] ((c :: line) :: ls) = c :: more := by
      rw [join_cons]
      exact ⟨_, rfl⟩
    have hjoin : EndsInLabel (join ['\n'] ((c :: line) :: ls)) := by
      obtain ⟨before, hbefore⟩ := List.getLast?_eq_some_iff.mp hlast
      obtain ⟨u, hu⟩ := exists_join_concat before last
      rw [hbefore, hu]
      exact hends.append u
    rw [hmore] at hjoin ⊢
    exact hjoin.strip_eq_self hc
  rw [page, join_concat_nil hne, strip_append_of_blank (by decide), hstrip, ← join_concat_nil hne]
  refine List.splitOn_intercalate '\n' (fun l hl => ?_) (by simp)
  rcases List.mem_append.mp hl with hl | hl
  · exact hfeed l hl
  · rw [List.mem_singleton.mp hl]
    exact List.not_mem_nil

/-- The names behind a colon, if there are any. -/
def namesBehind : List Text → Text
  | [] => []
  | names => ": ".toList ++ join ", ".toList names

/-- The lines of the root. -/
def rootLines (t : DependencyTree) : List Text :=
  ["# ".toList ++ (t.name ++ " dependencies".toList), [],
    "External: ".toList ++ listed t.dependencies,
    "Sibling components: ".toList ++ listed t.components]

/-- The line of a node so many levels below the root. -/
def entryLine (level : Nat) (d : DependencyTree) : Text :=
  List.replicate (2 * (level - 1)) ' ' ++
    ("- **".toList ++ (d.name ++ ("**".toList ++ namesBehind d.dependencies)))

/-- The lines of the root, and below an empty line one for each of the nodes that are found. -/
def outlineLines (t : DependencyTree) (found : List (List Nat × DependencyTree)) : List Text :=
  rootLines t ++ if t.children = [] then [] else [] :: found.map fun v => entryLine v.1.length v.2

theorem dependencyList_eq (t : DependencyTree) : dependencyList t = namesBehind t.dependencies := by
  rw [dependencyList]
  cases t.dependencies <;> rfl

/-- What is left of the entry: the lines with only a block tag are gone, and the line feed behind
the nested entries is stripped with the tag that follows it. -/
theorem trim_dependencyEntry :
    Outline.trimParts .tag (some .plain) dependencyEntry =
      [.data [], .hole fun s => (List.replicate (s.depth - 1) [' ', ' ']).flatten,
        .data "- **".toList, .hole fun s => s.node.name, .data "**".toList,
        .hole fun s => dependencyList s.node, .data ['\n'],
        .block (.when fun s => !s.node.children.isEmpty) .plain .stripping
          [.data [], .hole fun s => s.again, .data []],
        .data []] := rfl

theorem trim_dependencyTemplate :
    Outline.trimParts .start none dependencyTemplate =
      [.data "# ".toList, .hole fun s => s.record.name, .data " dependencies\n\nExternal: ".toList,
        .hole fun s => listed s.record.dependencies, .data "\nSibling components: ".toList,
        .hole fun s => listed s.record.components, .data ['\n'],
        .block (.when fun s => !s.record.children.isEmpty) .plain .plain
          [.data ['\n'],
            .block (.each fun s => s.record.children) .plain .plain
              (Outline.trimParts .tag (some .plain) dependencyEntry),
            .data []],
        .data []] := rfl

/-- The entry of a node is its line, and behind it what the loop writes for its children. -/
theorem descends_dependencyEntry :
    Outline.Descends
      (fun s => Outline.writeParts s (Outline.trimParts .tag (some .plain) dependencyEntry))
      fun depth d => entryLine depth d ++ ['\n'] := by
  intro s hnone
  have hnested : (if !s.node.children.isEmpty then s.again else []) = s.again := by
    cases hchildren : s.node.children with
    | nil => exact (hnone hchildren).symm
    | cons child more => rfl
  have hindent : (List.replicate (s.depth - 1) [' ', ' ']).flatten =
      List.replicate (2 * (s.depth - 1)) ' ' := by
    rw [Nat.mul_comm]
    exact List.flatten_replicate_replicate (n := s.depth - 1) (m := 2)
  simp only [trim_dependencyEntry, Outline.writeParts, Outline.Part.write, hindent,
    dependencyList_eq, entryLine, List.append_assoc, List.nil_append, List.append_nil, hnested]

theorem render_dependencyTemplate (t : DependencyTree) :
    Outline.render dependencyTemplate t = join ['\n'] (outlineLines t t.descendants ++ [[]]) := by
  have hloop := Outline.loopOver_children descends_dependencyEntry t
  have hhead : " dependencies\n\nExternal: ".toList =
      " dependencies".toList ++ '\n' :: '\n' :: "External: ".toList := by decide +kernel
  have hsiblings : "\nSibling components: ".toList = '\n' :: "Sibling components: ".toList := by
    decide +kernel
  have hchildren : (if !t.children.isEmpty then
        '\n' :: t.descendants.flatMap fun v => entryLine v.1.length v.2 ++ ['\n'] else []) =
      (if t.children = [] then [] else [] :: t.descendants.map fun v =>
        entryLine v.1.length v.2).flatMap (· ++ ['\n']) := by
    cases t.children with
    | nil => rfl
    | cons child more =>
      rw [if_neg (List.cons_ne_nil _ _), List.flatMap_cons, List.flatMap_map]
      rfl
  rw [Outline.render, trim_dependencyTemplate, join_terminated, outlineLines, List.flatMap_append,
    ← hchildren]
  simp only [Outline.writeParts, Outline.Part.write, hloop, hhead, hsiblings,
    rootLines, List.flatMap_cons, List.flatMap_nil, List.append_assoc, List.cons_append,
    List.nil_append, List.append_nil]

theorem dependencies_eq_page (t : DependencyTree) :
    dependencies t = page (outlineLines t t.descendants ++ [[]]) := by
  rw [dependencies, page, render_dependencyTemplate]

variable {t d : DependencyTree} {path : List Nat} {names : List Text}

theorem listed_of_ne_nil (h : names ≠ []) : listed names = join ", ".toList names := if_neg h

theorem endsInLabel_listed (h : ∀ s ∈ names, IsLabel s) : EndsInLabel (listed names) := by
  by_cases hnone : names = []
  · subst hnone
    exact ⟨[], _, rfl, by decide, by decide⟩
  · rw [listed_of_ne_nil hnone]
    exact endsInLabel_join hnone h

theorem feed_notMem_listed (h : ∀ s ∈ names, IsLabel s) : '\n' ∉ listed names := by
  by_cases hnone : names = []
  · subst hnone
    decide
  · rw [listed_of_ne_nil hnone]
    exact feed_notMem_join h

theorem endsInLabel_entryLine (h : ∀ s ∈ d.dependencies, IsLabel s) (level : Nat) :
    EndsInLabel (entryLine level d) := by
  refine (EndsInLabel.append (EndsInLabel.append ?_ _) _).append _
  cases hnames : d.dependencies with
  | nil => exact ⟨[], "**".toList, rfl, by decide, by decide⟩
  | cons name names =>
    rw [hnames] at h
    exact ((endsInLabel_join (List.cons_ne_nil _ _) h).append _).append _

theorem feed_notMem_entryLine (hname : IsLabel d.name) (h : ∀ s ∈ d.dependencies, IsLabel s)
    (level : Nat) : '\n' ∉ entryLine level d := by
  have hbehind : '\n' ∉ namesBehind d.dependencies := by
    cases hnames : d.dependencies with
    | nil => exact List.not_mem_nil
    | cons name names =>
      rw [hnames] at h
      exact List.not_mem_append (by decide) (feed_notMem_join h)
  have hindent : '\n' ∉ List.replicate (2 * (level - 1)) ' ' := fun hmem =>
    absurd (List.eq_of_mem_replicate hmem) (by decide)
  exact List.not_mem_append hindent <| List.not_mem_append (by decide) <|
    List.not_mem_append hname.feed_notMem <| List.not_mem_append (by decide) hbehind

theorem feed_notMem_rootLines (h : t.Labelled) : ∀ l ∈ rootLines t, '\n' ∉ l := by
  have hroot : t.at? [] = some t := rfl
  simp only [rootLines, List.forall_mem_cons]
  refine ⟨?_, List.not_mem_nil, ?_, ?_, fun l hl => absurd hl List.not_mem_nil⟩
  · exact List.not_mem_append (by decide)
      (List.not_mem_append (h.name hroot).feed_notMem (by decide))
  · exact List.not_mem_append (by decide) (feed_notMem_listed fun s => h.dependencies hroot)
  · exact List.not_mem_append (by decide) (feed_notMem_listed fun s => h.components hroot)

variable {found : List (List Nat × DependencyTree)}

theorem feed_notMem_outlineLines (h : t.Labelled) (hfound : t.Preorder found) :
    ∀ l ∈ outlineLines t found, '\n' ∉ l := by
  intro l hl
  rcases List.mem_append.mp hl with hl | hl
  · exact feed_notMem_rootLines h l hl
  · split at hl
    · exact absurd hl List.not_mem_nil
    · rcases List.mem_cons.mp hl with rfl | hl
      · exact List.not_mem_nil
      · obtain ⟨⟨path, d⟩, hmem, rfl⟩ := List.mem_map.mp hl
        have hd := ((hfound.mem_iff path d).mp hmem).2
        exact feed_notMem_entryLine (h.name hd) (fun s => h.dependencies hd) _

/-- The last line is that of the siblings or, if there are children, of a descendant. -/
theorem getLast?_outlineLines (h : t.Labelled) (hfound : t.Preorder found) :
    ∃ last, (outlineLines t found).getLast? = some last ∧ EndsInLabel last := by
  have hroot : t.at? [] = some t := rfl
  by_cases hchildren : t.children = []
  · refine ⟨"Sibling components: ".toList ++ listed t.components, ?_,
      (endsInLabel_listed fun s => h.components hroot).append _⟩
    rw [outlineLines, if_pos hchildren, List.append_nil]
    rfl
  · obtain ⟨child, more, hcons⟩ := List.exists_cons_of_ne_nil hchildren
    have hfirst : ([0], child) ∈ found :=
      (hfound.mem_iff _ _).mpr ⟨List.cons_ne_nil _ _, by rw [DependencyTree.at?, hcons]; rfl⟩
    obtain ⟨before, ⟨path, d⟩, hlast⟩ :=
      (List.eq_nil_or_concat' found).resolve_left (List.ne_nil_of_mem hfirst)
    have hd := ((hfound.mem_iff path d).mp (hlast ▸ List.mem_append_right _ List.mem_cons_self)).2
    refine ⟨entryLine path.length d, ?_, endsInLabel_entryLine (fun s => h.dependencies hd) _⟩
    rw [outlineLines, if_neg hchildren, hlast, List.map_append, ← List.cons_append,
      ← List.append_assoc]
    exact List.getLast?_concat

end Markdown

/-- A tree with a subtree that is left again. -/
def nestedTree : DependencyTree :=
  .node "Panel".toList ["react".toList] ["Button".toList, "Card".toList]
    [.node "Button".toList ["clsx".toList, "react".toList] ["Icon".toList]
      [.node "Icon".toList [] [] []], .leaf "Card".toList]

end ComponentCatalog
