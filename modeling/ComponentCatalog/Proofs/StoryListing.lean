import Mathlib.Data.List.Nodup
import Mathlib.Data.List.Perm.Basic
import ComponentCatalog.Proofs.Places
import ComponentCatalog.Proofs.StoryLines
import ComponentCatalog.Proofs.StorySettings

/-!
The listing of a story file: two scans for declarations, merged in the order of the file, and one
for assignments, which are folded into the stories they name.
-/
namespace ComponentCatalog.Story

open Text Code
open Component (IsName)

variable {lines : List Line} {arguments : List Argument} {name code : Text}

theorem lt_offset_of_mem_placed {offset : Nat} :
    ∀ line ∈ placed offset lines, offset < line.1 := by
  induction lines generalizing offset with
  | nil => simp [placed]
  | cons line lines ih =>
    rw [placed, List.forall_mem_cons]
    refine ⟨Nat.lt_succ_self _, fun other hother => ?_⟩
    have := ih other hother
    omega

theorem pairwise_placed (offset : Nat) :
    (placed offset lines).Pairwise fun a b => a.1 < b.1 := by
  induction lines generalizing offset with
  | nil => exact List.Pairwise.nil
  | cons line lines ih =>
    refine List.pairwise_cons.mpr ⟨fun other hother => ?_, ih _⟩
    have := lt_offset_of_mem_placed other hother
    omega

theorem map_snd_declared (offset : Nat) :
    (declared offset lines).map Prod.snd = lines.filter Line.isDeclaration := by
  induction lines generalizing offset with
  | nil => rfl
  | cons line lines ih =>
    rw [declared_cons, List.map_append, ih, List.filter_cons]
    split <;> rfl

/-- With distinct names no plain declaration is dropped in favour of a typed one. -/
theorem filter_plain_declared (hdistinct : (declaredNames lines).Nodup) (offset : Nat) :
    (((declared offset lines).filter (!·.2.inline?.isSome)).map siteAt).filter (fun site =>
      (((declared offset lines).filter (·.2.inline?.isSome)).map siteAt).all
        (·.name ≠ site.name)) =
      ((declared offset lines).filter (!·.2.inline?.isSome)).map siteAt := by
  have hnames : ((declared offset lines).map (·.2.name)).Nodup := by
    rwa [declaredNames, ← map_snd_declared offset, List.map_map] at hdistinct
  rw [List.filter_eq_self]
  intro site hsite
  obtain ⟨plain, hplain, rfl⟩ := List.mem_map.mp hsite
  rw [List.all_eq_true]
  intro site' hsite'
  obtain ⟨typed, htyped, rfl⟩ := List.mem_map.mp hsite'
  rw [decide_eq_true_eq]
  intro hname
  rw [List.mem_filter] at hplain htyped
  have hsame := List.inj_on_of_nodup_map hnames htyped.1 hplain.1 hname
  rw [hsame] at htyped
  exact absurd hplain.2 (by rw [htyped.2]; exact Bool.false_ne_true)

theorem argsBlock?_expressionOf (h : ∀ a ∈ arguments, a.WellFormed) :
    argsBlock? (expressionOf arguments) = some (objectBody arguments) := by
  have hpass (s : Text) : hits (trailing (keyed "args".toList)) ("\x7b args: ".toList ++ s) =
      hitsFrom (trailing (keyed "args".toList)) 0 2 (some ' ') ("args: ".toList ++ s) := rfl
  obtain ⟨n, hfound⟩ : ∃ n, trailing (keyed "args".toList)
      ⟨2, some ' ', "args: ".toList ++ (objectSource arguments ++ " \x7d".toList)⟩ =
        some (' ' :: (objectSource arguments ++ " \x7d".toList), n) := ⟨_, rfl⟩
  obtain ⟨more, hmore⟩ := exists_hitsFrom (by simp) hfound
  have hafter : blockAfter? curly (keyed "args".toList) (expressionOf arguments) =
      some (objectBody arguments) := by
    unfold expressionOf
    rw [blockAfter?_eq, hpass, hmore, List.find?_cons_of_pos rfl]
    exact block?_objectSource h _
  rw [argsBlock?, hafter]

/-- The story of a declaration before any assignment. -/
def storyOf (code : Text) (line : Line) : Story where
  name := line.name
  source := line.source
  args := line.inline?.map fun arguments => Entries.ofPairs (pairs arguments)
  parameters := none
  description := constantDescription line.name code

theorem ofSite_siteAt {line : Line} (h : line.WellFormed) (offset : Nat) :
    ofSite code (siteAt (offset, line)) = .ok (storyOf code line) := by
  cases line with
  | typed name arguments =>
    have hblock : (siteAt (offset, .typed name arguments)).expression.bind argsBlock? =
        some (objectBody arguments) := argsBlock?_expressionOf fun a ha => (h.2 a ha).1
    rw [ofSite, hblock]
    dsimp only
    rw [parseObjectLiteral_objectBody fun a ha => (h.2 a ha).1]
    rfl
  | plain name => rfl
  | assigned name arguments => rfl

/-- Declarations are read in turn, whichever of the scans has found them. -/
theorem mapM_ofSite (code : Text) (declarations : List (Nat × Line))
    (h : ∀ line ∈ declarations, line.2.WellFormed) :
    ((declarations.map siteAt).mapM fun site => do return (site.offset, ← ofSite code site)) =
      .ok (declarations.map fun line => (line.1, storyOf code line.2)) := by
  induction declarations with
  | nil => rfl
  | cons line declarations ih =>
    rw [List.map_cons, List.mapM_cons, ofSite_siteAt (h line List.mem_cons_self),
      ih fun line hl => h line (.tail _ hl)]
    rfl

theorem wellFormed_of_mem_declared (h : ∀ line ∈ lines, line.WellFormed) {offset : Nat}
    {line : Nat × Line} (hmem : line ∈ declared offset lines) : line.2.WellFormed := by
  have hline := List.mem_map_of_mem (f := Prod.snd) hmem
  rw [map_snd_declared] at hline
  exact h _ (List.mem_of_mem_filter hline)

/-- Adds the arguments of an assignment to a story that has the name. -/
def assignTo (name : Text) (arguments : List Argument) (s : Story) : Story :=
  if s.name = name then
    { s with args := some (Entries.setAll (s.args.getD []) (Entries.ofPairs (pairs arguments))) }
  else s

/-- The assignments of a line. -/
def Line.applyTo : Line → Story → Story
  | .assigned name arguments, s => assignTo name arguments s
  | .typed _ _, s | .plain _, s => s

@[simp] theorem name_applyTo (line : Line) (s : Story) : (line.applyTo s).name = s.name := by
  cases line with
  | assigned name arguments =>
    rw [Line.applyTo, assignTo]
    split <;> rfl
  | typed name arguments => rfl
  | plain name => rfl

theorem modifyLast_of_nodup {stories : List Story} (hdistinct : (stories.map Story.name).Nodup)
    (name : Text) (change : Story → Story) :
    modifyLast name change stories =
      stories.map fun s => if s.name = name then change s else s := by
  induction stories with
  | nil => rfl
  | cons s stories ih =>
    obtain ⟨hnot, hdistinct⟩ := List.nodup_cons.mp hdistinct
    rw [modifyLast, List.map_cons]
    by_cases hname : s.name = name
    · have hother : ∀ t ∈ stories, t.name ≠ name := fun t ht h =>
        hnot (hname ▸ h ▸ List.mem_map_of_mem ht)
      have hsame : (stories.map fun t => if t.name = name then change t else t) = stories :=
        (List.map_congr_left fun t ht => if_neg (hother t ht)).trans (List.map_id _)
      have hlast : (stories.all (·.name ≠ name)) = true := by simpa using hother
      rw [if_pos ⟨hname, hlast⟩, if_pos hname, hsame]
    · rw [if_neg fun h => hname h.1, if_neg hname, ih hdistinct]

theorem assign_objectSource {stories : List Story} (hdistinct : (stories.map Story.name).Nodup)
    (name : Text) (h : ∀ a ∈ arguments, a.WellFormed) (rest : Text) :
    assign stories (name, objectSource arguments ++ rest) =
      .ok (stories.map (assignTo name arguments)) := by
  simp only [assign, block?_objectSource h, parseObjectLiteral_objectBody h]
  split
  · exact congrArg Except.ok (modifyLast_of_nodup hdistinct _ _)
  · next hnone =>
    have hother : ∀ s ∈ stories, assignTo name arguments s = s := fun s hs => if_neg fun hname =>
      hnone (List.any_eq_true.mpr ⟨s, hs, decide_eq_true hname⟩)
    exact congrArg Except.ok ((List.map_congr_left hother).trans (List.map_id _)).symm

/-- Only the assignments of objects count. -/
theorem foldlM_assign_filter (assignments : List (Text × Text)) (stories : List Story) :
    (assignments.filter assignsObject).foldlM assign stories =
      assignments.foldlM assign stories := by
  induction assignments generalizing stories with
  | nil => rfl
  | cons assignment assignments ih =>
    cases hobject : assignsObject assignment with
    | true =>
      rw [List.filter_cons_of_pos hobject, List.foldlM_cons, List.foldlM_cons]
      exact congrArg (_ >>= ·) (funext ih)
    | false =>
      have hblock : block? curly assignment.2 = none := if_neg (of_decide_eq_false hobject)
      have hsame : assign stories assignment = .ok stories := by
        simp only [assign, hblock, ite_self]
      rw [List.filter_cons_of_neg (by simp [hobject]), ih, List.foldlM_cons, hsame]
      rfl

/-- The scan for assignments folds every line into the stories. -/
theorem foldlM_assign_lines (h : ∀ line ∈ lines, line.WellFormed) {stories : List Story}
    (hdistinct : (stories.map Story.name).Nodup) (offset : Nat) (previous : Option Char) :
    ((hitsFrom assignmentShape 0 offset previous (linesSource lines)).filter
        assignsObject).foldlM assign stories =
      .ok (stories.map fun s => lines.foldl (fun s line => line.applyTo s) s) := by
  induction lines generalizing stories offset previous with
  | nil => exact congrArg Except.ok (List.map_id _).symm
  | cons line lines ih =>
    have hline := h line List.mem_cons_self
    have happlied : ((stories.map line.applyTo).map Story.name).Nodup := by
      rw [List.map_map]
      simpa only [Function.comp_def, name_applyTo] using hdistinct
    have hrest (offset : Nat) (previous : Option Char) :
        ((hitsFrom assignmentShape 0 offset previous (linesSource lines)).filter
            assignsObject).foldlM assign (stories.map line.applyTo) =
          .ok (stories.map fun s => (line :: lines).foldl (fun s line => line.applyTo s) s) := by
      rw [ih (fun line hl => h line (.tail _ hl)) happlied, List.map_map]
      rfl
    rw [linesSource_cons, hitsFrom_assignmentShape_feed]
    -- Only an assignment changes a story; in a declaration the scan finds nothing.
    cases line with
    | typed name arguments =>
      have hsame : stories.map (Line.typed name arguments).applyTo = stories := List.map_id _
      rw [hsame] at hrest
      rw [assignments_pass (quiet_assigning_typed hline) (getLast?_source _), hrest]
    | plain name =>
      have hsame : stories.map (Line.plain name).applyTo = stories := List.map_id _
      rw [hsame] at hrest
      rw [assignments_pass (quiet_assigning_plain hline) (getLast?_source _), hrest]
    | assigned name arguments =>
      obtain ⟨offset', previous', hfound⟩ :=
        assignments_assigned hline (offset + 1) (linesSource lines)
      have hassigned := assign_objectSource hdistinct name hline.2
        ([';'] ++ linesSource lines)
      rw [hfound, List.foldlM_cons, hassigned]
      exact hrest _ _

/-- The arguments of one more object, set on those there are. -/
def overlay (args : Option (Entries Value)) (arguments : List Argument) : Option (Entries Value) :=
  some (Entries.setAll (args.getD []) (Entries.ofPairs (pairs arguments)))

theorem foldl_overlay (objects : List (List Argument)) (arguments : List Argument) :
    objects.foldl overlay (some (Entries.ofPairs (pairs arguments))) =
      some (Entries.ofPairs (pairs (arguments ++ objects.flatten))) := by
  induction objects generalizing arguments with
  | nil => rw [List.flatten_nil, List.append_nil, List.foldl_nil]
  | cons next objects ih =>
    have hstep : overlay (some (Entries.ofPairs (pairs arguments))) next =
        some (Entries.ofPairs (pairs (arguments ++ next))) := by
      rw [overlay, Option.getD_some, Entries.setAll_ofPairs]
      simp only [Entries.ofPairs, Entries.setAll, pairs, List.map_append, List.foldl_append]
    rw [List.foldl_cons, hstep, ih, List.flatten_cons, List.append_assoc]

/-- Declared and assigned arguments in turn come to the final ones. -/
theorem foldl_overlay_eq_finalArgs (lines : List Line) (name : Text)
    (inline : Option (List Argument)) :
    (lines.filterMap (Line.assignedTo? name)).foldl overlay
        (inline.map fun arguments => Entries.ofPairs (pairs arguments)) =
      finalArgs lines name inline := by
  rw [finalArgs]
  cases inline with
  | some arguments =>
    rw [Option.map_some, foldl_overlay, Entries.ofPairs_eq_overlaid]
    rfl
  | none =>
    rw [Option.toList_none, List.nil_append]
    cases lines.filterMap (Line.assignedTo? name) with
    | nil => rfl
    | cons arguments objects =>
      have hfirst : overlay none arguments = some (Entries.ofPairs (pairs arguments)) := by
        rw [overlay, Option.getD_none, Entries.setAll_ofPairs]
        rfl
      rw [Option.map_none, List.foldl_cons, hfirst, foldl_overlay, Entries.ofPairs_eq_overlaid]
      rfl

theorem foldl_applyTo (lines : List Line) (s : Story) :
    lines.foldl (fun s line => line.applyTo s) s =
      { s with args := (lines.filterMap (Line.assignedTo? s.name)).foldl overlay s.args } := by
  induction lines generalizing s with
  | nil => rfl
  | cons line lines ih =>
    rw [List.foldl_cons, ih, name_applyTo]
    cases line with
    | typed name arguments => rfl
    | plain name => rfl
    | assigned name arguments =>
      rw [Line.applyTo, assignTo, List.filterMap_cons, Line.assignedTo?]
      by_cases hname : s.name = name
      · rw [if_pos hname, if_pos hname.symm]
        rfl
      · rw [if_neg hname, if_neg (Ne.symm hname)]

variable {d : Draft}

/-- The first line. -/
def Draft.head (d : Draft) : Text :=
  "export default \x7b".toList ++ (d.settingsBody ++ "\x7d;".toList)

theorem getLast?_head (d : Draft) : d.head.getLast? = some ';' := by
  have hclose : "\x7d;".toList = ['\x7d'] ++ [';'] := rfl
  unfold Draft.head
  rw [hclose, ← List.append_assoc, ← List.append_assoc, List.getLast?_concat]

theorem source_eq (d : Draft) : d.source = d.head ++ linesSource d.lines := by
  unfold Draft.source Draft.head
  simp only [List.append_assoc]

/-- Nowhere but at its beginning the first line is taken for a declaration. -/
theorem quiet_declaring_head (hd : d.WellFormed) :
    ∃ tail, d.head = 'e' :: tail ∧ Quiet Declaring tail := by
  refine ⟨"xport default \x7b".toList ++ (d.settingsBody ++ "\x7d;".toList), rfl, ?_⟩
  have hhead : Quiet Declaring d.settingsHead :=
    quiet_settingsHead hd.title.storyFree.declaring (fun m hm => hm.notMem rfl rfl (by decide))
      (quiet_declaring ((lacks_exporting_of_isName hd.component).quiet fun m hm =>
        hm.notMem rfl rfl))
      (quiet_all_of_lead Declaring.lead (by decide))
  have htail : Quiet Declaring d.settingsTail :=
    quiet_settingsTail (fun s hs => (hd.decorators s hs).storyFree.declaring)
      (fun m hm => ⟨hm.notMem rfl rfl (by decide), hm.notMem rfl rfl (by decide)⟩)
      (quiet_all_of_lead Declaring.lead (by decide))
  rw [settingsBody_eq]
  exact (quiet_of_lead Declaring.lead (by decide)).append
    ((hhead.append (htail.append (quiet_of_lead Declaring.lead (by decide)))).append
      (quiet_of_lead Declaring.lead (by decide)))

theorem quiet_assigning_head (hd : d.WellFormed) : Quiet Assigning d.head := by
  have hhead : Quiet Assigning d.settingsHead :=
    quiet_settingsHead hd.title.storyFree.assigning
      (fun m hm => hm.notMem rfl rfl (by decide))
      (quiet_assigning_isName hd.component (by simp) (by decide) rfl)
      (quiet_all_assigning (by decide))
  have htail : Quiet Assigning d.settingsTail :=
    quiet_settingsTail (fun s hs => (hd.decorators s hs).storyFree.assigning)
      (fun m hm => ⟨hm.notMem rfl rfl (by decide), hm.notMem rfl rfl (by decide)⟩)
      (quiet_all_assigning (by decide))
  unfold Draft.head
  rw [settingsBody_eq]
  exact (quiet_assigning_of_notMem (by decide) rfl).append
    ((hhead.append (htail.append (quiet_assigning_of_notMem (by decide) rfl))).append
      (quiet_assigning_of_notMem (by decide) rfl))

theorem hits_source {shape : Shape Site} (hd : d.WellFormed) (hopens : Opens Declaring shape)
    (hstart : ∀ s, shape ⟨0, none, "export default ".toList ++ s⟩ = none) :
    hits shape d.source =
      hitsFrom shape 0 d.head.length (lastOf none d.head) (linesSource d.lines) := by
  obtain ⟨tail, hhead, hquiet⟩ := quiet_declaring_head hd
  have hnone := hstart ('\x7b' :: (d.settingsBody ++ '\x7d' :: ';' :: linesSource d.lines))
  rw [← source_eq_export, source_eq, hhead, List.cons_append] at hnone
  rw [hits, source_eq, hhead, List.cons_append, hitsFrom, hnone]
  dsimp only
  rw [hquiet.pass hopens, List.length_cons, Nat.zero_add, Nat.add_comm 1]
  rfl

/-- The stories of a file in the end: each declaration in turn with its final arguments. -/
def listed (d : Draft) : List Story :=
  (d.lines.filter Line.isDeclaration).map fun line =>
    { storyOf d.source line with args := finalArgs d.lines line.name line.inline? }

theorem listing_source (hd : d.WellFormed) : listing d.source = .ok (listed d) := by
  let first := d.head.length
  have htyped : hits typedShape d.source =
      ((declared first d.lines).filter (·.2.inline?.isSome)).map siteAt := by
    rw [hits_source hd opens_typedShape fun s => rfl,
      hitsFrom_lines opens_typedShape fun line hl => meets_typedShape (hd.lines line hl)]
  have hplain : hits plainShape d.source =
      ((declared first d.lines).filter (!·.2.inline?.isSome)).map siteAt := by
    rw [hits_source hd opens_plainShape fun s => rfl,
      hitsFrom_lines opens_plainShape fun line hl => meets_plainShape (hd.lines line hl)]
  have hassignments : (hits assignmentShape d.source).filter assignsObject =
      (hitsFrom assignmentShape 0 (0 + first) (lastOf none d.head)
        (linesSource d.lines)).filter assignsObject := by
    rw [hits, source_eq, assignments_pass (quiet_assigning_head hd) (getLast?_head d)]
  let found := (declared first d.lines).filter (·.2.inline?.isSome) ++
    (declared first d.lines).filter (!·.2.inline?.isSome)
  have hfound : found.Perm (declared first d.lines) := List.filter_append_perm _ _
  have hsorted : ((found.map fun line => (line.1, storyOf d.source line.2)).mergeSort
      fun a b => a.1 ≤ b.1) =
      (declared first d.lines).map fun line => (line.1, storyOf d.source line.2) :=
    mergeSort_of_perm (hfound.map _)
      (List.pairwise_map.mpr ((pairwise_placed first).sublist List.filter_sublist))
  have hstories : ((declared first d.lines).map fun line =>
      (line.1, storyOf d.source line.2)).map (·.2) =
      (d.lines.filter Line.isDeclaration).map (storyOf d.source) := by
    rw [← map_snd_declared first, List.map_map, List.map_map]
    rfl
  have hread := mapM_ofSite d.source found fun line hmem =>
    wellFormed_of_mem_declared hd.lines (hfound.subset hmem)
  have hnames : (((d.lines.filter Line.isDeclaration).map (storyOf d.source)).map
      Story.name).Nodup := by
    rw [List.map_map]
    exact hd.distinct
  have hfolded := foldlM_assign_lines hd.lines hnames (0 + first) (lastOf none d.head)
  rw [listing, htyped, hplain, filter_plain_declared hd.distinct, ← List.map_append, hread]
  dsimp only [bind, Except.bind]
  rw [hsorted, hstories, ← foldlM_assign_filter, hassignments, hfolded, listed, List.map_map]
  refine congrArg Except.ok (List.map_congr_left fun line _ => ?_)
  rw [Function.comp_apply, foldl_applyTo]
  exact congrArg (fun args => { storyOf d.source line with args })
    (foldl_overlay_eq_finalArgs d.lines line.name line.inline?)

end ComponentCatalog.Story
