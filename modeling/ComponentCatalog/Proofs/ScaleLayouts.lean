import Mathlib.Data.List.Find
import ComponentCatalog.Proofs.PrintedScales
import ComponentCatalog.Theme.Tokens

/-!
Layers and breakpoints in the layouts of theme sources. The flat scan and the block read the same
text, and of an assigned block the scan sees the first entry as well; whichever supplies a leaf, the
leaf gets its own value.
-/
namespace ComponentCatalog

open Text Code Number
open Component (IsName)

namespace Theme

variable {ι : Type} [TokenFamily ι] [DecidableEq ι] {marks : List (ι × List Text)}
  {lead block s tail : Text} {blockNames : List Text} {c : Char} {w : Scale ι Nat}

/-- How the entries of a scale are laid out: on flat lines, in a block under a key, or in a block
that is assigned to a name. -/
inductive Layout where
  | flat | nested | assigned
  deriving DecidableEq, Repr

def Layout.source (lead block : Text) (entries : List (ι × Nat)) : Layout → Text
  | .flat => flatSource lead entries
  | .nested => block ++ (": \x7b".toList ++ (blockBody entries ++ ['\x7d']))
  | .assigned => block ++ (" = \x7b".toList ++ (blockBody entries ++ ['\x7d']))

/-- What stands in front of an entry that the flat scan finds. -/
def openings (lead block : Text) : List Text := [lead ++ ['-'], block ++ " = \x7b ".toList]

/-- A family whose leaves are told by their own keys, in the order in which the marks are tried. -/
structure Marked (marks : List (ι × List Text)) (lead block : Text) (blockNames : List Text)
    (c : Char) : Prop where
  mem_all : ∀ leaf : ι, leaf ∈ TokenFamily.all
  mem_marks : ∀ leaf : ι, leaf ∈ marks.map Prod.fst
  own : ∀ mark ∈ marks, mark.2 = [leafKey mark.1]
  name : ∀ leaf : ι, IsName (leafKey leaf)
  distinct : ∀ leaf leaf' : ι, leafKey leaf = leafKey leaf' → leaf = leaf'
  ends : ∀ leaf : ι, (leafKey leaf).getLast?.any Char.isDigit = false
  told : ∀ opening ∈ openings lead block, ∀ leaf : ι,
    (marks.find? fun mark => contains (leafKey mark.1)
      (opening ++ (leafKey leaf ++ ": ".toList))).map Prod.fst = some leaf
  leads : Leads c lead
  keys : ∀ leaf : ι, c ∉ leafKey leaf
  isName : IsName block
  names : blockNames.head? = some block
  suffix : ∃ more, block = lead ++ more ∧ ':' ∉ more

theorem marked_layers : Marked (ownMarks : List (LayerLeaf × List Text)) "zIndex".toList
    "zIndex".toList ["zIndex".toList] 'z' where
  mem_all leaf := by cases leaf <;> decide
  mem_marks leaf := by cases leaf <;> decide
  own := by decide
  name leaf := by cases leaf <;> decide
  distinct leaf leaf' := by cases leaf <;> cases leaf' <;> decide
  ends leaf := by cases leaf <;> decide
  told := by
    intro opening hopening leaf
    simp only [openings, List.mem_cons, List.not_mem_nil, or_false] at hopening
    rcases hopening with rfl | rfl <;> cases leaf <;> decide
  leads := ⟨by decide, by decide, by decide⟩
  keys leaf := by cases leaf <;> decide
  isName := by decide
  names := by decide
  suffix := ⟨[], by decide, by decide⟩

theorem marked_breakpoints : Marked breakpointMarks "breakpoint".toList "breakpoints".toList
    ["breakpoints".toList, "breakpoint".toList] 'b' where
  mem_all leaf := by cases leaf <;> decide
  mem_marks leaf := by cases leaf <;> decide
  own := by decide
  name leaf := by cases leaf <;> decide
  distinct leaf leaf' := by cases leaf <;> cases leaf' <;> decide
  ends leaf := by cases leaf <;> decide
  told := by
    intro opening hopening leaf
    simp only [openings, List.mem_cons, List.not_mem_nil, or_false] at hopening
    rcases hopening with rfl | rfl <;> cases leaf <;> decide
  leads := ⟨by decide, by decide, by decide⟩
  keys leaf := by cases leaf <;> decide
  isName := by decide
  names := by decide
  suffix := ⟨['s'], by decide, by decide⟩

section Classify

variable {α β : Type} {convert : Conversion α} {form : ValueForm} {scale : Scale ι α} {items : List β}
  {found : β → Text × Text} {leafOf : β → ι} {raw : ι → Option Text}

omit [TokenFamily ι] in
/-- The step of the flat scan at a text that goes to a leaf. -/
theorem scan_step {label text : Text} {leaf : ι} {names : List Text}
    (hfind : marks.find? (fun mark => mark.2.any (contains · label)) = some (leaf, names))
    (hconvert : convert text = .ok (scale leaf)) (before : Scale ι α) :
    (match marks.find? fun (_, names) => names.any (contains · label) with
      | none => .ok before
      | some (leaf, _) => do
        match ← convert text with
        | none => return before
        | some value => return before.set leaf value : Except DigitError (Scale ι α)) =
      .ok fun other => if other = leaf then (scale other).or (before other) else before other := by
  have hfind' : (marks.find? fun (_, names) => names.any (contains · label)) = some (leaf, names) := hfind
  rw [hfind']
  exact set_of_convert hconvert before

omit [TokenFamily ι] in
/-- The step at a mark, whose leaf may be set already. -/
theorem fill_step {entries : List (Text × Text)} {leaf : ι} {names : List Text}
    (hraw : names.findSome? (List.lookup · entries) = raw leaf)
    (hfill : ∀ text, raw leaf = some text → convert text = .ok (scale leaf)) (before : Scale ι α) :
    (if (before leaf).isSome then .ok before
      else match names.findSome? (List.lookup · entries) with
        | none => .ok before
        | some text => do
          match ← convert text with
          | none => return before
          | some value => return before.set leaf value : Except DigitError (Scale ι α)) =
      .ok fun other => if other = leaf then
        (before other).or (if (raw other).isSome then scale other else none) else before other := by
  cases hbefore : before leaf with
  | some value =>
    rw [Option.isSome_some, if_pos rfl]
    refine congrArg Except.ok (funext fun other => ?_)
    split
    · next hother => rw [hother, hbefore, Option.some_or]
    · rfl
  | none =>
    rw [Option.isSome_none, if_neg Bool.false_ne_true, hraw]
    cases hleaf : raw leaf with
    | none =>
      refine congrArg Except.ok (funext fun other => ?_)
      split
      · next hother =>
        rw [hother, hbefore, hleaf, Option.none_or, Option.isSome_none, if_neg Bool.false_ne_true]
      · rfl
    | some text =>
      refine (set_of_convert (hfill text hleaf) before).trans
        (congrArg Except.ok (funext fun other => ?_))
      split
      · next hother =>
        rw [hother, hbefore, hleaf, Option.none_or, Option.or_none, Option.isSome_some, if_pos rfl]
      · rfl

/-- A scale is classified from the flat scan and the marks, if every text that is found for a leaf
becomes its value. -/
theorem classify_eq (leafOf : β → ι) (raw : ι → Option Text)
    (hmarks : ∀ leaf : ι, leaf ∈ marks.map Prod.fst)
    (hflat : flatMatches lead form [] s = items.map found)
    (hfind : ∀ item ∈ items, ∃ names, marks.find? (fun mark => mark.2.any (contains · (found item).1)) =
      some (leafOf item, names))
    (hscan : ∀ item ∈ items, convert (found item).2 = .ok (scale (leafOf item)))
    (hraw : ∀ mark ∈ marks, mark.2.findSome? (List.lookup · (blockEntries blockNames form s)) =
      raw mark.1)
    (hfill : ∀ leaf text, raw leaf = some text → convert text = .ok (scale leaf))
    (hcover : ∀ leaf, scale leaf ≠ none → leaf ∈ items.map leafOf ∨ (raw leaf).isSome) :
    classify marks lead blockNames form convert s = .ok scale.populated? := by
  have hflat' := Scale.foldlM_steps items leafOf (fun a b => b.or a) (fun a b => by cases b <;> rfl)
    (fun item hitem before => by
      obtain ⟨names, hfind⟩ := hfind item hitem
      exact scan_step hfind (hscan item hitem) before) Scale.empty
  have hfilled := Scale.foldlM_steps marks Prod.fst Option.or
      (fun a b => by cases a <;> cases b <;> rfl)
    (fun mark hmark before => fill_step (hraw mark hmark) (hfill mark.1) before)
    (fun other => if other ∈ items.map leafOf then (scale other).or (Scale.empty other)
      else Scale.empty other)
  -- A leaf of the scale is set by the flat scan or else filled from the block.
  have hscale : (fun other => if other ∈ marks.map Prod.fst
      then (if other ∈ items.map leafOf then (scale other).or (Scale.empty other)
        else Scale.empty other).or (if (raw other).isSome then scale other else none)
      else if other ∈ items.map leafOf then (scale other).or (Scale.empty other)
        else Scale.empty other) = scale := by
    funext other
    rw [if_pos (hmarks other)]
    cases hother : scale other with
    | none => simp [Scale.empty]
    | some value =>
      by_cases hitems : other ∈ items.map leafOf
      · rw [if_pos hitems, Option.some_or, Option.some_or]
      · have hfound := (hcover other (by simp [hother])).resolve_left hitems
        rw [if_neg hitems, if_pos hfound]
        rfl
  rw [hscale] at hfilled
  rw [classify, hflat, List.foldlM_map]
  refine (congrArg (· >>= _) hflat').trans ?_
  exact congrArg (· >>= fun filled => Except.ok filled.populated?) hfilled

end Classify

section Reading

variable {entries : List (ι × Nat)}

omit [DecidableEq ι] in
/-- The text of a flat leaf goes to the leaf. -/
theorem find?_label (h : Marked marks lead block blockNames c) {opening : Text}
    (hopening : opening ∈ openings lead block) (entry : ι × Nat) :
    ∃ names, marks.find? (fun mark => mark.2.any (contains · (opening ++ pairSource entry))) =
      some (entry.1, names) := by
  have hsame : marks.find? (fun mark => mark.2.any (contains · (opening ++ pairSource entry))) =
      marks.find? fun mark => contains (leafKey mark.1) (opening ++ (leafKey entry.1 ++ ": ".toList)) := by
    refine List.find?_congr fun mark hmark => ?_
    obtain ⟨last, hlast⟩ : ∃ last, (leafKey mark.1).getLast? = some last :=
      ⟨_, List.getLast?_eq_some_getLast (h.name mark.1).ne_nil⟩
    have hdigits : last ∉ natText entry.2 := fun hd => by
      have hends := h.ends mark.1
      rw [hlast, Option.any_some, isDigit_natText last hd] at hends
      cases hends
    have hsource : opening ++ pairSource entry =
        opening ++ (leafKey entry.1 ++ ": ".toList) ++ natText entry.2 := by
      simp only [pairSource, List.append_assoc]
    rw [h.own mark hmark, hsource, List.any_cons, List.any_nil, Bool.or_false,
      contains_append_of_notMem hlast hdigits]
  have htold := h.told opening hopening entry.1
  rw [hsame]
  obtain ⟨mark, hmark, hleaf⟩ := Option.map_eq_some_iff.mp htold
  exact ⟨mark.2, by rw [hmark, ← hleaf]⟩

/-- The value of a leaf is found under its key. -/
theorem lookup_block (h : Marked marks lead block blockNames c)
    (hentries : ∀ entry ∈ entries, w entry.1 = some entry.2) (leaf : ι) :
    List.lookup (leafKey leaf) (entries.map fun entry => (leafKey entry.1, natText entry.2)) =
      if leaf ∈ entries.map Prod.fst then (w leaf).map natText else none := by
  induction entries with
  | nil => rfl
  | cons entry entries ih =>
    have ih := ih fun e he => hentries e (.tail _ he)
    rw [List.map_cons, List.lookup_cons]
    by_cases hleaf : leaf = entry.1
    · have hvalue := hentries entry List.mem_cons_self
      rw [hleaf, beq_self_eq_true, if_pos (by simp), hvalue, Option.map_some]
    · have hkey : (leafKey leaf == leafKey entry.1) = false :=
        beq_eq_false_iff_ne.mpr fun heq => hleaf (h.distinct _ _ heq)
      rw [hkey]
      refine ih.trans (if_congr ?_ rfl rfl)
      rw [List.map_cons, List.mem_cons, or_iff_right hleaf]

omit [DecidableEq ι] in
theorem flatMatches_flat (h : Marked marks lead block blockNames c)
    (htail : ∀ b ∈ tail, isBlank b = true) :
    flatMatches lead integerValue [] (flatSource lead entries ++ tail) =
      entries.map fun entry => (lead ++ ['-'] ++ pairSource entry, natText entry.2) := by
  rw [flatMatches_flatSource h.leads h.name htail, ← List.filterMap_eq_map]
  refine List.filterMap_congr fun entry _ => ?_
  have hlabel : flatLabel lead entry = lead ++ ['-'] ++ pairSource entry :=
    (List.append_assoc lead ['-'] (pairSource entry)).symm
  rw [flatFound, if_pos (show InOrder [] _ from trivial), hlabel]
  rfl

omit [TokenFamily ι] [DecidableEq ι] in
/-- A scan finds what stands at the beginning of the text, if what follows is quiet. -/
theorem flatMatches_start {u v : Text} {found : Option (Text × Text)} (hne : u ≠ [])
    (hv : Quiet (· = lead) v)
    (hhit : flatShape lead integerValue [] (.start (u ++ v)) = some (found, u.length)) :
    flatMatches lead integerValue [] (u ++ v) = found.toList := by
  have hhits : hits (flatShape lead integerValue []) (u ++ v) = [found] := by
    rw [hits, hitsFrom_hit hne hhit, hv.hits_eq_nil (opens_flatShape _)]
  rw [flatMatches, hhits]
  cases found <;> rfl

omit [DecidableEq ι] in
/-- Flat lines have no braces. -/
theorem brace_notMem_flat (h : Marked marks lead block blockNames c)
    (htail : ∀ b ∈ tail, isBlank b = true) : '\x7b' ∉ flatSource lead entries ++ tail := by
  obtain ⟨more, hsuffix, -⟩ := h.suffix
  have hword {name : Text} (hname : IsName name) : '\x7b' ∉ name := fun hmem =>
    absurd (hname.word _ hmem) (by decide)
  have hlead : '\x7b' ∉ lead := fun hmem =>
    hword h.isName (hsuffix ▸ List.mem_append_left more hmem)
  rw [List.mem_append, not_or]
  exact ⟨notMem_flatSource hlead (fun leaf => hword (h.name leaf)) (by decide) (by decide), fun hmem =>
    absurd (htail _ hmem) (by decide)⟩

omit [DecidableEq ι] in
theorem quiet_blockBody (h : Marked marks lead block blockNames c) :
    Quiet (· = lead) (blockBody entries) :=
  quiet_of_notMem (by rintro m rfl; exact h.leads.head) (notMem_blockBody h.leads h.keys)

omit [DecidableEq ι] in
/-- The colon of the key is followed by no number. -/
theorem flatMatches_nested (h : Marked marks lead block blockNames c)
    (htail : ∀ b ∈ tail, isBlank b = true) :
    flatMatches lead integerValue [] (Layout.nested.source lead block entries ++ tail) = [] := by
  obtain ⟨more, hsuffix, hcolon⟩ := h.suffix
  have hsource : Layout.nested.source lead block entries ++ tail =
      lead ++ (more ++ ':' :: ([' ', '\x7b'] ++ (blockBody entries ++ '\x7d' :: tail))) := by
    have hopen : ": \x7b".toList = [':', ' ', '\x7b'] := rfl
    simp only [Layout.source, hsuffix, hopen, List.append_assoc, List.cons_append, List.nil_append]
  have hsplit (rest : Text) : lead ++ (more ++ ':' :: rest) = lead ++ more ++ [':'] ++ rest := by
    simp only [List.append_assoc, List.cons_append, List.nil_append]
  have hquiet : Quiet (· = lead) ([' ', '\x7b'] ++ (blockBody entries ++ '\x7d' :: tail)) :=
    (h.leads.quiet (by decide)).append ((quiet_blockBody h).append
      ((h.leads.quiet (u := ['\x7d']) (by decide)).append (h.leads.quiet_blanks htail)))
  have hvalue : leafValue integerValue [] more
      ([' ', '\x7b'] ++ (blockBody entries ++ '\x7d' :: tail)) = none := by
    have hstrip : stripStart ([' ', '\x7b'] ++ (blockBody entries ++ '\x7d' :: tail)) =
        '\x7b' :: (blockBody entries ++ '\x7d' :: tail) :=
      (stripStart_append_of_blank (u := [' ']) (by decide) _).trans (stripStart_cons (by decide) _)
    rw [leafValue, if_pos (show InOrder [] more from trivial), hstrip]
    exact run?_cons_of_neg (by decide) _
  have hshape : flatShape lead integerValue [] ⟨0, none,
      lead ++ (more ++ ':' :: ([' ', '\x7b'] ++ (blockBody entries ++ '\x7d' :: tail)))⟩ = _ :=
    flatShape_of_colon hcolon
  rw [hvalue] at hshape
  rw [hsource, hsplit]
  rw [hsplit] at hshape
  exact flatMatches_start (List.append_ne_nil_of_right_ne_nil _ (List.cons_ne_nil _ _)) hquiet hshape

omit [DecidableEq ι] in
/-- What follows the first entry of a block is no digit. -/
theorem blockBody_cons (entry : ι × Nat) (entries : List (ι × Nat)) : ∃ after,
    blockBody (entry :: entries) = ' ' :: (pairSource entry ++ after) ∧
      after.head?.any isDecimal = false := by
  cases entries with
  | nil => exact ⟨[' '], by simp [blockBody, join, List.intercalate], by decide⟩
  | cons next entries =>
    refine ⟨", ".toList ++ (join ", ".toList ((next :: entries).map pairSource) ++ [' ']), ?_,
      show isDecimal ',' = false by decide⟩
    simp only [blockBody, List.map_cons, join_cons_cons, List.append_assoc]

omit [DecidableEq ι] in
/-- Before the first colon of an assigned block stands the first key, and a number after it. -/
theorem flatMatches_assigned (h : Marked marks lead block blockNames c) (entry : ι × Nat)
    (htail : ∀ b ∈ tail, isBlank b = true) :
    flatMatches lead integerValue [] (Layout.assigned.source lead block (entry :: entries) ++ tail) =
      [(block ++ " = \x7b ".toList ++ pairSource entry, natText entry.2)] := by
  obtain ⟨more, hsuffix, hcolon⟩ := h.suffix
  obtain ⟨after, hbody, hafter⟩ := blockBody_cons entry entries
  have hopen : " = \x7b ".toList = [' ', '=', ' ', '\x7b', ' '] := rfl
  have hpair : pairSource entry = leafKey entry.1 ++ ':' :: ' ' :: natText entry.2 := by
    simp [pairSource]
  have hsource : Layout.assigned.source lead block (entry :: entries) ++ tail =
      block ++ " = \x7b ".toList ++ pairSource entry ++ (after ++ '\x7d' :: tail) := by
    have hassign : " = \x7b".toList = [' ', '=', ' ', '\x7b'] := rfl
    simp only [Layout.source, hbody, hassign, hopen, List.append_assoc, List.cons_append,
      List.nil_append]
  have hsplit : block ++ " = \x7b ".toList ++ pairSource entry ++ (after ++ '\x7d' :: tail) =
      lead ++ (more ++ (" = \x7b ".toList ++ leafKey entry.1) ++
        ':' :: ' ' :: (natText entry.2 ++ (after ++ '\x7d' :: tail))) := by
    simp only [hsuffix, hpair, hopen, List.append_assoc, List.cons_append, List.nil_append]
  have hquiet : Quiet (· = lead) (after ++ '\x7d' :: tail) := by
    have hsuffix : after <:+ blockBody (entry :: entries) := hbody ▸
      (List.suffix_append _ _).trans (List.suffix_cons _ _)
    exact Quiet.append (fun v hv => quiet_blockBody h v (hv.trans hsuffix))
      ((h.leads.quiet (u := ['\x7d']) (by decide)).append (h.leads.quiet_blanks htail))
  have hbetween : ':' ∉ more ++ (" = \x7b ".toList ++ leafKey entry.1) := by
    have hkey := notMem_leafKey h.name entry.1
    have hsign : ':' ∉ " = \x7b ".toList := by decide
    simp only [List.mem_append, not_or]
    exact ⟨hcolon, hsign, fun hmem => hkey (.tail _ hmem)⟩
  have hvalue : leafValue integerValue [] (more ++ (" = \x7b ".toList ++ leafKey entry.1))
      (' ' :: (natText entry.2 ++ (after ++ '\x7d' :: tail))) =
        some (natText entry.2, after ++ '\x7d' :: tail) := by
    have hrest : (after ++ '\x7d' :: tail).head?.any isDecimal = false := by
      cases after with
      | nil => exact show isDecimal '\x7d' = false by decide
      | cons d after => exact hafter
    rw [leafValue, if_pos (show InOrder [] _ from trivial), stripStart_natText,
      integerValue_natText _ hrest]
  have hshape : flatShape lead integerValue [] ⟨0, none,
      lead ++ (more ++ (" = \x7b ".toList ++ leafKey entry.1) ++
        ':' :: ' ' :: (natText entry.2 ++ (after ++ '\x7d' :: tail)))⟩ = _ :=
    flatShape_of_colon hbetween
  rw [hvalue, ← hsplit] at hshape
  dsimp only at hshape
  rw [upTo_append, List.length_append, Nat.add_sub_cancel] at hshape
  rw [hsource]
  exact flatMatches_start (List.append_ne_nil_of_right_ne_nil _ (pairSource_ne_nil entry)) hquiet hshape

omit [DecidableEq ι] in
/-- What is read of the entries in a layout is theirs, and nothing of them is lost. -/
theorem exists_readings (h : Marked marks lead block blockNames c) (layout : Layout)
    (hne : entries ≠ []) (htail : ∀ b ∈ tail, isBlank b = true) :
    ∃ opening ∈ openings lead block, ∃ flat inBlock : List (ι × Nat),
      flatMatches lead integerValue [] (layout.source lead block entries ++ tail) =
        flat.map (fun entry => (opening ++ pairSource entry, natText entry.2)) ∧
      blockEntries blockNames integerValue (layout.source lead block entries ++ tail) =
        inBlock.map (fun entry => (leafKey entry.1, natText entry.2)) ∧
      ∀ entry, entry ∈ entries ↔ entry ∈ flat ∨ entry ∈ inBlock := by
  have hblock (gap : Text) (hgap : ∀ b ∈ gap, isBlank b = true) (sign : Char)
      (hsign : sign ∈ [':', '=']) :=
    blockEntries_block h.isName h.names hgap hsign h.name entries tail
  cases layout with
  | flat =>
    exact ⟨lead ++ ['-'], by simp [openings], entries, [], flatMatches_flat h htail,
      blockEntries_eq_nil _ _ (brace_notMem_flat h htail), by simp⟩
  | nested =>
    have hsource : Layout.nested.source lead block entries ++ tail =
        block ++ ([] ++ ':' :: ' ' :: '\x7b' :: (blockBody entries ++ '\x7d' :: tail)) := by
      have hopen : ": \x7b".toList = [':', ' ', '\x7b'] := rfl
      simp only [Layout.source, hopen, List.append_assoc, List.cons_append, List.nil_append]
    refine ⟨lead ++ ['-'], by simp [openings], [], entries, flatMatches_nested h htail, ?_, by simp⟩
    rw [hsource]
    exact hblock [] (List.forall_mem_nil _) ':' (by decide)
  | assigned =>
    obtain ⟨first, rest, rfl⟩ := List.exists_cons_of_ne_nil hne
    have hsource : Layout.assigned.source lead block (first :: rest) ++ tail =
        block ++ ([' '] ++ '=' :: ' ' :: '\x7b' :: (blockBody (first :: rest) ++ '\x7d' :: tail)) := by
      have hopen : " = \x7b".toList = [' ', '=', ' ', '\x7b'] := rfl
      simp only [Layout.source, hopen, List.append_assoc, List.cons_append, List.nil_append]
    refine ⟨block ++ " = \x7b ".toList, by simp [openings], [first], first :: rest,
      flatMatches_assigned h first htail, ?_, by simp⟩
    rw [hsource]
    exact hblock [' '] (by decide) '=' (by decide)

end Reading

/-- A scale is read back from every layout. -/
theorem classify_layout (h : Marked marks lead block blockNames c) (layout : Layout)
    (hset : ∃ leaf, w leaf ≠ none)
    (hlimit : ∀ leaf n, w leaf = some n → (natText n).length ≤ digitLimit)
    (htail : ∀ b ∈ tail, isBlank b = true) :
    classify marks lead blockNames integerValue asInt (layout.source lead block w.entries ++ tail) =
      .ok (some w.toInt) := by
  obtain ⟨leaf, hleaf⟩ := hset
  obtain ⟨opening, hopening, flat, inBlock, hflat, hblock, hentries⟩ :=
    exists_readings h layout (Scale.entries_ne_nil h.mem_all hleaf) htail
  have hvalue {entry : ι × Nat} (hentry : entry ∈ flat ∨ entry ∈ inBlock) :
      w entry.1 = some entry.2 :=
    (Scale.mem_entries h.mem_all).mp ((hentries entry).mpr hentry)
  have hconvert {leaf : ι} {n : Nat} (hn : w leaf = some n) :
      asInt (natText n) = .ok (w.toInt leaf) := by
    rw [asInt_natText (hlimit leaf n hn), Scale.toInt, hn]
    rfl
  have hlookup := lookup_block h fun entry hentry => hvalue (.inr hentry)
  have hread : w.toInt leaf ≠ none := fun hnone => hleaf (Option.map_eq_none_iff.mp hnone)
  rw [← Scale.populated?_of_ne_none h.mem_all hread]
  refine classify_eq Prod.fst
    (fun leaf => if leaf ∈ inBlock.map Prod.fst then (w leaf).map natText else none)
    h.mem_marks hflat (fun entry _ => find?_label h hopening entry)
    (fun entry hentry => hconvert (hvalue (.inl hentry))) (fun mark hmark => ?_) (fun leaf text htext => ?_)
    fun leaf hleaf => ?_
  · have hone (key : Text) (pairs : List (Text × Text)) :
        [key].findSome? (List.lookup · pairs) = List.lookup key pairs := by
      cases hkey : List.lookup key pairs <;> simp [hkey]
    rw [h.own mark hmark, hblock, hone, hlookup]
  · split at htext
    · obtain ⟨n, hn, rfl⟩ := Option.map_eq_some_iff.mp htext
      exact hconvert hn
    · cases htext
  · obtain ⟨n, hn⟩ := Option.ne_none_iff_exists'.mp fun hnone =>
      hleaf (Option.map_eq_none_iff.mpr hnone : w.toInt leaf = none)
    rcases (hentries (leaf, n)).mp ((Scale.mem_entries h.mem_all).mpr hn) with hmem | hmem
    · exact .inl (List.mem_map_of_mem hmem)
    · refine .inr ?_
      rw [if_pos (List.mem_map_of_mem hmem), hn]
      rfl

/-- Layers and breakpoints are read back from every layout: each leaf that is set has its own
number, and no other leaf has any. -/
theorem layers_and_breakpoints_of_layout (layout : Layout) {layers : Scale LayerLeaf Nat}
    {breakpoints : Scale SizeLeaf Nat} (hlayers : ∃ leaf, layers leaf ≠ none)
    (hbreakpoints : ∃ leaf, breakpoints leaf ≠ none)
    (hlayersLimit : ∀ leaf n, layers leaf = some n → (natText n).length ≤ digitLimit)
    (hbreakpointsLimit : ∀ leaf n, breakpoints leaf = some n → (natText n).length ≤ digitLimit)
    (htail : ∀ b ∈ tail, isBlank b = true) :
    zIndexIn (layout.source "zIndex".toList "zIndex".toList layers.entries ++ tail) =
        .ok (some layers.toInt) ∧
      breakpointsIn (layout.source "breakpoint".toList "breakpoints".toList breakpoints.entries ++ tail) =
        .ok (some breakpoints.toInt) :=
  ⟨classify_layout marked_layers layout hlayers hlayersLimit htail,
    classify_layout marked_breakpoints layout hbreakpoints hbreakpointsLimit htail⟩

/-- Two layers that are not next to each other in order. -/
def twoLayers : Scale LayerLeaf Nat
  | .sticky => some 1040
  | .tooltip => some 0
  | _ => none

/-- Breakpoints whose names contain each other. -/
def wideBreakpoints : Scale SizeLeaf Nat
  | .xl => some 1200
  | .xxl => some 1440
  | _ => none

/-- Of an assigned block the flat scan sees the first entry, too. -/
theorem twoLayers_and_wideBreakpoints_of_assigned :
    (∃ leaf, twoLayers leaf ≠ none) ∧ (∃ leaf, wideBreakpoints leaf ≠ none) ∧
      (∀ leaf n, twoLayers leaf = some n → (natText n).length ≤ digitLimit) ∧
      (∀ leaf n, wideBreakpoints leaf = some n → (natText n).length ≤ digitLimit) ∧
      zIndexIn ("zIndex = \x7b sticky: 1040, tooltip: 0 \x7d".toList ++ ['\n']) =
        .ok (some twoLayers.toInt) ∧
      breakpointsIn ("breakpoints = \x7b xl: 1200, xxl: 1440 \x7d".toList ++ ['\n']) =
        .ok (some wideBreakpoints.toInt) := by
  have hlayers : ∃ leaf, twoLayers leaf ≠ none := ⟨.sticky, by decide⟩
  have hbreakpoints : ∃ leaf, wideBreakpoints leaf ≠ none := ⟨.xl, by decide⟩
  have hlayersLimit : ∀ leaf n, twoLayers leaf = some n → (natText n).length ≤ digitLimit := by
    intro leaf n h
    cases leaf <;> cases h <;> decide
  have hbreakpointsLimit : ∀ leaf n, wideBreakpoints leaf = some n →
      (natText n).length ≤ digitLimit := by
    intro leaf n h
    cases leaf <;> cases h <;> decide
  have htail : ∀ b ∈ ['\n'], isBlank b = true := by decide
  have hread := layers_and_breakpoints_of_layout .assigned hlayers hbreakpoints hlayersLimit
    hbreakpointsLimit htail
  have hlayersSource : "zIndex = \x7b sticky: 1040, tooltip: 0 \x7d".toList =
      Layout.assigned.source "zIndex".toList "zIndex".toList twoLayers.entries := by decide
  have hbreakpointsSource : "breakpoints = \x7b xl: 1200, xxl: 1440 \x7d".toList =
      Layout.assigned.source "breakpoint".toList "breakpoints".toList wideBreakpoints.entries := by
    decide
  rw [hlayersSource, hbreakpointsSource]
  exact ⟨hlayers, hbreakpoints, hlayersLimit, hbreakpointsLimit, hread⟩

end Theme

end ComponentCatalog
