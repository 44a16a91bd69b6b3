import ComponentCatalog.Proofs.StoryArguments
import ComponentCatalog.Proofs.StoryPhrases

/-!
The lines of a story file, one by one: a scan for stories or for assignments finds at a line what
the line says, and goes on after it.
-/
namespace ComponentCatalog.Story

open Text Code
open Component (IsName)

variable {arguments : List Argument} {name rest : Text} {offset : Nat} {previous : Option Char}

theorem quiet_objectSource {phrase : Text → Prop}
    (h : ∀ a ∈ arguments, Quiet phrase (a.key ++ [':']) ∧ Lacks phrase a.raw)
    (hlast : ∀ m, phrase m → m.getLast? ≠ some ' ')
    (hstop : ∀ m, phrase m → ',' ∉ m ∧ '\x7d' ∉ m)
    (hfixed : ∀ u ∈ [['\x7b', ' '], [' '], [' ', '\x7d']], Quiet phrase u) :
    Quiet phrase (objectSource arguments) := by
  have hsplit : objectSource arguments =
      ['\x7b', ' '] ++ (join ", ".toList (arguments.map Argument.source) ++ [' ', '\x7d']) := by
    simp [objectSource, objectBody]
  rw [hsplit]
  refine (hfixed _ (by simp)).append (Quiet.join (hfixed _ (by simp)) fun s hs => ?_)
  obtain ⟨a, ha, rfl⟩ := List.mem_map.mp hs
  obtain ⟨hkey, hraw⟩ := h a ha
  have hspace : Quiet phrase [' '] := hfixed _ (by simp)
  have hpart (t : Text) : a.source ++ t = (a.key ++ [':']) ++ ([' '] ++ (a.raw ++ t)) := by
    simp [Argument.source]
  have hseparator : a.raw ++ ", ".toList = (a.raw ++ [',']) ++ [' '] := by simp
  have hcloser : a.raw ++ [' ', '\x7d'] = a.raw ++ [' '] ++ ['\x7d'] := by simp
  constructor
  · rw [hpart, hseparator]
    exact hkey.append (hspace.append ((hraw.quiet fun m hm => (hstop m hm).1).append hspace))
  · rw [hpart, hcloser]
    exact hkey.append (hspace.append ((hraw.concat hlast).quiet fun m hm => (hstop m hm).2))

theorem quiet_declaring_objectSource (h : ∀ a ∈ arguments, a.WellFormed) :
    Quiet Declaring (objectSource arguments) := by
  refine quiet_objectSource (fun a ha => ⟨?_, (h a ha).storyFree.declaring⟩)
    (fun m hm => hm.getLast? rfl) (fun m hm => ⟨?_, ?_⟩)
    (quiet_all_of_lead Declaring.lead (by decide))
  · -- The colon behind the key may stand in the declaration of a story, but not in an exported
    -- constant.
    exact quiet_declaring ((lacks_exporting_of_isName (h a ha).key).quiet fun m hm =>
      hm.notMem rfl rfl)
  · exact hm.notMem rfl rfl (by decide)
  · exact hm.notMem rfl rfl (by decide)

theorem quiet_assigning_objectSource (h : ∀ a ∈ arguments, a.WellFormed) :
    Quiet Assigning (objectSource arguments) := by
  refine quiet_objectSource (fun a ha => ⟨?_, (h a ha).storyFree.assigning⟩)
    (fun m hm => hm.getLast? (by decide)) (fun m hm => ⟨?_, ?_⟩) (quiet_all_assigning (by decide))
  · exact quiet_assigning_isName (h a ha).key (by simp) (by decide) rfl
  · exact hm.notMem rfl rfl (by decide)
  · exact hm.notMem rfl rfl (by decide)

/-- The declaration of a constant after its first character. -/
theorem quiet_declaring_constant (hname : IsName name) {c : Char} {u : Text}
    (hstop : isWord c = false ∧ isBlank c = false) (hu : Quiet Declaring u) :
    Quiet Declaring ("xport const ".toList ++ (name ++ c :: u)) := by
  have hdeclared : Quiet Declaring (name ++ [c]) :=
    quiet_declaring ((lacks_exporting_of_isName hname).quiet fun m hm =>
      hm.notMem hstop.1 hstop.2)
  have hsplit : name ++ c :: u = (name ++ [c]) ++ u := by simp
  rw [hsplit]
  exact (quiet_of_lead Declaring.lead (by decide)).append (hdeclared.append hu)

theorem exportedConstant?_declaration (hname : IsName name)
    (hrest : rest.head?.any isWord = false) :
    exportedConstant? ("export const ".toList ++ (name ++ rest)) = some (name, rest) := by
  have hexport : after? "export".toList ("export const ".toList ++ (name ++ rest)) =
      some (" const ".toList ++ (name ++ rest)) := rfl
  have hgap : blanks? (" const ".toList ++ (name ++ rest)) =
      some ("const ".toList ++ (name ++ rest)) := rfl
  have hconst : after? "const".toList ("const ".toList ++ (name ++ rest)) =
      some (' ' :: (name ++ rest)) := rfl
  have hstrip : stripStart (name ++ rest) = name ++ rest :=
    stripStart_eq_self_of_strip (strip_of_word hname.word) _ hname.ne_nil
  have hgap' : blanks? (' ' :: (name ++ rest)) = some (name ++ rest) := by
    have hspace : isBlank ' ' = true := rfl
    rw [blanks?, if_pos hspace, hstrip]
  simp only [exportedConstant?, hexport, hgap, hconst, hgap', word?_append hname.ne_nil hname.word
    hrest, Option.bind_eq_bind, Option.bind_some]

/-- The initial value of a typed story. -/
def expressionOf (arguments : List Argument) : Text :=
  "\x7b args: ".toList ++ (objectSource arguments ++ " \x7d".toList)

theorem notMem_semicolon_objectSource
    (h : ∀ a ∈ arguments, a.WellFormed ∧ ';' ∉ a.raw) : ';' ∉ objectSource arguments := by
  have hsource : ∀ a ∈ arguments, ';' ∉ a.source := by
    intro a ha
    obtain ⟨hwellFormed, hraw⟩ := h a ha
    have hkey : ';' ∉ a.key := fun hmem => Bool.false_ne_true (hwellFormed.key.word ';' hmem)
    simp [Argument.source, hkey, hraw]
  have hjoin : ';' ∉ join ", ".toList (arguments.map Argument.source) := by
    refine notMem_join (by decide) fun s hs => ?_
    obtain ⟨a, ha, rfl⟩ := List.mem_map.mp hs
    exact hsource a ha
  simp only [objectSource, objectBody, List.mem_cons, List.mem_append, List.not_mem_nil, or_false,
    hjoin]
  decide

/-- The initial value goes on to the semicolon. -/
theorem afterMost_expressionOf (h : ∀ a ∈ arguments, a.WellFormed ∧ ';' ∉ a.raw) (rest : Text) :
    afterMost isBlank (run? (· ≠ ';')) (' ' :: (expressionOf arguments ++ ([';'] ++ rest))) =
      some (expressionOf arguments, [';'] ++ rest) := by
  have hobject := notMem_semicolon_objectSource h
  have hsemicolon : ∀ c ∈ expressionOf arguments, decide (c ≠ ';') = true := by
    intro c hc
    rw [decide_eq_true_eq]
    rintro rfl
    rcases List.mem_append.mp hc with hc | hc
    · exact absurd hc (by decide)
    · rcases List.mem_append.mp hc with hc | hc
      · exact hobject hc
      · exact absurd hc (by decide)
  have hspace : isBlank ' ' = true := rfl
  have hrun : run? (· ≠ ';') (expressionOf arguments ++ ([';'] ++ rest)) =
      some (expressionOf arguments, [';'] ++ rest) :=
    run?_append (List.cons_ne_nil _ _) hsemicolon rfl
  rw [afterMost, if_pos hspace, afterMost_of_neg, hrun, Option.some_or]
  rintro c ⟨⟩
  rfl

theorem exportedConstant?_typed (hname : IsName name) (arguments : List Argument) (rest : Text) :
    exportedConstant? ((Line.typed name arguments).source ++ rest) =
      some (name, ": StoryObj = ".toList ++ (expressionOf arguments ++ ([';'] ++ rest))) := by
  have hsource : (Line.typed name arguments).source ++ rest = "export const ".toList ++ (name ++
      (": StoryObj = ".toList ++ (expressionOf arguments ++ ([';'] ++ rest)))) := by
    have hsource : (Line.typed name arguments).source = "export const ".toList ++ (name ++
        (": StoryObj = \x7b args: ".toList ++ (objectSource arguments ++ " \x7d;".toList))) := rfl
    have hopen : ": StoryObj = \x7b args: ".toList =
        ": StoryObj = ".toList ++ "\x7b args: ".toList := rfl
    have hclose : " \x7d;".toList = " \x7d".toList ++ [';'] := rfl
    rw [hsource]
    unfold expressionOf
    simp only [hopen, hclose, List.append_assoc]
  rw [hsource]
  exact exportedConstant?_declaration hname rfl

theorem typedShape_typed (hname : IsName name) (offset : Nat) (previous : Option Char)
    (rest : Text) (h : ∀ a ∈ arguments, a.WellFormed ∧ ';' ∉ a.raw) :
    typedShape ⟨offset, previous, (Line.typed name arguments).source ++ rest⟩ =
      some (⟨offset, name, (Line.typed name arguments).source, some (expressionOf arguments)⟩,
        (Line.typed name arguments).source.length) := by
  have hcolon : after? [':'] (stripStart
      (": StoryObj = ".toList ++ (expressionOf arguments ++ ([';'] ++ rest)))) =
      some (" StoryObj = ".toList ++ (expressionOf arguments ++ ([';'] ++ rest))) := rfl
  have htype : storyTypes.findSome? (afterName? · (stripStart
      (" StoryObj = ".toList ++ (expressionOf arguments ++ ([';'] ++ rest))))) =
      some (" = ".toList ++ (expressionOf arguments ++ ([';'] ++ rest))) := rfl
  have hequals : after? ['=']
      ((" = ".toList ++ (expressionOf arguments ++ ([';'] ++ rest))).dropWhile (· ≠ '=')) =
      some (' ' :: (expressionOf arguments ++ ([';'] ++ rest))) := rfl
  have hend : (after? [';'] ([';'] ++ rest)).getD ([';'] ++ rest) = rest := rfl
  have hlength : ((Line.typed name arguments).source ++ rest).length - rest.length =
      (Line.typed name arguments).source.length := by
    rw [List.length_append, Nat.add_sub_cancel]
  simp only [typedShape, exportedConstant?_typed hname, hcolon, htype, hequals,
    afterMost_expressionOf h, hend, Cursor.lengthTo, upTo, hlength, List.take_left,
    Option.bind_eq_bind, Option.bind_some, Option.pure_def]

theorem plainShape_typed (hname : IsName name) (arguments : List Argument) (offset : Nat)
    (previous : Option Char) (rest : Text) :
    plainShape ⟨offset, previous, (Line.typed name arguments).source ++ rest⟩ = none := by
  have hequals : after? ['='] (stripStart
      (": StoryObj = ".toList ++ (expressionOf arguments ++ ([';'] ++ rest)))) = none := rfl
  simp only [plainShape, exportedConstant?_typed hname, hequals, Option.bind_eq_bind,
    Option.bind_some, Option.bind_none]

theorem exportedConstant?_plain (hname : IsName name) (rest : Text) :
    exportedConstant? ((Line.plain name).source ++ rest) =
      some (name, " = () => null;".toList ++ rest) := by
  have hsource : (Line.plain name).source ++ rest =
      "export const ".toList ++ (name ++ (" = () => null;".toList ++ rest)) := by
    have hsource : (Line.plain name).source =
        "export const ".toList ++ (name ++ " = () => null;".toList) := rfl
    simp only [hsource, List.append_assoc]
  rw [hsource]
  exact exportedConstant?_declaration hname rfl

/-- The declaration of a plain story without the body of its function. -/
def plainHead (name : Text) : Text := "export const ".toList ++ (name ++ " = () => ".toList)

theorem source_plain (name : Text) :
    (Line.plain name).source = plainHead name ++ "null;".toList := by
  have hsource : (Line.plain name).source =
      "export const ".toList ++ (name ++ (" = () => ".toList ++ "null;".toList)) := rfl
  rw [hsource]
  unfold plainHead
  simp only [List.append_assoc]

theorem plainShape_plain (hname : IsName name) (offset : Nat) (previous : Option Char)
    (rest : Text) :
    plainShape ⟨offset, previous, (Line.plain name).source ++ rest⟩ =
      some (⟨offset, name, (Line.plain name).source, none⟩, (plainHead name).length) := by
  have hequals : after? ['='] (stripStart (" = () => null;".toList ++ rest)) =
      some (" () => null;".toList ++ rest) := rfl
  have hopen : after? ['('] (stripStart (" () => null;".toList ++ rest)) =
      some (") => null;".toList ++ rest) := rfl
  have hclose : after? [')'] (stripStart (") => null;".toList ++ rest)) =
      some (" => null;".toList ++ rest) := rfl
  have harrow : after? "=>".toList (stripStart (" => null;".toList ++ rest)) =
      some (" null;".toList ++ rest) := rfl
  have hbody : stripStart (" null;".toList ++ rest) = "null;".toList ++ rest := rfl
  have hbodyLength : bodyLength ("null;".toList ++ rest) = "null;".toList.length := rfl
  have hlength : ((Line.plain name).source ++ rest).length - ("null;".toList ++ rest).length =
      (plainHead name).length := by
    rw [source_plain]
    simp only [List.length_append]
    omega
  have htake : ((Line.plain name).source ++ rest).take
      ((plainHead name).length + "null;".toList.length) = (Line.plain name).source := by
    rw [source_plain, ← List.length_append, List.take_left]
  simp only [plainShape, exportedConstant?_plain hname, hequals, hopen, hclose, harrow, hbody,
    hbodyLength, Cursor.lengthTo, hlength, htake, Option.bind_eq_bind, Option.bind_some,
    Option.pure_def]

theorem typedShape_plain (hname : IsName name) (offset : Nat) (previous : Option Char)
    (rest : Text) :
    typedShape ⟨offset, previous, (Line.plain name).source ++ rest⟩ = none := by
  have hcolon : after? [':'] (stripStart (" = () => null;".toList ++ rest)) = none := rfl
  simp only [typedShape, exportedConstant?_plain hname, hcolon, Option.bind_eq_bind,
    Option.bind_some, Option.bind_none]

theorem assignmentShape_assigned (hname : IsName name) (offset : Nat)
    (hprevious : previous.any isWord = false) (value : Text) :
    assignmentShape ⟨offset, previous, name ++ (".args = ".toList ++ '\x7b' :: value)⟩ =
      some ((name, '\x7b' :: value), (name ++ ".args = ".toList).length) := by
  have hstart : Cursor.atWordStart
      ⟨offset, previous, name ++ (".args = ".toList ++ '\x7b' :: value)⟩ = true := by
    obtain ⟨c, name, rfl⟩ := List.exists_cons_of_ne_nil hname.ne_nil
    simp [Cursor.atWordStart, hprevious, hname.word c List.mem_cons_self]
  have hword : word? (name ++ (".args = ".toList ++ '\x7b' :: value)) =
      some (name, ".args = ".toList ++ '\x7b' :: value) :=
    word?_append hname.ne_nil hname.word rfl
  have hargs : after? ".args".toList (".args = ".toList ++ '\x7b' :: value) =
      some (" = ".toList ++ '\x7b' :: value) := rfl
  have hequals : after? ['='] (stripStart (" = ".toList ++ '\x7b' :: value)) =
      some (' ' :: '\x7b' :: value) := rfl
  have hstrip : stripStart (' ' :: '\x7b' :: value) = '\x7b' :: value := rfl
  have hlength : (name ++ (".args = ".toList ++ '\x7b' :: value)).length -
      ('\x7b' :: value).length = (name ++ ".args = ".toList).length := by
    simp only [List.length_append]
    omega
  rw [assignmentShape, guard_bind hstart]
  simp only [hword, hargs, hequals, hstrip, hlength, Cursor.lengthTo, Option.bind_eq_bind,
    Option.bind_some, Option.pure_def]

/-- The lines with the offsets at which they begin, each one after a line feed. -/
def placed : Nat → List Line → List (Nat × Line)
  | _, [] => []
  | offset, line :: lines => (offset + 1, line) :: placed (offset + 1 + line.source.length) lines

/-- The declarations among the lines. -/
def declared (offset : Nat) (lines : List Line) : List (Nat × Line) :=
  (placed offset lines).filter (·.2.isDeclaration)

/-- What is found at a declaration. -/
def siteAt (line : Nat × Line) : Site :=
  ⟨line.1, line.2.name, line.2.source, line.2.inline?.map expressionOf⟩

theorem declared_cons (offset : Nat) (line : Line) (lines : List Line) :
    declared offset (line :: lines) = (if line.isDeclaration then [(offset + 1, line)] else []) ++
      declared (offset + 1 + line.source.length) lines := by
  rw [declared, placed, List.filter_cons]
  split <;> rfl

theorem linesSource_cons (line : Line) (lines : List Line) :
    linesSource (line :: lines) = '\n' :: (line.source ++ linesSource lines) := rfl

theorem quiet_declaring_typed (h : Line.WellFormed (.typed name arguments)) :
    ∃ tail, (Line.typed name arguments).source = 'e' :: tail ∧ Quiet Declaring tail := by
  refine ⟨"xport const ".toList ++ (name ++ ':' :: (" StoryObj = \x7b args: ".toList ++
    (objectSource arguments ++ " \x7d;".toList))), rfl, ?_⟩
  refine quiet_declaring_constant h.1 ⟨rfl, rfl⟩ ?_
  exact (quiet_of_lead Declaring.lead (by decide)).append
    ((quiet_declaring_objectSource fun a ha => (h.2 a ha).1).append
      (quiet_of_lead Declaring.lead (by decide)))

theorem quiet_declaring_plain (h : Line.WellFormed (.plain name)) :
    ∃ tail, (Line.plain name).source = 'e' :: tail ∧ Quiet Declaring tail := by
  refine ⟨"xport const ".toList ++ (name ++ " = () => null;".toList), rfl, ?_⟩
  have hdeclared : Quiet Exporting (name ++ [' '] ++ ['=']) :=
    ((lacks_exporting_of_isName h).concat fun m hm => hm.getLast? rfl).quiet
      fun m hm => hm.notMem rfl rfl
  have hsplit : name ++ " = () => null;".toList =
      (name ++ [' '] ++ ['=']) ++ " () => null;".toList := by
    have hfixed : " = () => null;".toList = [' '] ++ (['='] ++ " () => null;".toList) := rfl
    simp only [hfixed, List.append_assoc]
  rw [hsplit]
  exact (quiet_of_lead Declaring.lead (by decide)).append
    ((quiet_declaring hdeclared).append (quiet_of_lead Declaring.lead (by decide)))

theorem quiet_declaring_assigned (h : Line.WellFormed (.assigned name arguments)) :
    Quiet Declaring (Line.assigned name arguments).source := by
  have hsplit : (Line.assigned name arguments).source =
      (name ++ ['.']) ++ ("args = ".toList ++ (objectSource arguments ++ [';'])) := by
    have hsource : (Line.assigned name arguments).source =
        name ++ ((['.'] ++ "args = ".toList) ++ (objectSource arguments ++ [';'])) := rfl
    simp only [hsource, List.append_assoc]
  have hassigned : Quiet Declaring (name ++ ['.']) :=
    quiet_declaring ((lacks_exporting_of_isName h.1).quiet fun m hm => hm.notMem rfl rfl)
  rw [hsplit]
  exact hassigned.append ((quiet_of_lead Declaring.lead (by decide)).append
    ((quiet_declaring_objectSource h.2).append (quiet_of_lead Declaring.lead (by decide))))

theorem quiet_assigning_typed (h : Line.WellFormed (.typed name arguments)) :
    Quiet Assigning (Line.typed name arguments).source := by
  have hsplit : (Line.typed name arguments).source = "export const ".toList ++
      ((name ++ ": StoryObj = \x7b args: ".toList) ++
        (objectSource arguments ++ " \x7d;".toList)) := by
    have hsource : (Line.typed name arguments).source = "export const ".toList ++ (name ++
        (": StoryObj = \x7b args: ".toList ++ (objectSource arguments ++ " \x7d;".toList))) := rfl
    simp only [hsource, List.append_assoc]
  have hname : Quiet Assigning (name ++ ": StoryObj = \x7b args: ".toList) :=
    quiet_assigning_isName h.1 (by decide) (by decide) rfl
  rw [hsplit]
  exact (quiet_assigning_of_notMem (by decide) rfl).append (hname.append
    ((quiet_assigning_objectSource fun a ha => (h.2 a ha).1).append
      (quiet_assigning_of_notMem (by decide) rfl)))

theorem quiet_assigning_plain (h : Line.WellFormed (.plain name)) :
    Quiet Assigning (Line.plain name).source := by
  have hsource : (Line.plain name).source =
      "export const ".toList ++ (name ++ " = () => null;".toList) := rfl
  rw [hsource]
  exact (quiet_assigning_of_notMem (by decide) rfl).append
    (quiet_assigning_isName h (by decide) (by decide) rfl)

/-- Every line ends in a semicolon. -/
theorem getLast?_source (line : Line) : line.source.getLast? = some ';' := by
  have hlast (u : Text) {v : Text} (h : v.getLast? = some ';') : (u ++ v).getLast? = some ';' := by
    rw [List.getLast?_append, h, Option.some_or]
  cases line with
  | typed name arguments =>
    exact hlast "export const ".toList (hlast name (hlast ": StoryObj = \x7b args: ".toList
      (hlast (objectSource arguments) (v := " \x7d;".toList) rfl)))
  | plain name =>
    exact hlast "export const ".toList (hlast name (v := " = () => null;".toList) rfl)
  | assigned name arguments =>
    exact hlast name (hlast ".args = ".toList (hlast (objectSource arguments) (v := [';']) rfl))

/-- The value of an assignment begins as an object. -/
def assignsObject (assignment : Text × Text) : Bool := assignment.2.head? = some '\x7b'

/-- The scan for assignments of objects passes statements in which none begins. -/
theorem assignments_pass {u : Text} (hu : Quiet Assigning u) (hlast : u.getLast? = some ';') :
    (hitsFrom assignmentShape 0 offset previous (u ++ rest)).filter assignsObject =
      (hitsFrom assignmentShape 0 (offset + u.length) (lastOf previous u) rest).filter
        assignsObject := by
  refine filter_hitsFrom_pass (fun v hv hne o q assignment n hfound => ?_) (Nat.zero_le _)
  obtain ⟨gap, gap', hname, hgap, hsplit, rfl⟩ := assignmentShape_split hfound
  dsimp only at hsplit
  constructor
  · rw [assignsObject, decide_eq_false_iff_not]
    intro hhead
    obtain ⟨more, hmore⟩ := List.head?_eq_some_iff.mp hhead
    refine hu v hv hne _ ⟨assignment.1, gap, gap', hname, hgap, rfl⟩ rest ⟨more, ?_⟩
    rw [hsplit, hmore]
    simp
  · -- The semicolon is no part of what stands before the value.
    let before := assignment.1 ++ (".args".toList ++ (gap ++ '=' :: gap'))
    have hbefore : v ++ rest = before ++ assignment.2 := by
      rw [hsplit]
      simp [before]
    have hstop : ';' ∉ before := by
      have hname := notMem_of_kind (c := ';') hname.word rfl
      have hgap := notMem_of_kind (c := ';') hgap rfl
      have hargs : ';' ∉ ".args".toList := by decide
      simp only [before, List.mem_append, List.mem_cons] at hgap ⊢
      tauto
    have hlength := length_lt_of_notMem ((getLast?_of_suffix hv hne).trans hlast) hstop
      ⟨assignment.2, hbefore.symm⟩
    rw [Cursor.lengthTo, hbefore, List.length_append]
    omega

theorem hitsFrom_assignmentShape_feed (s : Text) :
    hitsFrom assignmentShape 0 offset previous ('\n' :: s) =
      hitsFrom assignmentShape 0 (offset + 1) (some '\n') s := by
  have hstart : Cursor.atWordStart ⟨offset, previous, '\n' :: s⟩ = false := Bool.and_false _
  have hnone : assignmentShape ⟨offset, previous, '\n' :: s⟩ = none := by
    rw [assignmentShape, hstart]
    rfl
  rw [hitsFrom, hnone]

/-- An assignment is found with what follows its equals sign, and nothing more in it. -/
theorem assignments_assigned (h : Line.WellFormed (.assigned name arguments)) (offset : Nat)
    (rest : Text) :
    ∃ offset' previous', (hitsFrom assignmentShape 0 offset (some '\n')
        ((Line.assigned name arguments).source ++ rest)).filter assignsObject =
      (name, objectSource arguments ++ ([';'] ++ rest)) ::
        (hitsFrom assignmentShape 0 offset' previous' rest).filter assignsObject := by
  have hsplit : (Line.assigned name arguments).source ++ rest =
      (name ++ ".args = ".toList) ++ (objectSource arguments ++ ([';'] ++ rest)) := by
    have hsource : (Line.assigned name arguments).source =
      name ++ (".args = ".toList ++ (objectSource arguments ++ [';'])) := rfl
    simp only [hsource, List.append_assoc]
  have hobject : '\x7b' :: (objectBody arguments ++ ['\x7d'] ++ ([';'] ++ rest)) =
      objectSource arguments ++ ([';'] ++ rest) := rfl
  have hfeed : (some '\n').any isWord = false := rfl
  have hshape := assignmentShape_assigned h.1 offset hfeed
    (objectBody arguments ++ ['\x7d'] ++ ([';'] ++ rest))
  rw [← List.append_assoc, hobject] at hshape
  have hquiet : Quiet Assigning (objectSource arguments ++ [';']) :=
    (quiet_assigning_objectSource h.2).append (quiet_assigning_of_notMem (by decide) rfl)
  rw [hsplit, hitsFrom_hit (by simp) hshape, List.filter_cons_of_pos rfl, ← List.append_assoc,
    assignments_pass hquiet List.getLast?_concat, List.append_assoc]
  exact ⟨_, _, rfl⟩

theorem hitsFrom_feed {α : Type} {phrase : Text → Prop} {shape : Shape α}
    (hopens : Opens phrase shape) (hfeed : Quiet phrase ['\n']) (s : Text) :
    hitsFrom shape 0 offset previous ('\n' :: s) =
      hitsFrom shape 0 (offset + 1) (some '\n') s :=
  hfeed.pass hopens

/-- A declaration of which only the first character is not quiet is passed where it is no hit. -/
theorem hitsFrom_pass_declaration {shape : Shape Site} (hopens : Opens Declaring shape)
    {u rest : Text} (hquiet : ∃ tail, u = 'e' :: tail ∧ Quiet Declaring tail)
    (hnone : shape ⟨offset, previous, u ++ rest⟩ = none) :
    hitsFrom shape 0 offset previous (u ++ rest) =
      hitsFrom shape 0 (offset + u.length) (lastOf previous u) rest := by
  obtain ⟨tail, rfl, htail⟩ := hquiet
  rw [List.cons_append] at hnone ⊢
  rw [hitsFrom, hnone]
  dsimp only
  rw [htail.pass hopens, List.length_cons, Nat.add_assoc, Nat.add_comm 1]
  rfl

/-- What a scan finds at a line that is its business, and how it passes the others. -/
def Meets (shape : Shape Site) (p : Line → Bool) (line : Line) : Prop :=
  ∀ offset rest, hitsFrom shape 0 offset (some '\n') (line.source ++ rest) =
    (if line.isDeclaration && p line then [siteAt (offset, line)] else []) ++
      hitsFrom shape 0 (offset + line.source.length) (lastOf (some '\n') line.source) rest

theorem hitsFrom_lines {shape : Shape Site} {p : Line → Bool} {lines : List Line}
    (hopens : Opens Declaring shape) (h : ∀ line ∈ lines, Meets shape p line) (offset : Nat)
    (previous : Option Char) :
    hitsFrom shape 0 offset previous (linesSource lines) =
      ((declared offset lines).filter (p ·.2)).map siteAt := by
  induction lines generalizing offset previous with
  | nil => rfl
  | cons line lines ih =>
    have hfeed : Quiet Declaring ['\n'] := quiet_of_lead Declaring.lead (by decide)
    rw [linesSource_cons, hitsFrom_feed hopens hfeed, h line List.mem_cons_self,
      ih fun line hl => h line (.tail _ hl), declared_cons, List.filter_append, List.map_append]
    congr 1
    cases line.isDeclaration <;> cases hp : p line <;> simp [hp]

theorem meets_typedShape {line : Line} (h : line.WellFormed) :
    Meets typedShape (·.inline?.isSome) line := by
  intro offset rest
  cases line with
  | typed name arguments =>
    exact hitsFrom_hit (List.cons_ne_nil _ _) (typedShape_typed h.1 _ _ _ h.2)
  | plain name =>
    exact hitsFrom_pass_declaration opens_typedShape (quiet_declaring_plain h)
      (typedShape_plain h _ _ _)
  | assigned name arguments => exact (quiet_declaring_assigned h).pass opens_typedShape

theorem meets_plainShape {line : Line} (h : line.WellFormed) :
    Meets plainShape (!·.inline?.isSome) line := by
  intro offset rest
  cases line with
  | typed name arguments =>
    exact hitsFrom_pass_declaration opens_plainShape (quiet_declaring_typed h)
      (plainShape_typed h.1 _ _ _ _)
  | plain name =>
    have hhit := plainShape_plain h offset (some '\n') rest
    have hnull : Quiet Declaring "null;".toList := quiet_of_lead Declaring.lead (by decide)
    have hsource := source_plain name
    rw [hsource, List.append_assoc] at hhit
    rw [hsource, List.append_assoc, hitsFrom_hit (by exact List.cons_ne_nil _ _) hhit,
      hnull.pass opens_plainShape, ← lastOf_append, List.length_append, ← Nat.add_assoc, ← hsource]
    rfl
  | assigned name arguments => exact (quiet_declaring_assigned h).pass opens_plainShape

end ComponentCatalog.Story
