import ComponentCatalog.Proofs.Expression
import ComponentCatalog.Proofs.Literals
import ComponentCatalog.Proofs.StoryListing

/-!
A story file is read back from its source: the settings of the default export, and the declared
stories with what they are assigned.
-/
namespace ComponentCatalog.Story

open Text Code
open Component (IsName)

/-- The file holds what the draft was written from. -/
structure Draft.ReadAs (d : Draft) (name : Text) (file : StoryFile) : Prop where
  name : file.component = name
  title : file.settings.title = d.title
  component : file.settings.component = d.component
  decorators :
    file.settings.decorators = if d.decorators = [] then none else some d.decorators
  argTypes : file.settings.argTypes = none
  parameters : file.settings.parameters = none
  stories : file.settings.stories.map (fun s => (s.name, s.source, s.args)) = d.stories
  total : file.total = d.stories.length
  isInteractive :
    file.isInteractive = true ↔ ∃ s ∈ d.stories, ∃ args, s.2.2 = some args ∧ args ≠ []
  hasExamples : file.hasExamples = true ↔ d.stories ≠ []

theorem map_listed (d : Draft) :
    (listed d).map (fun s => (s.name, s.source, s.args)) = d.stories := by
  rw [listed, List.map_map]
  rfl

/-- A well-formed story file is read back to what it was written from, and a value is read as what
its text spells. -/
theorem fileOf_source :
    (∀ d : Draft, d.WellFormed → ∀ name,
      ∃ file, fileOf name d.source = .ok file ∧ d.ReadAs name file) ∧
    (∀ raw value, Spells raw value → strip raw = raw → coerceValue raw = .ok value) := by
  refine ⟨fun d hd name => ?_, fun raw value => coerceValue_of_spells⟩
  rw [fileOf, settings_source hd, listing_source hd]
  refine ⟨_, rfl, ?_⟩
  have hstories := map_listed d
  refine ⟨rfl, rfl, rfl, rfl, rfl, rfl, hstories, ?_, ?_, ?_⟩
  · rw [← hstories, List.length_map]
  · rw [← hstories]
    simp [Option.any_eq_true]
  · rw [← hstories]
    simp

/-- The text holds none of the words. -/
def Wordless (words : List Text) (s : Text) : Prop := ∀ word ∈ words, contains word s = false

instance (words : List Text) (s : Text) : Decidable (Wordless words s) :=
  inferInstanceAs (Decidable (∀ word ∈ words, contains word s = false))

def storyWords : List Text := ["export".toList, ".args".toList]

theorem lacks_of_wordless {phrase : Text → Prop} {words : List Text} {s word : Text}
    (h : Wordless words s) (hword : word ∈ words) (hlead : ∀ m, phrase m → word <+: m) :
    Lacks phrase s :=
  lacks_of_contains (fun m hm => (hlead m hm).isInfix) (h word hword)

theorem storyFree_of_wordless {words : List Text} {s : Text} (h : Wordless words s)
    (hwords : ∀ word ∈ storyWords, word ∈ words) : StoryFree s := by
  refine ⟨lacks_of_wordless h (hwords _ (by decide)) Declaring.lead,
    lacks_of_contains (fun m hm => ?_) (h ".args".toList (hwords _ (by decide)))⟩
  obtain ⟨name, gap, gap', -, -, rfl⟩ := hm
  exact ⟨name, gap ++ '=' :: (gap' ++ ['\x7b']), by simp⟩

theorem isTitle_of_wordless {s : Text}
    (hplain : ∀ c ∈ s, isStringMark c = false ∧ c ≠ '\\' ∧ c ≠ '\n')
    (h : Wordless (storyWords ++ ["component".toList, "decorators".toList, "argTypes".toList,
      "parameters".toList]) s) : IsTitle s where
  unmarked := fun c hc => (hplain c hc).1
  quoted := quoted_of_forall fun c hc => by
    obtain ⟨hmark, hbackslash, hfeed⟩ := hplain c hc
    refine ⟨?_, hbackslash, hfeed⟩
    rintro rfl
    cases hmark
  storyFree := storyFree_of_wordless h (by decide)
  component := lacks_of_wordless h (by decide) Labelling.lead
  decorators := lacks_of_wordless h (by decide) Keying.lead
  argTypes := lacks_of_wordless h (by decide) Keying.lead
  parameters := lacks_of_wordless h (by decide) Keying.lead

theorem isDecorator_of_wordless {s : Text} (hbalanced : Balanced false s)
    (hstrip : s ≠ [] ∧ strip s = s)
    (h : Wordless (storyWords ++ ["argTypes".toList, "parameters".toList]) s) : IsDecorator s where
  ne_nil := hstrip.1
  stripped := hstrip.2
  balanced := hbalanced
  storyFree := storyFree_of_wordless h (by decide)
  argTypes := lacks_of_wordless h (by decide) Keying.lead
  parameters := lacks_of_wordless h (by decide) Keying.lead

theorem Argument.wellFormed_of_wordless {a : Argument} (hkey : IsName a.key)
    (hbalanced : Balanced true a.raw) (hreads : coerceValue a.raw = .ok a.value)
    (hraw : a.raw ≠ [] ∧ strip a.raw = a.raw ∧ (∀ c ∈ a.raw, endsEntry c = false) ∧
      Wordless storyWords a.raw) : a.WellFormed where
  key := hkey
  ne_nil := hraw.1
  stripped := hraw.2.1
  balanced := hbalanced
  whole := hraw.2.2.1
  storyFree := storyFree_of_wordless hraw.2.2.2 fun _ hword => hword
  reads := hreads

/-- One story is assigned to before it is declared, and one has a key assigned again. -/
def inputDraft : Draft where
  title := "Forms/Input (basic): [wide]".toList
  component := "Input".toList
  decorators := ["withTheme(dark, [1, 2])".toList, "(S) => S()".toList]
  lines := [
    .assigned "Small".toList [⟨"size".toList, "'s: small'".toList, .text "s: small".toList⟩],
    .plain "Small".toList,
    .typed "Basic".toList [⟨"rows".toList, "3".toList, .int 3⟩,
      ⟨"locked".toList, "true".toList, .bool true⟩],
    .plain "Empty".toList,
    .assigned "Basic".toList [⟨"size".toList, "m".toList, .text "m".toList⟩,
      ⟨"rows".toList, "-4".toList, .int (-4)⟩],
    .assigned "Other".toList [],
    .assigned "Small".toList [⟨"rows".toList, "1".toList, .int 1⟩]]

theorem balanced_theme : Balanced false "withTheme(dark, [1, 2])".toList := by
  have hcomma : Balanced true [','] := .plain rfl rfl rfl (by simp)
  have hlist : Balanced true ('[' :: (("1".toList ++ ([','] ++ " 2".toList)) ++ [']'])) :=
    .group (g := square) (by decide) (.append_of_not_slash (.of_plain (by decide)) (by decide)
      (.append_of_not_slash hcomma (by decide) (.of_plain (by decide))))
  have hinside := Balanced.append_of_not_slash hcomma (by decide)
    (.append_of_not_slash (.of_plain (s := [' ']) (by decide)) (by decide) hlist)
  have hsplit : "withTheme(dark, [1, 2])".toList = "withTheme".toList ++
      ('(' :: (("dark".toList ++ ([','] ++ ([' '] ++ ('[' :: (("1".toList ++
        ([','] ++ " 2".toList)) ++ [']']))))) ++ [')'])) := by decide +kernel
  rw [hsplit]
  exact .append_of_not_slash (.of_plain (by decide)) (by decide)
    (.group (g := round) (by decide)
      (.append_of_not_slash (.of_plain (by decide)) (by decide) hinside))

theorem balanced_wrapper : Balanced false "(S) => S()".toList := by
  have hsplit : "(S) => S()".toList =
      ('(' :: ("S".toList ++ [')'])) ++ (" => S".toList ++ ('(' :: ([] ++ [')']))) := by
    decide +kernel
  rw [hsplit]
  exact .append_of_not_slash (.group (g := round) (by decide) (.of_plain (by decide))) (by decide)
    (.append_of_not_slash (.of_plain (by decide)) (by decide)
      (.group (g := round) (by decide) .nil))

theorem wellFormed_inputLines : ∀ line ∈ inputDraft.lines, line.WellFormed := by
  have hsmall : IsName "Small".toList := ⟨by decide, by decide⟩
  have hbasic : IsName "Basic".toList := ⟨by decide, by decide⟩
  have hsize : IsName "size".toList := ⟨by decide, by decide⟩
  have hrows : IsName "rows".toList := ⟨by decide, by decide⟩
  have hquoted : (Argument.mk "size".toList "'s: small'".toList
      (.text "s: small".toList)).WellFormed := by
    have hbalanced : Balanced true ('\'' :: ("s: small".toList ++ ['\''])) :=
      .literal rfl (quoted_of_forall (by decide))
    exact Argument.wellFormed_of_wordless hsize hbalanced rfl (by decide)
  have hplain {key raw : Text} {value : Value} (hkey : IsName key)
      (hbalanced : ∀ c ∈ raw, isPlain c = true) (hreads : coerceValue raw = .ok value)
      (hraw : raw ≠ [] ∧ strip raw = raw ∧ (∀ c ∈ raw, endsEntry c = false) ∧
        Wordless storyWords raw) : (Argument.mk key raw value).WellFormed :=
    Argument.wellFormed_of_wordless hkey (.of_plain hbalanced) hreads hraw
  refine List.forall_mem_cons.mpr ⟨⟨hsmall, ?_⟩, List.forall_mem_cons.mpr ⟨hsmall,
    List.forall_mem_cons.mpr ⟨⟨hbasic, ?_⟩, List.forall_mem_cons.mpr ⟨⟨by decide, by decide⟩,
    List.forall_mem_cons.mpr ⟨⟨hbasic, ?_⟩, List.forall_mem_cons.mpr
    ⟨⟨⟨by decide, by decide⟩, by simp⟩, List.forall_mem_singleton.mpr ⟨hsmall, ?_⟩⟩⟩⟩⟩⟩⟩
  · exact List.forall_mem_singleton.mpr hquoted
  · exact List.forall_mem_cons.mpr ⟨⟨hplain hrows (by decide) rfl (by decide), by decide⟩,
      List.forall_mem_singleton.mpr ⟨hplain ⟨by decide, by decide⟩ (by decide) rfl (by decide),
        by decide⟩⟩
  · exact List.forall_mem_cons.mpr ⟨hplain hsize (by decide) rfl (by decide),
      List.forall_mem_singleton.mpr (hplain hrows (by decide) rfl (by decide))⟩
  · exact List.forall_mem_singleton.mpr (hplain hrows (by decide) rfl (by decide))

theorem wellFormed_inputDraft : inputDraft.WellFormed where
  title := isTitle_of_wordless (by decide +kernel) (by decide +kernel)
  component := ⟨by decide, by decide⟩
  decorators := List.forall_mem_cons.mpr
    ⟨isDecorator_of_wordless balanced_theme (by decide +kernel) (by decide +kernel),
      List.forall_mem_singleton.mpr
        (isDecorator_of_wordless balanced_wrapper (by decide +kernel) (by decide +kernel))⟩
  untitled := fun hempty => absurd hempty (by decide)
  lines := wellFormed_inputLines
  distinct := by decide

/-- The stories of the input are read back, and a decimal. -/
theorem fileOf_inputDraft : inputDraft.WellFormed ∧
    (∃ file, fileOf "Input".toList inputDraft.source = .ok file ∧
      inputDraft.ReadAs "Input".toList file) ∧
    coerceValue "-12.5".toList = .ok (.float (Number.ofDecimal true 125 (-1))) := by
  have hspells : Spells "-12.5".toList (.float (Number.ofDecimal true 125 (-1))) :=
    .decimal true "12".toList "5".toList (by decide) (by decide)
  exact ⟨wellFormed_inputDraft, fileOf_source.1 inputDraft wellFormed_inputDraft "Input".toList,
    fileOf_source.2 _ _ hspells (by decide)⟩

/-- The draft has a component and distinct names, and is not read back. -/
def Misread (d : Draft) : Prop :=
  IsName d.component ∧ (∀ name ∈ declaredNames d.lines, IsName name) ∧
    (declaredNames d.lines).Nodup ∧
    ¬∃ file, fileOf d.component d.source = .ok file ∧ d.ReadAs d.component file

/-- A title with marks of a string, which end it. -/
def markedTitle : Draft := ⟨"Say \"hi\"".toList, "Input".toList, [], []⟩

/-- A title that looks like the component. -/
def keyedTitle : Draft := ⟨"component: Other".toList, "Input".toList, [], []⟩

/-- A decorator with an object under a key of the default export. -/
def keyedDecorator : Draft :=
  ⟨"Input".toList, "Input".toList, ["withTheme(\x7b parameters: \x7b mode: 1 \x7d \x7d)".toList], []⟩

/-- A string with a comma, which ends the value. -/
def partedValue : Draft :=
  ⟨"Input".toList, "Input".toList, [], [.plain "Basic".toList,
    .assigned "Basic".toList [⟨"label".toList, "'to, from: x'".toList, .text "to, from: x".toList⟩]]⟩

/-- A string with a semicolon, which ends the declaration. -/
def endedValue : Draft :=
  ⟨"Input".toList, "Input".toList, [],
    [.typed "Basic".toList [⟨"label".toList, "'a;b'".toList, .text "a;b".toList⟩]]⟩

/-- A string that looks like a declaration, which takes the place of the real one. -/
def declaringValue : Draft :=
  ⟨"Input".toList, "Input".toList, [], [.plain "Basic".toList,
    .assigned "Basic".toList [⟨"code".toList, "'export const Basic: Story = 1'".toList,
      .text "export const Basic: Story = 1".toList⟩]]⟩

/-- Two readings of one source agree in every feature. -/
theorem misread_of_feature {β : Type} {d : Draft} (feature : StoryFile → β) {expected : β}
    (hname : IsName d.component) (hnames : ∀ name ∈ declaredNames d.lines, IsName name)
    (hdistinct : (declaredNames d.lines).Nodup)
    (hread : ∀ file, d.ReadAs d.component file → feature file = expected)
    (hfound : (fileOf d.component d.source).toOption.map feature ≠ some expected) : Misread d := by
  refine ⟨hname, hnames, hdistinct, ?_⟩
  rintro ⟨file, hfile, hreadAs⟩
  rw [hfile] at hfound
  exact hfound (congrArg some (hread file hreadAs))

/-- The sources of the stories with the keys of their arguments. -/
def outline (file : StoryFile) : List (Text × Option (List Text)) :=
  file.settings.stories.map fun s => (s.source, s.args.map Entries.keys)

theorem Draft.ReadAs.outline_eq {d : Draft} {name : Text} {file : StoryFile}
    (h : d.ReadAs name file) :
    outline file = d.stories.map fun s => (s.2.1, s.2.2.map Entries.keys) := by
  rw [← h.stories, List.map_map]
  rfl

/-- Marks, keys, commas, semicolons and declarations are not told from those that a text holds. -/
theorem drafts_misread : Misread markedTitle ∧ Misread keyedTitle ∧ Misread keyedDecorator ∧
    Misread partedValue ∧ Misread endedValue ∧ Misread declaringValue := by
  have hnone : ∀ name ∈ declaredNames [], IsName name := by simp [declaredNames]
  have hname : IsName "Input".toList := ⟨by decide, by decide⟩
  have hbasic : IsName "Basic".toList := ⟨by decide, by decide⟩
  refine ⟨?_, ?_, ?_, ?_, ?_, ?_⟩
  · exact misread_of_feature (·.settings.title) hname hnone (by decide) (fun _ h => h.title)
      (by decide +kernel)
  · exact misread_of_feature (·.settings.component) hname hnone (by decide)
      (fun _ h => h.component) (by decide +kernel)
  · exact misread_of_feature (·.settings.parameters.isSome) hname hnone (by decide)
      (fun _ h => congrArg Option.isSome h.parameters) (by decide +kernel)
  · exact misread_of_feature outline hname (List.forall_mem_singleton.mpr hbasic) (by decide)
      (fun _ h => h.outline_eq) (by decide +kernel)
  · exact misread_of_feature outline hname (List.forall_mem_singleton.mpr hbasic) (by decide)
      (fun _ h => h.outline_eq) (by decide +kernel)
  · exact misread_of_feature outline hname (List.forall_mem_singleton.mpr hbasic) (by decide)
      (fun _ h => h.outline_eq) (by decide +kernel)

end ComponentCatalog.Story
