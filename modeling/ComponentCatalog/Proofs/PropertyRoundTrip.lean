import ComponentCatalog.Component.Basic
import ComponentCatalog.Proofs.PropertyDefaults

/-!
The properties of a component are read back from the source that declares and destructures them:
the fields give all but the defaults, and the parameter of the component gives those.
-/
namespace ComponentCatalog.Component

open Text Code

theorem interfaceOf?_propertySource (component : Text) (properties : List Property) :
    interfaceOf? (propertySource component properties) component =
      some (component ++ "Props".toList) := by
  have hcontains : contains ("interface ".toList ++ (component ++ "Props".toList))
      (propertySource component properties) = true := by
    have hfound := contains_append ("interface ".toList ++ (component ++ "Props".toList))
      "export ".toList (" \x7b\n".toList ++ (properties.flatMap Property.block ++
        '\x7d' :: '\n' ::
          ("export const ".toList ++ (component ++ parameter component properties))))
    rw [List.append_assoc] at hfound
    exact hfound
  rw [interfaceOf?, interfaceNames, List.find?_cons_of_pos]
  rw [hcontains, Bool.or_true]

theorem isExpression_of_plains {role : Role} {s : Text} (hne : s ≠ []) (hstrip : strip s = s)
    (hs : ∀ c ∈ s, c ∉ role.marks ∧ c ∉ role.separators) : IsExpression role s where
  nonempty := hne
  stripped := hstrip
  expression := by
    have h : Expression role false (s ++ []) :=
      .plains (fun c hc => ⟨(hs c hc).1, fun _ => (hs c hc).2⟩) .nil
    rwa [List.append_nil] at h

/-- A size with a default in braces, and a function without one. -/
def boxProperties : List Property :=
  [⟨"size".toList, "\x7b w: number; h: number \x7d".toList, false, some "The size.".toList,
      some "\x7b w: 1, h: 2 \x7d".toList⟩,
    ⟨"onPick".toList, "(id: string, n?: number) => void".toList, true, none, none⟩]

theorem wellFormed_box : ∀ p ∈ boxProperties, p.WellFormed := by
  have hsize : Expression .type false
      ('\x7b' :: ((" w: number; h: number ".toList ++ []) ++ '\x7d' :: [])) :=
    .group (by decide) (.plains (by decide) .nil) .nil
  have hdefault : Expression .default false
      ('\x7b' :: ((" w: 1, h: 2 ".toList ++ []) ++ '\x7d' :: [])) :=
    .group (by decide) (.plains (by decide) .nil) .nil
  have hpick : Expression .type false ('(' :: (("id: string, n?: number".toList ++ []) ++
      ')' :: ([' '] ++ '=' :: '>' :: (" void".toList ++ [])))) :=
    .group (by decide) (.plains (by decide) .nil)
      (.plains (by decide) (.arrow (.plains (by decide) .nil)))
  intro p hp
  simp only [boxProperties, List.mem_cons, List.not_mem_nil, or_false] at hp
  rcases hp with rfl | rfl
  · refine ⟨⟨by decide, by decide⟩, ⟨by decide, by decide, hsize⟩, ?_, ?_⟩
    · rintro d ⟨⟩
      exact ⟨by decide, by decide, hdefault⟩
    · rintro d ⟨⟩
      decide
  · refine ⟨⟨by decide, by decide⟩, ⟨by decide, by decide, hpick⟩, ?_, ?_⟩
    · rintro d ⟨⟩
    · rintro d ⟨⟩

/-- A component has the properties that its source was written for, in their order, if their
descriptions hold no mark of a comment and nothing before the component looks like its
declaration. -/
theorem properties_of_propertySource {component : Text} {properties : List Property}
    (hcomponent : IsName component) (hdistinct : (properties.map Property.name).Nodup)
    (h : ∀ p ∈ properties, p.WellFormed ∧ p.Unmarked ∧ p.Unmentioned component) :
    (Component.ofSource component (propertySource component properties)).properties =
      properties := by
  have hunmarked : ∀ p ∈ properties, p.WellFormed ∧ p.Unmarked := fun p hp =>
    ⟨(h p hp).1, (h p hp).2.1⟩
  have hunmentioned : ∀ p ∈ properties, p.WellFormed ∧ p.Unmentioned component := fun p hp =>
    ⟨(h p hp).1, (h p hp).2.2⟩
  have hproperties :
      (Component.ofSource component (propertySource component properties)).properties =
        propertiesOf (propertySource component properties) component := rfl
  have hback : ∀ p ∈ properties,
      p.declared.withDefault (Entries.ofPairs (defaultsOf properties)) = p := fun p hp =>
    withDefault_declared hdistinct hp
  rw [hproperties, propertiesOf, interfaceOf?_propertySource]
  dsimp only
  rw [declaredProperties_propertySource hunmarked hcomponent,
    defaultValues_propertySource hcomponent hunmentioned, List.map_map]
  exact (List.map_congr_left hback).trans (List.map_id _)

/-- The properties of the box are read back, with the braces and the arrow in their types. -/
theorem properties_of_box :
    (∀ p ∈ boxProperties, p.WellFormed ∧ p.Unmarked ∧ p.Unmentioned "Box".toList) ∧
      (Component.ofSource "Box".toList (propertySource "Box".toList boxProperties)).properties =
        boxProperties := by
  have h : ∀ p ∈ boxProperties, p.WellFormed ∧ p.Unmarked ∧ p.Unmentioned "Box".toList := by
    intro p hp
    refine ⟨wellFormed_box p hp, ?_⟩
    simp only [boxProperties, List.mem_cons, List.not_mem_nil, or_false] at hp
    rcases hp with rfl | rfl
    · refine ⟨?_, not_mentions_of_contains (by decide) (by decide), ?_⟩
      · rintro d ⟨⟩
        exact ⟨by decide, not_infix_of_contains (by decide)⟩
      · rintro d ⟨⟩
        exact not_mentions_of_contains (by decide) (by decide)
    · refine ⟨?_, not_mentions_of_contains (by decide) (by decide), ?_⟩
      · rintro d ⟨⟩
      · rintro d ⟨⟩
  exact ⟨h, properties_of_propertySource ⟨by decide, by decide⟩ (by decide) h⟩

/-- A literal that looks like the declaration of the component `Button`, before an arrow. -/
def buttonProperties : List Property :=
  [⟨"a".toList, "'const Button'".toList, false, none, some "1".toList⟩,
    ⟨"b".toList, "() => void".toList, true, none, none⟩]

/-- A description with an asterisk. -/
def frameProperties : List Property :=
  [⟨"size".toList, "number".toList, true, some "Width * height".toList, none⟩]

/-- Well-formed properties alone are not read back: of these the default of `a` is lost, and the
asterisk of the description. -/
theorem properties_not_read_back :
    (IsName "Button".toList ∧ (∀ p ∈ buttonProperties, p.WellFormed) ∧
      (buttonProperties.map Property.name).Nodup ∧
      (Component.ofSource "Button".toList
        (propertySource "Button".toList buttonProperties)).properties ≠ buttonProperties) ∧
    (IsName "Frame".toList ∧ (∀ p ∈ frameProperties, p.WellFormed) ∧
      (frameProperties.map Property.name).Nodup ∧
      (Component.ofSource "Frame".toList
        (propertySource "Frame".toList frameProperties)).properties ≠ frameProperties) := by
  have hliteral : Expression .type false ('\'' :: ("const Button".toList ++ '\'' :: [])) :=
    .literal rfl (by decide) .nil
  have harrow : Expression .type false
      ('(' :: ([] ++ ')' :: ([' '] ++ '=' :: '>' :: (" void".toList ++ [])))) :=
    .group (by decide) .nil (.plains (by decide) (.arrow (.plains (by decide) .nil)))
  refine ⟨⟨⟨by decide, by decide⟩, ?_, by decide, by decide +kernel⟩,
    ⟨⟨by decide, by decide⟩, ?_, by decide, by decide +kernel⟩⟩
  · intro p hp
    simp only [buttonProperties, List.mem_cons, List.not_mem_nil, or_false] at hp
    rcases hp with rfl | rfl
    · refine ⟨⟨by decide, by decide⟩, ⟨by decide, by decide, hliteral⟩, ?_, ?_⟩
      · rintro d ⟨⟩
        exact isExpression_of_plains (by decide) (by decide) (by decide)
      · rintro d ⟨⟩
    · refine ⟨⟨by decide, by decide⟩, ⟨by decide, by decide, harrow⟩, ?_, ?_⟩
      · rintro d ⟨⟩
      · rintro d ⟨⟩
  · intro p hp
    obtain rfl := List.mem_singleton.mp hp
    refine ⟨⟨by decide, by decide⟩,
      isExpression_of_plains (by decide) (by decide) (by decide), ?_, ?_⟩
    · rintro d ⟨⟩
    · rintro d ⟨⟩
      decide

end ComponentCatalog.Component
