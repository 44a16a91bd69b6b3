import ComponentCatalog.Component.Property
import ComponentCatalog.Proofs.Parts

/-!
The interface that is chosen for a component, against the declarations from which its properties are
read. It is chosen by a search for a keyword, one space and the name; a declaration may have other
blanks there and ends with the name. The two agree where the first candidate that either of them
finds is found by both.
-/
namespace ComponentCatalog

namespace Text

variable {α : Type}

/-- A scan finds nothing exactly if the shape is recognised nowhere. -/
theorem hitsFrom_eq_nil_iff {shape : Shape α} {offset : Nat} {previous : Option Char} {s : Text} :
    hitsFrom shape 0 offset previous s = [] ↔ ∀ before c rest, s = before ++ c :: rest →
      shape ⟨offset + before.length, lastOf previous before, c :: rest⟩ = none := by
  induction s generalizing offset previous with
  | nil => simp [hitsFrom]
  | cons d s ih =>
    have hshift (before : Text) : offset + 1 + before.length = offset + (d :: before).length := by
      rw [List.length_cons]
      omega
    rw [hitsFrom]
    constructor
    · intro h before c rest hs
      cases hhere : shape ⟨offset, previous, d :: s⟩ with
      | some found => simp [hhere] at h
      | none =>
        simp only [hhere] at h
        cases before with
        | nil =>
          obtain ⟨rfl, rfl⟩ := List.cons.inj hs
          exact hhere
        | cons d' before =>
          obtain ⟨rfl, htail⟩ := List.cons.inj hs
          have hlater := ih.mp h before c rest htail
          rwa [hshift] at hlater
    · intro h
      have hhere : shape ⟨offset, previous, d :: s⟩ = none := h [] d s rfl
      simp only [hhere]
      refine ih.mpr fun before c rest hs => ?_
      rw [hshift]
      exact h (d :: before) c rest (congrArg (d :: ·) hs)

/-- Two searches of one list agree exactly if what either of them finds first, both find. -/
theorem find?_eq_find?_iff {p q : α → Bool} {items : List α} :
    items.find? p = items.find? q ↔ ∀ before a after, items = before ++ a :: after →
      (∀ b ∈ before, p b = false ∧ q b = false) → (p a = true ↔ q a = true) := by
  constructor
  · rintro h before a after rfl hbefore
    have hp : before.find? p = none :=
      List.find?_eq_none.mpr fun b hb => Bool.eq_false_iff.mp (hbefore b hb).1
    have hq : before.find? q = none :=
      List.find?_eq_none.mpr fun b hb => Bool.eq_false_iff.mp (hbefore b hb).2
    rw [List.find?_append, List.find?_append, hp, hq, Option.none_or, Option.none_or] at h
    constructor
    · intro ha
      rw [List.find?_cons_of_pos ha] at h
      exact List.find?_some h.symm
    · intro ha
      rw [List.find?_cons_of_pos ha] at h
      exact List.find?_some h
  · intro h
    induction items with
    | nil => rfl
    | cons a items ih =>
      have ha := h [] a items rfl (List.forall_mem_nil _)
      by_cases hp : p a = true
      · rw [List.find?_cons_of_pos hp, List.find?_cons_of_pos (ha.mp hp)]
      · have hq : ¬q a = true := mt ha.mpr hp
        rw [List.find?_cons_of_neg hp, List.find?_cons_of_neg hq]
        refine ih fun before b after hsplit hbefore => ?_
        refine h (a :: before) b after (congrArg (a :: ·) hsplit) ?_
        exact List.forall_mem_cons.mpr
          ⟨⟨Bool.eq_false_iff.mpr hp, Bool.eq_false_iff.mpr hq⟩, hbefore⟩

end Text

namespace Component

open Text Code

/-- The words with which the declaration of a type begins. -/
def typeKeywords : List Text := ["type".toList, "interface".toList]

theorem mem_typeKeywords {keyword : Text} :
    keyword ∈ typeKeywords ↔ keyword = "type".toList ∨ keyword = "interface".toList := by
  simp [typeKeywords]

/-- Somewhere in the source stand a keyword, the gap and the name, and then the rest. -/
def Announces (gap name rest code : Text) : Prop :=
  ∃ before keyword, keyword ∈ typeKeywords ∧ code = before ++ (keyword ++ (gap ++ (name ++ rest)))

/-- The name follows a keyword and one space, whatever follows the name. -/
def Mentioned (name code : Text) : Prop := ∃ rest, Announces [' '] name rest code

/-- The name follows a keyword and blanks, and ends there. -/
def Declared (name code : Text) : Prop :=
  ∃ gap rest, gap ≠ [] ∧ (∀ c ∈ gap, isBlank c = true) ∧ rest.head?.any isWord = false ∧
    Announces gap name rest code

/-- The probe for a candidate. -/
def isMentioned (code name : Text) : Bool :=
  contains ("type ".toList ++ name) code || contains ("interface ".toList ++ name) code

/-- The declaration matcher recognises the name somewhere. -/
def isDeclared (code name : Text) : Bool := followers (declarationMarker name) code ≠ []

/-- The first candidate whose declaration is found. -/
def declaredInterface? (code component : Text) : Option Text :=
  (interfaceNames component).find? (isDeclared code)

variable {name code component : Text}

theorem interfaceOf?_eq_find? (code component : Text) :
    interfaceOf? code component = (interfaceNames component).find? (isMentioned code) := rfl

theorem isMentioned_iff : isMentioned code name = true ↔ Mentioned name code := by
  rw [isMentioned, Bool.or_eq_true, contains_iff, contains_iff]
  unfold Mentioned Announces
  constructor
  · rintro (⟨before, rest, rfl⟩ | ⟨before, rest, rfl⟩)
    · exact ⟨rest, before, "type".toList, by simp [typeKeywords], by simp⟩
    · exact ⟨rest, before, "interface".toList, by simp [typeKeywords], by simp⟩
  · rintro ⟨rest, before, keyword, hkeyword, rfl⟩
    rcases mem_typeKeywords.mp hkeyword with rfl | rfl
    · exact .inl ⟨before, rest, by simp⟩
    · exact .inr ⟨before, rest, by simp⟩

/-- Every candidate ends in a letter of its own, whatever the name of the component is. -/
theorem getLast?_of_mem_interfaceNames (h : name ∈ interfaceNames component) :
    name.getLast?.any isWord = true := by
  simp only [interfaceNames, List.mem_cons, List.not_mem_nil, or_false] at h
  rcases h with rfl | rfl | rfl | rfl
  · rw [List.getLast?_append]
    rfl
  · rw [List.getLast?_append]
    rfl
  · rw [List.getLast?_append]
    rfl
  · rfl

section Marker

variable (hlast : name.getLast?.any isWord = true)

include hlast

theorem declarationMarker_isSome {keyword gap rest : Text} (hkeyword : keyword ∈ typeKeywords)
    (hne : gap ≠ []) (hgap : ∀ c ∈ gap, isBlank c = true) (hrest : rest.head?.any isWord = false)
    (offset : Nat) (previous : Option Char) :
    (declarationMarker name ⟨offset, previous, keyword ++ (gap ++ (name ++ rest))⟩).isSome =
      true := by
  obtain ⟨b, gap, rfl⟩ := List.exists_cons_of_ne_nil hne
  obtain ⟨hb, hgap⟩ := List.forall_mem_cons.mp hgap
  have hlead : afterAny? ["type".toList, "interface".toList]
      (keyword ++ (b :: gap ++ (name ++ rest))) = some (b :: gap ++ (name ++ rest)) := by
    rcases mem_typeKeywords.mp hkeyword with rfl | rfl <;> rfl
  have hone : one? isBlank (b :: gap ++ (name ++ rest)) = some (b, gap ++ (name ++ rest)) :=
    one?_eq_some.mpr ⟨rfl, hb⟩
  have hname : afterName? name (name ++ rest) = some rest :=
    (afterName?_eq_some_of_getLast? hlast).mpr ⟨rfl, hrest⟩
  obtain ⟨after, hafter⟩ := Option.isSome_iff_exists.mp
    (isSome_afterMost (k := afterName? name) hgap (Option.isSome_of_eq_some hname))
  simp only [declarationMarker, hlead, hone, hafter, Option.bind_eq_bind, Option.bind_some]
  rfl

theorem exists_of_declarationMarker {at_ : Cursor} {found : Text}
    (h : declarationMarker name at_ = some found) :
    ∃ keyword gap rest, keyword ∈ typeKeywords ∧ gap ≠ [] ∧ (∀ c ∈ gap, isBlank c = true) ∧
      rest.head?.any isWord = false ∧ at_.rest = keyword ++ (gap ++ (name ++ rest)) := by
  simp only [declarationMarker, Option.bind_eq_bind, Option.bind_eq_some_iff] at h
  obtain ⟨behind, hkeyword, ⟨b, behind'⟩, hblank, rest, hafter, -⟩ := h
  obtain ⟨keyword, hmem, hlead⟩ := List.exists_of_findSome?_eq_some hkeyword
  obtain ⟨rfl, hb⟩ := one?_eq_some.mp hblank
  obtain ⟨gap, tail, hgap, rfl, hname⟩ := exists_of_afterMost hafter
  obtain ⟨rfl, hrest⟩ := (afterName?_eq_some_of_getLast? hlast).mp hname
  refine ⟨keyword, b :: gap, rest, hmem, List.cons_ne_nil _ _,
    List.forall_mem_cons.mpr ⟨hb, hgap⟩, hrest, ?_⟩
  rw [after?_eq_some.mp hlead, List.cons_append]

/-- The declaration matcher finds what is declared. -/
theorem isDeclared_iff : isDeclared code name = true ↔ Declared name code := by
  unfold isDeclared followers hits
  rw [decide_eq_true_iff, Ne, hitsFrom_eq_nil_iff]
  constructor
  · intro h
    simp only [not_forall, Option.map_eq_none_iff] at h
    obtain ⟨before, c, rest, rfl, hfound⟩ := h
    obtain ⟨found, hfound⟩ := Option.ne_none_iff_exists'.mp hfound
    obtain ⟨keyword, gap, rest', hkeyword, hne, hgap, hrest, hsplit⟩ :=
      exists_of_declarationMarker hlast hfound
    exact ⟨gap, rest', hne, hgap, hrest, before, keyword, hkeyword, by rw [← hsplit]⟩
  · rintro ⟨gap, rest, hne, hgap, hrest, before, keyword, hkeyword, rfl⟩ h
    have hfound := declarationMarker_isSome hlast hkeyword hne hgap hrest
    obtain ⟨c, tail, hsplit⟩ : ∃ c tail, keyword ++ (gap ++ (name ++ rest)) = c :: tail := by
      apply List.exists_cons_of_ne_nil
      simp [hne]
    have hnone := h before c tail (congrArg (before ++ ·) hsplit)
    rw [Option.map_eq_none_iff, ← hsplit] at hnone
    have hsome := hfound (0 + before.length) (lastOf none before)
    rw [hnone] at hsome
    cases hsome

/-- No properties are read from an interface that is not declared. -/
theorem declaredProperties_of_not_declared (h : ¬Declared name code) :
    declaredProperties code name = [] := by
  have hnone : followers (declarationMarker name) code = [] := by
    by_contra hne
    exact h ((isDeclared_iff hlast).mp (decide_eq_true hne))
  have hblock : blockAfter? curly (declarationMarker name) code = none := by
    rw [blockAfter?, hnone]
    rfl
  rw [declaredProperties, hblock]

end Marker

theorem mem_interfaceNames_of_interfaceOf? (h : interfaceOf? code component = some name) :
    name ∈ interfaceNames component := List.mem_of_find?_eq_some h

theorem propertiesOf_of_not_declared (h : interfaceOf? code component = some name)
    (hnot : ¬Declared name code) : propertiesOf code component = [] := by
  have hlast := getLast?_of_mem_interfaceNames (mem_interfaceNames_of_interfaceOf? h)
  rw [propertiesOf, h]
  dsimp only
  rw [declaredProperties_of_not_declared hlast hnot, List.map_nil]

/-- What is mentioned and not declared goes on with a word character wherever it is mentioned. -/
theorem Announces.goes_on {rest : Text} (h : Announces [' '] name rest code)
    (hnot : ¬Declared name code) : rest.head?.any isWord = true := by
  by_contra hends
  exact hnot ⟨[' '], rest, by simp, by decide, Bool.eq_false_iff.mpr hends, h⟩

theorem interfaceOf?_eq_iff :
    interfaceOf? code component = declaredInterface? code component ↔
      ∀ before name after, interfaceNames component = before ++ name :: after →
        (∀ earlier ∈ before, ¬Mentioned earlier code ∧ ¬Declared earlier code) →
          (Mentioned name code ↔ Declared name code) := by
  have hdeclared : ∀ name ∈ interfaceNames component,
      (isDeclared code name = true ↔ Declared name code) :=
    fun name hname => isDeclared_iff (getLast?_of_mem_interfaceNames hname)
  rw [interfaceOf?_eq_find?, declaredInterface?, find?_eq_find?_iff]
  refine forall_congr' fun before => forall_congr' fun name => forall_congr' fun after =>
    forall_congr' fun hsplit => ?_
  have hname : name ∈ interfaceNames component := hsplit ▸ by simp
  rw [isMentioned_iff, hdeclared name hname]
  refine imp_congr_left (forall₂_congr fun earlier h => ?_)
  have hearlier : earlier ∈ interfaceNames component := hsplit ▸ List.mem_append_left _ h
  rw [← isMentioned_iff, ← hdeclared earlier hearlier, Bool.not_eq_true, Bool.not_eq_true]

/-- A declared candidate is missed, or an earlier one that is not declared hides it. -/
theorem missed_or_hidden (h : declaredInterface? code component = some name)
    (hne : interfaceOf? code component ≠ some name) :
    ¬Mentioned name code ∨
      ∃ earlier, interfaceOf? code component = some earlier ∧ ¬Declared earlier code := by
  by_cases hmentioned : Mentioned name code
  · right
    obtain ⟨-, before, after, hsplit, hbefore⟩ := List.find?_eq_some_iff_append.mp h
    have hstop := isMentioned_iff.mpr hmentioned
    rw [interfaceOf?_eq_find?, hsplit, List.find?_append, List.find?_cons_of_pos hstop] at hne ⊢
    -- The search stops before the declared candidate, for it does not stop at it.
    cases hfind : before.find? (isMentioned code) with
    | none =>
      rw [hfind] at hne
      exact absurd rfl hne
    | some earlier =>
      have hmem : earlier ∈ before := List.mem_of_find?_eq_some hfind
      have hcandidate : earlier ∈ interfaceNames component :=
        hsplit ▸ List.mem_append_left _ hmem
      have hnot := hbefore earlier hmem
      rw [Bool.not_eq_true'] at hnot
      refine ⟨earlier, rfl, ?_⟩
      rw [← isDeclared_iff (getLast?_of_mem_interfaceNames hcandidate), hnot]
      exact Bool.false_ne_true
  · exact .inl hmentioned

/-- The interface that is chosen is the first declared candidate exactly if the first candidate that
is mentioned or declared is both. Otherwise a chosen name that is not declared only begins longer
names, and no properties are given for it; and a declared candidate that is not chosen has other
blanks before it than one space, or an earlier one that is not declared hides it. -/
theorem interface_against_declarations (code component : Text) :
    (interfaceOf? code component = declaredInterface? code component ↔
      ∀ before name after, interfaceNames component = before ++ name :: after →
        (∀ earlier ∈ before, ¬Mentioned earlier code ∧ ¬Declared earlier code) →
          (Mentioned name code ↔ Declared name code)) ∧
    (∀ name, interfaceOf? code component = some name → ¬Declared name code →
      (∀ rest, Announces [' '] name rest code → rest.head?.any isWord = true) ∧
        propertiesOf code component = []) ∧
    ∀ name, declaredInterface? code component = some name →
      interfaceOf? code component ≠ some name →
        ¬Mentioned name code ∨
          ∃ earlier, interfaceOf? code component = some earlier ∧ ¬Declared earlier code :=
  ⟨interfaceOf?_eq_iff,
    fun _ h hnot => ⟨fun _ hannounced => hannounced.goes_on hnot,
      propertiesOf_of_not_declared h hnot⟩,
    fun _ => missed_or_hidden⟩

/-- The first candidate only begins another name, and the second is declared. -/
def extendedName : Text :=
  "interface ButtonPropsBase \x7b a: string \x7d\ninterface IButtonProps \x7b b: string \x7d".toList

/-- Two spaces stand before the only candidate. -/
def spacedName : Text := "export interface  ButtonProps \x7b a: string \x7d".toList

/-- The undeclared name hides the declared one, and no properties are given; and the name behind two
spaces is not found. -/
theorem interface_misses_declarations :
    interfaceOf? extendedName "Button".toList = some "ButtonProps".toList ∧
      declaredInterface? extendedName "Button".toList = some "IButtonProps".toList ∧
      propertiesOf extendedName "Button".toList = [] ∧
      interfaceOf? spacedName "Button".toList = none ∧
      declaredInterface? spacedName "Button".toList = some "ButtonProps".toList ∧
      ¬Mentioned "ButtonProps".toList spacedName := by
  have hchosen : interfaceOf? extendedName "Button".toList = some "ButtonProps".toList := by
    decide +kernel
  have hnot : ¬Declared "ButtonProps".toList extendedName := by
    rw [← isDeclared_iff rfl]
    decide +kernel
  have hnone : interfaceOf? spacedName "Button".toList = none := by decide +kernel
  have hspaced : declaredInterface? spacedName "Button".toList = some "ButtonProps".toList := by
    decide +kernel
  obtain ⟨-, hextended, -⟩ := interface_against_declarations extendedName "Button".toList
  obtain ⟨-, -, hmissed⟩ := interface_against_declarations spacedName "Button".toList
  refine ⟨hchosen, by decide +kernel, (hextended _ hchosen hnot).2, hnone, hspaced, ?_⟩
  have hne : interfaceOf? spacedName "Button".toList ≠ some "ButtonProps".toList := by
    rw [hnone]
    exact (Option.some_ne_none _).symm
  rcases hmissed _ hspaced hne with h | ⟨earlier, hearlier, -⟩
  · exact h
  · rw [hnone] at hearlier
    cases hearlier

end Component

end ComponentCatalog
