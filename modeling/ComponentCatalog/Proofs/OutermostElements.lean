import Mathlib.Data.List.Basic
import ComponentCatalog.Document.Example
import ComponentCatalog.Proofs.Places
import ComponentCatalog.Proofs.Tags

/-!
The elements of a text are its outermost balanced ones: each runs from an opening tag to where the
tags of its name balance, they stand apart and from left to right, and no opening tag outside them
balances anywhere.
-/
namespace ComponentCatalog.Document

open Text

/-- The tag name of an element and the places where it begins and ends. -/
structure ElementSpan where
  name : Text
  first : Nat
  last : Nat
  deriving DecidableEq

/-- The text of the element. -/
def ElementSpan.text (s : Text) (span : ElementSpan) : Text := slice s span.first span.last

/-- The element that is found at a place, if it is no stepped-over tag. -/
def spanOf? (hit : Hit (Option (Text × Text))) : Option ElementSpan :=
  hit.value.map fun (name, _) => ⟨name, hit.first, hit.first + hit.length⟩

/-- Where the elements of a text stand. -/
def elementSpans (s : Text) : List ElementSpan := (places elementShape s).filterMap spanOf?

/-- The spans are those of the outermost balanced elements of the text. A tag that begins inside a
self-closing tag ends with it and so closes itself too: what is stepped over leaves out no opening
tag. -/
structure Outermost (s : Text) (spans : List ElementSpan) : Prop where
  apart : spans.Pairwise fun x y => x.last ≤ y.first
  inside : ∀ x ∈ spans, x.first < x.last ∧ x.last ≤ s.length
  opened : ∀ x ∈ spans, ∃ tag : Tag, tag.Opens ∧ tag.name = x.name ∧ tag.text <+: s.drop x.first
  balanced : ∀ x ∈ spans, Balances x.name s x.first x.last
  complete : ∀ (tag : Tag) (i : Nat), tag.Opens → tag.text <+: s.drop i →
    (∀ x ∈ spans, ¬(x.first ≤ i ∧ i < x.last)) → ∀ last, ¬Balances tag.name s i last

section Shape

variable {tag : Tag} {offset : Nat} {previous : Option Char} {rest : Text} {at_ : Cursor}

theorem elementShape_of_selfCloses (hopen : tag.closes = false) (h : tag.SelfCloses) :
    elementShape ⟨offset, previous, tag.text ++ rest⟩ = some (none, tag.text.length) := by
  have hself : isSelfClosing tag.inside = true := tag.isSelfClosing_inside.mpr h
  simp [elementShape, Tag.openName?_text hopen, tag.cutTag?_text, tag.length_text, hself]

theorem elementShape_of_opens (h : tag.Opens) :
    elementShape ⟨offset, previous, tag.text ++ rest⟩ =
      match matchingClose? tag.name rest with
      | none => some (none, 1)
      | some tail => some (some (tag.name, (tag.text ++ rest).take (tag.text.length + tail)),
          tag.text.length + tail) := by
  have hself : ¬isSelfClosing tag.inside = true := fun hself =>
    h.2 (tag.isSelfClosing_inside.mp hself)
  simp only [elementShape, Tag.openName?_text h.1, tag.cutTag?_text, Option.bind_eq_bind,
    Option.bind_some, if_neg hself, ← tag.length_text]
  rfl

/-- The shape finds something at an opening or a self-closing tag only. -/
theorem exists_tag_of_elementShape {found : Option (Text × Text) × Nat}
    (h : elementShape at_ = some found) :
    ∃ (tag : Tag) (rest : Text), tag.closes = false ∧ at_.rest = tag.text ++ rest := by
  simp only [elementShape, Option.bind_eq_bind, Option.bind_eq_some_iff] at h
  obtain ⟨name, hname, ⟨inside, rest⟩, hcut, -⟩ := h
  simp only [openName?, Option.bind_eq_bind, Option.bind_eq_some_iff] at hname
  obtain ⟨named, hmark, ⟨name, after⟩, hword, -⟩ := hname
  obtain ⟨hnamed, hchars⟩ := run?_eq_some (p := isWord) hword
  obtain ⟨hne, hends⟩ := run?_ends (p := isWord) hword
  have hrest : at_.rest = '<' :: ((if false then ['/'] else []) ++ (name ++ after)) := by
    rw [after?_eq_some.mp hmark, hnamed]
    rfl
  obtain ⟨tag, hopen, -, -, htag⟩ := exists_tag hne hchars hends hrest hcut
  exact ⟨tag, rest, hopen, htag⟩

/-- An opening tag is told by the text. -/
theorem Tag.eq_of_text_append {tag' : Tag} {rest' : Text} (hopen : tag.closes = false)
    (hopen' : tag'.closes = false) (h : tag.text ++ rest = tag'.text ++ rest') :
    tag.name = tag'.name ∧ tag.inside = tag'.inside ∧ rest = rest' := by
  have hname := Tag.openName?_text hopen rest
  have hcut := tag.cutTag?_text rest
  rw [h, Tag.openName?_text hopen', Option.some_inj] at hname
  rw [h, tag'.cutTag?_text, Option.some_inj] at hcut
  injection hcut with hinside hrest
  exact ⟨hname.symm, hinside.symm, hrest.symm⟩

/-- A tag that begins inside a tag ends with it. -/
theorem Tag.selfCloses_of_drop {outer : Tag} {rest' : Text} {i : Nat} (h : outer.SelfCloses)
    (hi : i < outer.text.length) (hdrop : (outer.text ++ rest').drop i = tag.text ++ rest) :
    tag.SelfCloses := by
  have hcut : cutTag? ((outer.text ++ rest').drop i) = some (outer.inside.drop i, rest') := by
    rw [outer.length_text] at hi
    rw [outer.text_append, List.drop_append_of_le_length (by omega), cutTag?]
    exact cut?_append fun hmem => outer.notMem_inside (List.mem_of_mem_drop hmem)
  rw [hdrop, tag.cutTag?_text, Option.some_inj] at hcut
  injection hcut with hinside
  have hne : outer.inside.drop i ≠ [] := by
    rw [← hinside, Tag.inside]
    exact List.cons_ne_nil _ _
  rw [Tag.SelfCloses, hinside, List.getLast?_drop, if_neg]
  · exact h
  · intro hle
    exact hne (List.drop_eq_nil_of_le hle)

end Shape

/-- How the scan goes on from a tag: past a self-closing one, by one character where no closing tag
is found, and past an element. -/
inductive FoundAt (s : Text) : Hit (Option (Text × Text)) → Prop where
  | selfClosing {first : Nat} {tag : Tag} {rest : Text} : s.drop first = tag.text ++ rest →
      tag.SelfCloses → FoundAt s ⟨first, tag.text.length, none⟩
  | unbalanced {first : Nat} {tag : Tag} {rest : Text} : s.drop first = tag.text ++ rest →
      tag.Opens → matchingClose? tag.name rest = none → FoundAt s ⟨first, 1, none⟩
  | element {first tail : Nat} {tag : Tag} {rest : Text} : s.drop first = tag.text ++ rest →
      tag.Opens → matchingClose? tag.name rest = some tail →
      FoundAt s ⟨first, tag.text.length + tail,
        some (tag.name, slice s first (first + (tag.text.length + tail)))⟩

section Hits

variable {s : Text} {x : ElementSpan} {hit : Hit (Option (Text × Text))}

theorem foundAt_of_mem_places (h : hit ∈ places elementShape s) : FoundAt s hit := by
  obtain ⟨-, -, hshape⟩ := (scanned_places elementShape s).hit hit h
  obtain ⟨tag, rest, hopen, hrest⟩ := exists_tag_of_elementShape hshape
  have hdrop : s.drop hit.first = tag.text ++ rest := hrest
  obtain ⟨first, length, value⟩ := hit
  dsimp only at hdrop hshape
  rw [cursorAt, hdrop] at hshape
  by_cases hself : tag.SelfCloses
  · rw [elementShape_of_selfCloses hopen hself] at hshape
    cases hshape
    exact .selfClosing hdrop hself
  · rw [elementShape_of_opens ⟨hopen, hself⟩] at hshape
    cases hclose : matchingClose? tag.name rest with
    | none =>
      rw [hclose] at hshape
      cases hshape
      exact .unbalanced hdrop ⟨hopen, hself⟩ hclose
    | some tail =>
      rw [hclose, ← hdrop] at hshape
      dsimp only at hshape
      rw [← slice_add] at hshape
      cases hshape
      exact .element hdrop ⟨hopen, hself⟩ hclose

/-- A found element is the slice of its span. -/
theorem FoundAt.value_eq (h : FoundAt s hit) :
    hit.value = (spanOf? hit).map fun x => (x.name, x.text s) := by
  cases h with
  | selfClosing => rfl
  | unbalanced => rfl
  | element => rfl

theorem exists_of_mem_elementSpans (h : x ∈ elementSpans s) :
    ∃ (tag : Tag) (rest : Text) (tail : Nat), tag.Opens ∧ tag.name = x.name ∧
      s.drop x.first = tag.text ++ rest ∧ matchingClose? tag.name rest = some tail ∧
      x.last = x.first + tag.text.length + tail := by
  obtain ⟨hit, hhit, hspan⟩ := List.mem_filterMap.mp h
  cases foundAt_of_mem_places hhit with
  | selfClosing => cases hspan
  | unbalanced => cases hspan
  | @element first tail tag rest hdrop hopens hclose =>
    cases hspan
    exact ⟨tag, rest, tail, hopens, rfl, hdrop, hclose, (Nat.add_assoc _ _ _).symm⟩

/-- An opening tag that begins in what is passed at once has no closing tag. -/
theorem FoundAt.not_balances {tag : Tag} {i last : Nat} (h : FoundAt s hit)
    (hvalue : hit.value = none) (hopens : tag.Opens) (htag : tag.text <+: s.drop i)
    (hfirst : hit.first ≤ i) (hlast : i < hit.last) : ¬Balances tag.name s i last := by
  obtain ⟨rest, hrest⟩ := htag
  unfold Hit.last at hlast
  cases h with
  | @selfClosing first outer rest' hdrop hself =>
    dsimp only at hfirst hlast
    have hinner : (outer.text ++ rest').drop (i - first) = tag.text ++ rest := by
      rw [← hdrop, List.drop_drop, Nat.add_sub_cancel' hfirst, hrest]
    have hlt : i - first < outer.text.length := by
      have hpos : 0 < outer.text.length := by
        rw [outer.length_text]
        exact Nat.succ_pos _
      omega
    exact absurd (Tag.selfCloses_of_drop hself hlt hinner) hopens.2
  | @unbalanced first tag' rest' hdrop hopens' hclose =>
    have hi : i = first := by
      dsimp only at hfirst hlast
      omega
    subst hi
    rw [← hrest] at hdrop
    obtain ⟨hname, -, rfl⟩ := Tag.eq_of_text_append hopens.1 hopens'.1 hdrop
    rw [balances_iff hopens hrest.symm, hname, hclose]
    rintro ⟨_, hnone, -⟩
    cases hnone
  | element => cases hvalue

end Hits

/-- Every element of the text is balanced. -/
theorem balances_of_mem_elementSpans {s : Text} {x : ElementSpan} (h : x ∈ elementSpans s) :
    Balances x.name s x.first x.last := by
  obtain ⟨tag, rest, tail, hopens, hname, hdrop, hclose, hlast⟩ := exists_of_mem_elementSpans h
  rw [← hname, balances_iff hopens hdrop]
  exact ⟨tail, hclose, hlast⟩

/-- Every opening tag that balances begins in an element. -/
theorem exists_mem_elementSpans {s : Text} {tag : Tag} {i last : Nat} (hopens : tag.Opens)
    (htag : tag.text <+: s.drop i) (hbalances : Balances tag.name s i last) :
    ∃ x ∈ elementSpans s, x.first ≤ i ∧ i < x.last := by
  obtain ⟨hit, hhit, hfirst, hlast⟩ : ∃ hit ∈ places elementShape s,
      hit.first ≤ i ∧ i < hit.last := by
    by_contra hnone
    obtain ⟨rest, hrest⟩ := htag
    have hlt : i < s.length := by
      by_contra hle
      rw [List.drop_eq_nil_of_le (Nat.le_of_not_lt hle)] at hrest
      simp [Tag.text] at hrest
    have hmissed := (scanned_places elementShape s).missed i (Nat.zero_le i) hlt fun x hx hi =>
      hnone ⟨x, hx, hi⟩
    rw [cursorAt, ← hrest, elementShape_of_opens hopens] at hmissed
    split at hmissed <;> cases hmissed
  have hfound := foundAt_of_mem_places hhit
  cases hspan : spanOf? hit with
  | none =>
    have hvalue : hit.value = none := Option.map_eq_none_iff.mp hspan
    exact absurd hbalances (hfound.not_balances hvalue hopens htag hfirst hlast)
  | some x =>
    refine ⟨x, List.mem_filterMap.mpr ⟨hit, hhit, hspan⟩, ?_⟩
    cases hfound with
    | selfClosing => cases hspan
    | unbalanced => cases hspan
    | @element first tail tag' =>
      cases hspan
      have hpos : 1 ≤ tag'.text.length + tail := by
        rw [tag'.length_text]
        omega
      rw [Hit.last, max_eq_left hpos] at hlast
      exact ⟨hfirst, hlast⟩

theorem outermost_elementSpans (s : Text) : Outermost s (elementSpans s) where
  apart := by
    apply (scanned_places elementShape s).apart.filterMap
    intro hit hit' hle x hx y hy
    obtain ⟨⟨name, _⟩, -, rfl⟩ := Option.map_eq_some_iff.mp hx
    obtain ⟨⟨name', _⟩, -, rfl⟩ := Option.map_eq_some_iff.mp hy
    unfold Hit.last at hle
    dsimp only
    omega
  inside := by
    intro x hx
    have hbalances := balances_of_mem_elementSpans hx
    obtain ⟨tag, rest, tail, -, -, hdrop, -, hlast⟩ := exists_of_mem_elementSpans hx
    have htext : 0 < tag.text.length := by
      rw [tag.length_text]
      exact Nat.succ_pos _
    have hfirst : x.first ≤ s.length := by
      by_contra hgt
      have hlength := congrArg List.length hdrop
      rw [List.length_drop, List.length_append] at hlength
      omega
    exact ⟨by omega, hbalances.last_le hfirst⟩
  opened := by
    intro x hx
    obtain ⟨tag, rest, -, hopens, hname, hdrop, -⟩ := exists_of_mem_elementSpans hx
    exact ⟨tag, hopens, hname, rest, hdrop.symm⟩
  balanced := by
    intro x hx
    exact balances_of_mem_elementSpans hx
  complete := by
    intro tag i hopens htag hnone last hbalances
    obtain ⟨x, hx, hi⟩ := exists_mem_elementSpans hopens htag hbalances
    exact hnone x hx hi

theorem filter_component_examplesIn (s : Text) :
    (examplesIn s).filter (fun found => found.kind = "component".toList) =
      ((elements s).filter fun (tag, _) => tag.head?.any isUpperCase).map fun (tag, element) =>
        elementExample tag element := by
  have hframes : ((hits frameShape s).map frameExample).filter
      (fun found => found.kind = "component".toList) = [] := by
    rw [List.filter_eq_nil_iff]
    intro found hfound
    obtain ⟨code, -, rfl⟩ := List.mem_map.mp hfound
    show ¬decide ("example-frame".toList = "component".toList) = true
    decide
  have hfences : ((hits fenceShape s).map fun (language, code) => codeExample language code).filter
      (fun found => found.kind = "component".toList) = [] := by
    rw [List.filter_eq_nil_iff]
    intro found hfound
    obtain ⟨⟨language, code⟩, -, rfl⟩ := List.mem_map.mp hfound
    show ¬decide ("code".toList = "component".toList) = true
    decide
  rw [examplesIn, List.filter_append, List.filter_append, hframes, hfences, List.nil_append,
    List.nil_append, List.filter_eq_self]
  intro found hfound
  obtain ⟨⟨tag, element⟩, -, rfl⟩ := List.mem_map.mp hfound
  exact decide_eq_true rfl

/-- A self-closing tag, an element with others of its name inside, and a tag that nothing closes. -/
example : (elementSpans "<a/><B x><B/><B>y</B></B><C>".toList).map (fun x => (x.first, x.last)) =
    [(4, 25)] := by decide +kernel

end ComponentCatalog.Document
