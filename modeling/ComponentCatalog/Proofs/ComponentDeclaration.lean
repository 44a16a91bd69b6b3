import ComponentCatalog.Proofs.PropertyFields

/-!
The declaration of a component in its property source is the first that is found: none is mentioned
in the interface before it.
-/
namespace ComponentCatalog.Component

open Text Code

/-- The text begins with a declaration of the constant or function `name`. -/
def Declares (name s : Text) : Prop :=
  ∃ keyword gap rest, (keyword = "const".toList ∨ keyword = "function".toList) ∧ gap ≠ [] ∧
    (∀ c ∈ gap, isBlank c = true) ∧ rest.head?.any isWord = false ∧
    s = keyword ++ (gap ++ (name ++ rest))

/-- A declaration of `name` begins somewhere in the text. -/
def Mentions (name s : Text) : Prop := ∃ before rest, s = before ++ rest ∧ Declares name rest

/-- The declaration of the component is mentioned neither in the type nor in the description. -/
structure Property.Unmentioned (component : Text) (p : Property) : Prop where
  type : ¬Mentions component p.type
  description : ∀ d, p.description = some d → ¬Mentions component d

variable {name : Text}

theorem not_mentions_of_contains {s : Text} (hconst : contains "const".toList s = false)
    (hfunction : contains "function".toList s = false) : ¬Mentions name s := by
  rintro ⟨before, rest, rfl, keyword, gap, tail, hkeyword, -, -, -, rfl⟩
  have hcontains := contains_append keyword before (gap ++ (name ++ tail))
  rcases hkeyword with rfl | rfl
  · exact Bool.false_ne_true (hconst.symm.trans hcontains)
  · exact Bool.false_ne_true (hfunction.symm.trans hcontains)

theorem firstHitFrom_componentShape (offset : Nat) (previous : Option Char) (s : Text) :
    firstHitFrom (componentShape name) offset previous s = firstHit (componentShape name) s := by
  have hall (o : Nat) (p : Option Char) (o' : Nat) (p' : Option Char) :
      firstHitFrom (componentShape name) o p s = firstHitFrom (componentShape name) o' p' s := by
    induction s generalizing o p o' p' with
    | nil => rfl
    | cons c s ih =>
      have hshape : componentShape name ⟨o, p, c :: s⟩ = componentShape name ⟨o', p', c :: s⟩ := rfl
      rw [firstHitFrom, firstHitFrom, hshape, ih (o + 1) _ (o' + 1) _]
  exact hall offset previous 0 none

theorem declares_of_componentShape (hname : IsName name) {offset : Nat}
    {previous : Option Char} {s : Text} {found : Text × Nat}
    (h : componentShape name ⟨offset, previous, s⟩ = some found) : Declares name s := by
  simp only [componentShape, Option.bind_eq_bind, Option.bind_eq_some_iff] at h
  obtain ⟨rest, hkeyword, ⟨b, rest'⟩, hblank, rest'', hafterMost, -⟩ := h
  obtain ⟨keyword, hmem, hafter⟩ := List.exists_of_findSome?_eq_some hkeyword
  obtain ⟨rfl, hb⟩ := one?_eq_some.mp hblank
  obtain ⟨u, tail, hu, rfl, hfound⟩ := exists_of_afterMost hafterMost
  obtain ⟨rfl, hrest⟩ := (afterName?_eq_some hname.ne_nil hname.word).mp hfound
  refine ⟨keyword, b :: u, rest'', by simpa using hmem, List.cons_ne_nil _ _, ?_, hrest, ?_⟩
  · rintro c (_ | ⟨_, hc⟩)
    · exact hb
    · exact hu c hc
  · rw [after?_eq_some.mp hafter, List.cons_append]

/-- The search for the declaration of the component passes the text, whatever follows. -/
def Passes (name u : Text) : Prop :=
  ∀ rest, firstHit (componentShape name) (u ++ rest) = firstHit (componentShape name) rest

theorem Passes.append {u v : Text} (hu : Passes name u) (hv : Passes name v) :
    Passes name (u ++ v) := fun rest => by
  rw [List.append_assoc, hu, hv]

section Passes

variable (hname : IsName name)

include hname

theorem passes_cons {c : Char} {u : Text} (hc : ∀ rest, ¬Declares name (c :: (u ++ rest)))
    (hu : Passes name u) : Passes name (c :: u) := by
  intro rest
  have hnone : componentShape name ⟨0, none, c :: (u ++ rest)⟩ = none := by
    rcases hfound : componentShape name ⟨0, none, c :: (u ++ rest)⟩ with _ | found
    · rfl
    · exact absurd (declares_of_componentShape hname hfound) (hc rest)
  rw [List.cons_append, firstHit, firstHitFrom, hnone]
  dsimp only
  rw [firstHitFrom_componentShape, hu]

omit hname in
theorem not_declares_of_not_isWord {c : Char} (hc : isWord c = false) (rest : Text) :
    ¬Declares name (c :: rest) := by
  rintro ⟨keyword, gap, tail, hkeyword, -, -, -, heq⟩
  have hword : isWord c = true := by
    rcases hkeyword with rfl | rfl <;> obtain ⟨rfl, -⟩ := List.cons.inj heq <;> rfl
  exact Bool.false_ne_true (hc.symm.trans hword)

theorem passes_of_not_isWord {u : Text} (hu : ∀ c ∈ u, isWord c = false) : Passes name u := by
  induction u with
  | nil => exact fun _ => rfl
  | cons c u ih =>
    exact passes_cons hname (fun _ => not_declares_of_not_isWord (hu c List.mem_cons_self) _)
      (ih fun c hc => hu c (.tail _ hc))

/-- A declaration does not reach over a character that is neither blank nor part of a word. -/
theorem Declares.of_append {u rest : Text} {c : Char} (hword : isWord c = false)
    (hblank : isBlank c = false) (h : Declares name (u ++ c :: rest)) : Declares name u := by
  obtain ⟨keyword, gap, tail, hkeyword, hne, hgap, hboundary, heq⟩ := h
  have hmem : c ∉ keyword ++ (gap ++ name) := by
    have hkeyword : ∀ d ∈ keyword, isWord d = true := by
      rcases hkeyword with rfl | rfl <;> decide
    rw [List.mem_append, List.mem_append]
    rintro (hc | hc | hc)
    · exact Bool.false_ne_true (hword.symm.trans (hkeyword c hc))
    · exact Bool.false_ne_true (hblank.symm.trans (hgap c hc))
    · exact Bool.false_ne_true (hword.symm.trans (hname.word c hc))
  have heq : u ++ c :: rest = (keyword ++ (gap ++ name)) ++ tail := by simpa using heq
  -- The declaration ends at `c` or before it, for `c` is in none of its parts.
  rcases List.append_eq_append_iff.mp heq with ⟨v, hv, htail⟩ | ⟨v, hv, htail⟩
  · cases v with
    | nil =>
      refine ⟨keyword, gap, [], hkeyword, hne, hgap, rfl, ?_⟩
      simpa using hv.symm
    | cons d v =>
      obtain ⟨rfl, -⟩ := List.cons.inj htail
      exact absurd (hv ▸ List.mem_append_right _ List.mem_cons_self) hmem
  · refine ⟨keyword, gap, v, hkeyword, hne, hgap, ?_, by simpa using hv⟩
    cases v with
    | nil => rfl
    | cons d v => simpa [htail] using hboundary

/-- A text without a mention of the component is passed together with the mark that ends it. -/
theorem passes_of_not_mentions {u : Text} (hu : ¬Mentions name u) {c : Char}
    (hword : isWord c = false) (hblank : isBlank c = false) : Passes name (u ++ [c]) := by
  induction u with
  | nil => exact passes_of_not_isWord hname (by simpa using hword)
  | cons d u ih =>
    have htail : ¬Mentions name u := fun ⟨before, rest, heq, h⟩ =>
      hu ⟨d :: before, rest, by rw [heq, List.cons_append], h⟩
    refine passes_cons hname (fun rest h => hu ⟨[], d :: u, rfl, ?_⟩) (ih htail)
    have h : Declares name ((d :: u) ++ c :: rest) := by simpa using h
    exact Declares.of_append hname hword hblank h

omit hname in
theorem not_mentions_of_word {u : Text} (hu : ∀ c ∈ u, isWord c = true) : ¬Mentions name u := by
  rintro ⟨before, rest, rfl, keyword, gap, tail, -, hne, hgap, -, rfl⟩
  obtain ⟨b, gap', rfl⟩ := List.exists_cons_of_ne_nil hne
  have hblank := hgap b List.mem_cons_self
  have hword := isBlank_of_isWord (hu b (by simp))
  exact Bool.false_ne_true (hword.symm.trans hblank)

/-- A blank after a text is part of no declaration in it. -/
theorem not_mentions_append_blank {u : Text} (hu : ¬Mentions name u) {b : Char}
    (hb : isBlank b = true) : ¬Mentions name (u ++ [b]) := by
  rintro ⟨before, rest, heq, keyword, gap, tail, hkeyword, hne, hgap, hboundary, rfl⟩
  -- Either the name ends the text, but its last character is no blank, or the blank comes after it.
  rcases List.eq_nil_or_concat tail with rfl | ⟨tail, c, rfl⟩
  · have hlast := congrArg List.getLast? heq
    have hsome : name.getLast? = some b := by
      simpa [List.getLast?_append, hname.ne_nil, List.getLast?_eq_some_getLast hname.ne_nil] using
        hlast.symm
    have hword := isBlank_of_isWord (hname.word b (List.mem_of_getLast? hsome))
    exact Bool.false_ne_true (hword.symm.trans hb)
  · have heq : u ++ [b] = before ++ (keyword ++ (gap ++ (name ++ tail))) ++ [c] := by
      simpa using heq
    obtain ⟨rfl, -⟩ := List.append_inj' heq rfl
    refine hu ⟨before, _, rfl, keyword, gap, tail, hkeyword, hne, hgap, ?_, rfl⟩
    cases tail with
    | nil => rfl
    | cons d tail => simpa using hboundary

theorem passes_block {p : Property} (h : p.WellFormed) (hp : p.Unmentioned name) :
    Passes name p.block := by
  have hdocumentation : Passes name p.documentation := by
    cases hd : p.description with
    | none =>
      rw [Property.documentation, hd]
      exact fun _ => rfl
    | some d =>
      have hsplit : p.documentation =
          ['/', '*', '*', ' '] ++ (((d ++ [' ']) ++ ['*']) ++ ['/', '\n']) := by
        simp [Property.documentation_eq hd, commentOf]
      have hd := not_mentions_append_blank hname (hp.description d hd) (b := ' ') rfl
      rw [hsplit]
      exact (passes_of_not_isWord hname (by decide)).append
        ((passes_of_not_mentions hname hd rfl rfl).append (passes_of_not_isWord hname (by decide)))
  have hhead : Passes name p.head := by
    have hword : ¬Mentions name p.name := not_mentions_of_word h.name.word
    cases hrequired : p.required with
    | true =>
      have hsplit : p.head = (p.name ++ [':']) ++ [' '] := by simp [Property.head, hrequired]
      rw [hsplit]
      exact (passes_of_not_mentions hname hword rfl rfl).append
        (passes_of_not_isWord hname (by decide))
    | false =>
      have hsplit : p.head = (p.name ++ ['?']) ++ [':', ' '] := by
        simp [Property.head, hrequired]
      rw [hsplit]
      exact (passes_of_not_mentions hname hword rfl rfl).append
        (passes_of_not_isWord hname (by decide))
  have htype : Passes name (p.type ++ ";\n".toList) := by
    have hsplit : p.type ++ ";\n".toList = (p.type ++ [';']) ++ ['\n'] := by simp
    rw [hsplit]
    exact (passes_of_not_mentions hname hp.type rfl rfl).append
      (passes_of_not_isWord hname (by decide))
  exact hdocumentation.append (hhead.append htype)

theorem passes_blocks {properties : List Property}
    (h : ∀ p ∈ properties, p.WellFormed ∧ p.Unmentioned name) :
    Passes name (properties.flatMap Property.block) := by
  induction properties with
  | nil => exact fun _ => rfl
  | cons p properties ih =>
    obtain ⟨hp, hunmentioned⟩ := h p List.mem_cons_self
    exact (passes_block hname hp hunmentioned).append (ih fun p hp => h p (.tail _ hp))

theorem componentShape_const {rest : Text} (hrest : rest.head?.any isWord = false) :
    ∃ length, componentShape name ⟨0, none, "const ".toList ++ (name ++ rest)⟩ =
      some (rest, length) := by
  have hlead : afterAny? ["const".toList, "function".toList] ("const ".toList ++ (name ++ rest)) =
      some (' ' :: (name ++ rest)) := rfl
  have hone : one? isBlank (' ' :: (name ++ rest)) = some (' ', name ++ rest) := rfl
  simp only [componentShape, hlead, hone, hname.afterMost_append hrest, Option.bind_eq_bind,
    Option.bind_some]
  exact ⟨_, rfl⟩

/-- The declaration of the component is found after the interface. -/
theorem firstHit_propertySource {properties : List Property}
    (h : ∀ p ∈ properties, p.WellFormed ∧ p.Unmentioned name) :
    firstHit (componentShape name) (propertySource name properties) =
      some (parameter name properties) := by
  have hinterface : Passes name "export interface ".toList := fun rest =>
    firstHitFrom_componentShape 17 (some ' ') rest
  have hexport : Passes name "export ".toList := fun rest =>
    firstHitFrom_componentShape 7 (some ' ') rest
  have hdeclaration : ¬Mentions name (name ++ "Props".toList) :=
    not_mentions_of_word (hname.append (v := "Props".toList) (by decide)).word
  have hdeclaration : Passes name ((name ++ "Props".toList ++ [' ']) ++ ['\x7b']) :=
    passes_of_not_mentions hname (not_mentions_append_blank hname hdeclaration rfl) rfl rfl
  have hfeed : Passes name ['\n'] := passes_of_not_isWord hname (by decide)
  have hclose : Passes name ['\x7d', '\n'] := passes_of_not_isWord hname (by decide)
  have hsource : propertySource name properties =
      "export interface ".toList ++ (((name ++ "Props".toList ++ [' ']) ++ ['\x7b']) ++
        (['\n'] ++ (properties.flatMap Property.block ++ (['\x7d', '\n'] ++
          ("export ".toList ++ ("const ".toList ++ (name ++ parameter name properties))))))) := by
    have hopen (s : Text) : " \x7b\n".toList ++ s = ' ' :: '\x7b' :: '\n' :: s := rfl
    have hconst (s : Text) :
        "export const ".toList ++ s = "export ".toList ++ ("const ".toList ++ s) := rfl
    calc propertySource name properties =
          "export interface ".toList ++ (name ++ "Props".toList ++ (" \x7b\n".toList ++
            (properties.flatMap Property.block ++ '\x7d' :: '\n' ::
              ("export const ".toList ++ (name ++ parameter name properties))))) := rfl
      _ = _ := by
        simp only [hopen, hconst, List.append_assoc, List.cons_append, List.nil_append]
  obtain ⟨length, hhit⟩ : ∃ length, componentShape name
      ⟨0, none, "const ".toList ++ (name ++ parameter name properties)⟩ =
        some (parameter name properties, length) := componentShape_const hname rfl
  rw [hsource, hinterface, hdeclaration, hfeed, passes_blocks hname h, hclose, hexport, firstHit,
    firstHitFrom_eq_head?]
  obtain ⟨more, hmore⟩ := exists_hitsFrom (by simp) hhit
  rw [hmore, List.head?_cons]

end Passes

end ComponentCatalog.Component
