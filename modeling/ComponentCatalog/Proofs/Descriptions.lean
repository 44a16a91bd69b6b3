import ComponentCatalog.Component.Basic
import ComponentCatalog.Proofs.CommentLines
import ComponentCatalog.Proofs.FieldSites
import ComponentCatalog.Proofs.QuotedEntries
import ComponentCatalog.Story.Listing

/-!
The descriptions of components, stories and properties are first lines of the doc comments that
directly precede them.
-/
namespace ComponentCatalog

open Text

namespace Code

variable {s inside rest name : Text} {i : Nat}

theorem cut?_commentEnd (h : ¬"*/".toList <:+: inside) (rest : Text) :
    cut? "*/".toList (inside ++ ("*/".toList ++ rest)) = some (inside, rest) := by
  induction inside with
  | nil =>
    have hhere := cut?_of_startsWith (startsWith_append "*/".toList rest)
    rwa [List.drop_left] at hhere
  | cons c inside ih =>
    have hrest : ¬"*/".toList <:+: inside := fun hpart =>
      h (hpart.trans (List.suffix_cons c inside).isInfix)
    have hnot : startsWith "*/".toList (c :: (inside ++ ("*/".toList ++ rest))) = false := by
      rw [Bool.eq_false_iff]
      intro hstarts
      obtain ⟨more, hmore⟩ := Option.isSome_iff_exists.mp hstarts
      have hmore := after?_eq_some.mp hmore
      cases inside with
      | nil => cases hmore
      | cons d inside =>
        cases hmore
        exact h (List.prefix_append "*/".toList inside).isInfix
    rw [List.cons_append, cut?_cons hnot, ih hrest]
    rfl

theorem not_isInfix_of_cut? {needle before after : Text} (hne : needle ≠ [])
    (h : cut? needle s = some (before, after)) : ¬needle <:+: before := by
  rintro ⟨u, v, rfl⟩
  have hs := cut?_eq_some h
  obtain ⟨before', after', hcut, hafter⟩ := exists_cut? u needle (v ++ (needle ++ after))
  rw [hs, List.append_assoc, List.append_assoc, hcut] at h
  cases h
  have hlength := hafter.length_le
  have hpos := List.length_pos_iff.mpr hne
  simp only [List.length_append] at hlength
  omega

theorem docComment?_eq_some :
    docComment? s = some (inside, rest) ↔
      ¬"*/".toList <:+: inside ∧ s = "/**".toList ++ (inside ++ ("*/".toList ++ rest)) := by
  rw [docComment?, Option.bind_eq_some_iff]
  constructor
  · rintro ⟨after, hafter, hcut⟩
    exact ⟨not_isInfix_of_cut? (by decide) hcut,
      by rw [after?_eq_some.mp hafter, cut?_eq_some hcut]⟩
  · rintro ⟨hclosed, rfl⟩
    exact ⟨_, after?_append _ _, cut?_commentEnd hclosed rest⟩

/-- From the place on the text has a doc comment, and directly behind it the exported constant. -/
structure DocumentsAt (s : Text) (i : Nat) (inside name : Text) : Prop where
  closed : ¬"*/".toList <:+: inside
  text : ∃ gap gapExport gapConst rest,
    s.drop i = "/**".toList ++ (inside ++ ("*/".toList ++ (gap ++ ("export".toList ++
      (gapExport ++ ("const".toList ++ (gapConst ++ (name ++ rest)))))))) ∧
    (∀ c ∈ gap, isBlank c = true) ∧ (gapExport ≠ [] ∧ ∀ c ∈ gapExport, isBlank c = true) ∧
    (gapConst ≠ [] ∧ ∀ c ∈ gapConst, isBlank c = true) ∧
    isBoundary name.getLast? rest.head? = true

/-- The doc comment is the first that is directly followed by the exported constant. -/
def Documents (s inside name : Text) : Prop :=
  ∃ i, DocumentsAt s i inside name ∧ ∀ j < i, ∀ other, ¬DocumentsAt s j other name

/-- The doc comments that are directly followed by the exported constant. -/
def documentShape (name : Text) : Shape Text := fun at_ => do
  let (inside, rest) ← docComment? at_.rest
  let rest ← after? "export".toList (stripStart rest)
  let rest ← after? "const".toList (← blanks? rest)
  let (_, rest) ← one? isBlank rest
  let rest ← afterMost isBlank (afterName? name) rest
  return (inside, at_.lengthTo rest)

theorem constantDescription_eq (name s : Text) :
    constantDescription name s = (firstHit (documentShape name) s).bind firstCommentLine := rfl

theorem blanks?_append {gap : Text} {c : Char} (hne : gap ≠ []) (hgap : ∀ b ∈ gap, isBlank b = true)
    (hc : isBlank c = false) (rest : Text) : blanks? (gap ++ c :: rest) = some (c :: rest) := by
  cases gap with
  | nil => exact absurd rfl hne
  | cons b gap =>
    obtain ⟨hb, hgap⟩ := List.forall_mem_cons.mp hgap
    rw [List.cons_append, blanks?, if_pos hb, stripStart_append_of_blank hgap, stripStart_cons hc]

theorem documentsAt_of_documentShape {length : Nat}
    (h : documentShape name (cursorAt s i) = some (inside, length)) :
    DocumentsAt s i inside name := by
  simp only [documentShape, Option.bind_eq_bind, Option.bind_eq_some_iff] at h
  obtain ⟨⟨found, behind⟩, hdoc, rest, hexport, rest', hblanks, rest'', hconst, ⟨b, rest₃⟩, hblank,
    rest₄, hname, hfound⟩ := h
  cases hfound
  dsimp only at hexport hname ⊢
  obtain ⟨hclosed, hdrop⟩ := docComment?_eq_some.mp hdoc
  have hdrop : s.drop i = _ := hdrop
  obtain ⟨gap, hgap, hbehind⟩ := stripStart_split behind
  obtain ⟨gapExport, hneExport, hgapExport, hrest⟩ := blanks?_split hblanks
  obtain ⟨hrest'', hb⟩ := one?_eq_some.mp hblank
  obtain ⟨gapConst, tail, hgapConst, htail, hafter⟩ := exists_of_afterMost hname
  obtain ⟨hafter, hboundary⟩ := Option.filter_eq_some_iff.mp hafter
  refine ⟨hclosed, gap, gapExport, b :: gapConst, rest₄, ?_, hgap, ⟨hneExport, hgapExport⟩,
    ⟨List.cons_ne_nil _ _, List.forall_mem_cons.mpr ⟨hb, hgapConst⟩⟩, hboundary⟩
  have hexport := after?_eq_some.mp hexport
  have hconst := after?_eq_some.mp hconst
  have hafter := after?_eq_some.mp hafter
  rw [hdrop, hbehind, hexport, hrest, hconst, hrest'', htail, hafter]
  rfl

theorem DocumentsAt.documentShape (h : DocumentsAt s i inside name) :
    ∃ length, documentShape name (cursorAt s i) = some (inside, length) := by
  obtain ⟨hclosed, gap, gapExport, gapConst, rest, hdrop, hgap, ⟨hneExport, hgapExport⟩,
    ⟨hneConst, hgapConst⟩, hboundary⟩ := h
  obtain ⟨b, gapConst, rfl⟩ := List.exists_cons_of_ne_nil hneConst
  obtain ⟨hb, hgapConst⟩ := List.forall_mem_cons.mp hgapConst
  have hdoc := docComment?_eq_some.mpr ⟨hclosed, hdrop⟩
  have hname : afterName? name (name ++ rest) = some rest := by
    rw [afterName?, after?_append]
    exact Option.filter_some_pos hboundary
  have hsome := isSome_afterMost hgapConst (Option.isSome_iff_exists.mpr ⟨rest, hname⟩)
  obtain ⟨last, hlast⟩ := Option.isSome_iff_exists.mp hsome
  have hexport : stripStart (gap ++ ("export".toList ++ (gapExport ++ ("const".toList ++
      (b :: gapConst ++ (name ++ rest)))))) = "export".toList ++ (gapExport ++ ("const".toList ++
      (b :: gapConst ++ (name ++ rest)))) := by
    rw [stripStart_append_of_blank hgap]
    exact stripStart_cons rfl _
  have hconst : blanks? (gapExport ++ ("const".toList ++ (b :: gapConst ++ (name ++ rest)))) =
      some ("const".toList ++ (b :: gapConst ++ (name ++ rest))) :=
    blanks?_append hneExport hgapExport rfl _
  have hblank : one? isBlank (b :: gapConst ++ (name ++ rest)) =
      some (b, gapConst ++ (name ++ rest)) := one?_eq_some.mpr ⟨rfl, hb⟩
  refine ⟨Cursor.lengthTo (cursorAt s i) last, ?_⟩
  simp only [Code.documentShape, cursorAt, hdoc, hexport, hconst, after?_append, hblank, hlast,
    Option.bind_eq_bind, Option.bind_some, Option.pure_def]

/-- The first comment to document a constant is found by search. -/
theorem documents_of_documentShape (i : Nat)
    (h : (documentShape name (cursorAt s i)).map Prod.fst = some inside)
    (hfirst : ∀ j < i, documentShape name (cursorAt s j) = none) : Documents s inside name := by
  obtain ⟨⟨inside, length⟩, hshape, rfl⟩ := Option.map_eq_some_iff.mp h
  refine ⟨i, documentsAt_of_documentShape hshape, fun j hj other hother => ?_⟩
  obtain ⟨length', hshape⟩ := hother.documentShape
  exact absurd (hfirst j hj) (by simp [hshape])

theorem constantDescription_of_documents (h : Documents s inside name) :
    constantDescription name s = firstCommentLine inside := by
  obtain ⟨i, hdocuments, hfirst⟩ := h
  obtain ⟨length, hshape⟩ := hdocuments.documentShape
  have hi : i < s.length := by
    obtain ⟨_, _, _, _, _, hdrop, -⟩ := hdocuments
    by_contra hge
    rw [List.drop_of_length_le (Nat.not_lt.mp hge)] at hdrop
    cases hdrop
  have hhit := firstHit_eq_some hshape hi fun j hj => by
    cases hother : documentShape name (cursorAt s j) with
    | none => rfl
    | some found => exact absurd (documentsAt_of_documentShape hother) (hfirst j hj _)
  rw [constantDescription_eq, hhit, Option.bind_some]

end Code

namespace Story

variable {code : Text} {stories : List Story}

/-- The stories have the descriptions of their names. -/
def Described (code : Text) (stories : List Story) : Prop :=
  ∀ s ∈ stories, s.description = Code.constantDescription s.name code

theorem description_of_ofSite {site : Site} {s : Story} (h : ofSite code site = .ok s) :
    s.description = Code.constantDescription s.name code := by
  unfold ofSite at h
  cases hblock : site.expression.bind argsBlock? with
  | none =>
    rw [hblock] at h
    cases h
    rfl
  | some block =>
    cases hargs : Code.parseObjectLiteral block with
    | error e =>
      rw [hblock] at h
      simp only [hargs] at h
      cases h
    | ok args =>
      rw [hblock] at h
      simp only [hargs] at h
      cases h
      rfl

theorem Described.modifyLast (h : Described code stories) {name : Text} {change : Story → Story}
    (hchange : ∀ s, (change s).name = s.name ∧ (change s).description = s.description) :
    Described code (modifyLast name change stories) := by
  induction stories with
  | nil => exact h
  | cons s stories ih =>
    obtain ⟨hs, hstories⟩ := List.forall_mem_cons.mp h
    rw [Story.modifyLast]
    split
    · refine List.forall_mem_cons.mpr ⟨?_, hstories⟩
      rw [(hchange s).1, (hchange s).2, hs]
    · exact List.forall_mem_cons.mpr ⟨hs, ih hstories⟩

/-- An assignment changes no description. -/
theorem Described.assign (h : Described code stories) {assignment : Text × Text}
    {after : List Story} (hassign : assign stories assignment = .ok after) :
    Described code after := by
  obtain ⟨name, value⟩ := assignment
  unfold Story.assign at hassign
  dsimp only at hassign
  split at hassign
  · split at hassign
    · cases hassign
      exact h
    · next block hblock =>
      cases hentries : Code.parseObjectLiteral block with
      | error e => simp [hentries] at hassign
      | ok entries =>
        rw [hentries] at hassign
        cases hassign
        exact h.modifyLast fun s => ⟨rfl, rfl⟩
  · cases hassign
    exact h

theorem Described.foldlM (h : Described code stories) {assignments : List (Text × Text)}
    {after : List Story} (hassign : assignments.foldlM Story.assign stories = .ok after) :
    Described code after := by
  induction assignments generalizing stories with
  | nil =>
    cases hassign
    exact h
  | cons assignment assignments ih =>
    rw [List.foldlM_cons] at hassign
    cases hstep : Story.assign stories assignment with
    | error e =>
      rw [hstep] at hassign
      cases hassign
    | ok next =>
      rw [hstep] at hassign
      exact ih (h.assign hstep) hassign

theorem described_of_listing (h : listing code = .ok stories) : Described code stories := by
  unfold listing at h
  dsimp only at h
  generalize hfound : hits typedShape code ++ ((hits plainShape code).filter fun site =>
    (hits typedShape code).all fun x => decide (x.name ≠ site.name)) = found at h
  cases hsites : found.mapM fun site => do return (site.offset, ← ofSite code site) with
  | error e =>
    rw [hsites] at h
    cases h
  | ok sites =>
    rw [hsites] at h
    refine Described.foldlM (fun s hs => ?_) h
    obtain ⟨entry, hentry, rfl⟩ := List.mem_map.mp hs
    obtain ⟨site, -, hsite⟩ := Code.exists_of_mem_mapM hsites entry (List.mem_mergeSort.mp hentry)
    cases hstory : ofSite code site with
    | error e =>
      rw [hstory] at hsite
      cases hsite
    | ok story =>
      rw [hstory] at hsite
      cases hsite
      exact description_of_ofSite hstory

end Story

namespace Component

open Code

/-- From `first` to `last` the text has a doc comment and blanks behind it. -/
structure CommentedFrom (s : Text) (first last : Nat) (inside : Text) : Prop where
  closed : ¬"*/".toList <:+: inside
  text : ∃ gap, (∀ c ∈ gap, isBlank c = true) ∧
    slice s first last = "/**".toList ++ (inside ++ ("*/".toList ++ gap))

/-- The search for documented fields passes over the place with what it finds before it. -/
def PassedOver (body : Text) (i : Nat) : Prop :=
  ∃ hit ∈ places (fieldShape (commentsIn body)) body, hit.first < i ∧ i < hit.last

instance (body : Text) (i : Nat) : Decidable (PassedOver body i) :=
  inferInstanceAs (Decidable (∃ hit ∈ _, _))

variable {body s inside : Text} {site : FieldSite} {hit : Hit (Option Property)} {head : FieldHead}
  {first last lead place : Nat}

theorem CommentedFrom.drop_eq (h : CommentedFrom s first last inside) :
    ∃ gap, (∀ c ∈ gap, isBlank c = true) ∧
      s.drop first = "/**".toList ++ (inside ++ ("*/".toList ++ (gap ++ s.drop last))) ∧
      first < last := by
  obtain ⟨gap, hgap, hslice⟩ := h.text
  have hlength := congrArg List.length hslice
  rw [slice, List.length_drop, List.length_take] at hlength
  simp only [List.length_append] at hlength
  have hopen : "/**".toList.length = 3 := rfl
  refine ⟨gap, hgap, ?_, by omega⟩
  have hsplit := List.take_append_drop last s
  have hdrop := congrArg (List.drop first) hsplit
  rw [List.drop_append_of_le_length (by rw [List.length_take]; omega)] at hdrop
  rw [← hdrop]
  have hslice : (s.take last).drop first = _ := hslice
  rw [hslice]
  simp only [List.append_assoc]

/-- The name of a field is read in the same way with any comment before it. -/
theorem fieldName?_comment {comment : Option Text} (h : fieldName? comment s = some head)
    (other : Option Text) : fieldName? other s = some { head with comment := other } := by
  simp only [fieldName?, Option.bind_eq_bind, Option.bind_eq_some_iff] at h ⊢
  obtain ⟨found, hword, rest, hcolon, hhead⟩ := h
  cases hhead
  exact ⟨found, hword, rest, hcolon, rfl⟩

/-- A doc comment directly before the name of a field belongs to its head. -/
theorem CommentedFrom.fieldHead? (h : CommentedFrom body first place inside)
    {comment : Option Text} (hname : fieldName? comment (body.drop place) = some head)
    (hplace : place ≤ body.length) :
    Component.fieldHead? (body.drop first) =
      some ({ head with comment := some inside }, place - first) := by
  obtain ⟨gap, hgap, hdrop, hlt⟩ := h.drop_eq
  have hdoc := docComment?_eq_some.mpr ⟨h.closed, hdrop⟩
  have hstart : stripStart (gap ++ body.drop place) = body.drop place := by
    obtain ⟨⟨hne, hword⟩, _, _, hs⟩ := fieldName?_eq_some hname
    obtain ⟨c, name, hc⟩ := List.exists_cons_of_ne_nil hne
    rw [stripStart_append_of_blank hgap, hs, hc]
    exact stripStart_cons (isBlank_of_isWord (hword c (hc ▸ List.mem_cons_self))) _
  have hlead : body.length - first - (body.length - place) = place - first := by omega
  simp only [Component.fieldHead?, hdoc, hstart, fieldName?_comment hname (some inside),
    Option.map_some, List.length_drop, hlead]

/-- A hit reaches past the name whose head is at its place. -/
theorem FieldFound.place_lt_last (h : FieldFound body hit)
    (hhead : Component.fieldHead? (body.drop hit.first) = some (head, lead)) :
    hit.first + lead < hit.last := by
  unfold Hit.last
  cases h with
  | commented hhead' hmem hle hlt =>
    cases hhead'.symm.trans hhead
    dsimp only
    omega
  | typeless hhead' =>
    cases hhead'.symm.trans hhead
    obtain ⟨-, -, hplace, hrest⟩ := headAt_of_fieldHead? hhead
    dsimp only at hplace ⊢
    rw [List.length_drop]
    omega
  | field hhead' =>
    cases hhead'.symm.trans hhead
    obtain ⟨-, -, hplace, hrest⟩ := headAt_of_fieldHead? hhead
    dsimp only at hplace ⊢
    rw [List.length_drop]
    omega

theorem FieldFound.property_eq (h : FieldFound body hit) {property : Property}
    (hvalue : hit.value = some property)
    (hhead : Component.fieldHead? (body.drop hit.first) = some (head, lead)) :
    property = head.property := by
  cases h with
  | commented => cases hvalue
  | typeless => cases hvalue
  | field hhead' =>
    cases hhead'.symm.trans hhead
    cases hvalue
    rfl

/-- A doc comment directly before a field that is found is its own, unless the search passed over
the beginning of the comment. -/
theorem description_of_documentedSite (hsite : site ∈ documentedSites body)
    (h : CommentedFrom body first site.place inside) :
    site.property.description = firstCommentLine inside ∨ PassedOver body first := by
  have hscan := scanned_places (fieldShape (commentsIn body)) body
  obtain ⟨hplace, hread, hlength⟩ := (standsIn_of_mem_documentedSites hsite).ordered
  obtain ⟨hit, hhit, hfound⟩ := List.mem_filterMap.mp hsite
  simp only [documentedSite?, Option.bind_eq_bind, Option.bind_eq_some_iff] at hfound
  obtain ⟨property, hvalue, ⟨head, lead⟩, hhead, hfound⟩ := hfound
  cases hfound
  have hlast := (fieldFound_of_mem_places hhit).place_lt_last hhead
  obtain ⟨comment, hname⟩ := fieldHead?_eq_some hhead
  rw [List.drop_drop] at hname
  obtain ⟨-, -, -, hlt⟩ := h.drop_eq
  dsimp only at hplace hread hlength hlt
  have hcommented := h.fieldHead? hname (by dsimp only; omega)
  dsimp only at hcommented
  rcases Nat.lt_trichotomy first hit.first with hbefore | rfl | hbehind
  · -- The comment begins before the hit, so that another hit covers its beginning.
    obtain ⟨other, hother, hfirst, hcover⟩ : ∃ x ∈ places (fieldShape (commentsIn body)) body,
        x.first ≤ first ∧ first < x.last := by
      by_contra hmissed
      have hshape := hscan.missed first (Nat.zero_le _) (by omega) fun x hx hcover =>
        hmissed ⟨x, hx, hcover⟩
      rw [fieldShape_of_fieldHead? hcommented] at hshape
      split at hshape <;> cases hshape
    rcases Nat.lt_or_eq_of_le hfirst with hfirst | rfl
    · exact .inr ⟨other, hother, hfirst, hcover⟩
    · -- One that began with the comment would reach past the name.
      have hpast := (fieldFound_of_mem_places hother).place_lt_last hcommented
      obtain hle | hle | rfl := hscan.separate hother hhit <;> omega
  · left
    have hproperty := (fieldFound_of_mem_places hhit).property_eq hvalue hhead
    have hhead := (Prod.ext_iff.mp (Option.some.inj (hhead.symm.trans hcommented))).1
    have hcomment : head.comment = some inside := congrArg FieldHead.comment hhead
    dsimp only
    rw [hproperty, FieldHead.property, hcomment]
    rfl
  · exact .inr ⟨hit, hhit, hbehind, by omega⟩

theorem descriptions_withDefault (defaults : Entries Text) (properties : List Property) :
    (properties.map (Property.withDefault defaults)).map Property.description =
      properties.map Property.description := by
  rw [List.map_map]
  refine List.map_congr_left fun p _ => ?_
  unfold Function.comp Property.withDefault
  split <;> rfl

/-- The defaults that a component adds to its properties change no description. -/
theorem descriptions_of_documentedFields {code name interface body : Text}
    (hinterface : interfaceOf? code name = some interface)
    (hbody : blockAfter? curly (declarationMarker interface) code = some body)
    (hsome : documentedFields body ≠ []) :
    (ofSource name code).properties.map Property.description =
      (documentedSites body).map (·.property.description) := by
  have hdeclared : declaredProperties code interface = documentedFields body := by
    unfold declaredProperties
    rw [hbody]
    dsimp only
    split
    · exact absurd ‹_› hsome
    · rfl
  have hproperties : (ofSource name code).properties = propertiesOf code name := rfl
  rw [hproperties, propertiesOf, hinterface]
  dsimp only
  rw [hdeclared, descriptions_withDefault, ← map_property_documentedSites, List.map_map]
  rfl

end Component

/-- The first line of a doc comment is the line that was laid out first, without the stars and
double slashes in it, and so it is that line exactly if there are none. This is the description of
the component and of each story that the comment is the first to document, and of the fields
directly behind it, unless the search for fields passed over the beginning of the comment. -/
theorem descriptions_against_comments {d inside : Text} (hd : Code.IsCommentLine d)
    (h : Code.LaidOut d inside) :
    ∃ line, line = strip (Code.withoutCommentMarks d) ∧ (line = d ↔ ¬Code.HasMark d) ∧
      Code.firstCommentLine inside = some line ∧
      (∀ name code, Code.Documents code inside name →
        (Component.ofSource name code).description = some line) ∧
      (∀ code stories, Story.listing code = .ok stories →
        ∀ s ∈ stories, Code.Documents code inside s.name → s.description = some line) ∧
      ∀ name code interface body, Component.interfaceOf? code name = some interface →
        Code.blockAfter? Code.curly (Component.declarationMarker interface) code = some body →
        Component.documentedFields body ≠ [] →
        (Component.ofSource name code).properties.map Component.Property.description =
          (Component.documentedSites body).map (·.property.description) ∧
        ∀ site ∈ Component.documentedSites body, ∀ first,
          Component.CommentedFrom body first site.place inside →
          site.property.description = some line ∨ Component.PassedOver body first := by
  have hline := Code.firstCommentLine_of_laidOut hd h
  refine ⟨_, rfl, Code.strip_withoutCommentMarks_eq_self_iff hd.stripped, hline, ?_, ?_, ?_⟩
  · intro name code hdocuments
    rw [← hline]
    exact Code.constantDescription_of_documents hdocuments
  · intro code stories hlisting s hs hdocuments
    rw [← hline, Story.described_of_listing hlisting s hs]
    exact Code.constantDescription_of_documents hdocuments
  · intro name code interface body hinterface hbody hsome
    refine ⟨Component.descriptions_of_documentedFields hinterface hbody hsome, ?_⟩
    intro site hsite first hcommented
    rw [← hline]
    exact Component.description_of_documentedSite hsite hcommented

/-- A line with an address in it. -/
def linkLine : Text := "See https://x.dev".toList

/-- A source in which the line documents a field and a constant. -/
def linkSource : Text :=
  "interface LinkProps \x7b\n/** See https://x.dev */\nurl: string;\n\x7d\n".toList ++
    "/** See https://x.dev */\nexport const Link: Story = 1;".toList

theorem descriptions_of_linkSource :
    Code.IsCommentLine linkLine ∧ Code.LaidOut linkLine (' ' :: (linkLine ++ [' '])) ∧
      Code.firstCommentLine (' ' :: (linkLine ++ [' '])) = some "See https:x.dev".toList ∧
      "See https:x.dev".toList ≠ linkLine ∧
      (Component.ofSource "Link".toList linkSource).description = some "See https:x.dev".toList ∧
      (∃ s, Story.listing linkSource = .ok [s] ∧ s.name = "Link".toList ∧
        s.description = some "See https:x.dev".toList) ∧
      (Component.ofSource "Link".toList linkSource).properties.map Component.Property.description =
        [some "See https:x.dev".toList] := by
  have hd : Code.IsCommentLine linkLine :=
    ⟨by decide, by decide, by decide, fun c hc => by cases hc; decide⟩
  have hlaid : Code.LaidOut linkLine (' ' :: (linkLine ++ [' '])) := .inline
  obtain ⟨line, hline, hiff, hfirst, hcomponent, hstory, hproperty⟩ :=
    descriptions_against_comments hd hlaid
  have hvalue : line = "See https:x.dev".toList := hline.trans (by decide)
  have hmark : Code.HasMark linkLine := .inr (by decide)
  rw [← hvalue]
  have hdocuments : Code.Documents linkSource (' ' :: (linkLine ++ [' '])) "Link".toList :=
    Code.documents_of_documentShape 62 (by decide +kernel) (by decide +kernel)
  refine ⟨hd, hlaid, hfirst, fun h => hiff.mp h hmark, hcomponent _ _ hdocuments, ?_, ?_⟩
  · have hnames : (Story.listing linkSource).toOption.map (·.map Story.name) =
        some ["Link".toList] := by decide +kernel
    cases hlisting : Story.listing linkSource with
    | error e => simp [hlisting, Except.toOption] at hnames
    | ok stories =>
      rw [hlisting] at hnames
      obtain ⟨s, rfl, hname⟩ := List.map_eq_singleton_iff.mp (Option.some.inj hnames)
      exact ⟨s, rfl, hname, hstory _ _ hlisting s List.mem_cons_self (hname ▸ hdocuments)⟩
  · have hbody : Code.blockAfter? Code.curly (Component.declarationMarker "LinkProps".toList)
        linkSource = some "\n/** See https://x.dev */\nurl: string;\n".toList := by decide +kernel
    obtain ⟨hproperties, hsites⟩ := hproperty "Link".toList linkSource "LinkProps".toList _
      (by decide +kernel) hbody (by decide +kernel)
    have hplaces : (Component.documentedSites
          "\n/** See https://x.dev */\nurl: string;\n".toList).map
        Component.FieldSite.place = [26] := by decide +kernel
    obtain ⟨site, hsite, hplace⟩ := List.map_eq_singleton_iff.mp hplaces
    have hcommented : Component.CommentedFrom "\n/** See https://x.dev */\nurl: string;\n".toList 1
        site.place (' ' :: (linkLine ++ [' '])) := by
      rw [hplace]
      exact ⟨by decide, ['\n'], by decide, by decide +kernel⟩
    have hdescription := (hsites site (hsite ▸ List.mem_cons_self) 1 hcommented).resolve_right
      (by decide +kernel)
    rw [hproperties, hsite, List.map_singleton, hdescription]

end ComponentCatalog
