import Mathlib.Data.List.Basic
import ComponentCatalog.Proofs.OpenBrackets
import ComponentCatalog.Proofs.Parts
import ComponentCatalog.Proofs.Places

/-!
Where the declared properties of a component stand. The search for documented fields passes over the
comments and over the types that it reads, and so a field that it finds is nested only in brackets
that are opened elsewhere: in the parameters of a method or in an index signature. The search for
plain fields, made where the first one finds none, passes over neither.
-/
namespace ComponentCatalog.Component

open Text Code

/-- A field that is read: where its name stands, from where to where its type is read, and the
property that it gives. -/
structure FieldSite where
  place : Nat
  first : Nat
  last : Nat
  property : Property
  deriving DecidableEq

/-- A name at a place of a text, a question mark if it is optional, a colon, and blanks up to
`first`. -/
structure HeadAt (s : Text) (place first : Nat) (name : Text) (optional : Bool) : Prop where
  name_ne_nil : name ≠ []
  name_word : ∀ c ∈ name, isWord c = true
  text : ∃ gap, (∀ b ∈ gap, isBlank b = true) ∧
    slice s place first = name ++ ((if optional then ['?'] else []) ++ ':' :: gap)

/-- The field stands in the text where it says. -/
structure FieldSite.StandsIn (site : FieldSite) (s : Text) : Prop where
  head : HeadAt s site.place site.first site.property.name !site.property.required
  type : site.property.type = strip (slice s site.first site.last)
  ordered : site.place < site.first ∧ site.first ≤ site.last ∧ site.last ≤ s.length

/-- The comments of a body. -/
def commentsIn (body : Text) : List (Nat × Nat) := hits commentShape body

/-- A comment covers the place. -/
def InComment (body : Text) (i : Nat) : Prop := covers (commentsIn body) i = true

/-- No bracket outside of comments is open at the place. -/
def TopLevel (body : Text) (i : Nat) : Prop :=
  openAt (fun j => !covers (commentsIn body) j) body i = []

instance (body : Text) (i : Nat) : Decidable (InComment body i) :=
  inferInstanceAs (Decidable (_ = _))

instance (body : Text) (i : Nat) : Decidable (TopLevel body i) :=
  inferInstanceAs (Decidable (_ = _))

/-- How much of the text is the type of the field. -/
def FieldHead.typeLength (head : FieldHead) : Nat := Component.typeLength [] none head.rest

def FieldHead.property (head : FieldHead) : Property :=
  ⟨head.name, strip (head.rest.take head.typeLength), !head.optional,
    head.comment.bind firstCommentLine, none⟩

def documentedSite? (body : Text) (hit : Hit (Option Property)) : Option FieldSite := do
  let property ← hit.value
  let (head, lead) ← fieldHead? (body.drop hit.first)
  return ⟨hit.first + lead, body.length - head.rest.length, hit.first + hit.length, property⟩

/-- The documented fields of a body. -/
def documentedSites (body : Text) : List FieldSite :=
  (places (fieldShape (commentsIn body)) body).filterMap (documentedSite? body)

/-- The types that are read. -/
def typeSpans (body : Text) : List (Nat × Nat) :=
  (documentedSites body).map fun site => (site.first, site.last)

/-- How the search for documented fields goes on from the head of a field: past the comment that its
name is in, past a head that no type follows, and past a field. -/
inductive FieldFound (body : Text) : Hit (Option Property) → Prop where
  | commented {first lead : Nat} {head : FieldHead} {span : Nat × Nat} :
      fieldHead? (body.drop first) = some (head, lead) → span ∈ commentsIn body →
      span.1 ≤ first + lead → first + lead < span.2 →
      FieldFound body ⟨first, span.2 - first, none⟩
  | typeless {first lead : Nat} {head : FieldHead} :
      fieldHead? (body.drop first) = some (head, lead) → head.property.type = [] →
      FieldFound body ⟨first, (body.drop first).length - head.rest.length + head.typeLength, none⟩
  | field {first lead : Nat} {head : FieldHead} :
      fieldHead? (body.drop first) = some (head, lead) → ¬InComment body (first + lead) →
      head.property.type ≠ [] →
      FieldFound body ⟨first, (body.drop first).length - head.rest.length + head.typeLength,
        some head.property⟩

section Heads

variable {s u v rest rest' name : Text} {comment : Option Text} {head : FieldHead} {i lead : Nat}

theorem drop_of_drop_eq (h : s.drop i = u ++ v) : s.drop (s.length - v.length) = v := by
  have hsuffix : v <:+ s := (List.suffix_append u v).trans (h ▸ List.drop_suffix i s)
  exact (List.suffix_iff_eq_drop.mp hsuffix).symm

theorem length_of_drop_eq (hne : u ≠ []) (h : s.drop i = u ++ v) :
    i + u.length + v.length = s.length := by
  have hlength := congrArg List.length h
  have hpos : 0 < u.length := List.length_pos_iff.mpr hne
  rw [List.length_drop, List.length_append] at hlength
  omega

theorem slice_of_drop_eq (hne : u ≠ []) (h : s.drop i = u ++ v) :
    slice s i (s.length - v.length) = u := by
  have hlength := length_of_drop_eq hne h
  have hlast : s.length - v.length = i + u.length := by omega
  rw [hlast, slice_add, h, List.take_left]

/-- A name and its colon. -/
theorem named_split (hword : word? s = some (name, rest))
    (hcolon : after? [':'] (if rest.head? = some '?' then rest.tail else rest) = some rest') :
    (name ≠ [] ∧ ∀ c ∈ name, isWord c = true) ∧
      s = name ++ ((if rest.head? = some '?' then ['?'] else []) ++ ':' :: rest') := by
  obtain ⟨hne, hchars, hs⟩ := word?_split hword
  refine ⟨⟨hne, hchars⟩, ?_⟩
  rw [hs]
  split at hcolon
  next hmark =>
    obtain ⟨tail, rfl⟩ := List.head?_eq_some_iff.mp hmark
    rw [if_pos hmark, List.singleton_append]
    have htail := after?_eq_some.mp hcolon
    rw [List.tail_cons] at htail
    rw [htail]
    rfl
  next hmark =>
    rw [if_neg hmark, List.nil_append, after?_eq_some.mp hcolon]
    rfl

/-- A name that the text has at a place stands there. -/
theorem headAt_of_drop {optional : Bool} {gap : Text}
    (hname : name ≠ [] ∧ ∀ c ∈ name, isWord c = true)
    (hgap : ∀ b ∈ gap, isBlank b = true)
    (h : s.drop i = (name ++ ((if optional then ['?'] else []) ++ ':' :: gap)) ++ rest) :
    HeadAt s i (s.length - rest.length) name optional where
  name_ne_nil := hname.1
  name_word := hname.2
  text := ⟨gap, hgap, slice_of_drop_eq (List.append_ne_nil_of_left_ne_nil hname.1 _) h⟩

theorem fieldName?_eq_some (h : fieldName? comment s = some head) :
    (head.name ≠ [] ∧ ∀ c ∈ head.name, isWord c = true) ∧ ∃ gap, (∀ b ∈ gap, isBlank b = true) ∧
      s = (head.name ++ ((if head.optional then ['?'] else []) ++ ':' :: gap)) ++ head.rest := by
  simp only [fieldName?, Option.bind_eq_bind, Option.bind_eq_some_iff] at h
  obtain ⟨⟨name, rest⟩, hword, rest', hcolon, hhead⟩ := h
  cases hhead
  obtain ⟨hname, hs⟩ := named_split hword hcolon
  obtain ⟨gap, hgap, hrest⟩ := stripStart_split rest'
  refine ⟨hname, gap, hgap, ?_⟩
  rw [List.append_assoc, List.append_assoc, List.cons_append, ← hrest]
  simpa using hs

theorem fieldHead?_eq_some (h : fieldHead? s = some (head, lead)) :
    ∃ comment, fieldName? comment (s.drop lead) = some head := by
  rw [fieldHead?] at h
  split at h
  next inside rest hdoc =>
    obtain ⟨head', hname, heq⟩ := Option.map_eq_some_iff.mp h
    cases heq
    obtain ⟨after, hafter, hcut⟩ := Option.bind_eq_some_iff.mp hdoc
    have hsuffix : stripStart rest <:+ s :=
      (stripStart_suffix rest).trans ((cut?_suffix hcut).trans (after?_suffix hafter))
    refine ⟨some inside, ?_⟩
    rw [← List.suffix_iff_eq_drop.mp hsuffix]
    exact hname
  next =>
    obtain ⟨head', hname, heq⟩ := Option.map_eq_some_iff.mp h
    cases heq
    exact ⟨none, hname⟩

/-- The head of a field, and the text from its type on. -/
theorem headAt_of_fieldHead? (h : fieldHead? (s.drop i) = some (head, lead)) :
    HeadAt s (i + lead) (s.length - head.rest.length) head.name head.optional ∧
      s.drop (s.length - head.rest.length) = head.rest ∧
      i + lead < s.length - head.rest.length ∧ head.rest.length ≤ s.length := by
  obtain ⟨comment, hname⟩ := fieldHead?_eq_some h
  rw [List.drop_drop] at hname
  obtain ⟨hword, gap, hgap, hdrop⟩ := fieldName?_eq_some hname
  have hne := List.append_ne_nil_of_left_ne_nil hword.1
    ((if head.optional then ['?'] else []) ++ ':' :: gap)
  have hlength := length_of_drop_eq hne hdrop
  have hpos := List.length_pos_iff.mpr hne
  exact ⟨headAt_of_drop hword hgap hdrop, drop_of_drop_eq hdrop, by omega, by omega⟩

end Heads

section Documented

variable {body : Text} {site : FieldSite} {hit : Hit (Option Property)}

/-- The shape at the head of a field. -/
theorem fieldShape_of_fieldHead? {comments : List (Nat × Nat)} {i lead : Nat} {head : FieldHead}
    (h : fieldHead? (body.drop i) = some (head, lead)) :
    fieldShape comments (cursorAt body i) =
      match comments.find? fun (first, last) => first ≤ i + lead && i + lead < last with
      | some (_, last) => some (none, last - i)
      | none => some (if head.property.type = [] then none else some head.property,
          (body.drop i).length - head.rest.length + head.typeLength) := by
  simp only [fieldShape, cursorAt, h, Option.bind_eq_bind, Option.bind_some]
  rfl

theorem fieldFound_of_mem_places (h : hit ∈ places (fieldShape (commentsIn body)) body) :
    FieldFound body hit := by
  obtain ⟨-, -, hshape⟩ := (scanned_places _ body).hit hit h
  obtain ⟨first, length, value⟩ := hit
  dsimp only at hshape
  cases hhead : fieldHead? (body.drop first) with
  | none => simp [fieldShape, cursorAt, hhead] at hshape
  | some found =>
    obtain ⟨head, lead⟩ := found
    rw [fieldShape_of_fieldHead? hhead] at hshape
    split at hshape
    next span last hfind =>
      cases hshape
      have hcovers := List.find?_some hfind
      rw [Bool.and_eq_true, decide_eq_true_iff, decide_eq_true_iff] at hcovers
      exact .commented hhead (List.mem_of_find?_eq_some hfind) hcovers.1 hcovers.2
    next hfind =>
      have houtside : ¬InComment body (first + lead) := by
        intro hcomment
        obtain ⟨span, hmem, hspan⟩ := covers_eq_true.mp hcomment
        have hnone := List.find?_eq_none.mp hfind span hmem
        rw [Bool.and_eq_true, decide_eq_true_iff, decide_eq_true_iff] at hnone
        exact hnone hspan
      by_cases htype : head.property.type = []
      · rw [if_pos htype] at hshape
        cases hshape
        exact .typeless hhead htype
      · rw [if_neg htype] at hshape
        cases hshape
        exact .field hhead houtside htype

/-- A site comes from the head of a field with a type, outside of the comments. -/
theorem exists_of_mem_documentedSites (h : site ∈ documentedSites body) :
    ∃ (first lead : Nat) (head : FieldHead), fieldHead? (body.drop first) = some (head, lead) ∧
      ¬InComment body (first + lead) ∧
      site = ⟨first + lead, body.length - head.rest.length,
        body.length - head.rest.length + head.typeLength, head.property⟩ := by
  obtain ⟨hit, hhit, hsite⟩ := List.mem_filterMap.mp h
  cases fieldFound_of_mem_places hhit with
  | commented => cases hsite
  | typeless => cases hsite
  | @field first lead head hhead houtside =>
    obtain ⟨-, -, hle, hrest⟩ := headAt_of_fieldHead? hhead
    refine ⟨first, lead, head, hhead, houtside, ?_⟩
    rw [documentedSite?, Option.bind_eq_bind, Option.bind_some, hhead] at hsite
    cases hsite
    rw [FieldSite.mk.injEq, List.length_drop]
    refine ⟨rfl, rfl, ?_, rfl⟩
    dsimp only
    omega

theorem standsIn_of_mem_documentedSites (h : site ∈ documentedSites body) :
    site.StandsIn body := by
  obtain ⟨first, lead, head, hhead, -, rfl⟩ := exists_of_mem_documentedSites h
  obtain ⟨hname, hdrop, hle, hlength⟩ := headAt_of_fieldHead? hhead
  have htype := typeLength_le [] none head.rest
  refine ⟨?_, ?_, hle, Nat.le_add_right _ _, ?_⟩
  · simpa [FieldHead.property] using hname
  · rw [slice_add, hdrop]
    rfl
  · show body.length - head.rest.length + typeLength [] none head.rest ≤ body.length
    omega

/-- The fields stand one after the other. -/
theorem documentedSites_apart (body : Text) :
    (documentedSites body).Pairwise fun x y => x.last ≤ y.place := by
  apply (scanned_places (fieldShape (commentsIn body)) body).apart.filterMap
  intro hit hit' hle x hx y hy
  simp only [documentedSite?, Option.bind_eq_bind, Option.bind_eq_some_iff] at hx hy
  obtain ⟨_, -, ⟨_, _⟩, -, hx⟩ := hx
  obtain ⟨_, -, ⟨_, _⟩, -, hy⟩ := hy
  cases hx
  cases hy
  unfold Hit.last at hle
  dsimp only
  omega

theorem lastOf_ne_of_blank {gap : Text} {previous : Option Char} {c : Char}
    (hc : isBlank c = false) (hprevious : previous ≠ some c)
    (hgap : ∀ b ∈ gap, isBlank b = true) : lastOf previous gap ≠ some c := by
  induction gap generalizing previous with
  | nil => exact hprevious
  | cons b gap ih =>
    obtain ⟨hb, hgap⟩ := List.forall_mem_cons.mp hgap
    apply ih _ hgap
    rw [ne_eq, Option.some_inj]
    rintro rfl
    exact Bool.false_ne_true (hc.symm.trans hb)

theorem HeadAt.previous_ne {s name : Text} {place first : Nat} {optional : Bool}
    (h : HeadAt s place first name optional) : lastOf none (s.take first) ≠ some '=' := by
  obtain ⟨gap, hgap, hslice⟩ := h.text
  have hsplit : s.take first = (s.take first).take place ++
      (name ++ ((if optional then ['?'] else []) ++ ':' :: gap)) := by
    rw [← hslice, slice, List.take_append_drop]
  rw [hsplit, lastOf_append, lastOf_append, lastOf_append, lastOf, List.foldl_cons]
  exact lastOf_ne_of_blank rfl (by decide) hgap

/-- The brackets in a type that ends before the body are closed with it. -/
theorem openAt_last {counts : Nat → Bool} (hsite : site ∈ documentedSites body)
    (hlast : site.last < body.length)
    (hcounts : ∀ j c, site.first ≤ j → j < site.last → body[j]? = some c →
      isTypeBracket c = true → counts j = true) :
    openAt counts body site.last = openAt counts body site.first := by
  obtain ⟨first, lead, head, hhead, -, rfl⟩ := exists_of_mem_documentedSites hsite
  obtain ⟨hname, hdrop, -, hlength⟩ := headAt_of_fieldHead? hhead
  dsimp only at hlast hcounts ⊢
  generalize hfirst : body.length - head.rest.length = from_ at *
  have hread : head.typeLength = typeLength [] (lastOf none (body.take from_)) head.rest :=
    (typeLength_previous hname.previous_ne).symm
  have hoffset : (body.take from_).length = from_ := List.length_take_of_le (by omega)
  rw [openAt_add, hoffset, hdrop, hread]
  apply openBrackets_typeLength []
  · rw [← hread]
    omega
  · intro i c hi hc hbracket
    rw [← hread] at hi
    rw [← hdrop, List.getElem?_drop] at hc
    exact hcounts (from_ + i) c (Nat.le_add_right _ _) (by omega) hc hbracket

/-- No comment in a type holds a bracket. -/
def UncommentedTypes (body : Text) : Prop :=
  ∀ j < body.length, covers (typeSpans body) j = true → InComment body j →
    (body[j]?).any isTypeBracket = false

instance (body : Text) : Decidable (UncommentedTypes body) :=
  inferInstanceAs (Decidable (∀ j < _, _))

/-- The brackets that are open at a place and stand neither in a comment nor in a type. -/
def openOutsideTypes (body : Text) (i : Nat) : List Char :=
  openAt (fun j => !covers (commentsIn body) j && !covers (typeSpans body) j) body i

theorem documentedSites_separate {site' : FieldSite} (h : site ∈ documentedSites body)
    (h' : site' ∈ documentedSites body) :
    site'.last ≤ site.place ∨ site.last ≤ site'.place ∨ site = site' := by
  have happart := documentedSites_apart body
  apply List.Pairwise.forall_of_forall_of_flip (fun x _ => .inr (.inr rfl))
    (happart.imp fun hle => .inr (.inl hle)) (happart.imp fun hle => .inl hle) h h'

/-- A documented field is nested only in brackets that are opened outside of the types. -/
theorem topLevel_iff_of_mem_documentedSites (htypes : UncommentedTypes body)
    (h : site ∈ documentedSites body) :
    TopLevel body site.place ↔ openOutsideTypes body site.place = [] := by
  have hordered {x : FieldSite} (hx : x ∈ documentedSites body) :=
    (standsIn_of_mem_documentedSites hx).ordered
  have hsite := hordered h
  have hopen : openAt (fun j => !covers (commentsIn body) j) body site.place =
      openOutsideTypes body site.place := by
    refine openAt_except ?_ ?_ (by omega) ?_
    · intro x hx y hy
      obtain ⟨siteX, hsiteX, rfl⟩ := List.mem_map.mp hx
      obtain ⟨siteY, hsiteY, rfl⟩ := List.mem_map.mp hy
      have hx := hordered hsiteX
      have hy := hordered hsiteY
      dsimp only
      obtain hle | hle | rfl := documentedSites_separate hsiteX hsiteY <;> omega
    · intro x hx hlast
      obtain ⟨siteX, hsiteX, rfl⟩ := List.mem_map.mp hx
      apply openAt_last hsiteX hlast
      intro j c hfirst hj hc hbracket
      by_contra hcounts
      have hcover : covers (typeSpans body) j = true := covers_eq_true.mpr ⟨_, hx, hfirst, hj⟩
      have hcomment : covers (commentsIn body) j = true := by simpa using hcounts
      have hnone := htypes j (Nat.lt_trans hj hlast) hcover hcomment
      rw [hc, Option.any_some, hbracket] at hnone
      cases hnone
    · intro x hx
      obtain ⟨siteX, hsiteX, rfl⟩ := List.mem_map.mp hx
      have hx := hordered hsiteX
      dsimp only
      obtain hle | hle | rfl := documentedSites_separate hsiteX h <;> omega
  rw [TopLevel, hopen]

end Documented

def plainSite (body : Text) (hit : Hit (Text × Bool × Text)) : FieldSite :=
  let (name, optional, type) := hit.value
  ⟨hit.first, hit.first + hit.length - type.length, hit.first + hit.length,
    ⟨name, strip type, !optional, lineDescription (lines body) name, none⟩⟩

/-- The plain fields of a body. -/
def plainSites (body : Text) : List FieldSite :=
  (places plainFieldShape body).map (plainSite body)

/-- What the search for documented fields passes over: comments, the documentation of a field, and
heads that no type follows. -/
inductive SteppedOver (body : Text) (i : Nat) : Prop where
  | commented : InComment body i → SteppedOver body i
  | documentation {first lead : Nat} {head : FieldHead} :
      fieldHead? (body.drop first) = some (head, lead) → first ≤ i → i < first + lead →
      SteppedOver body i
  | typeless {first lead : Nat} {head : FieldHead} :
      fieldHead? (body.drop first) = some (head, lead) → head.property.type = [] →
      first + lead ≤ i → i < body.length - head.rest.length + head.typeLength → SteppedOver body i

section Plain

variable {body : Text} {site : FieldSite} {hit : Hit (Text × Bool × Text)} {i length : Nat}
  {name type : Text} {optional : Bool}

theorem plainFieldShape_eq_some
    (h : plainFieldShape (cursorAt body i) = some ((name, optional, type), length)) :
    (name ≠ [] ∧ ∀ c ∈ name, isWord c = true) ∧ ∃ gap rest, (∀ b ∈ gap, isBlank b = true) ∧
      body.drop i = (name ++ ((if optional then ['?'] else []) ++ ':' :: gap)) ++ (type ++ rest) ∧
      length = (body.drop i).length - rest.length := by
  simp only [plainFieldShape, Option.bind_eq_bind, Option.bind_eq_some_iff] at h
  obtain ⟨⟨name, rest⟩, hword, rest', hcolon, ⟨type, rest''⟩, htype, hfound⟩ := h
  cases hfound
  obtain ⟨hname, hs⟩ := named_split hword hcolon
  obtain ⟨gap, tail, hgap, rfl, hrun⟩ := exists_of_afterMost htype
  obtain ⟨rfl, -⟩ := run?_eq_some hrun
  refine ⟨hname, gap, rest'', hgap, ?_, rfl⟩
  have hdrop : body.drop i = name ++ ((if rest.head? = some '?' then ['?'] else []) ++
      ':' :: (gap ++ (type ++ rest''))) := hs
  simpa using hdrop

theorem standsIn_of_mem_plainSites (h : site ∈ plainSites body) : site.StandsIn body := by
  obtain ⟨hit, hhit, rfl⟩ := List.mem_map.mp h
  obtain ⟨-, -, hshape⟩ := (scanned_places plainFieldShape body).hit hit hhit
  obtain ⟨first, length, name, optional, type⟩ := hit
  obtain ⟨hname, gap, rest, hgap, hdrop, hread⟩ := plainFieldShape_eq_some hshape
  have hne := List.append_ne_nil_of_left_ne_nil hname.1
    ((if optional then ['?'] else []) ++ ':' :: gap)
  have hlength := length_of_drop_eq hne hdrop
  have hpos := List.length_pos_iff.mpr hne
  have hparts : (type ++ rest).length = type.length + rest.length := List.length_append
  have hends : first + length = body.length - rest.length := by
    rw [List.length_drop] at hread
    dsimp only at hread hlength
    omega
  have hfirst : first + length - type.length = body.length - (type ++ rest).length := by
    omega
  refine ⟨?_, ?_, ?_⟩
  · show HeadAt body first (first + length - type.length) name (!!optional)
    rw [Bool.not_not, hfirst]
    exact headAt_of_drop hname hgap hdrop
  · show strip type = strip (slice body (first + length - type.length) (first + length))
    have hlast : first + length = body.length - (type ++ rest).length + type.length := by
      dsimp only at hlength
      omega
    rw [hfirst, hlast, slice_add, drop_of_drop_eq hdrop, List.take_left]
  · show first < first + length - type.length ∧ first + length - type.length ≤ first + length ∧
      first + length ≤ body.length
    dsimp only at hlength
    omega

theorem plainSites_apart (body : Text) :
    (plainSites body).Pairwise fun x y => x.last ≤ y.place := by
  apply List.Pairwise.map _ _ (scanned_places plainFieldShape body).apart
  intro hit hit' hle
  unfold Hit.last at hle
  show hit.first + hit.length ≤ hit'.first
  omega

/-- At a plain field stands the head of a field. -/
theorem exists_fieldHead? (hit_mem : hit ∈ places plainFieldShape body) :
    ∃ head, fieldHead? (body.drop hit.first) = some (head, 0) := by
  obtain ⟨-, -, hshape⟩ := (scanned_places plainFieldShape body).hit hit hit_mem
  simp only [plainFieldShape, Option.bind_eq_bind, Option.bind_eq_some_iff] at hshape
  obtain ⟨⟨name, rest⟩, hword, rest', hcolon, -⟩ := hshape
  have hword : word? (body.drop hit.first) = some (name, rest) := hword
  obtain ⟨⟨hne, hchars⟩, hs⟩ := named_split hword hcolon
  have hdoc : docComment? (body.drop hit.first) = none := by
    obtain ⟨c, tail, rfl⟩ := List.exists_cons_of_ne_nil hne
    have hslash : '/' ≠ c := by
      rintro rfl
      exact Bool.false_ne_true (hchars '/' List.mem_cons_self)
    rw [hs, docComment?]
    simp [after?, hslash]
  simp only [fieldHead?, hdoc, fieldName?, hword, Option.bind_eq_bind, Option.bind_some, hcolon]
  exact ⟨_, rfl⟩

/-- A hit that gives no field covers what is passed over. -/
theorem FieldFound.steppedOver {found : Hit (Option Property)} (h : FieldFound body found)
    (hvalue : found.value = none) (hfirst : found.first ≤ i) (hlast : i < found.last) :
    SteppedOver body i := by
  unfold Hit.last at hlast
  cases h with
  | @commented first lead head span hhead hmem hle hlt =>
    dsimp only at hfirst hlast
    by_cases hlead : i < first + lead
    · exact .documentation hhead hfirst hlead
    · exact .commented (covers_eq_true.mpr ⟨span, hmem, by omega, by omega⟩)
  | @typeless first lead head hhead htype =>
    obtain ⟨-, -, hplace, hrest⟩ := headAt_of_fieldHead? hhead
    rw [List.length_drop] at hlast
    dsimp only at hfirst hlast
    by_cases hlead : i < first + lead
    · exact .documentation hhead hfirst hlead
    · exact .typeless hhead htype (by omega) (by omega)
  | field => cases hvalue

/-- Where no documented field is found, the plain fields stand in what was passed over. -/
theorem steppedOver_of_mem_plainSites (hnone : documentedFields body = [])
    (h : site ∈ plainSites body) : SteppedOver body site.place := by
  obtain ⟨hit, hhit, rfl⟩ := List.mem_map.mp h
  obtain ⟨-, hlt, -⟩ := (scanned_places plainFieldShape body).hit hit hhit
  obtain ⟨head, hhead⟩ := exists_fieldHead? hhit
  have hscan := scanned_places (fieldShape (commentsIn body)) body
  show SteppedOver body hit.first
  obtain ⟨found, hfound, hfirst, hlast⟩ : ∃ found ∈ places (fieldShape (commentsIn body)) body,
      found.first ≤ hit.first ∧ hit.first < found.last := by
    -- A head that no hit covers would be a hit.
    by_contra hmissed
    have hshape := hscan.missed hit.first (Nat.zero_le _) hlt fun x hx hcover =>
      hmissed ⟨x, hx, hcover⟩
    rw [fieldShape_of_fieldHead? hhead] at hshape
    split at hshape <;> cases hshape
  apply (fieldFound_of_mem_places hfound).steppedOver _ hfirst hlast
  rw [documentedFields, ← commentsIn, ← map_value_places, List.filterMap_map,
    List.filterMap_eq_nil_iff] at hnone
  exact hnone found hfound

end Plain

/-- Where the declared fields of a body stand. -/
def fieldSites (body : Text) : List FieldSite :=
  match documentedSites body with
  | [] => plainSites body
  | sites => sites

theorem map_property_documentedSites (body : Text) :
    (documentedSites body).map FieldSite.property = documentedFields body := by
  have hvalue : ∀ hit ∈ places (fieldShape (commentsIn body)) body,
      (documentedSite? body hit).map FieldSite.property = hit.value := by
    intro hit hhit
    cases fieldFound_of_mem_places hhit with
    | commented => rfl
    | typeless => rfl
    | field hhead =>
      rw [documentedSite?, Option.bind_eq_bind, Option.bind_some, hhead]
      rfl
  rw [documentedSites, List.map_filterMap, List.filterMap_congr hvalue, documentedFields,
    ← commentsIn, ← map_value_places, List.filterMap_map]
  rfl

theorem map_property_plainSites (body : Text) :
    (plainSites body).map FieldSite.property = plainFields body := by
  rw [plainSites, plainFields, ← map_value_places, List.map_map, List.map_map]
  rfl

/-- Each declared property has its field in the body, one after the other. Where a documented field
is found, none is in a comment, and one is nested exactly if a bracket that was opened outside of
the types is open around it. Where none is found, all stand in what the first search passed over. -/
theorem declaredProperties_sites {code name body : Text}
    (h : blockAfter? curly (declarationMarker name) code = some body) :
    declaredProperties code name = (fieldSites body).map FieldSite.property ∧
      (∀ site ∈ fieldSites body, site.StandsIn body) ∧
      (fieldSites body).Pairwise (fun x y => x.last ≤ y.place) ∧
      (documentedFields body ≠ [] → ∀ site ∈ fieldSites body, ¬InComment body site.place ∧
        (UncommentedTypes body →
          (TopLevel body site.place ↔ openOutsideTypes body site.place = []))) ∧
      (documentedFields body = [] → ∀ site ∈ fieldSites body, SteppedOver body site.place) := by
  have hfields := map_property_documentedSites body
  cases hsites : documentedSites body with
  | nil =>
    have hnone : documentedFields body = [] := by
      rw [← hfields, hsites]
      rfl
    have hplain : fieldSites body = plainSites body := by rw [fieldSites, hsites]
    have hdeclared : declaredProperties code name = plainFields body := by
      simp only [declaredProperties, h, hnone]
    rw [hplain]
    refine ⟨hdeclared.trans (map_property_plainSites body).symm,
      fun site => standsIn_of_mem_plainSites, plainSites_apart body, ?_, ?_⟩
    · intro hne
      exact absurd hnone hne
    · intro _ site hsite
      exact steppedOver_of_mem_plainSites hnone hsite
  | cons first more =>
    have hsome : documentedFields body ≠ [] := by
      rw [← hfields, hsites]
      exact List.cons_ne_nil _ _
    have hdocumented : fieldSites body = documentedSites body := by rw [fieldSites, hsites]
    have hdeclared : declaredProperties code name = documentedFields body := by
      simp only [declaredProperties, h]
    rw [hdocumented]
    refine ⟨hdeclared.trans hfields.symm, fun site => standsIn_of_mem_documentedSites,
      documentedSites_apart body, ?_, ?_⟩
    · intro _ site hsite
      obtain ⟨_, _, _, -, houtside, rfl⟩ := exists_of_mem_documentedSites hsite
      exact ⟨houtside, fun htypes => topLevel_iff_of_mem_documentedSites htypes hsite⟩
    · intro hnone
      exact absurd hnone hsome

/-- The parameter of a method is reported, a commented field and the members of an object type are
not. Where all that a body has is a commented field, it is reported. -/
theorem declaredProperties_sites_method_and_comment :
    (let body := " on(item: Item): void;\n// size: A;\nat?: \x7b x: B \x7d; ".toList
      let code := "type P = \x7b".toList ++ (body ++ "\x7d;".toList)
      blockAfter? curly (declarationMarker "P".toList) code = some body ∧
        documentedFields body ≠ [] ∧ UncommentedTypes body ∧
        (declaredProperties code "P".toList).map Property.name = ["item".toList, "at".toList] ∧
        (∀ site ∈ fieldSites body, ¬InComment body site.place ∧
          (TopLevel body site.place ↔ openOutsideTypes body site.place = [])) ∧
        (fieldSites body).map (fun site => openOutsideTypes body site.place) = [[')'], []]) ∧
    (let body := "// size: A;\n".toList
      let code := "type P = \x7b".toList ++ (body ++ "\x7d;".toList)
      blockAfter? curly (declarationMarker "P".toList) code = some body ∧
        documentedFields body = [] ∧
        (declaredProperties code "P".toList).map Property.name = ["size".toList] ∧
        (∀ site ∈ fieldSites body, SteppedOver body site.place) ∧
        ∀ site ∈ fieldSites body, InComment body site.place) := by
  constructor
  · intro body code
    have hbody : blockAfter? curly (declarationMarker "P".toList) code = some body := by
      decide +kernel
    have hsome : documentedFields body ≠ [] := by decide +kernel
    have htypes : UncommentedTypes body := by decide +kernel
    have hopen : (fieldSites body).map (fun site => openOutsideTypes body site.place) =
        [[')'], []] := by decide +kernel
    have hnames : ((fieldSites body).map FieldSite.property).map Property.name =
        ["item".toList, "at".toList] := by decide +kernel
    obtain ⟨hdeclared, -, -, hsites, -⟩ := declaredProperties_sites hbody
    rw [← hdeclared] at hnames
    refine ⟨hbody, hsome, htypes, hnames, ?_, hopen⟩
    intro site hsite
    obtain ⟨houtside, htop⟩ := hsites hsome site hsite
    exact ⟨houtside, htop htypes⟩
  · intro body code
    have hbody : blockAfter? curly (declarationMarker "P".toList) code = some body := by
      decide +kernel
    have hnone : documentedFields body = [] := by decide +kernel
    have hcomment : ∀ site ∈ fieldSites body, InComment body site.place := by decide +kernel
    have hnames : ((fieldSites body).map FieldSite.property).map Property.name =
        ["size".toList] := by decide +kernel
    obtain ⟨hdeclared, -, -, -, hpassed⟩ := declaredProperties_sites hbody
    rw [← hdeclared] at hnames
    exact ⟨hbody, hnone, hnames, hpassed hnone, hcomment⟩

end ComponentCatalog.Component
