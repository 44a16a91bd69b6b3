import ComponentCatalog.Document.Element
import ComponentCatalog.Proofs.Parts
import ComponentCatalog.Proofs.Phrases

/-!
Tags in markup. The tags of a name are read from left to right, each from where the one before it
ends; opening tags count up and closing tags count down.
-/
namespace ComponentCatalog.Document

open Text

/-- A tag: a name that no word character continues, and attributes up to the first `>`. -/
structure Tag where
  closes : Bool
  name : Text
  attributes : Text
  name_ne_nil : name ≠ []
  name_word : ∀ c ∈ name, isWord c = true
  name_ends : attributes.head?.any isWord = false
  attributes_open : '>' ∉ attributes

namespace Tag

/-- The text of the tag before its `>`. -/
def inside (tag : Tag) : Text :=
  '<' :: ((if tag.closes then ['/'] else []) ++ (tag.name ++ tag.attributes))

def text (tag : Tag) : Text := tag.inside ++ ['>']

/-- The tag ends in `/>`. -/
def SelfCloses (tag : Tag) : Prop := tag.inside.getLast? = some '/'

instance (tag : Tag) : Decidable tag.SelfCloses := inferInstanceAs (Decidable (_ = _))

/-- An opening tag that does not close itself. -/
def Opens (tag : Tag) : Prop := tag.closes = false ∧ ¬tag.SelfCloses

/-- What the tag adds to the number of open elements of its name. -/
def change (tag : Tag) : Int := if tag.closes then -1 else if tag.SelfCloses then 0 else 1

end Tag

/-- The tags of a name in a text that begins at `offset`: what each adds, and where it ends. -/
inductive TagsOf (name : Text) : (offset : Nat) → Text → List (Int × Nat) → Prop where
  | nil {offset : Nat} : TagsOf name offset [] []
  | pass {offset : Nat} {c : Char} {rest : Text} {tags : List (Int × Nat)} :
      (∀ tag : Tag, tag.name = name → ¬tag.text <+: c :: rest) →
      TagsOf name (offset + 1) rest tags → TagsOf name offset (c :: rest) tags
  | tag {offset : Nat} {rest : Text} {tags : List (Int × Nat)} (tag : Tag) : tag.name = name →
      TagsOf name (offset + tag.text.length) rest tags →
      TagsOf name offset (tag.text ++ rest) ((tag.change, offset + tag.text.length) :: tags)

/-- A count from `depth` on to which the tags add one after another is zero for the first time with
the tag that ends at `last`. -/
inductive ZeroAt : (depth : Int) → List (Int × Nat) → (last : Nat) → Prop where
  | here {depth change : Int} {last : Nat} {tags : List (Int × Nat)} :
      depth + change = 0 → ZeroAt depth ((change, last) :: tags) last
  | later {depth change : Int} {last last' : Nat} {tags : List (Int × Nat)} :
      depth + change ≠ 0 → ZeroAt (depth + change) tags last →
      ZeroAt depth ((change, last') :: tags) last

/-- The tags of the name from `first` on count up and down to zero for the first time at `last`. -/
def Balances (name s : Text) (first last : Nat) : Prop :=
  ∃ tags, TagsOf name first (s.drop first) tags ∧ ZeroAt 0 tags last

namespace Tag

variable {tag : Tag} {rest : Text}

theorem notMem_inside (tag : Tag) : '>' ∉ tag.inside := by
  have hname : '>' ∉ tag.name := fun h => Bool.false_ne_true (tag.name_word '>' h)
  have hslash : '>' ∉ if tag.closes then ['/'] else [] := by
    split <;> decide
  simp [inside, hname, hslash, tag.attributes_open]

theorem text_append (tag : Tag) (rest : Text) : tag.text ++ rest = tag.inside ++ '>' :: rest := by
  rw [text, List.append_assoc, List.singleton_append]

theorem length_text (tag : Tag) : tag.text.length = tag.inside.length + 1 := by
  rw [text, List.length_append, List.length_singleton]

theorem cutTag?_text (tag : Tag) (rest : Text) :
    cutTag? (tag.text ++ rest) = some (tag.inside, rest) := by
  rw [text_append, cutTag?]
  exact cut?_append tag.notMem_inside

theorem isSelfClosing_inside (tag : Tag) : isSelfClosing tag.inside = true ↔ tag.SelfCloses := by
  rw [SelfCloses, isSelfClosing, endsWith, startsWith, ← List.head?_reverse]
  generalize tag.inside.reverse = s
  cases s with
  | nil => simp [after?]
  | cons c s =>
    by_cases h : '/' = c
    · subst h
      simp [after?]
    · simp [after?, h, Ne.symm h]

/-- What follows the name of a tag begins with no word character. -/
theorem head?_attributes (tag : Tag) (rest : Text) :
    (tag.attributes ++ '>' :: rest).head?.any isWord = false := by
  cases h : tag.attributes with
  | nil => rfl
  | cons c s =>
    have hends := tag.name_ends
    rwa [h] at hends

theorem openName?_text (h : tag.closes = false) (rest : Text) :
    openName? (tag.text ++ rest) = some tag.name := by
  have hsplit : tag.text ++ rest = '<' :: (tag.name ++ (tag.attributes ++ '>' :: rest)) := by
    simp [text_append, inside, h]
  have hword := word?_append tag.name_ne_nil tag.name_word (tag.head?_attributes rest)
  rw [hsplit, openName?]
  simp [after?, hword]

end Tag

theorem notMem_of_cut? {c : Char} {s inside rest : Text} (h : cut? [c] s = some (inside, rest)) :
    c ∉ inside := by
  induction s generalizing inside with
  | nil => cases h
  | cons d s ih =>
    by_cases hd : d = c
    · subst hd
      have hcut : cut? [d] (d :: s) = some ([], s) := cut?_append (s := []) List.not_mem_nil
      rw [hcut] at h
      cases h
      exact List.not_mem_nil
    · rw [cut?_cons (startsWith_cons_of_ne hd)] at h
      obtain ⟨⟨inside', rest'⟩, hcut, heq⟩ := Option.map_eq_some_iff.mp h
      cases heq
      rw [List.mem_cons, not_or]
      exact ⟨Ne.symm hd, ih hcut⟩

/-- A tag stands where its mark and its name stand and a `>` follows. -/
theorem exists_tag {closes : Bool} {name after s inside rest : Text} (hne : name ≠ [])
    (hword : ∀ c ∈ name, isWord c = true) (hends : after.head?.any isWord = false)
    (hs : s = '<' :: ((if closes then ['/'] else []) ++ (name ++ after)))
    (hcut : cutTag? s = some (inside, rest)) :
    ∃ tag : Tag, tag.closes = closes ∧ tag.name = name ∧ tag.inside = inside ∧
      s = tag.text ++ rest := by
  have hsplit : s = inside ++ '>' :: rest := cut?_eq_some hcut
  have hinside : '>' ∉ inside := notMem_of_cut? hcut
  have hlead : '>' ∉ '<' :: ((if closes then ['/'] else []) ++ name) := by
    have hname : '>' ∉ name := fun h => Bool.false_ne_true (hword '>' h)
    cases closes <;> simp [hname]
  have hprefix : '<' :: ((if closes then ['/'] else []) ++ name) <+: inside ++ '>' :: rest :=
    ⟨after, by rw [← hsplit, hs, List.cons_append, List.append_assoc]⟩
  obtain ⟨attributes, hattributes⟩ := prefix_of_notMem hprefix hlead
  have hafter : after = attributes ++ '>' :: rest := by
    rw [hs, ← hattributes] at hsplit
    simpa using hsplit
  have hhead : attributes.head?.any isWord = false := by
    rw [hafter] at hends
    cases attributes with
    | nil => rfl
    | cons c attributes => exact hends
  have hopen : '>' ∉ attributes := fun h => hinside (hattributes ▸ List.mem_append_right _ h)
  let tag : Tag := ⟨closes, name, attributes, hne, hword, hhead, hopen⟩
  have htag : tag.inside = inside := by
    rw [← hattributes, List.cons_append, List.append_assoc]
    rfl
  exact ⟨tag, rfl, rfl, htag, by rw [tag.text_append, htag, hsplit]⟩

section TagsOf

variable {name : Text} {at_ : Cursor}

theorem tagShape_text (tag : Tag) (offset : Nat) (previous : Option Char) (rest : Text) :
    tagShape tag.name ⟨offset, previous, tag.text ++ rest⟩ =
      some ((tag.change, offset + tag.text.length), tag.text.length) := by
  have hname : afterName? tag.name (tag.name ++ (tag.attributes ++ '>' :: rest)) =
      some (tag.attributes ++ '>' :: rest) :=
    (afterName?_eq_some tag.name_ne_nil tag.name_word).mpr ⟨rfl, tag.head?_attributes rest⟩
  have hafter : after? ['<'] (tag.text ++ rest) = some ((if tag.closes then ['/'] else []) ++
      (tag.name ++ (tag.attributes ++ '>' :: rest))) := by
    rw [after?_eq_some]
    simp [Tag.text_append, Tag.inside]
  simp only [tagShape, hafter, tag.cutTag?_text rest, Tag.length_text, Tag.change,
    ← tag.isSelfClosing_inside, Option.bind_eq_bind, Option.bind_some]
  cases tag.closes with
  | true =>
    simp only [if_true, after?_append, hname, Option.bind_some]
    rfl
  | false =>
    have hslash : after? ['/'] (tag.name ++ (tag.attributes ++ '>' :: rest)) = none := by
      rw [Option.eq_none_iff_forall_ne_some]
      intro rest' h
      have hhead : tag.name.head? = some '/' := by
        rw [← List.head?_append_of_ne_nil _ tag.name_ne_nil, after?_eq_some.mp h]
        rfl
      exact Bool.false_ne_true (tag.name_word '/' (List.mem_of_mem_head? hhead))
    simp only [Bool.false_eq_true, if_false, List.nil_append, hslash, hname, Option.bind_some]
    rfl

theorem exists_tag_of_tagShape {found : (Int × Nat) × Nat} (hne : name ≠ [])
    (hword : ∀ c ∈ name, isWord c = true) (h : tagShape name at_ = some found) :
    ∃ (tag : Tag) (rest : Text), tag.name = name ∧ at_.rest = tag.text ++ rest := by
  simp only [tagShape, Option.bind_eq_bind, Option.bind_eq_some_iff] at h
  obtain ⟨mark, hmark, after, hname, ⟨inside, rest⟩, hcut, -⟩ := h
  have hnamed : ∃ (closes : Bool) (named : Text),
      mark = (if closes then ['/'] else []) ++ named ∧ afterName? name named = some after := by
    split at hname
    next named hslash => exact ⟨true, named, after?_eq_some.mp hslash, hname⟩
    next => exact ⟨false, mark, rfl, hname⟩
  obtain ⟨closes, named, rfl, hnamed⟩ := hnamed
  obtain ⟨rfl, hends⟩ := (afterName?_eq_some hne hword).mp hnamed
  obtain ⟨tag, -, htag, -, hrest⟩ :=
    exists_tag hne hword hends (after?_eq_some.mp hmark) hcut
  exact ⟨tag, rest, htag, hrest⟩

variable {offset k : Nat} {s : Text} {tags tags' : List (Int × Nat)}

/-- A scan for the tags of a name finds them. -/
theorem tagsOf_hitsFrom (hne : name ≠ []) (hword : ∀ c ∈ name, isWord c = true) (offset : Nat)
    (previous : Option Char) (s : Text) :
    TagsOf name offset s (hitsFrom (tagShape name) 0 offset previous s) := by
  induction hlength : s.length using Nat.strong_induction_on generalizing offset previous s with
  | h n ih =>
  subst hlength
  cases s with
  | nil => exact .nil
  | cons c t =>
    cases hshape : tagShape name ⟨offset, previous, c :: t⟩ with
    | none =>
      rw [hitsFrom, hshape]
      refine .pass ?_ (ih t.length (Nat.lt_succ_self _) _ _ t rfl)
      rintro tag rfl ⟨rest, hrest⟩
      rw [← hrest, tagShape_text] at hshape
      cases hshape
    | some found =>
      obtain ⟨tag, rest, rfl, hrest⟩ := exists_tag_of_tagShape hne hword hshape
      have hrest : c :: t = tag.text ++ rest := hrest
      have hlt : rest.length < (c :: t).length := by
        rw [hrest, List.length_append, tag.length_text]
        omega
      rw [hrest, hitsFrom_hit (by simp [Tag.text]) (tagShape_text tag offset previous rest)]
      exact .tag tag rfl (ih rest.length hlt _ _ rest rfl)

/-- What a tag of the name is and takes is told by the text. -/
theorem Tag.congr {tag tag' : Tag} {rest rest' : Text} (hname : tag.name = tag'.name)
    (h : tag.text ++ rest = tag'.text ++ rest') :
    tag.change = tag'.change ∧ tag.text.length = tag'.text.length ∧ rest = rest' := by
  have hshape := tagShape_text tag 0 none rest
  rw [h, hname, tagShape_text, Option.some_inj] at hshape
  injection hshape with hfound hlength
  injection hfound with hchange
  exact ⟨hchange.symm, hlength.symm, (List.append_inj h hlength.symm).2⟩

theorem TagsOf.unique (h : TagsOf name offset s tags) (h' : TagsOf name offset s tags') :
    tags = tags' := by
  induction h generalizing tags' with
  | nil =>
    generalize hs : ([] : Text) = s at h'
    cases h' with
    | nil => rfl
    | pass => cases hs
    | tag tag => simp [Tag.text] at hs
  | @pass offset c rest tags hnone _ ih =>
    generalize hs : c :: rest = s at h'
    cases h' with
    | nil => cases hs
    | pass _ h' =>
      cases hs
      exact ih h'
    | @tag _ rest' _ tag hname => exact absurd ⟨rest', hs.symm⟩ (hnone tag hname)
  | @tag offset rest tags tag hname _ ih =>
    generalize hs : tag.text ++ rest = s at h'
    cases h' with
    | nil => simp [Tag.text] at hs
    | pass hnone => exact absurd ⟨rest, hs⟩ (hnone tag hname)
    | tag tag' hname' h' =>
      obtain ⟨hchange, hlength, rfl⟩ := Tag.congr (hname.trans hname'.symm) hs
      rw [← hlength] at h'
      rw [ih h', hchange, hlength]

/-- Places are told from the beginning of the text. -/
theorem TagsOf.shift (h : TagsOf name offset s tags) (k : Nat) :
    TagsOf name (k + offset) s (tags.map fun tag => (tag.1, k + tag.2)) := by
  induction h with
  | nil => exact .nil
  | pass hnone _ ih => exact .pass hnone ih
  | tag tag hname _ ih =>
    rw [List.map_cons, ← Nat.add_assoc]
    rw [← Nat.add_assoc] at ih
    exact .tag tag hname ih

theorem Tag.neg_one_le_change (tag : Tag) : -1 ≤ tag.change := by
  unfold Tag.change
  split
  · exact Int.le_refl _
  · split <;> omega

theorem TagsOf.neg_one_le (h : TagsOf name offset s tags) : ∀ tag ∈ tags, -1 ≤ tag.1 := by
  induction h with
  | nil => exact List.forall_mem_nil _
  | pass _ _ ih => exact ih
  | tag tag _ _ ih => exact List.forall_mem_cons.mpr ⟨tag.neg_one_le_change, ih⟩

theorem TagsOf.last_le (h : TagsOf name offset s tags) :
    ∀ tag ∈ tags, tag.2 ≤ offset + s.length := by
  induction h with
  | nil => exact List.forall_mem_nil _
  | pass _ _ ih =>
    intro tag hmem
    have hle := ih tag hmem
    rw [List.length_cons]
    omega
  | tag tag _ _ ih =>
    rw [List.length_append]
    refine List.forall_mem_cons.mpr ⟨?_, fun found hmem => ?_⟩
    · dsimp only
      omega
    · have hle := ih found hmem
      omega

end TagsOf

section Count

variable {depth : Int} {last k : Nat} {tags : List (Int × Nat)}

/-- From a positive depth, down by one at most at a time, the count comes to zero with a closing
tag. -/
theorem balancedEnd?_eq_some_iff (hdepth : 0 < depth) (htags : ∀ tag ∈ tags, -1 ≤ tag.1) :
    balancedEnd? depth tags = some last ↔ ZeroAt depth tags last := by
  induction tags generalizing depth with
  | nil =>
    constructor
    · intro h
      cases h
    · intro h
      cases h
  | cons tag tags ih =>
    obtain ⟨change, place⟩ := tag
    obtain ⟨hchange, htags⟩ := List.forall_mem_cons.mp htags
    dsimp only at hchange
    rw [balancedEnd?]
    by_cases hzero : depth + change = 0
    · rw [if_pos ⟨by omega, hzero⟩, Option.some_inj]
      constructor
      · rintro rfl
        exact .here hzero
      · intro h
        cases h with
        | here => rfl
        | later hne => exact absurd hzero hne
    · rw [if_neg fun h => hzero h.2, ih (by omega) htags]
      constructor
      · exact .later hzero
      · intro h
        cases h with
        | here h => exact absurd h hzero
        | later _ h => exact h

theorem zeroAt_shift :
    ZeroAt depth (tags.map fun tag => (tag.1, k + tag.2)) last ↔
      ∃ place, ZeroAt depth tags place ∧ last = k + place := by
  induction tags generalizing depth with
  | nil =>
    constructor
    · intro h
      cases h
    · rintro ⟨_, h, -⟩
      cases h
  | cons tag tags ih =>
    obtain ⟨change, place⟩ := tag
    rw [List.map_cons]
    dsimp only
    constructor
    · intro h
      cases h with
      | here hzero => exact ⟨place, .here hzero, rfl⟩
      | later hne h =>
        obtain ⟨place', hplace, rfl⟩ := ih.mp h
        exact ⟨place', .later hne hplace, rfl⟩
    · rintro ⟨place', h, rfl⟩
      cases h with
      | here hzero => exact .here hzero
      | later hne h =>
        apply ZeroAt.later hne
        exact ih.mpr ⟨place', h, rfl⟩

theorem ZeroAt.mem (h : ZeroAt depth tags last) : ∃ tag ∈ tags, tag.2 = last := by
  induction h with
  | here => exact ⟨_, List.mem_cons_self, rfl⟩
  | later _ _ ih =>
    obtain ⟨tag, hmem, hlast⟩ := ih
    exact ⟨tag, .tail _ hmem, hlast⟩

end Count

theorem Balances.last_le {name s : Text} {first last : Nat} (h : Balances name s first last)
    (hfirst : first ≤ s.length) : last ≤ s.length := by
  obtain ⟨tags, htags, hzero⟩ := h
  obtain ⟨tag, hmem, rfl⟩ := hzero.mem
  have hle := htags.last_le tag hmem
  rw [List.length_drop] at hle
  omega

/-- From an opening tag on the count comes to zero where its closing tag is found. -/
theorem balances_iff {tag : Tag} (hopens : tag.Opens) {s rest : Text} {first last : Nat}
    (hs : s.drop first = tag.text ++ rest) :
    Balances tag.name s first last ↔
      ∃ tail, matchingClose? tag.name rest = some tail ∧ last = first + tag.text.length + tail := by
  have htags := tagsOf_hitsFrom tag.name_ne_nil tag.name_word 0 none rest
  have hall : TagsOf tag.name first (tag.text ++ rest) _ :=
    .tag tag rfl (htags.shift (first + tag.text.length))
  have hchange : tag.change = 1 := by
    rw [Tag.change, hopens.1, if_neg Bool.false_ne_true, if_neg hopens.2]
  -- The opening tag counts up to one, from where the search for the closing tag goes on.
  have hcount : Balances tag.name s first last ↔
      ZeroAt 1 ((hits (tagShape tag.name) rest).map fun found =>
        (found.1, first + tag.text.length + found.2)) last := by
    rw [hchange] at hall
    constructor
    · rintro ⟨tags, h, hzero⟩
      rw [hs] at h
      obtain rfl := hall.unique h
      cases hzero with
      | here h => cases h
      | later _ hzero => exact hzero
    · intro hzero
      exact ⟨_, hs ▸ hall, .later (by decide) hzero⟩
  have hdown : ∀ found ∈ hits (tagShape tag.name) rest, -1 ≤ found.1 := htags.neg_one_le
  rw [hcount, zeroAt_shift]
  simp only [matchingClose?, balancedEnd?_eq_some_iff Int.one_pos hdown]

end ComponentCatalog.Document
