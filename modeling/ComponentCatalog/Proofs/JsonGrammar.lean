import ComponentCatalog.Json.Reader

/-!
The grammar of JSON documents, rule by rule, and what is left of a document without its strings: its
words are `true`, `false` and `null`, so no capital letter other than that of an exponent is left.
-/
namespace ComponentCatalog.Json

namespace Grammar

/-- Blanks between the other parts. -/
def IsSpace (w : Text) : Prop := ∀ c ∈ w, isJsonBlank c = true

def IsDigits (ds : Text) : Prop := ds ≠ [] ∧ ∀ c ∈ ds, c.isDigit = true

/-- A zero alone, or digits that begin with none. -/
def IsWhole (t : Text) : Prop := t = ['0'] ∨ IsDigits t ∧ t.head? ≠ some '0'

def IsFraction (t : Text) : Prop := t = [] ∨ ∃ ds, IsDigits ds ∧ t = '.' :: ds

def IsExponent (t : Text) : Prop :=
  t = [] ∨ ∃ e sign ds, (e = 'e' ∨ e = 'E') ∧ (sign = [] ∨ sign = ['+'] ∨ sign = ['-']) ∧
    IsDigits ds ∧ t = e :: sign ++ ds

/-- A number without its sign. -/
def IsUnsigned (t : Text) : Prop :=
  ∃ whole fraction exponent, IsWhole whole ∧ IsFraction fraction ∧ IsExponent exponent ∧
    t = whole ++ fraction ++ exponent

def IsNumber (t : Text) : Prop := IsUnsigned t ∨ ∃ u, IsUnsigned u ∧ t = '-' :: u

def IsHex (c : Char) : Prop := (Number.hexValue? c).isSome = true

/-- The characters of a string: themselves, or as an escape. -/
inductive IsChars : Text → Prop where
  | nil : IsChars []
  | plain {c : Char} {rest : Text} : 0x20 ≤ c.toNat → c ≠ '"' → c ≠ '\\' → IsChars rest →
      IsChars (c :: rest)
  | escape {c : Char} {rest : Text} : c ∈ ['"', '\\', '/', 'b', 'f', 'n', 'r', 't'] →
      IsChars rest → IsChars ('\\' :: c :: rest)
  | unit {a b c d : Char} {rest : Text} : IsHex a → IsHex b → IsHex c → IsHex d → IsChars rest →
      IsChars ('\\' :: 'u' :: a :: b :: c :: d :: rest)

def IsString (t : Text) : Prop := ∃ chars, IsChars chars ∧ t = '"' :: chars ++ ['"']

/-- The parts of a document that may hold values: a value, a value between blanks, and such elements
or the members of an object, with commas between them. -/
inductive Part where
  | value | element | elements | members

/-- The text is such a part. -/
inductive Derives : Part → Text → Prop where
  | word {t : Text} : t ∈ ["true".toList, "false".toList, "null".toList] → Derives .value t
  | number {t : Text} : IsNumber t → Derives .value t
  | string {t : Text} : IsString t → Derives .value t
  | emptyList {w : Text} : IsSpace w → Derives .value ('[' :: w ++ [']'])
  | list {t : Text} : Derives .elements t → Derives .value ('[' :: t ++ [']'])
  | emptyObject {w : Text} : IsSpace w → Derives .value ('\x7b' :: w ++ ['\x7d'])
  | object {t : Text} : Derives .members t → Derives .value ('\x7b' :: t ++ ['\x7d'])
  | element {w t w' : Text} : IsSpace w → Derives .value t → IsSpace w' →
      Derives .element (w ++ t ++ w')
  | lastElement {t : Text} : Derives .element t → Derives .elements t
  | moreElements {t rest : Text} : Derives .element t → Derives .elements rest →
      Derives .elements (t ++ ',' :: rest)
  | lastMember {w name w' t : Text} : IsSpace w → IsString name → IsSpace w' →
      Derives .element t → Derives .members (w ++ name ++ w' ++ ':' :: t)
  | moreMembers {w name w' t rest : Text} : IsSpace w → IsString name → IsSpace w' →
      Derives .element t → Derives .members rest →
      Derives .members (w ++ name ++ w' ++ ':' :: t ++ ',' :: rest)

theorem IsChars.append {t u : Text} (ht : IsChars t) (hu : IsChars u) : IsChars (t ++ u) := by
  induction ht with
  | nil => exact hu
  | plain hlow hquote hslash _ ih => exact .plain hlow hquote hslash ih
  | escape hc _ ih => exact .escape hc ih
  | unit ha hb hc hd _ ih => exact .unit ha hb hc hd ih

end Grammar

open Grammar

/-- The text is a JSON document: one value with blanks around it. -/
def IsDocument (t : Text) : Prop := Derives .element t

namespace Grammar

/-- Where in a document a character stands. -/
inductive Place where
  | outside | inside
  /-- After the backslash of an escape. -/
  | escaped
  deriving DecidableEq

/-- The characters that stand outside of strings. -/
def bare : Place → Text → Text
  | _, [] => []
  | .outside, c :: rest => if c = '"' then bare .inside rest else c :: bare .outside rest
  | .inside, c :: rest =>
    if c = '"' then bare .outside rest
    else if c = '\\' then bare .escaped rest
    else bare .inside rest
  | .escaped, _ :: rest => bare .inside rest

/-- The text ends outside of strings, and without them is `u`. -/
def Bares (t u : Text) : Prop := ∀ rest, bare .outside (t ++ rest) = u ++ bare .outside rest

theorem Bares.append {t t' u u' : Text} (h : Bares t u) (h' : Bares t' u') :
    Bares (t ++ t') (u ++ u') := by
  intro rest
  rw [List.append_assoc, h, h', List.append_assoc]

theorem Bares.bare_eq {t u : Text} (h : Bares t u) : bare .outside t = u := by
  have hnil := h []
  rwa [List.append_nil, bare, List.append_nil] at hnil

theorem bares_self {t : Text} (h : '"' ∉ t) : Bares t t := by
  intro rest
  induction t with
  | nil => rfl
  | cons c t ih =>
    have hc : c ≠ '"' := fun heq => h (heq ▸ List.mem_cons_self)
    rw [List.cons_append, bare, if_neg hc, ih fun hmem => h (.tail _ hmem), List.cons_append]

/-- Inside a string, a character other than a quotation mark or a backslash leaves it inside. -/
theorem bare_inside_cons {c : Char} (hquote : c ≠ '"') (hslash : c ≠ '\\') (rest : Text) :
    bare .inside (c :: rest) = bare .inside rest := by
  rw [bare, if_neg hquote, if_neg hslash]

theorem bare_inside_escape (c : Char) (rest : Text) :
    bare .inside ('\\' :: c :: rest) = bare .inside rest := rfl

theorem IsHex.ne_quote {c : Char} (h : IsHex c) : c ≠ '"' := by
  rintro rfl
  cases h

theorem IsHex.ne_backslash {c : Char} (h : IsHex c) : c ≠ '\\' := by
  rintro rfl
  cases h

theorem IsChars.bare_inside {chars : Text} (h : IsChars chars) (rest : Text) :
    bare .inside (chars ++ rest) = bare .inside rest := by
  induction h with
  | nil => rfl
  | plain _ hquote hslash _ ih =>
    rw [List.cons_append, bare_inside_cons hquote hslash, ih]
  | escape _ _ ih => rw [List.cons_append, List.cons_append, bare_inside_escape, ih]
  | unit ha hb hc hd _ ih =>
    simp only [List.cons_append]
    rw [bare_inside_escape, bare_inside_cons ha.ne_quote ha.ne_backslash,
      bare_inside_cons hb.ne_quote hb.ne_backslash, bare_inside_cons hc.ne_quote hc.ne_backslash,
      bare_inside_cons hd.ne_quote hd.ne_backslash, ih]

theorem IsString.bares {t : Text} (h : IsString t) : Bares t [] := by
  obtain ⟨chars, hchars, rfl⟩ := h
  intro rest
  rw [List.cons_append, List.cons_append, bare, if_pos rfl, List.append_assoc, hchars.bare_inside,
    List.singleton_append, bare, if_pos rfl, List.nil_append]

/-- Without its strings the text has no letter of the words for what is not finite. -/
def IsTame (t : Text) : Prop := ∃ u, Bares t u ∧ ∀ c ∈ u, c ≠ 'I' ∧ c ≠ 'N'

theorem IsTame.append {t t' : Text} (h : IsTame t) (h' : IsTame t') : IsTame (t ++ t') := by
  obtain ⟨u, hbares, hu⟩ := h
  obtain ⟨u', hbares', hu'⟩ := h'
  exact ⟨u ++ u', hbares.append hbares', List.forall_mem_append.mpr ⟨hu, hu'⟩⟩

theorem isTame_of_forall {t : Text} (h : ∀ c ∈ t, c ≠ '"' ∧ c ≠ 'I' ∧ c ≠ 'N') : IsTame t :=
  ⟨t, bares_self fun hquote => (h _ hquote).1 rfl, fun c hc => (h c hc).2⟩

theorem IsString.isTame {t : Text} (h : IsString t) : IsTame t :=
  ⟨[], h.bares, fun c hc => by cases hc⟩

theorem IsSpace.isTame {w : Text} (h : IsSpace w) : IsTame w := by
  apply isTame_of_forall
  intro c hc
  have hblank := h c hc
  refine ⟨?_, ?_, ?_⟩ <;> rintro rfl <;> exact absurd hblank (by decide)

/-- The character may stand in a number. -/
def isNumberChar (c : Char) : Bool := c.isDigit || c ∈ ['-', '+', '.', 'e', 'E']

theorem IsDigits.isNumberChar {ds : Text} (h : IsDigits ds) : ∀ c ∈ ds, isNumberChar c = true := by
  intro c hc
  simp [Grammar.isNumberChar, h.2 c hc]

theorem IsUnsigned.isNumberChar {t : Text} (h : IsUnsigned t) :
    ∀ c ∈ t, isNumberChar c = true := by
  obtain ⟨whole, fraction, exponent, hwhole, hfraction, hexponent, rfl⟩ := h
  simp only [List.forall_mem_append]
  refine ⟨⟨?_, ?_⟩, ?_⟩
  · rcases hwhole with rfl | ⟨hdigits, -⟩
    · simp [Grammar.isNumberChar]
    · exact hdigits.isNumberChar
  · rcases hfraction with rfl | ⟨ds, hdigits, rfl⟩
    · simp
    · exact List.forall_mem_cons.mpr ⟨rfl, hdigits.isNumberChar⟩
  · rcases hexponent with rfl | ⟨e, sign, ds, he, hsign, hdigits, rfl⟩
    · simp
    · simp only [List.forall_mem_append, List.forall_mem_cons]
      refine ⟨⟨?_, ?_⟩, hdigits.isNumberChar⟩
      · rcases he with rfl | rfl <;> rfl
      · rcases hsign with rfl | rfl | rfl <;> simp [Grammar.isNumberChar]

theorem IsNumber.isNumberChar {t : Text} (h : IsNumber t) : ∀ c ∈ t, isNumberChar c = true := by
  rcases h with hunsigned | ⟨u, hunsigned, rfl⟩
  · exact hunsigned.isNumberChar
  · exact List.forall_mem_cons.mpr ⟨rfl, hunsigned.isNumberChar⟩

theorem IsNumber.isTame {t : Text} (h : IsNumber t) : IsTame t := by
  apply isTame_of_forall
  intro c hc
  have hnumber := h.isNumberChar c hc
  refine ⟨?_, ?_, ?_⟩ <;> rintro rfl <;> exact absurd hnumber (by decide)

theorem isTame_singleton {c : Char} (h : c ≠ '"' ∧ c ≠ 'I' ∧ c ≠ 'N') : IsTame [c] :=
  isTame_of_forall (List.forall_mem_singleton.mpr h)

/-- Every part of a document is tame. -/
theorem Derives.isTame {part : Part} {t : Text} (h : Derives part t) : IsTame t := by
  have hcomma : IsTame [','] := isTame_singleton (by decide)
  have hcolon : IsTame [':'] := isTame_singleton (by decide)
  have hbracket : IsTame ['['] ∧ IsTame [']'] :=
    ⟨isTame_singleton (by decide), isTame_singleton (by decide)⟩
  have hbrace : IsTame ['\x7b'] ∧ IsTame ['\x7d'] :=
    ⟨isTame_singleton (by decide), isTame_singleton (by decide)⟩
  induction h with
  | word hword =>
    simp only [List.mem_cons, List.not_mem_nil, or_false] at hword
    rcases hword with rfl | rfl | rfl <;> exact isTame_of_forall (by simp)
  | number h => exact h.isTame
  | string h => exact h.isTame
  | emptyList hw => exact (hbracket.1.append hw.isTame).append hbracket.2
  | list _ ih => exact (hbracket.1.append ih).append hbracket.2
  | emptyObject hw => exact (hbrace.1.append hw.isTame).append hbrace.2
  | object _ ih => exact (hbrace.1.append ih).append hbrace.2
  | element hw _ hw' ih => exact (hw.isTame.append ih).append hw'.isTame
  | lastElement _ ih => exact ih
  | moreElements _ _ ih ih' => exact ih.append (hcomma.append ih')
  | lastMember hw hname hw' _ ih =>
    exact ((hw.isTame.append hname.isTame).append hw'.isTame).append (hcolon.append ih)
  | moreMembers hw hname hw' _ _ ih ih' =>
    exact (((hw.isTame.append hname.isTame).append hw'.isTame).append
      (hcolon.append ih)).append (hcomma.append ih')

end Grammar

end ComponentCatalog.Json
