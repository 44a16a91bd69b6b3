import ComponentCatalog.Component.Property
import ComponentCatalog.Proofs.Balanced

/-!
Types and default values as they stand in a source: nested brackets, literals in quotes, arrows, and
separators only where brackets enclose them. Each of the scanners steps over such an expression as a
whole.
-/
namespace ComponentCatalog.Code

open Text Component

/-- Where an expression stands: after a field name or after a destructured name. -/
inductive Role where
  | type | default

namespace Role

def brackets : Role → List (Char × Char)
  | .type => [('(', ')'), ('[', ']'), ('\x7b', '\x7d'), ('<', '>')]
  | .default => [('(', ')'), ('[', ']'), ('\x7b', '\x7d')]

/-- The characters that end an expression unless brackets enclose them. -/
def separators : Role → List Char
  | .type => [',', ';', '\n']
  | .default => [',']

/-- The characters that do not stand for themselves alone. -/
def marks (role : Role) : List Char :=
  ['\'', '"', '\x60', '\\', '/', '='] ++ role.brackets.flatMap fun (o, c) => [o, c]

end Role

def isLiteralChar (c : Char) : Bool := isWord c || c == ' ' || c == '-'

/-- An expression in a role; `enclosed` if it stands in brackets. -/
inductive Expression (role : Role) : (enclosed : Bool) → Text → Prop where
  | nil {enclosed : Bool} : Expression role enclosed []
  | plain {enclosed : Bool} {c : Char} {s : Text} :
      c ∉ role.marks → (enclosed = false → c ∉ role.separators) →
      Expression role enclosed s → Expression role enclosed (c :: s)
  | arrow {enclosed : Bool} {s : Text} :
      Expression role enclosed s → Expression role enclosed ('=' :: '>' :: s)
  | literal {enclosed : Bool} {quote : Char} {content s : Text} :
      isQuote quote = true → (∀ c ∈ content, isLiteralChar c = true) →
      Expression role enclosed s → Expression role enclosed (quote :: (content ++ quote :: s))
  | group {enclosed : Bool} {o c : Char} {inner s : Text} :
      (o, c) ∈ role.brackets → Expression role true inner →
      Expression role enclosed s → Expression role enclosed (o :: (inner ++ c :: s))

theorem isQuote_iff {c : Char} : isQuote c = true ↔ c = '\'' ∨ c = '"' := by simp [isQuote]

theorem isLiteralChar_marks (role : Role) :
    ∀ c ∈ role.marks ++ role.separators, isLiteralChar c = false := by
  cases role <;> decide

theorem notMem_marks_of_isLiteralChar (role : Role) {c : Char} (h : isLiteralChar c = true) :
    c ∉ role.marks ∧ c ∉ role.separators := by
  constructor <;> intro hmem
  · have := isLiteralChar_marks role c (List.mem_append_left _ hmem)
    simp [h] at this
  · have := isLiteralChar_marks role c (List.mem_append_right _ hmem)
    simp [h] at this

/-- Characters that stand for themselves alone, before an expression. -/
theorem Expression.plains {role : Role} {enclosed : Bool} {u s : Text}
    (hu : ∀ c ∈ u, c ∉ role.marks ∧ (enclosed = false → c ∉ role.separators))
    (hs : Expression role enclosed s) : Expression role enclosed (u ++ s) := by
  induction u with
  | nil => exact hs
  | cons c u ih =>
    obtain ⟨hmark, hseparator⟩ := hu c List.mem_cons_self
    exact .plain hmark hseparator (ih fun c hc => hu c (.tail _ hc))

theorem Expression.notMem_slash {role : Role} {enclosed : Bool} {s : Text}
    (h : Expression role enclosed s) : '/' ∉ s := by
  induction h with
  | nil => exact List.not_mem_nil
  | plain hmark _ _ ih =>
    rw [List.mem_cons, not_or]
    refine ⟨?_, ih⟩
    rintro rfl
    exact hmark (by cases role <;> decide)
  | arrow _ ih => simp [ih]
  | literal hquote hcontent _ ih =>
    have hcontent : '/' ∉ _ := fun hmem => Bool.false_ne_true (hcontent '/' hmem)
    rcases isQuote_iff.mp hquote with rfl | rfl <;> simp [hcontent, ih]
  | group hbracket _ _ ihInner ih =>
    have hbrackets : ∀ pair ∈ role.brackets, '/' ≠ pair.1 ∧ '/' ≠ pair.2 := by
      cases role <;> decide
    obtain ⟨hopen, hclose⟩ := hbrackets _ hbracket
    simp [ihInner, ih, hopen, hclose]

theorem literal_append (quote : Char) (content s rest : Text) :
    quote :: (content ++ quote :: s) ++ rest = quote :: ((content ++ [quote]) ++ (s ++ rest)) := by
  simp

theorem group_append (o c : Char) (inner s rest : Text) :
    o :: (inner ++ c :: s) ++ rest = o :: (inner ++ (c :: (s ++ rest))) := by simp

section TypeLength

variable {awaited : List Char} {previous : Option Char} {c : Char} {rest : Text}

theorem typeLength_inert (hopen : typeCloser? c = none) (hclose : isTypeCloser c = false)
    (hseparator : awaited = [] → c ∉ Role.type.separators) :
    typeLength awaited previous (c :: rest) = typeLength awaited (some c) rest + 1 := by
  have hseparator : ¬(awaited = [] ∧ (c = ',' ∨ c = ';' ∨ c = '\n')) := fun ⟨he, hc⟩ =>
    hseparator he (by simpa [Role.separators] using hc)
  rw [typeLength.eq_def]
  simp only [hopen, hclose, Bool.false_eq_true, if_false, if_neg hseparator]

theorem typeLength_arrow :
    typeLength awaited previous ('=' :: '>' :: rest) = typeLength awaited (some '>') rest + 2 := by
  rw [typeLength_inert rfl rfl fun _ => by decide]
  rfl

theorem typeLength_opening {closer : Char} (h : typeCloser? c = some closer) :
    typeLength awaited previous (c :: rest) =
      typeLength (closer :: awaited) (some c) rest + 1 := by
  rw [typeLength.eq_def]
  simp only [h]

theorem typeLength_closing (hopen : typeCloser? c = none) (hclose : isTypeCloser c = true)
    (hprevious : previous ≠ some '=') :
    typeLength (c :: awaited) previous (c :: rest) = typeLength awaited (some c) rest + 1 := by
  rw [typeLength.eq_def]
  simp only [hopen, hclose, if_true, hprevious, and_false, if_false]

theorem typeCloser?_of_notMem_marks (h : c ∉ Role.type.marks) :
    typeCloser? c = none ∧ isTypeCloser c = false := by
  simp only [Role.marks, Role.brackets, List.flatMap_cons, List.flatMap_nil, List.cons_append,
    List.nil_append, List.mem_cons, List.not_mem_nil, or_false, not_or] at h
  simp [typeCloser?, isTypeCloser, List.lookup_eq_none_iff, h]

/-- The character changes nothing for the reader of types, wherever it stands. -/
def IsInert (c : Char) : Prop :=
  typeCloser? c = none ∧ isTypeCloser c = false ∧ c ∉ Role.type.separators ∧ c ≠ '='

theorem isInert_of_isLiteralChar (h : isLiteralChar c = true) : IsInert c := by
  obtain ⟨hmark, hseparator⟩ := notMem_marks_of_isLiteralChar .type h
  obtain ⟨hopen, hclose⟩ := typeCloser?_of_notMem_marks hmark
  refine ⟨hopen, hclose, hseparator, ?_⟩
  rintro rfl
  exact hmark (by decide)

theorem isInert_of_isQuote (h : isQuote c = true) : IsInert c := by
  rcases isQuote_iff.mp h with rfl | rfl <;> exact ⟨rfl, rfl, by decide, by decide⟩

theorem typeLength_inerts {u : Text} (h : ∀ c ∈ u, IsInert c) (hprevious : previous ≠ some '=') :
    ∃ previous', previous' ≠ some '=' ∧
      typeLength awaited previous (u ++ rest) = typeLength awaited previous' rest + u.length := by
  induction u generalizing previous with
  | nil => exact ⟨previous, hprevious, rfl⟩
  | cons c u ih =>
    obtain ⟨hopen, hclose, hseparator, hne⟩ := h c List.mem_cons_self
    obtain ⟨previous', hprevious', hlength⟩ :=
      ih (fun c hc => h c (.tail _ hc)) fun he => hne (Option.some.inj he)
    refine ⟨previous', hprevious', ?_⟩
    rw [List.cons_append, typeLength_inert hopen hclose fun _ => hseparator, hlength,
      List.length_cons, Nat.add_assoc]

/-- The reader of types takes in a whole type, and after it stands where it stood before. -/
theorem typeLength_expression {enclosed : Bool} {s : Text} (h : Expression .type enclosed s)
    (hawaited : enclosed = true → awaited ≠ []) (hprevious : previous ≠ some '=') :
    ∃ previous', previous' ≠ some '=' ∧
      typeLength awaited previous (s ++ rest) =
        typeLength awaited previous' rest + s.length := by
  induction h generalizing awaited previous rest with
  | nil => exact ⟨previous, hprevious, rfl⟩
  | @plain enclosed c s hmark hseparator _ ih =>
    -- A separator can only stand here if brackets are awaited.
    obtain ⟨hopen, hclose⟩ := typeCloser?_of_notMem_marks hmark
    have hne : some c ≠ some '=' := by
      rintro ⟨⟩
      exact hmark (by decide)
    obtain ⟨previous', hprevious', hlength⟩ := ih hawaited hne
    refine ⟨previous', hprevious', ?_⟩
    rw [List.cons_append, typeLength_inert hopen hclose, hlength, List.length_cons, Nat.add_assoc]
    intro he
    exact hseparator (Bool.eq_false_iff.mpr fun h => hawaited h he)
  | arrow _ ih =>
    have hne : some '>' ≠ some '=' := by decide
    obtain ⟨previous', hprevious', hlength⟩ := ih hawaited hne
    refine ⟨previous', hprevious', ?_⟩
    rw [List.cons_append, List.cons_append, typeLength_arrow, hlength]
    rfl
  | @literal _ quote content s hquote hcontent _ ih =>
    have hinert : ∀ c ∈ quote :: (content ++ [quote]), IsInert c := by
      intro c hc
      rcases List.mem_cons.mp hc with rfl | hc
      · exact isInert_of_isQuote hquote
      · rcases List.mem_append.mp hc with hc | hc
        · exact isInert_of_isLiteralChar (hcontent c hc)
        · exact List.mem_singleton.mp hc ▸ isInert_of_isQuote hquote
    obtain ⟨middle, hmiddle, hliteral⟩ := typeLength_inerts hinert hprevious
    obtain ⟨previous', hprevious', hlength⟩ := ih hawaited hmiddle
    refine ⟨previous', hprevious', ?_⟩
    rw [literal_append, ← List.cons_append, hliteral, hlength]
    simp only [List.length_cons, List.length_append, List.length_nil]
    omega
  | @group _ o c inner s hbracket _ _ ihInner ih =>
    obtain ⟨hopening, hopen, hclose, hne, hne'⟩ : typeCloser? o = some c ∧ typeCloser? c = none ∧
        isTypeCloser c = true ∧ some o ≠ some '=' ∧ some c ≠ some '=' := by
      simp only [Role.brackets, List.mem_cons, Prod.mk.injEq, List.not_mem_nil, or_false]
        at hbracket
      rcases hbracket with ⟨rfl, rfl⟩ | ⟨rfl, rfl⟩ | ⟨rfl, rfl⟩ | ⟨rfl, rfl⟩ <;> decide
    have hnonempty : true = true → c :: awaited ≠ [] := fun _ => List.cons_ne_nil _ _
    obtain ⟨middle, hmiddle, hinner⟩ := ihInner hnonempty hne
    obtain ⟨previous', hprevious', hlength⟩ := ih hawaited hne'
    refine ⟨previous', hprevious', ?_⟩
    rw [group_append, typeLength_opening hopening, hinner, typeLength_closing hopen hclose hmiddle,
      hlength]
    simp only [List.length_cons, List.length_append]
    omega

end TypeLength

theorem plain_of_notMem_marks {role : Role} {c : Char} (h : c ∉ role.marks) :
    isStringMark c = false ∧ isOpening c = false ∧ isClosing c = false ∧ c ≠ '/' := by
  cases role <;>
    simp only [Role.marks, Role.brackets, List.flatMap_cons, List.flatMap_nil, List.cons_append,
      List.nil_append, List.mem_cons, List.not_mem_nil, or_false, not_or] at h <;>
    simp [isStringMark, isOpening, isClosing, h]

theorem quoted_of_isLiteralChar {quote : Char} (hquote : isQuote quote = true) {content : Text}
    (h : ∀ c ∈ content, isLiteralChar c = true) : Quoted quote content := by
  refine quoted_of_forall fun c hc => ?_
  have hliteral := h c hc
  refine ⟨?_, ?_, ?_⟩ <;> rintro rfl
  · rcases isQuote_iff.mp hquote with rfl | rfl <;> cases hliteral
  · cases hliteral
  · cases hliteral

/-- The brackets of an expression, of which the angle brackets of a type are no brackets of code. -/
theorem kind_of_mem_brackets {role : Role} {o c : Char} (h : (o, c) ∈ role.brackets) :
    (∃ g ∈ brackets, g.opening = o ∧ g.closing = c) ∨ role = .type ∧ o = '<' ∧ c = '>' := by
  have hkinds : ∀ role : Role, ∀ p ∈ role.brackets,
      (∃ g ∈ brackets, g.opening = p.1 ∧ g.closing = p.2) ∨ role = .type ∧ p = ('<', '>') := by
    intro role
    cases role <;> simp [Role.brackets, brackets, round, square, curly]
  simpa using hkinds role (o, c) h

/-- An expression is balanced code. Angle brackets are no brackets there, so that commas may stand
outside of brackets in a type. -/
theorem Expression.balanced {role : Role} {enclosed enclosed' : Bool} {s : Text}
    (h : Expression role enclosed s)
    (hseparated : enclosed' = false → role = .default ∧ enclosed = false) : Balanced enclosed' s := by
  induction h generalizing enclosed' with
  | nil => exact .nil
  | @plain enclosed c s hmark hseparator _ ih =>
    obtain ⟨hmark, hopen, hclose, hslash⟩ := plain_of_notMem_marks hmark
    have hcomma : enclosed' = false → c ≠ ',' := by
      rintro he rfl
      obtain ⟨rfl, rfl⟩ := hseparated he
      exact hseparator rfl (by decide)
    exact .append_of_not_slash (s := [c]) (.plain hmark hopen hclose hcomma) (by simpa using hslash)
      (ih hseparated)
  | @arrow _ s _ ih =>
    exact .append_of_not_slash (s := ['=', '>']) (.of_plain (by decide)) (by decide) (ih hseparated)
  | @literal _ quote content s hquote hcontent _ ih =>
    have hmark : isStringMark quote = true ∧ quote ≠ '/' := by
      rcases isQuote_iff.mp hquote with rfl | rfl <;> decide
    have hsplit : quote :: (content ++ quote :: s) = quote :: (content ++ [quote]) ++ s := by simp
    rw [hsplit]
    refine .append_of_not_slash (.literal hmark.1 (quoted_of_isLiteralChar hquote hcontent)) ?_
      (ih hseparated)
    simp [List.getLast?_cons, hmark.2]
  | @group _ o c inner s hbracket hinner _ ihInner ih =>
    have hinside : Balanced true inner := ihInner (by simp)
    have hslash : inner.getLast? ≠ some '/' := fun hlast =>
      hinner.notMem_slash (List.mem_of_getLast? hlast)
    have hsplit : o :: (inner ++ c :: s) = o :: (inner ++ [c]) ++ s := by simp
    rw [hsplit]
    rcases kind_of_mem_brackets hbracket with ⟨g, hg, rfl, rfl⟩ | ⟨hrole, rfl, rfl⟩
    · have hclosing : ∀ g ∈ brackets, g.closing ≠ '/' := by decide
      refine .append_of_not_slash (.group hg hinside) ?_ (ih hseparated)
      simp [List.getLast?_cons, hclosing g hg]
    · cases enclosed' with
      | false => exact absurd (hseparated rfl).1 (by simp [hrole])
      | true =>
        have hangles : Balanced true (['<'] ++ (inner ++ ['>'])) :=
          .append_of_not_slash (.of_plain (by decide)) (by decide)
            (.append_of_not_slash hinside hslash (.of_plain (by decide)))
        exact .append_of_not_slash hangles (by simp [List.getLast?_cons]) (ih hseparated)

end ComponentCatalog.Code
