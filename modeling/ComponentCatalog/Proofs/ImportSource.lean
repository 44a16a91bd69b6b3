import ComponentCatalog.Component.Import
import ComponentCatalog.Proofs.Entries
import ComponentCatalog.Proofs.Parts
import ComponentCatalog.Proofs.PropertySource

/-!
Printed import statements, one on a line. The structured imports, the external modules and the
sibling components that are read from them are those that were printed, whatever the names are.
-/
namespace ComponentCatalog

namespace Text

theorem afterLeast_append {α : Type} {p : Char → Bool} {k : Text → Option α} {u rest : Text} {a : α}
    (hu : ∀ c ∈ u, p c = true) (hnone : ∀ v, v <:+ u → v ≠ [] → k (v ++ rest) = none)
    (hsome : k rest = some a) : afterLeast p k (u ++ rest) = some a := by
  induction u with
  | nil =>
    cases rest with
    | nil => exact hsome
    | cons c rest =>
      rw [List.nil_append, afterLeast, hsome]
      rfl
  | cons c u ih =>
    have hhead : k (c :: (u ++ rest)) = none :=
      hnone (c :: u) List.suffix_rfl (List.cons_ne_nil _ _)
    rw [List.cons_append, afterLeast, hhead, if_pos (hu c List.mem_cons_self)]
    exact ih (fun d hd => hu d (.tail _ hd)) fun v hv => hnone v (hv.trans (List.suffix_cons c u))

theorem one?_cons {p : Char → Bool} {c : Char} (h : p c = true) (rest : Text) :
    one? p (c :: rest) = some (c, rest) := if_pos h

theorem isQuote_of_isBlank {c : Char} (h : isBlank c = true) : isQuote c = false := by
  by_contra hquote
  rcases Code.isQuote_iff.mp (by simpa using hquote) with rfl | rfl <;> exact absurd h (by decide)

theorem isQuote_of_isWord {c : Char} (h : isWord c = true) : isQuote c = false := by
  by_contra hquote
  rcases Code.isQuote_iff.mp (by simpa using hquote) with rfl | rfl <;> exact absurd h (by decide)

end Text

namespace Component

open Text

/-- What a statement binds: a default, a list of names or a namespace. -/
inductive Bindings where
  | default (name : Text)
  | named (names : List Text)
  | whole (name : Text)

/-- An import statement as it is written. -/
structure Statement where
  bindings : Bindings
  module : Text

namespace Bindings

def source : Bindings → Text
  | .default name => name
  | .named names => "\x7b ".toList ++ (join ", ".toList names ++ " \x7d".toList)
  | .whole name => "* as ".toList ++ name

-- Stated for each kind of binding, so that no proof unfolds the literals of the others.
theorem source_default (name : Text) : (default name).source = name := rfl

theorem source_named (names : List Text) :
    (named names).source = "\x7b ".toList ++ (join ", ".toList names ++ " \x7d".toList) := rfl

theorem source_whole (name : Text) : (whole name).source = "* as ".toList ++ name := rfl

def names : Bindings → List Text
  | .default name | .whole name => [name]
  | .named names => names

def isDefault : Bindings → Bool
  | .default _ => true
  | _ => false

def isNamespace : Bindings → Bool
  | .whole _ => true
  | _ => false

end Bindings

namespace Statement

/-- What follows the bindings, up to the semicolon. -/
def origin (s : Statement) : Text := " from '".toList ++ (s.module ++ ['\''])

def body (s : Statement) : Text := "import ".toList ++ (s.bindings.source ++ s.origin)

def source (s : Statement) : Text := s.body ++ [';']

/-- What the statement brings in. -/
def meaning (s : Statement) : Import :=
  ⟨s.module, s.bindings.names, s.bindings.isDefault, s.bindings.isNamespace⟩

/-- The names are words, and the module consists of word characters and `@`, `/`, `-` and `.`. -/
structure WellFormed (s : Statement) : Prop where
  names : ∀ name ∈ s.bindings.names, IsName name
  module_ne_nil : s.module ≠ []
  module : ∀ c ∈ s.module, isWord c = true ∨ c ∈ "@/-.".toList

end Statement

/-- The statements, each on a line. -/
def importSource (statements : List Statement) : Text :=
  join ['\n'] (statements.map Statement.source)

/-- The sibling that a module path leads to: `../`, a capital of ASCII and the word characters
behind. -/
def sibling? : Text → Option Text
  | '.' :: '.' :: '/' :: c :: rest =>
    if 'A' ≤ c ∧ c ≤ 'Z' then some (c :: rest.takeWhile isWord) else none
  | _ => none

/-- The module is no file of this repository. -/
def IsExternal (module : Text) : Prop :=
  ∀ lead ∈ ["./".toList, "../".toList, "@/".toList], ¬lead <+: module

instance decidableIsExternal (module : Text) : Decidable (IsExternal module) :=
  inferInstanceAs (Decidable (∀ lead ∈ ["./".toList, "../".toList, "@/".toList], ¬lead <+: module))

variable {p : Char → Bool} {module name rest t : Text}

/-- `from` between blanks, a quote and a text. -/
def fromQuote (rest : Text) : Text := ' ' :: ("from".toList ++ ' ' :: '\'' :: rest)

theorem fromClause?_fromQuote (hne : module ≠ []) (hmodule : ∀ c ∈ module, p c = true)
    (hquote : p '\'' = false) :
    fromClause? p (fromQuote (module ++ '\'' :: rest)) = some (module, rest) := by
  have hgap : blanks? (fromQuote (module ++ '\'' :: rest)) =
      some ("from".toList ++ ' ' :: '\'' :: (module ++ '\'' :: rest)) :=
    blanks?_cons (by decide) rfl
  have hgap' : blanks? (' ' :: '\'' :: (module ++ '\'' :: rest)) =
      some ('\'' :: (module ++ '\'' :: rest)) := blanks?_cons (by decide) rfl
  have hrun : run? p (module ++ '\'' :: rest) = some (module, '\'' :: rest) :=
    run?_append hne hmodule (by simpa using hquote)
  have hopen := one?_cons (p := isQuote) (c := '\'') (by decide) (module ++ '\'' :: rest)
  have hclose := one?_cons (p := isQuote) (c := '\'') (by decide) rest
  simp only [fromClause?, hgap, after?_append, hgap', hopen, hrun, hclose, Option.bind_eq_bind,
    Option.bind_some]
  rfl

/-- What is read as `from` and a module is `from` between blanks, up to the first quote. -/
theorem filter_of_fromClause? {found : Text × Text} (h : fromClause? p t = some found) :
    (t.takeWhile (!isQuote ·)).filter (!isBlank ·) = "from".toList := by
  simp only [fromClause?, Option.bind_eq_bind, Option.bind_eq_some_iff, Prod.exists] at h
  obtain ⟨afterGap, hgap, afterFrom, hfrom, afterGap', hgap', q, tail, hquote, -⟩ := h
  obtain ⟨gap, -, hblank, rfl⟩ := blanks?_split hgap
  obtain ⟨gap', -, hblank', rfl⟩ := blanks?_split hgap'
  obtain ⟨rfl, hq⟩ := one?_eq_some.mp hquote
  rw [after?_eq_some.mp hfrom]
  have hword : ∀ c ∈ "from".toList, isQuote c = false := by decide
  have hfree : ∀ c ∈ gap ++ ("from".toList ++ gap'), (!isQuote c) = true := by
    intro c hc
    rw [Bool.not_eq_true']
    rcases List.mem_append.mp hc with hc | hc
    · exact isQuote_of_isBlank (hblank c hc)
    rcases List.mem_append.mp hc with hc | hc
    · exact hword c hc
    · exact isQuote_of_isBlank (hblank' c hc)
  have hsplit : gap ++ ("from".toList ++ (gap' ++ q :: tail)) =
      gap ++ ("from".toList ++ gap') ++ q :: tail := by simp
  have hnone : ∀ {gap : Text}, (∀ c ∈ gap, isBlank c = true) → gap.filter (!isBlank ·) = [] :=
    fun h => List.filter_eq_nil_iff.mpr fun c hc => by simp [h c hc]
  rw [hsplit, List.takeWhile_append_of_pos hfree, List.takeWhile_cons_of_neg (by simp [hq]),
    List.append_nil, List.filter_append, List.filter_append, hnone hblank, hnone hblank']
  decide

/-- Behind a part that is not blank there is no `from` clause before the one that is there. -/
theorem fromClause?_eq_none {v : Text} (hquote : ∀ c ∈ v, isQuote c = false)
    (hv : ∃ c ∈ v, isBlank c = false) : fromClause? p (v ++ fromQuote rest) = none := by
  rcases hfound : fromClause? p (v ++ fromQuote rest) with _ | found
  · rfl
  · exfalso
    have hfilter := filter_of_fromClause? hfound
    have htake : (fromQuote rest).takeWhile (!isQuote ·) = " from ".toList := rfl
    have hlead : (" from ".toList).filter (!isBlank ·) = "from".toList := by decide
    rw [List.takeWhile_append_of_pos (by simpa using hquote), htake, List.filter_append, hlead] at hfilter
    obtain ⟨c, hc, hblank⟩ := hv
    have hmem : c ∈ v.filter (!isBlank ·) := List.mem_filter.mpr ⟨hc, by simp [hblank]⟩
    rw [List.append_cancel_right (hfilter.trans (List.nil_append _).symm)] at hmem
    cases hmem

namespace Bindings

variable {b : Bindings}

theorem word_or_separator {names : List Text} (h : ∀ name ∈ names, IsName name) :
    ∀ c ∈ join ", ".toList names, isWord c = true ∨ c ∈ ", ".toList := by
  intro c hc
  by_contra hneither
  obtain ⟨hword, hseparator⟩ := not_or.mp hneither
  exact notMem_join hseparator (fun name hname hc => hword ((h name hname).word c hc)) hc

theorem word_or_mark (h : ∀ name ∈ b.names, IsName name) :
    ∀ c ∈ b.source, isWord c = true ∨ c ∈ " ,*\x7b\x7d".toList := by
  intro c hc
  cases b with
  | default name => exact .inl ((h name List.mem_cons_self).word c hc)
  | whole name =>
    rcases List.mem_append.mp hc with hc | hc
    · have hlead : ∀ c ∈ "* as ".toList, isWord c = true ∨ c ∈ " ,*\x7b\x7d".toList := by decide
      exact hlead c hc
    · exact .inl ((h name List.mem_cons_self).word c hc)
  | named names =>
    have hseparators : ∀ c ∈ ", ".toList, c ∈ " ,*\x7b\x7d".toList := by decide
    have hbraces : ∀ c ∈ "\x7b ".toList ++ " \x7d".toList, c ∈ " ,*\x7b\x7d".toList := by decide
    simp only [source_named, List.mem_append] at hc hbraces
    rcases hc with hc | hc | hc
    · exact .inr (hbraces c (.inl hc))
    · exact (word_or_separator h c hc).imp_right (hseparators c)
    · exact .inr (hbraces c (.inr hc))

/-- Bindings contain no quote and no semicolon. -/
theorem passes (h : ∀ name ∈ b.names, IsName name) :
    ∀ c ∈ b.source, (c != ';' && !isQuote c) = true := by
  intro c hc
  have hmarks : ∀ c ∈ " ,*\x7b\x7d".toList, (c != ';' && !isQuote c) = true := by decide
  rcases word_or_mark h c hc with hword | hmark
  · rw [isQuote_of_isWord hword, Bool.not_false, Bool.and_true, bne_iff_ne]
    rintro rfl
    exact absurd hword (by decide)
  · exact hmarks c hmark

theorem head_not_blank (h : ∀ name ∈ b.names, IsName name) :
    ∃ c rest, b.source = c :: rest ∧ isBlank c = false := by
  cases b with
  | default name =>
    have hname := h name List.mem_cons_self
    cases name with
    | nil => exact absurd rfl hname.ne_nil
    | cons c rest => exact ⟨c, rest, rfl, isBlank_of_isWord (hname.word c List.mem_cons_self)⟩
  | whole name => exact ⟨'*', _, rfl, by decide⟩
  | named names => exact ⟨'\x7b', _, rfl, by decide⟩

theorem last_not_blank (h : ∀ name ∈ b.names, IsName name) :
    ∃ u c, b.source = u ++ [c] ∧ isBlank c = false := by
  have hconcat {name : Text} (hname : IsName name) (u : Text) :
      ∃ u' c, u ++ name = u' ++ [c] ∧ isBlank c = false := by
    refine ⟨u ++ name.dropLast, name.getLast hname.ne_nil, ?_, ?_⟩
    · rw [List.append_assoc, List.dropLast_concat_getLast]
    · exact isBlank_of_isWord (hname.word _ (List.getLast_mem _))
  cases b with
  | default name => exact hconcat (h name List.mem_cons_self) []
  | whole name => exact hconcat (h name List.mem_cons_self) _
  | named names =>
    refine ⟨"\x7b ".toList ++ (join ", ".toList names ++ [' ']), '\x7d', ?_, by decide⟩
    simp [source_named]

theorem suffix_not_blank (h : ∀ name ∈ b.names, IsName name) {v : Text} (hv : v <:+ b.source)
    (hne : v ≠ []) : ∃ c ∈ v, isBlank c = false := by
  obtain ⟨u, c, hsource, hc⟩ := last_not_blank h
  refine ⟨c, ?_, hc⟩
  obtain ⟨w, hw⟩ := hv
  obtain ⟨v', d, rfl⟩ := (List.eq_nil_or_concat v).resolve_left hne
  have hlast : (w ++ (v' ++ [d])).getLast? = some c := by
    rw [← List.concat_eq_append, hw, hsource, List.getLast?_concat]
  rw [← List.append_assoc, List.getLast?_concat] at hlast
  cases hlast
  rw [List.concat_eq_append]
  exact List.mem_append_right _ (List.mem_singleton_self c)

/-- The steps in which `as` and a name are read, with one blank before each. -/
theorem as_name_steps {name rest : Text} (hname : IsName name)
    (hrest : rest.head?.any isWord = false) :
    blanks? (" as ".toList ++ (name ++ rest)) = some ("as ".toList ++ (name ++ rest)) ∧
      after? "as".toList ("as ".toList ++ (name ++ rest)) = some (' ' :: (name ++ rest)) ∧
      blanks? (' ' :: (name ++ rest)) = some (name ++ rest) ∧
      word? (name ++ rest) = some (name, rest) := by
  refine ⟨blanks?_cons (by decide) rfl, after?_append "as".toList _, blanks?_cons (by decide) ?_,
    word?_append hname.ne_nil hname.word hrest⟩
  cases name with
  | nil => exact absurd rfl hname.ne_nil
  | cons c name => simp [isBlank_of_isWord (hname.word c List.mem_cons_self)]

/-- The bindings are read to their end. -/
theorem afterBindings?_source (h : ∀ name ∈ b.names, IsName name) (rest : Text) :
    afterBindings? (b.source ++ ' ' :: rest) = some (' ' :: rest) := by
  have hrest : (' ' :: rest).head?.any isWord = false := by
    simp [show isWord ' ' = false by decide]
  cases b with
  | default name =>
    have hname := h name List.mem_cons_self
    have hread := word?_append hname.ne_nil hname.word hrest
    cases name with
    | nil => exact absurd rfl hname.ne_nil
    | cons c name =>
      have hc := hname.word c List.mem_cons_self
      rw [source_default]
      -- A word begins with neither of the marks that the other two forms begin with.
      unfold afterBindings?
      split
      · next heq =>
        cases heq
        exact absurd hc (by decide)
      · next heq =>
        cases heq
        exact absurd hc (by decide)
      · rw [hread]
        rfl
  | whole name =>
    have hname := h name List.mem_cons_self
    obtain ⟨hgap, has, hgap', hword⟩ := as_name_steps hname hrest
    have hsource : (whole name).source ++ ' ' :: rest =
        '*' :: (" as ".toList ++ (name ++ ' ' :: rest)) := by simp [source_whole]
    rw [hsource]
    simp only [afterBindings?, hgap, has, hgap', hword, Option.bind_eq_bind, Option.bind_some]
    rfl
  | named names =>
    have hbody : ∀ c ∈ ' ' :: (join ", ".toList names ++ [' ']), decide (c ≠ '\x7d') = true := by
      intro c hc
      rw [decide_eq_true_eq]
      rintro rfl
      rw [List.mem_cons, List.mem_append] at hc
      rcases hc with hc | hc | hc
      · exact absurd hc (by decide)
      · exact absurd (word_or_separator h _ hc) (by decide)
      · exact absurd hc (by decide)
    have hsource : (named names).source ++ ' ' :: rest =
        '\x7b' :: (' ' :: (join ", ".toList names ++ [' ']) ++ '\x7d' :: ' ' :: rest) := by
      simp [source_named]
    rw [hsource]
    simp only [afterBindings?]
    rw [List.dropWhile_append_of_pos hbody, List.dropWhile_cons_of_neg (by decide)]
    rfl

/-- The parts of a list between commas, without blanks, are its names. -/
theorem names_of_list {names : List Text} (h : ∀ name ∈ names, IsName name) :
    (((' ' :: (join ", ".toList names ++ [' '])).splitOn ',').map strip).filter (· ≠ []) = names := by
  rw [splitOn_padded fun name hname hcomma => absurd ((h name hname).word _ hcomma) (by decide)]
  induction names with
  | nil => decide
  | cons name names ih =>
    have hname := h name List.mem_cons_self
    have hstrip : strip (' ' :: name) = name :=
      (strip_blank_append (u := [' ']) (by decide) name).trans (strip_of_word hname.word)
    cases names with
    | nil =>
      have hend : strip (' ' :: (name ++ [' '])) = name :=
        (strip_append_of_blank (u := [' ']) (by decide) (' ' :: name)).trans hstrip
      simp [paddedParts, hend, hname.ne_nil]
    | cons next names =>
      have hmore := ih fun n hn => h n (.tail _ hn)
      rw [paddedParts, List.map_cons, hstrip, List.filter_cons_of_pos (by simpa using hname.ne_nil),
        hmore]

theorem firstHit_namespaceShape_eq_none {s : Text} (h : '*' ∉ s) :
    firstHit namespaceShape s = none := by
  have hpass : hitsFrom namespaceShape 0 0 none (s ++ []) =
      hitsFrom namespaceShape 0 (0 + s.length) (lastOf none s) [] := by
    refine hitsFrom_pass fun v c w hs offset previous => ?_
    have hc : '*' ≠ c := by
      rintro rfl
      exact h (by simp [hs])
    simp [namespaceShape, after?, hc]
  rw [List.append_nil] at hpass
  rw [firstHit, firstHitFrom_eq_head?, hpass]
  rfl

theorem namespaceShape_source {name : Text} (hname : IsName name) (offset : Nat)
    (previous : Option Char) :
    namespaceShape ⟨offset, previous, '*' :: (" as ".toList ++ name)⟩ =
      some (name, (whole name).source.length) := by
  have hend : ([] : Text).head?.any isWord = false := rfl
  obtain ⟨hgap, has, hgap', hword⟩ := as_name_steps hname hend
  rw [List.append_nil] at hgap has hgap' hword
  have hstar : after? ['*'] ('*' :: (" as ".toList ++ name)) = some (" as ".toList ++ name) := rfl
  simp only [namespaceShape, hstar, hgap, has, hgap', hword, Option.bind_eq_bind, Option.bind_some]
  rfl

theorem ofBindings_source (h : ∀ name ∈ b.names, IsName name) (module : Text) :
    Import.ofBindings b.source module = ⟨module, b.names, b.isDefault, b.isNamespace⟩ := by
  cases b with
  | default name =>
    have hname := h name List.mem_cons_self
    have hstar : '*' ∉ name := fun hc => absurd (hname.word _ hc) (by decide)
    have hbrace : '\x7b' ∉ name := fun hc => absurd (hname.word _ hc) (by decide)
    have hstrip := strip_of_word hname.word
    simp [Import.ofBindings, source_default, firstHit_namespaceShape_eq_none hstar, hbrace, hstrip,
      names, isDefault, isNamespace]
  | whole name =>
    have hread := namespaceShape_source (h name List.mem_cons_self) 0 none
    have hhit : firstHit namespaceShape (whole name).source = some name := by
      have hsource : (whole name).source = '*' :: (" as ".toList ++ name) := rfl
      rw [firstHit, hsource, firstHitFrom, hread]
    simp [Import.ofBindings, hhit, names, isDefault, isNamespace]
  | named names =>
    have hwords : ∀ c ∈ join ", ".toList names, isWord c = true ∨ c ∈ ", ".toList :=
      word_or_separator h
    have hstar : '*' ∉ (named names).source := by
      intro hc
      simp only [source_named, List.mem_append] at hc
      rcases hc with hc | hc | hc
      · exact absurd hc (by decide)
      · exact absurd (hwords _ hc) (by decide)
      · exact absurd hc (by decide)
    have hinside : ((named names).source.filter fun c => c ≠ '\x7b' && c ≠ '\x7d') =
        ' ' :: (join ", ".toList names ++ [' ']) := by
      have hkept : ∀ c ∈ join ", ".toList names, (decide (c ≠ '\x7b') && decide (c ≠ '\x7d')) = true := by
        intro c hc
        rw [Bool.and_eq_true, decide_eq_true_eq, decide_eq_true_eq]
        constructor <;> (rintro rfl; exact absurd (hwords _ hc) (by decide))
      rw [source_named, List.filter_append, List.filter_append, List.filter_eq_self.mpr hkept]
      rfl
    have hbrace : '\x7b' ∈ (named names).source := List.mem_cons_self
    simp only [Import.ofBindings, firstHit_namespaceShape_eq_none hstar, if_pos hbrace, hinside]
    exact congrArg (fun names => (⟨module, names, false, false⟩ : Import)) (names_of_list h)

end Bindings

namespace Statement

variable {s : Statement}

theorem WellFormed.specifier (h : s.WellFormed) :
    ∀ c ∈ s.module, isSpecifierChar c = true := by
  intro c hc
  have hmarks : ∀ c ∈ "@/-.".toList, isSpecifierChar c = true := by decide
  rcases h.module c hc with hword | hmark
  · simp [isSpecifierChar, hword]
  · exact hmarks c hmark

theorem WellFormed.unquoted (h : s.WellFormed) : ∀ c ∈ s.module, isQuote c = false := by
  intro c hc
  have hmarks : ∀ c ∈ "@/-.".toList, isQuote c = false := by decide
  exact (h.module c hc).elim isQuote_of_isWord (hmarks c)

theorem origin_append (s : Statement) (rest : Text) :
    s.origin ++ rest = fromQuote (s.module ++ '\'' :: rest) := by
  have hlead : " from '".toList = ' ' :: ("from".toList ++ [' ', '\'']) := by decide
  unfold origin fromQuote
  rw [hlead]
  simp only [List.cons_append, List.append_assoc, List.nil_append]

/-- What is read behind the bindings. -/
theorem fromClause?_origin {p : Char → Bool} (h : s.WellFormed)
    (hmodule : ∀ c ∈ s.module, p c = true) (hquote : p '\'' = false) (rest : Text) :
    fromClause? p (s.origin ++ rest) = some (s.module, rest) := by
  rw [origin_append]
  exact fromClause?_fromQuote h.module_ne_nil hmodule hquote

theorem after?_body (rest : Text) :
    after? "import".toList (s.body ++ rest) = some (' ' :: (s.bindings.source ++ (s.origin ++ rest))) := by
  have hlead : "import ".toList = "import".toList ++ [' '] := by decide
  have hbody : s.body ++ rest =
      "import".toList ++ ' ' :: (s.bindings.source ++ (s.origin ++ rest)) := by
    unfold body
    rw [hlead, List.append_assoc, List.append_assoc, List.append_assoc, List.singleton_append]
  rw [hbody]
  exact after?_append _ _

theorem lengthTo_body (offset : Nat) (previous : Option Char) (rest : Text) :
    (Cursor.mk offset previous (s.body ++ rest)).lengthTo rest = s.body.length := by
  rw [Cursor.lengthTo, List.length_append, Nat.add_sub_cancel]

theorem specifierShape_body (h : s.WellFormed) (offset : Nat) (previous : Option Char) (rest : Text) :
    specifierShape ⟨offset, previous, s.body ++ rest⟩ = some (s.module, s.body.length) := by
  have hstart : ∀ c, (s.bindings.source ++ (s.origin ++ rest)).head? = some c → isBlank c = false := by
    obtain ⟨d, tail, hsource, hd⟩ := Bindings.head_not_blank h.names
    rw [hsource]
    rintro c ⟨⟩
    exact hd
  have hfrom := fromClause?_origin h h.specifier (by decide) rest
  have hread : afterLeast (fun c => c != ';' && !isQuote c) (fromClause? isSpecifierChar)
      (s.bindings.source ++ (s.origin ++ rest)) = some (s.module, rest) := by
    refine afterLeast_append (Bindings.passes h.names) (fun v hv hne => ?_) hfrom
    rw [origin_append]
    refine fromClause?_eq_none (fun c hc => ?_) (Bindings.suffix_not_blank h.names hv hne)
    have hpasses := Bindings.passes h.names c (hv.mem hc)
    simp only [Bool.and_eq_true, Bool.not_eq_true'] at hpasses
    exact hpasses.2
  have hblank := one?_cons (p := isBlank) (c := ' ') (by decide)
      (s.bindings.source ++ (s.origin ++ rest))
  simp only [specifierShape, after?_body, hblank, Option.bind_eq_bind, Option.bind_some,
    afterMost_of_neg hstart, hread, lengthTo_body]
  rfl

theorem bindingsFrom?_source (h : s.WellFormed) (rest : Text) :
    bindingsFrom? (s.bindings.source ++ (s.origin ++ rest)) (s.bindings.source ++ (s.origin ++ rest)) =
      some (s.bindings.source, s.module, rest) := by
  have hafter : afterBindings? (s.bindings.source ++ (s.origin ++ rest)) =
      some (s.origin ++ rest) :=
    Bindings.afterBindings?_source h.names _
  have hfrom := fromClause?_origin (p := fun c => !isQuote c) h
    (fun c hc => by simp [h.unquoted c hc]) (by decide) rest
  simp only [bindingsFrom?, hafter, hfrom, Option.bind_eq_bind, Option.bind_some, upTo_append]
  rfl

theorem head?_origin (s : Statement) (rest : Text) :
    (s.origin ++ rest).head?.any isWord = false := by
  rw [origin_append]
  show isWord ' ' = false
  decide

theorem WellFormed.word?_default (h : s.WellFormed) {name : Text}
    (hname : s.bindings = .default name)
    (rest : Text) : word? (name ++ (s.origin ++ rest)) = some (name, s.origin ++ rest) := by
  have hword : IsName name := h.names name (by rw [hname]; exact List.mem_cons_self)
  exact word?_append hword.ne_nil hword.word (head?_origin s rest)

/-- No comma follows the first word of the bindings. -/
theorem clause?_source (h : s.WellFormed) (rest : Text) :
    clause? (s.bindings.source ++ (s.origin ++ rest)) = some (s.bindings.source, s.module, rest) := by
  unfold clause?
  rw [bindingsFrom?_source h]
  cases hbindings : s.bindings with
  | default name =>
    have hword := h.word?_default hbindings rest
    have hcomma : after? [','] (s.origin ++ rest) = none := by
      rw [origin_append]
      rfl
    simp only [Bindings.source_default, hword, Option.bind_some, hcomma, Option.bind_none,
      Option.none_or]
  | whole name => rfl
  | named names => rfl

/-- From `from` and a quote no bindings are read. -/
theorem clause?_from (rest : Text) : clause? ("from".toList ++ ' ' :: '\'' :: rest) = none := by
  have hword : word? ("from".toList ++ ' ' :: '\'' :: rest) =
      some ("from".toList, ' ' :: '\'' :: rest) :=
    word?_append (by decide) (by decide) (by show isWord ' ' = false; decide)
  have hafter : afterBindings? ("from".toList ++ ' ' :: '\'' :: rest) =
      some (' ' :: '\'' :: rest) :=
    congrArg (Option.map Prod.snd) hword
  have hcomma : after? [','] (' ' :: '\'' :: rest) = none := rfl
  have hgap : blanks? (' ' :: '\'' :: rest) = some ('\'' :: rest) := blanks?_cons (by decide) rfl
  have hfrom : after? "from".toList ('\'' :: rest) = none := rfl
  simp only [clause?, hword, hcomma, bindingsFrom?, hafter, fromClause?, hgap, hfrom,
    Option.bind_eq_bind, Option.bind_some, Option.bind_none, Option.none_or]

/-- The word `type` in front of `from` is itself what is bound. -/
theorem type_eq_none (h : s.WellFormed) (rest : Text) :
    ((after? "type".toList (s.bindings.source ++ (s.origin ++ rest))).bind fun rest =>
      (blanks? rest).bind clause?) = none := by
  cases hbindings : s.bindings with
  | default name =>
    have hword := h.word?_default hbindings rest
    rw [Bindings.source_default]
    rcases htype : after? "type".toList (name ++ (s.origin ++ rest)) with _ | t
    · rfl
    rw [Option.bind_some]
    rcases hgap : blanks? t with _ | t'
    · rfl
    have hhead := head?_of_blanks? hgap
    have hsplit := after?_eq_some.mp htype
    rw [hsplit, word?_append (by decide) (by decide) hhead] at hword
    cases hword
    have hfrom : blanks? (s.origin ++ rest) =
        some ("from".toList ++ ' ' :: '\'' :: (s.module ++ '\'' :: rest)) := by
      rw [origin_append]
      exact blanks?_cons (by decide) rfl
    rw [hfrom] at hgap
    cases hgap
    exact clause?_from _
  | whole name => rfl
  | named names => rfl

theorem statementShape_body (h : s.WellFormed) (offset : Nat) (previous : Option Char) (rest : Text) :
    statementShape ⟨offset, previous, s.body ++ rest⟩ =
      some ((s.bindings.source, s.module), s.body.length) := by
  have hgap : blanks? (' ' :: (s.bindings.source ++ (s.origin ++ rest))) =
      some (s.bindings.source ++ (s.origin ++ rest)) := by
    obtain ⟨c, tail, hsource, hc⟩ := Bindings.head_not_blank h.names
    exact blanks?_cons (by decide) (by simp [hsource, hc])
  simp only [statementShape, after?_body, hgap, type_eq_none h, clause?_source h,
    Option.bind_eq_bind, Option.bind_some, Option.none_or, lengthTo_body]
  rfl

end Statement

/-- A shape that recognises the body of each statement, and begins as a statement does, is found
once in every line. -/
theorem hits_importSource {α : Type} {shape : Shape α} {value : Statement → α}
    {statements : List Statement} {tail : Text} (h : ∀ s ∈ statements, s.WellFormed)
    (htail : ∀ c ∈ tail, isBlank c = true)
    (hbody : ∀ s : Statement, s.WellFormed → ∀ offset previous rest,
      shape ⟨offset, previous, s.body ++ rest⟩ = some (value s, s.body.length))
    (hstart : ∀ at_, at_.rest.head? ≠ some 'i' → shape at_ = none) :
    hits shape (importSource statements ++ tail) = statements.map value := by
  have hpass {u rest : Text} (hu : 'i' ∉ u) (offset : Nat) (previous : Option Char) :
      hitsFrom shape 0 offset previous (u ++ rest) =
        hitsFrom shape 0 (offset + u.length) (lastOf previous u) rest := by
    refine hitsFrom_pass fun v c w hsplit o p => hstart _ ?_
    rintro ⟨⟩
    exact hu (by simp [hsplit])
  have hend (offset : Nat) (previous : Option Char) : hitsFrom shape 0 offset previous tail = [] := by
    have hnil : hitsFrom shape 0 offset previous (tail ++ []) =
        hitsFrom shape 0 (offset + tail.length) (lastOf previous tail) [] :=
      hpass (fun hi => absurd (htail _ hi) (by decide)) offset previous
    rwa [List.append_nil, hitsFrom] at hnil
  -- The last line ends without a line break, which is why a list of one is a case of its own.
  have hfrom : ∀ offset previous,
      hitsFrom shape 0 offset previous (importSource statements ++ tail) = statements.map value := by
    induction statements with
    | nil => exact hend
    | cons s statements ih =>
      intro offset previous
      have ih := ih fun s' hs' => h s' (.tail _ hs')
      have hs := h s List.mem_cons_self
      have hne : s.body ≠ [] := List.append_ne_nil_of_left_ne_nil (by decide) _
      cases statements with
      | nil =>
        have hsource : importSource [s] ++ tail = s.body ++ ([';'] ++ tail) := by
          simp [importSource, join, Statement.source]
        rw [hsource, hitsFrom_hit hne (hbody s hs offset previous _), hpass (by decide), hend]
        rfl
      | cons next statements =>
        have hsource : importSource (s :: next :: statements) ++ tail =
            s.body ++ ([';', '\n'] ++ (importSource (next :: statements) ++ tail)) := by
          rw [importSource, List.map_cons, List.map_cons, join_cons_cons]
          simp [importSource, Statement.source]
        rw [hsource, hitsFrom_hit hne (hbody s hs offset previous _), hpass (by decide), ih]
        rfl
  exact hfrom 0 none

theorem after?_import_eq_none {t : Text} (h : t.head? ≠ some 'i') :
    after? "import".toList t = none := by
  have hlead : "import".toList = 'i' :: "mport".toList := by decide
  rw [hlead]
  cases t with
  | nil => rfl
  | cons c t =>
    have hc : 'i' ≠ c := by
      rintro rfl
      exact h rfl
    rw [after?, if_neg hc]

theorem isLocal_eq (module : Text) : (!isLocal module) = decide (IsExternal module) := by
  have hstarts (lead : Text) : startsWith lead module = decide (lead <+: module) := by
    rw [startsWith, Bool.eq_iff_iff, decide_eq_true_eq, Option.isSome_iff_exists]
    simp only [after?_eq_some]
    exact exists_congr fun rest => eq_comm
  simp [isLocal, IsExternal, hstarts]

theorem isUpper_iff {c : Char} : c.isUpper = true ↔ 'A' ≤ c ∧ c ≤ 'Z' :=
  decide_eq_true_iff

theorem isWord_of_isUpper {c : Char} (h : c.isUpper = true) : isWord c = true := by
  have hlast : c.toNat ≤ 90 := (isUpper_iff.mp h).2
  rw [isWord, if_pos (by omega)]
  show (((c.isUpper || c.isLower) || c.isDigit) || c == '_') = true
  rw [h, Bool.true_or, Bool.true_or, Bool.true_or]

theorem siblingOf?_eq (module : Text) : siblingOf? module = sibling? module := by
  unfold sibling?
  split
  · next c rest =>
    have hlead : after? "../".toList ('.' :: '.' :: '/' :: c :: rest) = some (c :: rest) := rfl
    simp only [siblingOf?, hlead, Option.bind_eq_bind, Option.bind_some, List.head?_cons]
    by_cases hc : c.isUpper = true
    · rw [if_pos (isUpper_iff.mp hc), List.takeWhile_cons_of_pos (isWord_of_isUpper hc), hc]
      rfl
    · rw [if_neg (mt isUpper_iff.mpr hc), Bool.not_eq_true _ |>.mp hc]
      rfl
  · next hother =>
    have hsplit : "../".toList = ['.', '.', '/'] := by decide
    rcases hlead : after? "../".toList module with _ | rest
    · simp only [siblingOf?, hlead, Option.bind_eq_bind, Option.bind_none]
    · rw [after?_eq_some, hsplit] at hlead
      cases rest with
      | nil =>
        rw [hlead]
        rfl
      | cons c rest => exact absurd hlead (hother c rest)

/-- The import statements that are printed are those that are read; of their modules the external
ones and the siblings are listed, each once. -/
theorem imports_of_importSource {statements : List Statement} {tail : Text}
    (h : ∀ s ∈ statements, s.WellFormed) (htail : ∀ c ∈ tail, isBlank c = true) :
    importsIn (importSource statements ++ tail) = statements.map Statement.meaning ∧
      dependenciesIn (importSource statements ++ tail) =
        ((statements.map Statement.module).filter IsExternal).eraseDups ∧
      siblingsIn (importSource statements ++ tail) =
        (statements.filterMap fun s => sibling? s.module).eraseDups := by
  have himports : importsIn (importSource statements ++ tail) = statements.map Statement.meaning := by
    rw [importsIn, hits_importSource h htail (fun s hs => Statement.statementShape_body hs) ?_,
      List.map_map]
    · refine List.map_congr_left fun s hs => ?_
      exact Bindings.ofBindings_source (h s hs).names s.module
    · intro at_ hhead
      simp only [statementShape, after?_import_eq_none hhead, Option.bind_eq_bind, Option.bind_none]
  refine ⟨himports, ?_, ?_⟩
  · rw [dependenciesIn, hits_importSource h htail (fun s hs => Statement.specifierShape_body hs) ?_,
      distinct_eq_eraseDups]
    · simp only [isLocal_eq]
    · intro at_ hhead
      simp only [specifierShape, after?_import_eq_none hhead, Option.bind_eq_bind, Option.bind_none]
  · rw [siblingsIn, himports, List.filterMap_map, distinct_eq_eraseDups]
    simp only [siblingOf?_eq]
    rfl

/-- Statements whose names are words of the syntax. -/
def keywordStatements : List Statement :=
  [⟨.default "type".toList, "react".toList⟩,
    ⟨.named ["from".toList, "Box".toList], "../Box/Box".toList⟩,
    ⟨.whole "import".toList, "@/lib".toList⟩, ⟨.default "from".toList, "react".toList⟩]

theorem keywordStatements_wellFormed : ∀ s ∈ keywordStatements, s.WellFormed := by
  have hnames : ∀ s ∈ keywordStatements, ∀ name ∈ s.bindings.names, IsName name := by decide
  have hmodule : ∀ s ∈ keywordStatements, s.module ≠ [] ∧
      ∀ c ∈ s.module, isWord c = true ∨ c ∈ "@/-.".toList := by decide
  exact fun s hs => ⟨hnames s hs, (hmodule s hs).1, (hmodule s hs).2⟩

theorem imports_of_keywordStatements :
    (∀ s ∈ keywordStatements, s.WellFormed) ∧
      (importsIn (importSource keywordStatements ++ ['\n'])).map Import.names =
        [["type".toList], ["from".toList, "Box".toList], ["import".toList], ["from".toList]] ∧
      dependenciesIn (importSource keywordStatements ++ ['\n']) = ["react".toList] ∧
      siblingsIn (importSource keywordStatements ++ ['\n']) = ["Box".toList] := by
  have hread := imports_of_importSource keywordStatements_wellFormed
    (show ∀ c ∈ ['\n'], isBlank c = true by decide)
  refine ⟨keywordStatements_wellFormed, ?_, ?_, ?_⟩
  · rw [hread.1]
    decide
  · rw [hread.2.1]
    decide
  · rw [hread.2.2]
    decide

end Component

end ComponentCatalog
