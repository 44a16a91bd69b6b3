import ComponentCatalog.Proofs.Expression

/-!
The source of a component with given properties: an interface that declares them, one after another,
and a constant that destructures them with their defaults. The fields are read back as they were
written.
-/
namespace ComponentCatalog

namespace Code

/-- An expression that stands for itself in a role. -/
structure IsExpression (role : Role) (s : Text) : Prop where
  nonempty : s ≠ []
  stripped : Text.strip s = s
  expression : Expression role false s

end Code

namespace Component

open Text Code

/-- One or more word characters. -/
structure IsName (s : Text) : Prop where
  ne_nil : s ≠ []
  word : ∀ c ∈ s, isWord c = true

instance (s : Text) : Decidable (IsName s) :=
  decidable_of_iff (s ≠ [] ∧ ∀ c ∈ s, isWord c = true)
    ⟨fun h => ⟨h.1, h.2⟩, fun h => ⟨h.ne_nil, h.word⟩⟩

theorem IsName.append {u v : Text} (hu : IsName u) (hv : ∀ c ∈ v, isWord c = true) :
    IsName (u ++ v) where
  ne_nil := List.append_ne_nil_of_left_ne_nil hu.ne_nil _
  word c hc := (List.mem_append.mp hc).elim (hu.word c) (hv c)

/-- A word begins at a name, if none of its characters stands before it. -/
theorem IsName.atWordStart {name : Text} (hname : IsName name) (offset : Nat)
    {previous : Option Char} (hprevious : previous.any isWord = false) (rest : Text) :
    Cursor.atWordStart ⟨offset, previous, name ++ rest⟩ = true := by
  obtain ⟨c, name, rfl⟩ := List.exists_cons_of_ne_nil hname.ne_nil
  simp [Cursor.atWordStart, hprevious, hname.word c List.mem_cons_self]

/-- A name is found after all blanks, if no word character follows it. -/
theorem IsName.afterMost_append {name rest : Text} (hname : IsName name)
    (hrest : rest.head?.any isWord = false) :
    afterMost isBlank (afterName? name) (name ++ rest) = some rest := by
  have hblank : ∀ c, (name ++ rest).head? = some c → isBlank c = false := by
    intro c hc
    cases name with
    | nil => exact absurd rfl hname.ne_nil
    | cons d name =>
      exact isBlank_of_isWord (hname.word c (Option.some.inj hc ▸ List.mem_cons_self))
  rw [afterMost_of_neg hblank]
  exact (afterName?_eq_some hname.ne_nil hname.word).mpr ⟨rfl, hrest⟩

/-- A doc comment on one line. -/
def commentOf (d : Text) : Text := "/** ".toList ++ (d ++ " */".toList)

namespace Property

def documentation (p : Property) : Text :=
  match p.description with
  | none => []
  | some d => commentOf d ++ ['\n']

/-- The name of the field, and what parts it from the type. -/
def head (p : Property) : Text := p.name ++ if p.required then ": ".toList else "?: ".toList

/-- The lines that declare the property in an interface. -/
def block (p : Property) : Text := p.documentation ++ (p.head ++ (p.type ++ ";\n".toList))

/-- The property in a destructured parameter. -/
def entry (p : Property) : Text :=
  match p.default with
  | none => p.name
  | some d => p.name ++ (" = ".toList ++ d)

/-- A name, expressions and a description of one line. -/
structure WellFormed (p : Property) : Prop where
  name : IsName p.name
  type : IsExpression .type p.type
  default : ∀ d, p.default = some d → IsExpression .default d
  description : ∀ d, p.description = some d →
    d ≠ [] ∧ strip d = d ∧ (∀ c ∈ d, isLineBreak c = false) ∧ contains "*/".toList d = false

/-- No mark of a comment stands in the description. -/
def Unmarked (p : Property) : Prop :=
  ∀ d, p.description = some d → '*' ∉ d ∧ ¬"//".toList <:+: d

end Property

/-- The destructured parameter of the component, from its name to the end. -/
def parameter (component : Text) (properties : List Property) : Text :=
  " = (\x7b ".toList ++ (join ", ".toList (properties.map Property.entry) ++
    (" \x7d: ".toList ++ (component ++ "Props) => null;".toList)))

/-- The source of a component that declares the properties and takes them apart. -/
def propertySource (component : Text) (properties : List Property) : Text :=
  "export interface ".toList ++ (component ++ "Props".toList ++ (" \x7b\n".toList ++
    (properties.flatMap Property.block ++ '\x7d' :: '\n' ::
      ("export const ".toList ++ (component ++ parameter component properties)))))

theorem withoutCommentMarks_eq_self {s : Text} (hstar : '*' ∉ s) (hslash : ¬"//".toList <:+: s) :
    withoutCommentMarks s = s := by
  induction s with
  | nil => rfl
  | cons c s ih =>
    rw [List.mem_cons, not_or] at hstar
    have hrest : ¬"//".toList <:+: s := fun h => hslash (h.trans (List.suffix_cons c s).isInfix)
    have hpair : ∀ rest, c :: s ≠ '/' :: '/' :: rest := by
      intro rest he
      exact hslash (he ▸ (List.prefix_append "//".toList rest).isInfix)
    have hcons : withoutCommentMarks (c :: s) = c :: withoutCommentMarks s := by
      rw [withoutCommentMarks.eq_def]
      split <;> simp_all
    rw [hcons, ih hstar.2 hrest]

theorem breakLines_eq_singleton {s : Text} (hne : s ≠ [])
    (h : ∀ c ∈ s, isLineBreak c = false) : breakLines s = [s] := by
  induction s with
  | nil => exact absurd rfl hne
  | cons c s ih =>
    have hc := h c List.mem_cons_self
    have hreturn : c ≠ '\r' := by
      rintro rfl
      cases hc
    rw [breakLines]
    · cases s with
      | nil => simp [hc, breakLines]
      | cons d s =>
        rw [hc, if_neg Bool.false_ne_true, ih (List.cons_ne_nil _ _) fun c hc => h c (.tail _ hc)]
    · rintro rest rfl
      exact fun _ => hreturn rfl

/-- The description of a doc comment is what was written into it, if that holds no mark. -/
theorem firstCommentLine_description {d : Text} (hne : d ≠ []) (hstrip : strip d = d)
    (hline : ∀ c ∈ d, isLineBreak c = false) (hstar : '*' ∉ d) (hslash : ¬"//".toList <:+: d) :
    firstCommentLine (' ' :: (d ++ [' '])) = some d := by
  -- The blanks around the description complete no mark.
  have hslash' : ¬"//".toList <:+: ' ' :: (d ++ [' ']) := by
    rw [List.infix_cons_iff, List.infix_concat_iff]
    rintro (h | h | h)
    · simp at h
    · rcases List.suffix_concat_iff.mp h with h | ⟨t, h, -⟩
      · cases h
      · have hlast := congrArg List.getLast? h
        simp at hlast
    · exact hslash h
  have hline' : ∀ c ∈ ' ' :: (d ++ [' ']), isLineBreak c = false := by
    intro c hc
    simp only [List.mem_cons, List.mem_append, List.not_mem_nil, or_false] at hc
    rcases hc with rfl | hc | rfl
    · rfl
    · exact hline c hc
    · rfl
  have hstripped : strip (' ' :: (d ++ [' '])) = d := by
    have hblank : ∀ c ∈ [' '], isBlank c = true := List.forall_mem_singleton.2 rfl
    rw [← List.singleton_append, strip_blank_append hblank, strip_append_of_blank hblank, hstrip]
  rw [firstCommentLine, withoutCommentMarks_eq_self (by simp [hstar]) hslash',
    breakLines_eq_singleton (List.cons_ne_nil _ _) hline', List.map_singleton, hstripped,
    List.find?_cons_of_pos (by simpa using hne)]

end Component

end ComponentCatalog
