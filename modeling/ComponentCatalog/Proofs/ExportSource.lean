import ComponentCatalog.Component.Export
import ComponentCatalog.Proofs.Phrases
import ComponentCatalog.Proofs.PropertySource

/-!
Printed export declarations, one on a line: what each form of declaration is written as, and what
the scan for a form finds in a line of that form and of the others.
-/
namespace ComponentCatalog.Component

open Text

/-- The declarations that export the name they declare. -/
inductive Form where
  | type | interface | const | letBinding | var | function | asyncFunction | generator
  | plainClass | abstractClass
  deriving DecidableEq, Repr

/-- A line that exports: a declaration, a list of names with the names they go by outside, or a
default. -/
inductive Declaration where
  | named (form : Form) (name : Text)
  | group (entries : List (Text × Option Text))
  | default (name : Text)
  deriving DecidableEq, Repr

/-- What stands between `export` and the name. -/
def Form.lead : Form → Text
  | .type => "type".toList
  | .interface => "interface".toList
  | .const => "const".toList
  | .letBinding => "let".toList
  | .var => "var".toList
  | .function => "function".toList
  | .asyncFunction => "async function".toList
  | .generator => "function*".toList
  | .plainClass => "class".toList
  | .abstractClass => "abstract class".toList

/-- What follows the name. -/
def Form.body : Form → Text
  | .type | .const | .letBinding | .var => " = 0;".toList
  | .interface | .plainClass | .abstractClass => " \x7b\x7d".toList
  | .function | .asyncFunction | .generator => "() \x7b\x7d".toList

def entrySource : Text × Option Text → Text
  | (name, none) => name
  | (name, some outside) => name ++ (" as ".toList ++ outside)

/-- The inside of the braces of a list. -/
def groupBody (entries : List (Text × Option Text)) : Text :=
  ' ' :: (join ", ".toList (entries.map entrySource) ++ [' '])

namespace Declaration

def source : Declaration → Text
  | .named form name => "export ".toList ++ (form.lead ++ ' ' :: (name ++ form.body))
  | .group entries => "export ".toList ++ '\x7b' :: (groupBody entries ++ "\x7d;".toList)
  | .default name => "export ".toList ++ ("default ".toList ++ (name ++ [';']))

theorem source_named (form : Form) (name : Text) : (named form name).source =
    "export ".toList ++ (form.lead ++ ' ' :: (name ++ form.body)) := rfl

theorem source_group (entries : List (Text × Option Text)) : (group entries).source =
    "export ".toList ++ '\x7b' :: (groupBody entries ++ "\x7d;".toList) := rfl

theorem source_default (name : Text) : (default name).source =
    "export ".toList ++ ("default ".toList ++ (name ++ [';'])) := rfl

/-- The names that the line exports apart from a default. -/
def names : Declaration → List Text
  | .named _ name => [name]
  | .group entries => entries.map Prod.fst
  | .default _ => []

/-- Every name that stands in the line is a word. -/
def WellFormed : Declaration → Prop
  | .named _ name | .default name => IsName name
  | .group entries => ∀ entry ∈ entries, ∀ name ∈ entry.1 :: entry.2.toList, IsName name

instance : (d : Declaration) → Decidable d.WellFormed
  | .named _ name | .default name => inferInstanceAs (Decidable (IsName name))
  | .group entries => inferInstanceAs
      (Decidable (∀ entry ∈ entries, ∀ name ∈ entry.1 :: entry.2.toList, IsName name))

end Declaration

/-- The declarations, each on a line. -/
def exportSource (declarations : List Declaration) : Text :=
  join ['\n'] (declarations.map Declaration.source)

/-- The words that follow `export`. -/
def keywords : List Text :=
  ["type".toList, "interface".toList, "const".toList, "let".toList, "var".toList,
    "function".toList, "async".toList, "class".toList, "abstract".toList, "default".toList]

/-- What may follow `export`: a keyword, or a brace that does not close at once. -/
def Continues (k : Text) : Prop := k ∈ keywords ∨ ∃ c, c ≠ '\x7d' ∧ k = ['\x7b', c]

/-- The beginning of an export. -/
def Introducing (m : Text) : Prop :=
  ∃ gap k, gap ≠ [] ∧ (∀ b ∈ gap, isBlank b = true) ∧ Continues k ∧
    m = "export".toList ++ (gap ++ k)

theorem Introducing.lead (m : Text) (hm : Introducing m) : "export".toList <+: m := by
  obtain ⟨gap, k, -, -, -, rfl⟩ := hm
  exact List.prefix_append _ _

theorem Introducing.head (m : Text) (hm : Introducing m) : m.head? = some 'e' := by
  obtain ⟨gap, k, -, -, -, rfl⟩ := hm
  rfl

theorem Continues.head {k : Text} (hk : Continues k) :
    ∃ c more, k = c :: more ∧ isBlank c = false := by
  rcases hk with hk | ⟨c, -, rfl⟩
  · have hkeywords : ∀ k ∈ keywords, k ≠ [] ∧ k.head?.any isBlank = false := by decide
    obtain ⟨hne, hhead⟩ := hkeywords k hk
    obtain ⟨c, more, rfl⟩ := List.exists_cons_of_ne_nil hne
    exact ⟨c, more, rfl, hhead⟩
  · exact ⟨'\x7b', [c], rfl, rfl⟩

theorem introducing_of_blanks? {s afterExport rest k : Text}
    (hexport : after? "export".toList s = some afterExport) (hgap : blanks? afterExport = some rest)
    (hk : Continues k) (hcontinues : k <+: rest) : ∃ m, Introducing m ∧ m <+: s := by
  obtain ⟨gap, hne, hblank, rfl⟩ := blanks?_split hgap
  obtain ⟨more, rfl⟩ := hcontinues
  refine ⟨_, ⟨gap, k, hne, hblank, hk, rfl⟩, more, ?_⟩
  rw [after?_eq_some.mp hexport]
  simp only [List.append_assoc]

theorem optionalWord_eq (lead s : Text) : optionalWord lead s = s ∨ lead <+: s := by
  unfold optionalWord
  cases hlead : after? lead s with
  | none => exact .inl rfl
  | some rest => exact .inr ⟨rest, (after?_eq_some.mp hlead).symm⟩

theorem exists_keyword_of_lead {lead : Text → Option Text} (hlead : lead ∈ declarationLeads)
    {s rest : Text} (h : lead s = some rest) : ∃ k ∈ keywords, k <+: s := by
  have hword {k tail : Text} (hk : k ∈ keywords) (hs : after? k s = some tail) :
      ∃ k ∈ keywords, k <+: s := ⟨k, hk, tail, (after?_eq_some.mp hs).symm⟩
  have hany {words : List Text} (hwords : ∀ k ∈ words, k ∈ keywords)
      (hs : afterAny? words s = some rest) : ∃ k ∈ keywords, k <+: s := by
    obtain ⟨k, hk, hs⟩ := List.exists_of_findSome?_eq_some hs
    exact hword (hwords k hk) hs
  have hoptional {first k tail : Text} (hfirst : first ∈ keywords) (hk : k ∈ keywords)
      (hs : after? k (optionalWord first s) = some tail) : ∃ k ∈ keywords, k <+: s := by
    rcases optionalWord_eq first s with heq | hprefix
    · exact hword hk (heq ▸ hs)
    · exact ⟨first, hfirst, hprefix⟩
  simp only [declarationLeads, List.mem_cons, List.not_mem_nil, or_false] at hlead
  rcases hlead with rfl | rfl | rfl | rfl
  · exact hany (by decide) h
  · exact hany (by decide) h
  · obtain ⟨tail, htail, -⟩ := Option.map_eq_some_iff.mp h
    exact hoptional (by decide) (by decide) htail
  · exact hoptional (by decide) (by decide) h

theorem opens_declarationShape {lead : Text → Option Text} (hlead : lead ∈ declarationLeads) :
    Opens Introducing (declarationShape lead) := by
  intro at_ found h
  simp only [declarationShape, Option.bind_eq_bind, Option.bind_eq_some_iff] at h
  obtain ⟨afterExport, hexport, rest, hgap, afterLead, hafter, -⟩ := h
  obtain ⟨k, hk, hprefix⟩ := exists_keyword_of_lead hlead hafter
  exact introducing_of_blanks? hexport hgap (.inl hk) hprefix

theorem opens_listShape : Opens Introducing listShape := by
  intro at_ found h
  simp only [listShape, Option.bind_eq_bind, Option.bind_eq_some_iff] at h
  obtain ⟨afterExport, hexport, rest, hgap, start, hstart, ⟨entries, afterEntries⟩, hentries, -⟩ := h
  obtain ⟨hsplit, hbrace⟩ := run?_eq_some hentries
  obtain ⟨c, entries, rfl⟩ := List.exists_cons_of_ne_nil (run?_ends hentries).1
  refine introducing_of_blanks? hexport hgap (.inr ⟨c, ?_, rfl⟩) ⟨entries ++ afterEntries, ?_⟩
  · exact of_decide_eq_true (hbrace c List.mem_cons_self)
  · rw [after?_eq_some.mp hstart, hsplit]
    rfl

theorem opens_defaultShape : Opens Introducing defaultShape := by
  intro at_ found h
  simp only [defaultShape, Option.bind_eq_bind, Option.bind_eq_some_iff] at h
  obtain ⟨afterExport, hexport, rest, hgap, afterDefault, hdefault, -⟩ := h
  exact introducing_of_blanks? hexport hgap (.inl (by decide))
    ⟨afterDefault, (after?_eq_some.mp hdefault).symm⟩

/-- No `export` in front of the text is the beginning of an export, whatever follows. -/
def Bars (u : Text) : Prop := ∀ rest t k, blanks? (u ++ rest) = some t → Continues k → ¬k <+: t

theorem bars_of_not_isBlank {c : Char} (hc : isBlank c = false) (u : Text) : Bars (c :: u) := by
  intro rest t k h
  rw [List.cons_append, blanks?, hc] at h
  cases h

theorem bars_of_words {u v : Text} (hword : ∀ k ∈ keywords, ¬k <+: u ∧ ¬u <+: k)
    (hbrace : u.head? ≠ some '\x7b' ∨ "\x7b\x7d".toList <+: u) (hu : u.head?.any isBlank = false)
    (hne : u ≠ []) : Bars (' ' :: (u ++ v)) := by
  intro rest t k h hk hprefix
  have ht : t = u ++ (v ++ rest) := by
    obtain ⟨c, u, rfl⟩ := List.exists_cons_of_ne_nil hne
    have hgap : blanks? (' ' :: (c :: u ++ (v ++ rest))) = some (c :: u ++ (v ++ rest)) :=
      blanks?_cons (by decide) hu
    rw [List.cons_append, List.append_assoc, hgap] at h
    exact (Option.some.inj h).symm
  subst ht
  rcases hk with hk | ⟨c, hc, rfl⟩
  · obtain ⟨hlong, hshort⟩ := hword k hk
    exact (List.prefix_or_prefix_of_prefix hprefix (List.prefix_append u _)).elim hlong hshort
  · rcases hbrace with hhead | ⟨more, rfl⟩
    · obtain ⟨d, u, rfl⟩ := List.exists_cons_of_ne_nil hne
      exact hhead (congrArg some (List.cons_prefix_cons.mp hprefix).1.symm)
    · exact hc (List.cons_prefix_cons.mp (List.cons_prefix_cons.mp hprefix).2).1

/-- An export does not begin in a name, unless what follows the name continues it. -/
theorem quiet_name {name u : Text} {c : Char} (hname : IsName name) (hc : isWord c = false)
    (hbars : Bars (c :: u)) (hquiet : Quiet Introducing (c :: u)) :
    Quiet Introducing (name ++ c :: u) := by
  intro v hv hne m hm rest hprefix
  rcases List.suffix_or_suffix_of_suffix hv (List.suffix_append name (c :: u)) with hv | ⟨w, rfl⟩
  · exact hquiet v hv hne m hm rest hprefix
  by_cases hw : w = []
  · subst hw
    exact hquiet _ List.suffix_rfl hne m hm rest hprefix
  -- The name ends here, as `export` does.
  have hsuffix : w <:+ name := by
    obtain ⟨x, hx⟩ := hv
    exact ⟨x, List.append_cancel_right (by rw [List.append_assoc, hx])⟩
  have hwordv : word? (w ++ (c :: u ++ rest)) = some (w, c :: u ++ rest) :=
    word?_append hw (fun d hd => hname.word d (hsuffix.mem hd)) hc
  obtain ⟨gap, k, hgap, hblank, hk, rfl⟩ := hm
  obtain ⟨more, hmore⟩ := hprefix
  obtain ⟨b, gap, rfl⟩ := List.exists_cons_of_ne_nil hgap
  have hb : isBlank b = true := hblank b List.mem_cons_self
  have hwordm : word? ("export".toList ++ (b :: gap ++ (k ++ more))) =
      some ("export".toList, b :: gap ++ (k ++ more)) := by
    refine word?_append (by decide) (by decide) ?_
    exact Bool.eq_false_iff.mpr fun hword => by
      rw [isBlank_of_isWord hword] at hb
      cases hb
  have hsame : "export".toList ++ (b :: gap ++ (k ++ more)) = w ++ (c :: u ++ rest) := by
    simpa only [List.append_assoc] using hmore
  rw [hsame, hwordv] at hwordm
  obtain ⟨-, hrest⟩ := Prod.mk.inj (Option.some.inj hwordm)
  obtain ⟨d, k', rfl, hd⟩ := hk.head
  refine hbars rest (d :: k' ++ more) (d :: k') ?_ hk (List.prefix_append _ _)
  rw [hrest, List.cons_append, blanks?, if_pos hb,
    stripStart_append_of_blank fun b' hb' => hblank b' (.tail _ hb'), List.cons_append,
    stripStart_cons hd]

theorem quiet_body (form : Form) : Quiet Introducing form.body := by
  refine quiet_of_notMem Introducing.head ?_
  cases form <;> decide

/-- No keyword in front of a name ends as `export` begins. -/
theorem quiet_lead (form : Form) : Quiet Introducing (form.lead ++ [' ']) := by
  cases form <;> exact quiet_of_lead Introducing.lead (by decide)

theorem bars_body (form : Form) : Bars form.body := by
  have hvalue : Bars (' ' :: ("= 0;".toList ++ [])) :=
    bars_of_words (by decide) (.inl (by decide)) (by decide) (by decide)
  have hbraces : Bars (' ' :: ("\x7b\x7d".toList ++ [])) :=
    bars_of_words (by decide) (.inr (by decide)) (by decide) (by decide)
  cases form with
  | type | const | letBinding | var => exact hvalue
  | interface | plainClass | abstractClass => exact hbraces
  | function | asyncFunction | generator => exact bars_of_not_isBlank (by decide) _

/-- No export begins in an entry of a list and the mark behind it. -/
theorem quiet_entry {entry : Text × Option Text}
    (h : ∀ name ∈ entry.1 :: entry.2.toList, IsName name) {c : Char} {u : Text}
    (hc : isWord c = false) (hbars : Bars (c :: u)) (hquiet : Quiet Introducing (c :: u)) :
    Quiet Introducing (entrySource entry ++ c :: u) := by
  obtain ⟨name, outside⟩ := entry
  have hname := h name List.mem_cons_self
  cases outside with
  | none => exact quiet_name hname hc hbars hquiet
  | some outside =>
    have houtside := quiet_name (h outside (by simp)) hc hbars hquiet
    have hsplit : entrySource (name, some outside) ++ c :: u =
        name ++ ' ' :: ("as ".toList ++ (outside ++ c :: u)) := by
      have has : " as ".toList = ' ' :: "as ".toList := rfl
      simp only [entrySource, has, List.append_assoc, List.cons_append]
    have has : Quiet Introducing " as ".toList := quiet_of_lead Introducing.lead (by decide)
    rw [hsplit]
    refine quiet_name hname (by decide) ?_ (has.append houtside)
    exact bars_of_words (by decide) (.inl (by decide)) (by decide) (by decide)

namespace Declaration

variable {d : Declaration}

theorem quiet_named (form : Form) {name : Text} (hname : IsName name) :
    Quiet Introducing ("xport ".toList ++ (form.lead ++ [' ']) ++ (name ++ form.body)) := by
  obtain ⟨c, u, hbody, hc⟩ : ∃ c u, form.body = c :: u ∧ isWord c = false := by
    cases form <;> exact ⟨_, _, rfl, by decide⟩
  have hbars := bars_body form
  have hquiet := quiet_body form
  have hexport : Quiet Introducing "xport ".toList := quiet_of_notMem Introducing.head (by decide)
  rw [hbody] at hbars hquiet ⊢
  exact (hexport.append (quiet_lead form)).append (quiet_name hname hc hbars hquiet)

theorem quiet_group {entries : List (Text × Option Text)}
    (h : ∀ entry ∈ entries, ∀ name ∈ entry.1 :: entry.2.toList, IsName name) :
    Quiet Introducing ("xport \x7b ".toList ++
      (join ", ".toList (entries.map entrySource) ++ " \x7d;".toList)) := by
  have hopen : Quiet Introducing "xport \x7b ".toList :=
    quiet_of_notMem Introducing.head (by decide)
  have hclose : Quiet Introducing " \x7d;".toList := quiet_of_notMem Introducing.head (by decide)
  have hcomma : Quiet Introducing ", ".toList := quiet_of_notMem Introducing.head (by decide)
  have hbars : Bars (' ' :: ("\x7d;".toList ++ [])) :=
    bars_of_words (by decide) (.inl (by decide)) (by decide) (by decide)
  refine hopen.append (hclose.join fun part hpart => ?_)
  obtain ⟨entry, hmem, rfl⟩ := List.mem_map.mp hpart
  exact ⟨quiet_entry (h entry hmem) (by decide) (bars_of_not_isBlank (by decide) _) hcomma,
    quiet_entry (h entry hmem) (by decide) hbars hclose⟩

theorem quiet_default {name : Text} (hname : IsName name) :
    Quiet Introducing ("xport default ".toList ++ (name ++ [';'])) := by
  have hdefault : Quiet Introducing "xport default ".toList :=
    quiet_of_lead Introducing.lead (by decide)
  have hend : Quiet Introducing [';'] := quiet_of_notMem Introducing.head (by decide)
  exact hdefault.append
    (quiet_name hname (c := ';') (by decide) (bars_of_not_isBlank (by decide) []) hend)

/-- An export begins at the first character of a line and nowhere else in it. -/
theorem quiet_source (hd : d.WellFormed) :
    ∃ tail, d.source = 'e' :: tail ∧ Quiet Introducing tail := by
  cases d with
  | named form name =>
    refine ⟨_, ?_, quiet_named form hd⟩
    have hsource : (named form name).source =
        'e' :: ("xport ".toList ++ (form.lead ++ ' ' :: (name ++ form.body))) := rfl
    rw [hsource, List.append_assoc, List.append_assoc]
    rfl
  | group entries =>
    refine ⟨_, ?_, quiet_group hd⟩
    have hsource : (group entries).source = 'e' :: ("xport \x7b ".toList ++
        (join ", ".toList (entries.map entrySource) ++ [' '] ++ "\x7d;".toList)) := rfl
    rw [hsource, List.append_assoc]
    rfl
  | default name => exact ⟨_, rfl, quiet_default hd⟩

/-- A scan passes a line that its shape does not recognise. -/
theorem finds_nil {α : Type} {shape : Shape α} (hopens : Opens Introducing shape)
    (hd : d.WellFormed) (hmiss : ∀ at_ rest, at_.rest = d.source ++ rest → shape at_ = none) :
    Finds shape d.source fun _ => [] := by
  obtain ⟨tail, hsource, htail⟩ := quiet_source hd
  rw [hsource] at hmiss ⊢
  exact Text.finds_nil hopens htail fun offset previous rest => hmiss _ rest rfl

end Declaration

end ComponentCatalog.Component
