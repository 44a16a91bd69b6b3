import ComponentCatalog.Proofs.Entries
import ComponentCatalog.Proofs.ExportSource
import ComponentCatalog.Proofs.Places

/-!
The listing of the exports of a source: a scan for each family of declarations and one for lists,
merged by the offsets of the names, and one for defaults. From printed declarations it gives every
exported name once, in source order.
-/
namespace ComponentCatalog.Component

open Text

variable {lead : Text → Option Text} {name : Text} {entries : List (Text × Option Text)}
  {ds : List Declaration}

/-- The names of a list whose inside begins at the offset, each at the offset of its entry. -/
def entrySites : (offset : Nat) → List (Text × Option Text) → List (Nat × Text)
  | _, [] => []
  | offset, entry :: entries =>
    (offset, entry.1) :: entrySites (offset + (entrySource entry).length + 2) entries

/-- The exported names of a line that begins at the offset, with their own offsets. -/
def Declaration.sites (offset : Nat) : Declaration → List (Nat × Text)
  | .named form name => [(offset + (form.lead.length + 8), name)]
  | .group entries => entrySites (offset + 8) entries
  | .default _ => []

theorem map_snd_entrySites (offset : Nat) (entries : List (Text × Option Text)) :
    (entrySites offset entries).map Prod.snd = entries.map Prod.fst := by
  induction entries generalizing offset with
  | nil => rfl
  | cons entry entries ih => rw [entrySites, List.map_cons, List.map_cons, ih]

/-- The names of a list stand in order in it. -/
theorem entrySites_within (offset : Nat) (entries : List (Text × Option Text)) :
    (entrySites offset entries).Pairwise (fun a b => a.1 < b.1) ∧
      ∀ site ∈ entrySites offset entries, offset ≤ site.1 ∧
        site.1 ≤ offset + (join ", ".toList (entries.map entrySource)).length := by
  induction entries generalizing offset with
  | nil => exact ⟨.nil, List.forall_mem_nil _⟩
  | cons entry entries ih =>
    obtain ⟨hpairwise, hwithin⟩ := ih (offset + (entrySource entry).length + 2)
    refine ⟨List.pairwise_cons.mpr ⟨fun site hsite => ?_, hpairwise⟩, List.forall_mem_cons.mpr
      ⟨⟨Nat.le_refl _, Nat.le_add_right _ _⟩, fun site hsite => ?_⟩⟩
    · have := (hwithin site hsite).1
      dsimp only
      omega
    · obtain ⟨hfirst, hlast⟩ := hwithin site hsite
      obtain ⟨next, entries, rfl⟩ : ∃ next more, entries = next :: more := by
        cases entries with
        | nil => cases hsite
        | cons next more => exact ⟨next, more, rfl⟩
      rw [List.map_cons, List.map_cons, join_cons_cons, ← List.map_cons]
      have hcomma : ", ".toList.length = 2 := rfl
      simp only [List.length_append, hcomma]
      omega

namespace Declaration

theorem map_snd_sites (offset : Nat) (d : Declaration) :
    (d.sites offset).map Prod.snd = d.names := by
  cases d with
  | named form name => rfl
  | group entries => exact map_snd_entrySites _ _
  | default name => rfl

theorem sites_within (offset : Nat) (d : Declaration) :
    (d.sites offset).Pairwise (fun a b => a.1 < b.1) ∧
      ∀ site ∈ d.sites offset, offset ≤ site.1 ∧ site.1 ≤ offset + d.source.length := by
  cases d with
  | named form name =>
    have hexport : "export ".toList.length = 7 := rfl
    refine ⟨List.pairwise_singleton _ _, List.forall_mem_singleton.mpr ?_⟩
    simp only [source_named, List.length_append, List.length_cons, hexport]
    omega
  | group entries =>
    obtain ⟨hpairwise, hwithin⟩ := entrySites_within (offset + 8) entries
    refine ⟨hpairwise, fun site hsite => ?_⟩
    obtain ⟨hfirst, hlast⟩ := hwithin site hsite
    have hexport : "export ".toList.length = 7 := rfl
    simp only [source_group, groupBody, List.length_append, List.length_cons, hexport]
    omega
  | default name => exact ⟨.nil, List.forall_mem_nil _⟩

end Declaration

/-- The exported names of the lines with their offsets, in source order. -/
def sitesOf (lines : List (Nat × Declaration)) : List (Nat × Text) :=
  lines.flatMap fun line => line.2.sites line.1

theorem map_snd_sitesOf (lines : List (Nat × Declaration)) :
    (sitesOf lines).map Prod.snd = (lines.map Prod.snd).flatMap Declaration.names := by
  rw [sitesOf, List.map_flatMap, List.flatMap_map]
  simp only [Declaration.map_snd_sites]

theorem pairwise_sitesOf (offset : Nat) (ds : List Declaration) :
    (sitesOf (placed Declaration.source offset ds)).Pairwise (fun a b => a.1 < b.1) ∧
      ∀ site ∈ sitesOf (placed Declaration.source offset ds), offset ≤ site.1 := by
  induction ds generalizing offset with
  | nil => exact ⟨.nil, List.forall_mem_nil _⟩
  | cons d ds ih =>
    obtain ⟨hpairwise, hafter⟩ := ih (offset + d.source.length + 1)
    obtain ⟨hline, hwithin⟩ := d.sites_within offset
    have hsplit : sitesOf (placed Declaration.source offset (d :: ds)) =
        d.sites offset ++ sitesOf (placed Declaration.source (offset + d.source.length + 1) ds) := rfl
    rw [hsplit]
    refine ⟨List.pairwise_append.mpr ⟨hline, hpairwise, fun a ha b hb => ?_⟩, fun site hsite => ?_⟩
    · have := (hwithin a ha).2
      have := hafter b hb
      omega
    · rcases List.mem_append.mp hsite with hsite | hsite
      · exact (hwithin site hsite).1
      · have := hafter site hsite
        omega

theorem head?_lead (form : Form) (t : Text) : (form.lead ++ t).head? = form.lead.head? := by
  cases form <;> rfl

/-- `export` and a blank in front of what is not blank. -/
theorem export_steps {t : Text} (ht : t.head?.any isBlank = false) :
    after? "export".toList ("export ".toList ++ t) = some (' ' :: t) ∧ blanks? (' ' :: t) = some t :=
  ⟨after?_append "export".toList (' ' :: t), blanks?_cons (by decide) ht⟩

/-- A blank in front of a name that ends before `rest`. -/
theorem name_steps (hname : IsName name) (rest : Text) (hrest : rest.head?.any isWord = false) :
    blanks? (' ' :: (name ++ rest)) = some (name ++ rest) ∧
      word? (name ++ rest) = some (name, rest) := by
  refine ⟨blanks?_cons (by decide) ?_, word?_append hname.ne_nil hname.word hrest⟩
  obtain ⟨c, name, rfl⟩ := List.exists_cons_of_ne_nil hname.ne_nil
  exact isBlank_of_isWord (hname.word c List.mem_cons_self)

/-- What the scan for a family finds in a line. -/
def Declaration.sitesUnder (lead : Text → Option Text) (offset : Nat) :
    Declaration → List (Nat × Text)
  | .named form name =>
    if (lead form.lead).isSome then (Declaration.named form name).sites offset else []
  | .group _ | .default _ => []

/-- A family takes the keywords of a form whole or not at all. -/
theorem lead_append (hlead : lead ∈ declarationLeads) (form : Form) (t : Text) :
    lead (form.lead ++ ' ' :: t) = if (lead form.lead).isSome then some (' ' :: t) else none := by
  simp only [declarationLeads, List.mem_cons, List.not_mem_nil, or_false] at hlead
  rcases hlead with rfl | rfl | rfl | rfl <;> cases form <;> rfl

theorem lead_eq_none (hlead : lead ∈ declarationLeads) (t : Text) :
    lead ('\x7b' :: t) = none ∧ lead ("default ".toList ++ t) = none := by
  simp only [declarationLeads, List.mem_cons, List.not_mem_nil, or_false] at hlead
  rcases hlead with rfl | rfl | rfl | rfl <;> exact ⟨rfl, rfl⟩

theorem declarationShape_eq_none {at_ : Cursor} {t : Text} (hat : at_.rest = "export ".toList ++ t)
    (ht : t.head?.any isBlank = false) (hlead : lead t = none) : declarationShape lead at_ = none := by
  obtain ⟨hexport, hgap⟩ := export_steps ht
  simp only [declarationShape, hat, hexport, hgap, hlead, Option.bind_eq_bind, Option.bind_some,
    Option.bind_none]

theorem declarationShape_named {form : Form} (hname : IsName name) (offset : Nat)
    (previous : Option Char) (rest : Text)
    (hform : ∀ t, lead (form.lead ++ ' ' :: t) = some (' ' :: t)) :
    declarationShape lead ⟨offset, previous, (Declaration.named form name).source ++ rest⟩ =
      some ((offset + (form.lead.length + 8), name),
        ("export ".toList ++ (form.lead ++ ' ' :: name)).length) := by
  have hlength : "export ".toList.length = 7 := rfl
  obtain ⟨hexport, hgap⟩ := export_steps (t := form.lead ++ ' ' :: (name ++ (form.body ++ rest)))
    (by cases form <;> rfl)
  obtain ⟨hname, hword⟩ := name_steps hname (form.body ++ rest) (by cases form <;> rfl)
  simp only [declarationShape, Declaration.source_named, List.append_assoc, List.cons_append,
    hexport, hgap, hform, hname, hword, Option.bind_eq_bind, Option.bind_some, Cursor.lengthTo,
    List.length_append, List.length_cons, hlength, Option.pure_def, Option.some.injEq, Prod.mk.injEq,
    and_true]
  omega

theorem finds_declarationShape (hlead : lead ∈ declarationLeads) {d : Declaration}
    (hd : d.WellFormed) :
    Finds (declarationShape lead) d.source fun offset => d.sitesUnder lead offset := by
  have hopens := opens_declarationShape hlead
  cases d with
  | named form name =>
    by_cases hform : (lead form.lead).isSome
    · have hfound : (fun offset => (Declaration.named form name).sitesUnder lead offset) =
          fun offset => [(offset + (form.lead.length + 8), name)] := funext fun offset => if_pos hform
      have hlead (t : Text) : lead (form.lead ++ ' ' :: t) = some (' ' :: t) :=
        (lead_append hlead form t).trans (if_pos hform)
      rw [hfound]
      refine finds_hit (u := "export ".toList ++ (form.lead ++ ' ' :: name)) hopens ?_
        (List.append_ne_nil_of_left_ne_nil (by decide) _) (quiet_body form)
        fun offset previous rest => declarationShape_named hd offset previous rest hlead
      simp only [Declaration.source_named, List.append_assoc, List.cons_append]
    · have hfound : (fun offset => (Declaration.named form name).sitesUnder lead offset) = fun _ => [] :=
        funext fun offset => if_neg hform
      rw [hfound]
      refine Declaration.finds_nil hopens hd fun at_ rest hrest => ?_
      rw [Declaration.source_named, List.append_assoc] at hrest
      refine declarationShape_eq_none hrest ?_ ?_
      · rw [List.append_assoc, head?_lead]
        cases form <;> rfl
      · rw [List.append_assoc, List.cons_append, lead_append hlead, if_neg hform]
  | group entries =>
    refine Declaration.finds_nil hopens hd fun at_ rest hrest => ?_
    rw [Declaration.source_group, List.append_assoc] at hrest
    exact declarationShape_eq_none hrest rfl (lead_eq_none hlead _).1
  | default name =>
    refine Declaration.finds_nil hopens hd fun at_ rest hrest => ?_
    rw [Declaration.source_default, List.append_assoc, List.append_assoc] at hrest
    exact declarationShape_eq_none hrest rfl (lead_eq_none hlead _).2

theorem listedName_entry {entry : Text × Option Text}
    (h : ∀ name ∈ entry.1 :: entry.2.toList, IsName name) :
    strip (before " as ".toList (strip (entrySource entry))) = entry.1 := by
  obtain ⟨name, outside⟩ := entry
  have hname := h name List.mem_cons_self
  have hblank : ' ' ∉ name := fun hmem => absurd (hname.word _ hmem) (by decide)
  have has : " as ".toList = ' ' :: "as ".toList := rfl
  cases outside with
  | none =>
    rw [entrySource, strip_of_word hname.word, has, before_eq_self hblank, strip_of_word hname.word]
  | some outside =>
    have houtside := h outside (by simp)
    obtain ⟨c, more, rfl⟩ := List.exists_cons_of_ne_nil hname.ne_nil
    have hsource : strip (entrySource (c :: more, some outside)) =
        c :: more ++ (" as ".toList ++ outside) := by
      have hstrip := strip_cons_append (isBlank_of_isWord (hname.word c List.mem_cons_self))
        houtside.ne_nil (strip_of_word houtside.word) (more ++ " as ".toList)
      simpa only [entrySource, List.append_assoc, List.cons_append] using hstrip
    have hcut : cut? " as ".toList (c :: more ++ (" as ".toList ++ outside)) =
        some (c :: more, outside) := @cut?_append ' ' "as ".toList _ _ hblank
    rw [hsource, before, hcut, Option.map_some, Option.getD_some, strip_of_word hname.word]

/-- The names of a list are found at the offsets of its entries. -/
theorem listedNames_padded (h : ∀ entry ∈ entries, ∀ name ∈ entry.1 :: entry.2.toList, IsName name)
    (offset : Nat) :
    listedNames offset (paddedParts (entries.map entrySource)) = entrySites offset entries := by
  induction entries generalizing offset with
  | nil => rfl
  | cons entry entries ih =>
    have hentry := h entry List.mem_cons_self
    have hne : entry.1 ≠ [] := (hentry entry.1 List.mem_cons_self).ne_nil
    have hlead : strip (' ' :: entrySource entry) = strip (entrySource entry) :=
      strip_blank_append (u := [' ']) (by decide) _
    cases entries with
    | nil =>
      have hend : strip (' ' :: (entrySource entry ++ [' '])) = strip (entrySource entry) :=
        (strip_append_of_blank (u := [' ']) (by decide) (' ' :: entrySource entry)).trans hlead
      rw [List.map_cons, List.map_nil, paddedParts, listedNames, hend, listedName_entry hentry,
        listedNames, if_neg hne]
      rfl
    | cons next entries =>
      rw [List.map_cons, List.map_cons, paddedParts, listedNames, hlead, listedName_entry hentry,
        ← List.map_cons, ih fun entry hmem => h entry (.tail _ hmem), if_neg hne, List.length_cons,
        entrySites]
      congr 2

/-- What the scan for lists finds in a line. -/
def Declaration.sitesListed (offset : Nat) : Declaration → List (List (Nat × Text))
  | .group entries => [entrySites (offset + 8) entries]
  | .named _ _ | .default _ => []

theorem listShape_eq_none {at_ : Cursor} {t : Text} (hat : at_.rest = "export ".toList ++ t)
    (ht : t.head?.any isBlank = false) (hbrace : t.head? ≠ some '\x7b') : listShape at_ = none := by
  obtain ⟨hexport, hgap⟩ := export_steps ht
  have hopen : after? ['\x7b'] t = none := by
    cases t with
    | nil => rfl
    | cons c t => exact if_neg fun hc => hbrace (congrArg some hc.symm)
  simp only [listShape, hat, hexport, hgap, hopen, Option.bind_eq_bind, Option.bind_some,
    Option.bind_none]

/-- An entry is made of words and blanks. -/
theorem notMem_entrySource {entry : Text × Option Text}
    (h : ∀ name ∈ entry.1 :: entry.2.toList, IsName name) {mark : Char}
    (hword : isWord mark = false) (hblank : mark ≠ ' ') : mark ∉ entrySource entry := by
  have hname : ∀ name ∈ entry.1 :: entry.2.toList, mark ∉ name := fun name hmem hmark => by
    rw [(h name hmem).word mark hmark] at hword
    cases hword
  obtain ⟨name, outside⟩ := entry
  cases outside with
  | none => exact hname name List.mem_cons_self
  | some outside =>
    have has : mark ∉ " as ".toList := fun hmark => by
      have hletters : ∀ c ∈ " as ".toList, isWord c = true ∨ c = ' ' := by decide
      rcases hletters mark hmark with hw | hb
      · rw [hw] at hword
        cases hword
      · exact hblank hb
    simp only [entrySource, List.mem_append, not_or]
    exact ⟨hname name List.mem_cons_self, has, hname outside (by simp)⟩

theorem notMem_groupBody (h : (Declaration.group entries).WellFormed) :
    '\x7d' ∉ groupBody entries := by
  have hentries : '\x7d' ∉ join ", ".toList (entries.map entrySource) := by
    refine notMem_join (by decide) fun part hpart => ?_
    obtain ⟨entry, hentry, rfl⟩ := List.mem_map.mp hpart
    exact notMem_entrySource (h entry hentry) (by decide) (by decide)
  simp only [groupBody, List.mem_cons, List.mem_append, List.not_mem_nil, or_false, not_or]
  exact ⟨by decide, hentries, by decide⟩

theorem listShape_group (h : (Declaration.group entries).WellFormed) (offset : Nat)
    (previous : Option Char) (rest : Text) :
    listShape ⟨offset, previous, (Declaration.group entries).source ++ rest⟩ =
      some (entrySites (offset + 8) entries,
        ("export ".toList ++ '\x7b' :: (groupBody entries ++ ['\x7d'])).length) := by
  have hlength : "export ".toList.length = 7 := rfl
  obtain ⟨hexport, hgap⟩ := export_steps
    (t := '\x7b' :: (groupBody entries ++ '\x7d' :: ';' :: rest)) rfl
  have hopen (t : Text) : after? ['\x7b'] ('\x7b' :: t) = some t := after?_append ['\x7b'] t
  have hclose (t : Text) : after? ['\x7d'] ('\x7d' :: t) = some t := after?_append ['\x7d'] t
  have hrun : run? (fun c => decide (c ≠ '\x7d')) (groupBody entries ++ '\x7d' :: ';' :: rest) =
      some (groupBody entries, '\x7d' :: ';' :: rest) :=
    run?_append (List.cons_ne_nil _ _)
      (fun c hc => decide_eq_true fun heq => notMem_groupBody h (heq ▸ hc)) rfl
  have hsplit : (groupBody entries).splitOn ',' = paddedParts (entries.map entrySource) := by
    refine splitOn_padded fun part hpart => ?_
    obtain ⟨entry, hentry, rfl⟩ := List.mem_map.mp hpart
    exact notMem_entrySource (h entry hentry) (by decide) (by decide)
  have hsource : (Declaration.group entries).source ++ rest =
      "export ".toList ++ '\x7b' :: (groupBody entries ++ '\x7d' :: ';' :: rest) := by
    have hend : "\x7d;".toList ++ rest = '\x7d' :: ';' :: rest := rfl
    rw [Declaration.source_group, List.append_assoc, List.cons_append, List.append_assoc, hend]
  simp only [listShape, hsource, hexport, hgap, hopen, hrun, hclose, hsplit, Option.bind_eq_bind,
    Option.bind_some, Cursor.lengthTo, Option.pure_def]
  have hlist : offset + (("export ".toList ++ '\x7b' ::
      (groupBody entries ++ '\x7d' :: ';' :: rest)).length -
        (groupBody entries ++ '\x7d' :: ';' :: rest).length) = offset + 8 := by
    simp only [List.length_append, List.length_cons, hlength]
    omega
  rw [hlist, listedNames_padded h]
  simp only [List.length_append, List.length_cons, List.length_nil, hlength, Option.some.injEq,
    Prod.mk.injEq, true_and]
  omega

theorem finds_listShape {d : Declaration} (hd : d.WellFormed) :
    Finds listShape d.source fun offset => d.sitesListed offset := by
  cases d with
  | group entries =>
    refine finds_hit (u := "export ".toList ++ '\x7b' :: (groupBody entries ++ ['\x7d']))
      opens_listShape ?_ (List.append_ne_nil_of_left_ne_nil (by decide) _)
      (quiet_of_notMem Introducing.head (u := [';']) (by decide)) (listShape_group hd)
    have hend : "\x7d;".toList = ['\x7d', ';'] := rfl
    simp only [Declaration.source_group, hend, List.append_assoc, List.cons_append, List.nil_append]
  | named form name =>
    refine Declaration.finds_nil opens_listShape hd fun at_ rest hrest => ?_
    rw [Declaration.source_named, List.append_assoc, List.append_assoc] at hrest
    refine listShape_eq_none hrest ?_ ?_ <;> rw [head?_lead] <;> cases form <;> decide
  | default name =>
    refine Declaration.finds_nil opens_listShape hd fun at_ rest hrest => ?_
    rw [Declaration.source_default, List.append_assoc, List.append_assoc] at hrest
    have hd : ("default ".toList ++ (name ++ [';'] ++ rest)).head? = some 'd' := rfl
    exact listShape_eq_none hrest rfl (by rw [hd]; decide)

/-- The name that a line exports by default. -/
def Declaration.defaults : Declaration → List Text
  | .default name => [name]
  | .named _ _ | .group _ => []

theorem mem_defaults {d : Declaration} : name ∈ d.defaults ↔ d = .default name := by
  cases d <;> simp [Declaration.defaults, eq_comm]

theorem defaultShape_eq_none {at_ : Cursor} {t : Text} (hat : at_.rest = "export ".toList ++ t)
    (ht : t.head?.any isBlank = false) (hdefault : after? "default".toList t = none) :
    defaultShape at_ = none := by
  obtain ⟨hexport, hgap⟩ := export_steps ht
  simp only [defaultShape, hat, hexport, hgap, hdefault, Option.bind_eq_bind, Option.bind_some,
    Option.bind_none]

/-- No keyword stands in front of the name, though the name may begin as one. -/
theorem after?_name_blanks? (hname : IsName name) (keyword rest : Text) (hkeyword : ';' ∉ keyword) :
    (after? keyword (name ++ ';' :: rest)).bind blanks? = none := by
  rcases hafter : after? keyword (name ++ ';' :: rest) with _ | t
  · rfl
  rw [after?_eq_some] at hafter
  obtain ⟨more, rfl⟩ := prefix_of_notMem ⟨t, hafter.symm⟩ hkeyword
  have ht : more ++ ';' :: rest = t := by simpa using hafter
  subst ht
  rw [Option.bind_some]
  cases more with
  | nil => rfl
  | cons c more =>
    have hc : isBlank c = false := isBlank_of_isWord (hname.word c (by simp))
    rw [List.cons_append, blanks?, hc]
    rfl

theorem defaultShape_default (hname : IsName name) (offset : Nat) (previous : Option Char)
    (rest : Text) :
    defaultShape ⟨offset, previous, (Declaration.default name).source ++ rest⟩ =
      some (name, ("export ".toList ++ ("default ".toList ++ name)).length) := by
  have hexportLength : "export ".toList.length = 7 := rfl
  have hdefaultLength : "default ".toList.length = 8 := rfl
  obtain ⟨hexport, hgap⟩ := export_steps (t := "default ".toList ++ (name ++ ';' :: rest)) rfl
  have hdefault : after? "default".toList ("default ".toList ++ (name ++ ';' :: rest)) =
      some (' ' :: (name ++ ';' :: rest)) := after?_append "default".toList _
  obtain ⟨hblank, hword⟩ := name_steps hname (';' :: rest) rfl
  have hasync := after?_name_blanks? hname "async".toList rest (by decide)
  have hfunction := after?_name_blanks? hname "function".toList rest (by decide)
  have hclass := after?_name_blanks? hname "class".toList rest (by decide)
  simp only [defaultShape, Declaration.source_default, List.append_assoc, List.cons_append,
    List.nil_append, hexport, hgap, hdefault, hblank, hasync, hfunction, hclass,
    hword, List.findSome?_cons, Option.bind_eq_bind, Option.bind_some, Option.bind_none, Cursor.lengthTo,
    List.length_append, List.length_cons, hexportLength, hdefaultLength, Option.pure_def,
    Option.some.injEq, Prod.mk.injEq, true_and]
  omega

theorem finds_defaultShape {d : Declaration} (hd : d.WellFormed) :
    Finds defaultShape d.source fun _ => d.defaults := by
  cases d with
  | default name =>
    refine finds_hit (u := "export ".toList ++ ("default ".toList ++ name))
      opens_defaultShape ?_ (List.append_ne_nil_of_left_ne_nil (by decide) _)
      (quiet_of_notMem Introducing.head (u := [';']) (by decide)) (defaultShape_default hd)
    simp only [Declaration.source_default, List.append_assoc]
  | named form name =>
    refine Declaration.finds_nil opens_defaultShape hd fun at_ rest hrest => ?_
    rw [Declaration.source_named, List.append_assoc, List.append_assoc] at hrest
    refine defaultShape_eq_none hrest ?_ ?_
    · rw [head?_lead]
      cases form <;> decide
    · cases form <;> rfl
  | group entries =>
    refine Declaration.finds_nil opens_defaultShape hd fun at_ rest hrest => ?_
    rw [Declaration.source_group, List.append_assoc] at hrest
    exact defaultShape_eq_none hrest rfl rfl

/-- A scan finds in the source what it finds in its lines. -/
theorem hits_exportSource {α : Type} {shape : Shape α} {found : Declaration → Nat → List α}
    {tail : Text} (hopens : Opens Introducing shape)
    (h : ∀ d ∈ ds, Finds shape d.source (found d)) (htail : ∀ c ∈ tail, isBlank c = true) :
    hits shape (exportSource ds ++ tail) =
      (placed Declaration.source 0 ds).flatMap fun line => found line.2 line.1 :=
  hits_lines hopens h (quiet_of_notMem Introducing.head (by decide))
    (quiet_of_notMem Introducing.head fun he => absurd (htail _ he) (by decide))

/-- One family, or the scan for lists, finds the names of a line. -/
theorem sitesUnder_append_sitesListed (offset : Nat) (d : Declaration) :
    (declarationLeads.flatMap fun lead => d.sitesUnder lead offset) ++ (d.sitesListed offset).flatten =
      d.sites offset := by
  cases d with
  | named form name => cases form <;> rfl
  | group entries => exact List.append_nil _
  | default name => rfl

/-- Together the scans find the names of the lines, in another order. -/
theorem sites_perm (lines : List (Nat × Declaration)) :
    List.Perm ((declarationLeads.flatMap fun lead =>
        lines.flatMap fun line => line.2.sitesUnder lead line.1) ++
      (lines.flatMap fun line => line.2.sitesListed line.1).flatten) (sitesOf lines) := by
  induction lines with
  | nil => rfl
  | cons line lines ih =>
    have hleads := (List.flatMap_append_perm declarationLeads (line.2.sitesUnder · line.1)
      fun lead => lines.flatMap fun line => line.2.sitesUnder lead line.1).symm
    have hsites : sitesOf (line :: lines) = line.2.sites line.1 ++ sitesOf lines := rfl
    simp only [List.flatMap_cons, List.flatten_append]
    rw [hsites, ← sitesUnder_append_sitesListed, List.append_assoc]
    refine (hleads.append_right _).trans ?_
    rw [List.append_assoc]
    exact ((List.perm_append_comm_assoc _ _ _).trans (ih.append_left _)).append_left _

theorem exportedNames_exportSource {tail : Text} (h : ∀ d ∈ ds, d.WellFormed)
    (htail : ∀ c ∈ tail, isBlank c = true) :
    exportedNames (exportSource ds ++ tail) = (ds.flatMap Declaration.names).eraseDups := by
  have hleads : ∀ lead ∈ declarationLeads, hits (declarationShape lead) (exportSource ds ++ tail) =
      (placed Declaration.source 0 ds).flatMap fun line => line.2.sitesUnder lead line.1 :=
    fun lead hlead => hits_exportSource (opens_declarationShape hlead)
      (fun d hd => finds_declarationShape hlead (h d hd)) htail
  have hlists := hits_exportSource opens_listShape (fun d hd => finds_listShape (h d hd)) htail
  have hsites : (exportSites (exportSource ds ++ tail)).Perm
      (sitesOf (placed Declaration.source 0 ds)) := by
    rw [exportSites, hlists, List.flatMap_congr hleads]
    exact sites_perm _
  rw [exportedNames, mergeSort_of_perm hsites (pairwise_sitesOf 0 ds).1, distinct_eq_eraseDups,
    map_snd_sitesOf, map_snd_placed]

/-- From printed declarations every exported name is listed once, where it first stands, with its
kind by convention; it is a default if a line exports it by default. -/
theorem exportsIn_exportSource {tail : Text} (h : ∀ d ∈ ds, d.WellFormed)
    (htail : ∀ c ∈ tail, isBlank c = true) :
    exportsIn (exportSource ds ++ tail) = (ds.flatMap Declaration.names).eraseDups.map fun name =>
      ⟨name, (kindOf name).name, decide (Declaration.default name ∈ ds)⟩ := by
  have hdefaults := hits_exportSource opens_defaultShape
      (fun d hd => finds_defaultShape (h d hd)) htail
  have hcontains (name : Text) : (hits defaultShape (exportSource ds ++ tail)).contains name =
      decide (Declaration.default name ∈ ds) := by
    rw [hdefaults, ← List.flatMap_map (f := Prod.snd) (g := Declaration.defaults), map_snd_placed,
      List.contains_eq_mem, decide_eq_decide, List.mem_flatMap]
    simp only [mem_defaults, exists_eq_right]
  rw [exportsIn, exportedNames_exportSource h htail]
  simp only [hcontains]

/-- Declarations whose names are words of the syntax. -/
def keywordExports : List Declaration :=
  [.named .asyncFunction "export".toList, .group [("type".toList, some "as".toList), ("as".toList, none)],
    .default "export".toList, .named .plainClass "class".toList, .named .type "type".toList,
    .default "function".toList]

theorem keywordExports_wellFormed : ∀ d ∈ keywordExports, d.WellFormed := by decide

theorem exports_of_keywordExports :
    (∀ d ∈ keywordExports, d.WellFormed) ∧
      (exportsIn (exportSource keywordExports ++ ['\n'])).map (fun e => (e.name, e.isDefault)) =
        [("export".toList, true), ("type".toList, false), ("as".toList, false),
          ("class".toList, false)] := by
  refine ⟨keywordExports_wellFormed, ?_⟩
  rw [exportsIn_exportSource keywordExports_wellFormed
    (show ∀ c ∈ ['\n'], isBlank c = true by decide), List.map_map]
  decide

end ComponentCatalog.Component
