import ComponentCatalog.Proofs.StorySource

/-!
Where the shapes of a story file are recognised, and which parts of its source are quiet for them.
-/
namespace ComponentCatalog

namespace Text

variable {s u rest : Text}

theorem split_of_head?_stripStart {c : Char} (h : (stripStart s).head? = some c) :
    ∃ gap more, (∀ b ∈ gap, isBlank b = true) ∧ s = gap ++ c :: more := by
  obtain ⟨gap, hgap, hs⟩ := stripStart_split s
  obtain ⟨more, hmore⟩ := List.head?_eq_some_iff.mp h
  exact ⟨gap, more, hgap, hmore ▸ hs⟩

theorem getLast?_of_suffix {v : Text} (hv : v <:+ u) (hne : v ≠ []) : v.getLast? = u.getLast? := by
  obtain ⟨t, rfl⟩ := hv
  rw [List.getLast?_append_of_ne_nil _ hne]

end Text

namespace Story

open Text Code
open Component (IsName)

theorem exportedConstant?_split {s name rest : Text} (h : exportedConstant? s = some (name, rest)) :
    ∃ gap gap', gap ≠ [] ∧ gap' ≠ [] ∧ (∀ b ∈ gap ++ gap', isBlank b = true) ∧ IsName name ∧
      s = "export".toList ++ (gap ++ ("const".toList ++ (gap' ++ (name ++ rest)))) := by
  simp only [exportedConstant?, Option.bind_eq_bind, Option.bind_eq_some_iff] at h
  obtain ⟨afterExport, hexport, afterGap, hgap, afterConst, hconst, nameOn, hgap', hname⟩ := h
  obtain ⟨gap, hne, hblank, rfl⟩ := blanks?_split hgap
  obtain ⟨gap', hne', hblank', rfl⟩ := blanks?_split hgap'
  obtain ⟨hname_ne, hword, rfl⟩ := word?_split hname
  refine ⟨gap, gap', hne, hne', ?_, ⟨hname_ne, hword⟩, ?_⟩
  · intro b hb
    exact (List.mem_append.mp hb).elim (hblank b) (hblank' b)
  · rw [after?_eq_some.mp hexport, after?_eq_some.mp hconst]

/-- An exported constant with the mark of a story begins as a declaration. -/
theorem declaring_of_exportedConstant? {s name rest mark : Text} (more : Text)
    (h : exportedConstant? s = some (name, rest)) (hmark : Marking mark)
    (hrest : stripStart rest = mark ++ more) : ∃ m, Declaring m ∧ m <+: s := by
  obtain ⟨gap, gap', hne, hne', hgap, hname, rfl⟩ := exportedConstant?_split h
  obtain ⟨gap'', hgap'', hsplit⟩ := stripStart_split rest
  refine ⟨_, ⟨gap, gap', name, gap'', mark, hne, hne', ?_, hname, hmark, rfl⟩, more, ?_⟩
  · simp only [List.mem_append] at hgap ⊢
    rintro b (hb | hb | hb)
    · exact hgap b (.inl hb)
    · exact hgap b (.inr hb)
    · exact hgap'' b hb
  · rw [hsplit, hrest]
    simp

theorem opens_typedShape : Opens Declaring typedShape := by
  intro at_ found h
  simp only [typedShape, Option.bind_eq_bind, Option.bind_eq_some_iff] at h
  obtain ⟨⟨name, rest⟩, hexported, afterColon, hcolon, afterType, htype, -⟩ := h
  obtain ⟨type, hmem, htype⟩ := List.exists_of_findSome?_eq_some htype
  obtain ⟨gap, hgap, hsplit⟩ := stripStart_split afterColon
  have htype : stripStart afterColon = type ++ afterType :=
    after?_eq_some.mp (Option.filter_eq_some_iff.mp htype).1
  refine declaring_of_exportedConstant? afterType hexported (.inl ⟨gap, type, hgap, hmem, rfl⟩) ?_
  rw [after?_eq_some.mp hcolon, hsplit, htype]
  simp

theorem opens_plainShape : Opens Declaring plainShape := by
  intro at_ found h
  simp only [plainShape, Option.bind_eq_bind, Option.bind_eq_some_iff] at h
  obtain ⟨⟨name, rest⟩, hexported, afterEquals, hequals, afterOpen, hopen, -⟩ := h
  obtain ⟨gap, hgap, hsplit⟩ := stripStart_split afterEquals
  refine declaring_of_exportedConstant? afterOpen hexported (.inr ⟨gap, hgap, rfl⟩) ?_
  rw [after?_eq_some.mp hequals, hsplit, after?_eq_some.mp hopen]
  simp

theorem assignmentShape_split {at_ : Cursor} {name value : Text} {n : Nat}
    (h : assignmentShape at_ = some ((name, value), n)) :
    ∃ gap gap', IsName name ∧ (∀ b ∈ gap ++ gap', isBlank b = true) ∧
      at_.rest = name ++ (".args".toList ++ (gap ++ '=' :: (gap' ++ value))) ∧
      n = at_.lengthTo value := by
  simp only [assignmentShape, Option.bind_eq_bind, Option.bind_eq_some_iff, Option.pure_def,
    Option.some.injEq, Prod.mk.injEq] at h
  obtain ⟨-, -, ⟨_, afterName⟩, hname, afterArgs, hargs, rest, hequals, ⟨rfl, rfl⟩, rfl⟩ := h
  obtain ⟨hne, hword, hsplit⟩ := word?_split hname
  obtain ⟨gap, hgap, hstrip⟩ := stripStart_split afterArgs
  obtain ⟨gap', hgap', hstrip'⟩ := stripStart_split rest
  have hargs : afterName = ".args".toList ++ afterArgs := after?_eq_some.mp hargs
  refine ⟨gap, gap', ⟨hne, hword⟩, ?_, ?_, rfl⟩
  · intro b hb
    exact (List.mem_append.mp hb).elim (hgap b) (hgap' b)
  · rw [← hstrip', hsplit, hargs, hstrip, after?_eq_some.mp hequals]
    simp

theorem labelling_of_afterKey? {key rest : Text} {at_ : Cursor} {kind : Char → Bool} {c : Char}
    {more : Text} (h : afterKey? key at_ = some rest) (hrest : rest = c :: more)
    (hc : kind c = true) : ∃ m, Labelling key kind m ∧ m <+: at_.rest := by
  simp only [afterKey?, Option.bind_eq_bind, Option.bind_eq_some_iff, Option.pure_def,
    Option.some.injEq] at h
  obtain ⟨-, -, afterKey, hkey, afterColon, hcolon, rfl⟩ := h
  obtain ⟨gap, hgap, hstrip⟩ := stripStart_split afterColon
  refine ⟨_, ⟨gap, c, hgap, hc, rfl⟩, more, ?_⟩
  rw [after?_eq_some.mp hkey, after?_eq_some.mp hcolon, hstrip, hrest]
  simp

theorem opens_titleShape : Opens (Labelling "title".toList isStringMark) titleShape := by
  intro at_ found h
  simp only [titleShape, Option.bind_eq_bind, Option.bind_eq_some_iff] at h
  obtain ⟨afterKey, hkey, ⟨mark, afterMark⟩, hmark, -⟩ := h
  obtain ⟨hrest, hmark⟩ := one?_eq_some.mp hmark
  exact labelling_of_afterKey? hkey hrest hmark

theorem opens_componentNameShape :
    Opens (Labelling "component".toList isWord) componentNameShape := by
  intro at_ found h
  simp only [componentNameShape, Option.bind_eq_bind, Option.bind_eq_some_iff] at h
  obtain ⟨afterKey, hkey, ⟨name, afterName⟩, hname, -⟩ := h
  obtain ⟨hne, hword, hrest⟩ := word?_split hname
  obtain ⟨c, more, rfl⟩ := List.exists_cons_of_ne_nil hne
  exact labelling_of_afterKey? hkey hrest (hword c List.mem_cons_self)

variable {m : Text} {c : Char}

theorem notMem_of_kind {p : Char → Bool} {s : Text} (h : ∀ d ∈ s, p d = true) (hc : p c = false) :
    c ∉ s := fun hmem => Bool.false_ne_true (hc.symm.trans (h c hmem))

theorem Exporting.notMem (hm : Exporting m) (hword : isWord c = false)
    (hblank : isBlank c = false) : c ∉ m := by
  obtain ⟨gap, gap', d, -, -, hgap, hd, rfl⟩ := hm
  have hgap := notMem_of_kind hgap hblank
  rw [List.mem_append, not_or] at hgap
  have hd : c ≠ d := by
    rintro rfl
    exact Bool.false_ne_true (hword.symm.trans hd)
  have hexport : c ∉ "export".toList := notMem_of_kind (p := isWord) (by decide) hword
  have hconst : c ∉ "const".toList := notMem_of_kind (p := isWord) (by decide) hword
  simp only [List.mem_append, List.mem_singleton]
  tauto

theorem Exporting.getLast? (hm : Exporting m) (hword : isWord c = false) :
    m.getLast? ≠ some c := by
  obtain ⟨gap, gap', d, -, -, -, hd, rfl⟩ := hm
  have hlast (u v w x : Text) : (u ++ (v ++ (w ++ (x ++ [d])))).getLast? = some d := by simp
  rw [hlast]
  rintro ⟨⟩
  exact Bool.false_ne_true (hword.symm.trans hd)

/-- The characters of a mark that are neither of a word nor blank. -/
def marks : List Char := [':', '=', '(']

theorem Marking.notMem (hm : Marking m) (hword : isWord c = false) (hblank : isBlank c = false)
    (hmark : c ∉ marks) : c ∉ m := by
  simp only [marks, List.mem_cons, List.not_mem_nil, or_false, not_or] at hmark
  rcases hm with ⟨gap, type, hgap, htype, rfl⟩ | ⟨gap, hgap, rfl⟩
  · have htypes : ∀ type ∈ storyTypes, ∀ d ∈ type, isWord d = true := by decide
    have htype := notMem_of_kind (htypes type htype) hword
    have hgap := notMem_of_kind hgap hblank
    simp only [List.mem_cons, List.mem_append]
    tauto
  · have hgap := notMem_of_kind hgap hblank
    simp only [List.mem_cons, List.mem_append, List.not_mem_nil]
    tauto

theorem Marking.getLast? (hm : Marking m) : m.getLast?.any isBlank = false ∧ m ≠ [] := by
  rcases hm with ⟨gap, type, -, htype, rfl⟩ | ⟨gap, -, rfl⟩
  · have htypes : ∀ type ∈ storyTypes, type ≠ [] ∧ type.getLast?.any isBlank = false := by decide
    obtain ⟨hne, hlast⟩ := htypes type htype
    refine ⟨?_, List.cons_ne_nil _ _⟩
    rwa [← List.cons_append, List.getLast?_append_of_ne_nil _ hne]
  · refine ⟨?_, List.cons_ne_nil _ _⟩
    rw [← List.cons_append, List.getLast?_concat]
    rfl

theorem Declaring.notMem (hm : Declaring m) (hword : isWord c = false)
    (hblank : isBlank c = false) (hmark : c ∉ marks) : c ∉ m := by
  obtain ⟨gap, gap', name, gap'', mark, -, -, hgap, hname, hmarking, rfl⟩ := hm
  have hgap := notMem_of_kind hgap hblank
  have hname := notMem_of_kind hname.word hword
  have hmarking := hmarking.notMem hword hblank hmark
  have hexport : c ∉ "export".toList := notMem_of_kind (p := isWord) (by decide) hword
  have hconst : c ∉ "const".toList := notMem_of_kind (p := isWord) (by decide) hword
  simp only [List.mem_append] at hgap ⊢
  tauto

theorem Declaring.getLast? (hm : Declaring m) (hblank : isBlank c = true) :
    m.getLast? ≠ some c := by
  obtain ⟨gap, gap', name, gap'', mark, -, -, -, -, hmarking, rfl⟩ := hm
  obtain ⟨hlast, hne⟩ := hmarking.getLast?
  simp only [← List.append_assoc]
  rw [List.getLast?_append_of_ne_nil _ hne]
  intro h
  rw [h] at hlast
  exact Bool.false_ne_true (hlast.symm.trans hblank)

theorem Assigning.notMem (hm : Assigning m) (hword : isWord c = false)
    (hblank : isBlank c = false) (hmark : c ∉ ['.', '=', '\x7b']) : c ∉ m := by
  obtain ⟨name, gap, gap', hname, hgap, rfl⟩ := hm
  have hname := notMem_of_kind hname.word hword
  have hgap := notMem_of_kind hgap hblank
  simp only [List.mem_cons, List.not_mem_nil, or_false, not_or] at hmark
  have hargs : c ∉ ".args".toList := by
    have hargs : c ∉ "args".toList := notMem_of_kind (p := isWord) (by decide) hword
    have hcons : ".args".toList = '.' :: "args".toList := rfl
    rw [hcons, List.mem_cons]
    tauto
  simp only [List.mem_append, List.mem_cons, List.not_mem_nil] at hgap ⊢
  tauto

theorem Assigning.getLast? (hm : Assigning m) (hc : c ≠ '\x7b') : m.getLast? ≠ some c := by
  obtain ⟨name, gap, gap', -, -, rfl⟩ := hm
  have hlast (u v w x : Text) :
      (u ++ (v ++ (w ++ '=' :: (x ++ ['\x7b'])))).getLast? = some '\x7b' := by
    simp [List.getLast?_append, List.getLast?_cons]
  rw [hlast]
  rintro ⟨⟩
  exact hc rfl

theorem Labelling.notMem {key : Text} {kind : Char → Bool} (hm : Labelling key kind m)
    (hkey : c ∉ key) (hcolon : c ≠ ':') (hblank : isBlank c = false) (hkind : kind c = false) :
    c ∉ m := by
  obtain ⟨gap, d, hgap, hd, rfl⟩ := hm
  have hgap := notMem_of_kind hgap hblank
  have hd : c ≠ d := by
    rintro rfl
    exact Bool.false_ne_true (hkind.symm.trans hd)
  simp only [List.mem_append, List.mem_cons, List.not_mem_nil]
  tauto

theorem Keying.notMem {key : Text} {b : Bracket} (hm : Keying key b m) (hkey : c ∉ key)
    (hcolon : c ≠ ':') (hblank : isBlank c = false) (hopen : c ≠ b.opening) : c ∉ m := by
  obtain ⟨gap, gap', hgap, rfl⟩ := hm
  have hgap := notMem_of_kind hgap hblank
  rw [List.mem_append, not_or] at hgap
  simp only [List.mem_append, List.mem_cons, List.not_mem_nil]
  tauto

theorem Exporting.lead (m : Text) (hm : Exporting m) : "export".toList <+: m := by
  obtain ⟨gap, gap', c, -, -, -, -, rfl⟩ := hm
  exact List.prefix_append _ _

theorem Declaring.lead (m : Text) (hm : Declaring m) : "export".toList <+: m := by
  obtain ⟨gap, gap', name, gap'', mark, -, -, -, -, -, rfl⟩ := hm
  exact List.prefix_append _ _

/-- Where no exported constant begins no story does. -/
theorem quiet_declaring {u : Text} (hu : Quiet Exporting u) : Quiet Declaring u := by
  refine hu.mono fun m hm => ?_
  obtain ⟨gap, gap', name, gap'', mark, hne, hne', hgap, hname, -, rfl⟩ := hm
  obtain ⟨c, name, rfl⟩ := List.exists_cons_of_ne_nil hname.ne_nil
  refine ⟨_, ⟨gap, gap', c, hne, hne', ?_, hname.word c List.mem_cons_self, rfl⟩,
    name ++ (gap'' ++ mark), by simp⟩
  simp only [List.mem_append] at hgap ⊢
  exact fun b hb => hgap b (hb.imp_right .inl)

theorem Labelling.lead {key : Text} {kind : Char → Bool} (m : Text) (hm : Labelling key kind m) :
    key <+: m := by
  obtain ⟨gap, c, -, -, rfl⟩ := hm
  exact List.prefix_append _ _

theorem Keying.lead {key : Text} {b : Bracket} (m : Text) (hm : Keying key b m) : key <+: m := by
  obtain ⟨gap, gap', -, rfl⟩ := hm
  exact List.prefix_append _ _

theorem lacks_exporting_of_isName {s : Text} (h : IsName s) : Lacks Exporting s := by
  refine lacks_of_forall (fun m hm => ?_) h.word
  obtain ⟨gap, gap', c, hne, -, hgap, -, rfl⟩ := hm
  obtain ⟨b, gap, rfl⟩ := List.exists_cons_of_ne_nil hne
  have hb : isBlank b = true := hgap b (by simp)
  refine ⟨b, by simp, fun hword => ?_⟩
  exact Bool.false_ne_true ((isBlank_of_isWord hword).symm.trans hb)

theorem lacks_colon_of_isName {phrase : Text → Prop} (hphrase : ∀ m, phrase m → ':' ∈ m) {s : Text}
    (h : IsName s) : Lacks phrase s :=
  lacks_of_forall (fun m hm => ⟨':', hphrase m hm, Bool.false_ne_true⟩) h.word

theorem Labelling.colon_mem {key : Text} {kind : Char → Bool} (m : Text)
    (hm : Labelling key kind m) : ':' ∈ m := by
  obtain ⟨gap, c, -, -, rfl⟩ := hm
  simp

theorem Keying.colon_mem {key : Text} {b : Bracket} (m : Text) (hm : Keying key b m) :
    ':' ∈ m := by
  obtain ⟨gap, gap', -, rfl⟩ := hm
  simp

/-- No assignment begins in a text without a dot that no word character ends. -/
theorem quiet_assigning_of_notMem {u : Text} (hdot : '.' ∉ u)
    (hlast : u.getLast?.any isWord = false) : Quiet Assigning u := by
  rintro v hv hne m ⟨name, gap, gap', hname, -, rfl⟩ rest hprefix
  have hname_dot : name ++ ['.'] <+: v ++ rest := by
    refine List.IsPrefix.trans ?_ hprefix
    rw [List.prefix_append_right_inj]
    exact ⟨"args".toList ++ (gap ++ '=' :: (gap' ++ ['\x7b'])), rfl⟩
  have hv_dot : '.' ∉ v := fun hmem => hdot (hv.subset hmem)
  obtain ⟨v, c, rfl⟩ := (List.eq_nil_or_concat' v).resolve_left hne
  have hc : isWord c = false := by
    obtain ⟨u, rfl⟩ := hv
    simpa using hlast
  rcases List.prefix_or_prefix_of_prefix hname_dot (List.prefix_append _ _) with h | h
  · exact hv_dot (h.subset (by simp))
  · have hmem : c ∈ name ++ ['.'] := h.subset (by simp)
    rcases List.mem_append.mp hmem with hmem | hmem
    · exact Bool.false_ne_true (hc.symm.trans (hname.word c hmem))
    · exact hv_dot (by simp [List.mem_singleton.mp hmem])

theorem quiet_all_assigning {us : List Text}
    (h : ∀ u ∈ us, '.' ∉ u ∧ u.getLast?.any isWord = false) : ∀ u ∈ us, Quiet Assigning u :=
  fun u hu => quiet_assigning_of_notMem (h u hu).1 (h u hu).2

theorem quiet_assigning_isName {name : Text} (h : IsName name) {u : Text} (hne : u ≠ [])
    (hdot : '.' ∉ u) (hlast : u.getLast?.any isWord = false) : Quiet Assigning (name ++ u) := by
  refine quiet_assigning_of_notMem ?_ ?_
  · rw [List.mem_append, not_or]
    exact ⟨fun hmem => Bool.false_ne_true (h.word '.' hmem), hdot⟩
  · rwa [List.getLast?_append_of_ne_nil _ hne]

end Story

end ComponentCatalog
