import ComponentCatalog.Proofs.StoryPhrases

/-!
The settings of a story file are read back from its first line: the default export is found, and in
it each setting under its key and no other.
-/
namespace ComponentCatalog

namespace Code

open Text

variable {key u rest : Text} {b : Bracket} {c : Char} {offset : Nat} {previous : Option Char}

/-- The shape by which the followers of a marker are found. -/
def trailing (marker : Marker) : Shape Text := fun at_ =>
  (marker at_).map fun rest => (rest, at_.lengthTo rest)

/-- A follower before which an opening bracket stands, behind blanks at most. -/
def leadsTo (b : Bracket) (follower : Text) : Bool := (stripStart follower).head? = some b.opening

theorem blockAfter?_eq (b : Bracket) (marker : Marker) (s : Text) : blockAfter? b marker s =
    ((hits (trailing marker) s).find? (leadsTo b)).bind fun rest => block? b (stripStart rest) := rfl

theorem keyed_split {at_ : Cursor} (h : keyed key at_ = some rest) :
    ∃ gap, (∀ b ∈ gap, isBlank b = true) ∧ at_.rest = key ++ (gap ++ ':' :: rest) := by
  rw [keyed] at h
  split at h
  · obtain ⟨afterKey, hkey, hcolon⟩ := Option.bind_eq_some_iff.mp h
    obtain ⟨gap, hgap, hstrip⟩ := stripStart_split afterKey
    refine ⟨gap, hgap, ?_⟩
    rw [after?_eq_some.mp hkey, hstrip, after?_eq_some.mp hcolon]
    rfl
  · cases h

/-- No key begins at a blank. -/
theorem keyed_blank (hne : key ≠ []) (hkey : ∀ c ∈ key, isWord c = true) (hblank : isBlank c = true)
    (rest : Text) : keyed key ⟨offset, previous, c :: rest⟩ = none := by
  obtain ⟨k, key, rfl⟩ := List.exists_cons_of_ne_nil hne
  have hk : k ≠ c := by
    rintro rfl
    exact Bool.false_ne_true ((isBlank_of_isWord (hkey k List.mem_cons_self)).symm.trans hblank)
  have hafter : after? (k :: key) (c :: rest) = none := if_neg hk
  rw [keyed]
  split
  · rw [hafter]
    rfl
  · rfl

end Code

namespace Story

open Text Code
open Component (IsName)

section Keyed

variable {key u rest : Text} {b : Bracket} {c : Char} {offset : Nat} {previous : Option Char}

/-- The search for a key with a bracket passes a text in which none begins, if a character that is
part of no key ends it. -/
theorem find?_keyed_pass (hu : Quiet (Keying key b) u) (hlast : u.getLast? = some c)
    (hkey : c ∉ key) (hcolon : c ≠ ':') (hblank : isBlank c = false) :
    (hitsFrom (trailing (keyed key)) 0 offset previous (u ++ rest)).find? (leadsTo b) =
      (hitsFrom (trailing (keyed key)) 0 (offset + u.length) (lastOf previous u) rest).find?
        (leadsTo b) := by
  rw [← List.head?_filter, ← List.head?_filter]
  refine congrArg List.head? (filter_hitsFrom_pass (fun v hv hne o q follower n hfound => ?_)
    (Nat.zero_le _))
  obtain ⟨follower', hkeyed, heq⟩ := Option.map_eq_some_iff.mp hfound
  cases heq
  obtain ⟨gap, hgap, hsplit⟩ := keyed_split hkeyed
  dsimp only at hsplit
  constructor
  · -- With a bracket behind it, the key would be a phrase.
    rw [leadsTo, decide_eq_false_iff_not]
    intro hhead
    obtain ⟨gap', more, hgap', hfollower⟩ := split_of_head?_stripStart hhead
    refine hu v hv hne _ ⟨gap, gap', ?_, rfl⟩ rest ⟨more, ?_⟩
    · intro d hd
      exact (List.mem_append.mp hd).elim (hgap d) (hgap' d)
    · rw [hsplit, hfollower]
      simp
  · -- The last character is no part of the key, which therefore ends before it.
    have hmem : c ∉ key ++ (gap ++ [':']) := by
      have hgap := notMem_of_kind hgap hblank
      simp only [List.mem_append, List.mem_singleton]
      tauto
    have hprefix : key ++ (gap ++ [':']) <+: v ++ rest := ⟨follower, by rw [hsplit]; simp⟩
    have hlength := length_lt_of_notMem ((getLast?_of_suffix hv hne).trans hlast) hmem hprefix
    rw [Cursor.lengthTo, hsplit]
    simp only [List.length_append, List.length_cons, List.length_nil] at hlength ⊢
    omega

end Keyed

variable {d : Draft}

/-- The title and the component. -/
def Draft.settingsHead (d : Draft) : Text :=
  " title: '".toList ++ ((d.title ++ ['\'']) ++ (", component: ".toList ++ (d.component ++ [','])))

/-- The decorators. -/
def Draft.settingsTail (d : Draft) : Text :=
  " decorators: [".toList ++ (join ", ".toList d.decorators ++ [']'])

theorem settingsBody_eq (d : Draft) :
    d.settingsBody = d.settingsHead ++ (d.settingsTail ++ [' ']) := by
  have hcomponent : "', component: ".toList = ['\''] ++ ", component: ".toList := rfl
  have hdecorators : ", decorators: [".toList = [','] ++ " decorators: [".toList := rfl
  have hend : "] ".toList = [']'] ++ [' '] := rfl
  unfold Draft.settingsBody Draft.settingsHead Draft.settingsTail
  simp only [hcomponent, hdecorators, hend, List.append_assoc]

/-- The braces of the default export, on their own. -/
theorem source_eq_export (d : Draft) :
    d.source = "export default ".toList ++
      '\x7b' :: (d.settingsBody ++ '\x7d' :: ';' :: linesSource d.lines) := by
  have hopen : "export default \x7b".toList = "export default ".toList ++ ['\x7b'] := rfl
  have hclose : "\x7d;".toList = ['\x7d', ';'] := rfl
  unfold Draft.source
  rw [hopen, hclose]
  simp only [List.append_assoc, List.cons_append, List.nil_append]

theorem quiet_settingsHead {phrase : Text → Prop} (htitle : Lacks phrase d.title)
    (hstop : ∀ m, phrase m → '\'' ∉ m) (hcomponent : Quiet phrase (d.component ++ [',']))
    (hfixed : ∀ u ∈ [" title: '".toList, ", component: ".toList], Quiet phrase u) :
    Quiet phrase d.settingsHead :=
  (hfixed _ (by simp)).append ((htitle.quiet hstop).append
    ((hfixed _ (by simp)).append hcomponent))

theorem quiet_settingsTail {phrase : Text → Prop}
    (hdecorators : ∀ s ∈ d.decorators, Lacks phrase s)
    (hstop : ∀ m, phrase m → ',' ∉ m ∧ ']' ∉ m)
    (hfixed : ∀ u ∈ [" decorators: [".toList, [' '], [']']], Quiet phrase u) :
    Quiet phrase d.settingsTail := by
  refine (hfixed _ (by simp)).append (Quiet.join (hfixed _ (by simp)) fun s hs => ⟨?_, ?_⟩)
  · have hsplit : s ++ ", ".toList = (s ++ [',']) ++ [' '] := by simp
    rw [hsplit]
    exact ((hdecorators s hs).quiet fun m hm => (hstop m hm).1).append (hfixed _ (by simp))
  · exact (hdecorators s hs).quiet fun m hm => (hstop m hm).2

theorem getLast?_settingsHead (d : Draft) : d.settingsHead.getLast? = some ',' := by
  unfold Draft.settingsHead
  simp only [List.getLast?_append, List.getLast?_singleton, Option.some_or]

theorem getLast?_settingsTail (d : Draft) : d.settingsTail.getLast? = some ']' := by
  unfold Draft.settingsTail
  simp only [List.getLast?_append, List.getLast?_singleton, Option.some_or]

/-- A key with a bracket that the title lacks does not begin before the decorators. -/
theorem quiet_head_keying {key : Text} {b : Bracket} (hd : d.WellFormed)
    (htitle : Lacks (Keying key b) d.title) (hkey : ∀ c ∈ key, isWord c = true)
    (hopen : b ∈ brackets)
    (hfixed : ∀ u ∈ [" title: '".toList, ", component: ".toList], Quiet (Keying key b) u) :
    Quiet (Keying key b) d.settingsHead := by
  have hmarks : ∀ b ∈ brackets, '\'' ≠ b.opening ∧ ',' ≠ b.opening := by decide
  have hcomponent : Lacks (Keying key b) d.component :=
    lacks_colon_of_isName Keying.colon_mem hd.component
  refine quiet_settingsHead htitle (fun m hm => ?_) (hcomponent.quiet fun m hm => ?_) hfixed
  · exact hm.notMem (notMem_of_kind hkey rfl) (by decide) rfl (hmarks b hopen).1
  · exact hm.notMem (notMem_of_kind hkey rfl) (by decide) rfl (hmarks b hopen).2

/-- A key with a bracket that neither title nor decorators have does not begin anywhere. -/
theorem blockAfter?_eq_none {key : Text} (hd : d.WellFormed) (hne : key ≠ [])
    (hkey : ∀ c ∈ key, isWord c = true) (htitle : Lacks (Keying key curly) d.title)
    (hdecorators : ∀ s ∈ d.decorators, Lacks (Keying key curly) s)
    (hfixed : ∀ u ∈ [" title: '".toList, ", component: ".toList] ++
      [" decorators: [".toList, [' '], [']']], Quiet (Keying key curly) u) :
    blockAfter? curly (keyed key) d.settingsBody = none := by
  have hhead : Quiet (Keying key curly) d.settingsHead :=
    quiet_head_keying hd htitle hkey (by decide) fun u hu => hfixed u (List.mem_append_left _ hu)
  have htail : Quiet (Keying key curly) d.settingsTail := by
    refine quiet_settingsTail hdecorators (fun m hm => ⟨?_, ?_⟩) fun u hu =>
      hfixed u (List.mem_append_right _ hu)
    · exact hm.notMem (notMem_of_kind hkey rfl) (by decide) rfl (by decide)
    · exact hm.notMem (notMem_of_kind hkey rfl) (by decide) rfl (by decide)
  have hlast : (d.settingsHead ++ d.settingsTail).getLast? = some ']' := by
    rw [List.getLast?_append, getLast?_settingsTail]
    rfl
  rw [blockAfter?_eq, settingsBody_eq, ← List.append_assoc, hits,
    find?_keyed_pass (hhead.append htail) hlast (notMem_of_kind hkey rfl) (by decide) rfl, hitsFrom,
    trailing, keyed_blank hne hkey rfl]
  rfl

theorem argTypes_settingsBody (hd : d.WellFormed) :
    blockAfter? curly (keyed "argTypes".toList) d.settingsBody = none := by
  exact blockAfter?_eq_none hd (by decide) (by decide) hd.title.argTypes
    (fun s hs => (hd.decorators s hs).argTypes) (quiet_all_of_lead Keying.lead (by decide))

theorem parameters_settingsBody (hd : d.WellFormed) :
    blockAfter? curly (keyed "parameters".toList) d.settingsBody = none := by
  exact blockAfter?_eq_none hd (by decide) (by decide) hd.title.parameters
    (fun s hs => (hd.decorators s hs).parameters) (quiet_all_of_lead Keying.lead (by decide))

theorem decorators_settingsBody (hd : d.WellFormed) :
    decorators d.settingsBody = d.decorators := by
  have hquiet : Quiet (Keying "decorators".toList square) d.settingsHead :=
    quiet_head_keying hd hd.title.decorators (by decide) (by decide)
      (quiet_all_of_lead Keying.lead (by decide))
  let list := '[' :: (join ", ".toList d.decorators ++ [']'])
  have hlist : list ++ [' '] = '[' :: (join ", ".toList d.decorators ++ ']' :: [' ']) := by
    simp [list]
  have htail : d.settingsTail ++ [' '] = ' ' :: ("decorators: ".toList ++ (list ++ [' '])) := rfl
  have hspace (o : Nat) (p : Option Char) (s : Text) :
      trailing (keyed "decorators".toList) ⟨o, p, ' ' :: s⟩ = none := by
    rw [trailing, keyed_blank (by decide) (by decide) rfl]
    rfl
  have hfound (o : Nat) (s : Text) :
      ∃ n, trailing (keyed "decorators".toList) ⟨o, some ' ', "decorators: ".toList ++ s⟩ =
        some (' ' :: s, n) := ⟨_, rfl⟩
  have hblock : block? square (list ++ [' ']) = some (join ", ".toList d.decorators) := by
    rw [hlist]
    exact block?_balanced (b := square) (by decide)
      (.join fun s hs => (hd.decorators s hs).balanced.enclose) [' ']
  have hafter : blockAfter? square (keyed "decorators".toList) d.settingsBody =
      some (join ", ".toList d.decorators) := by
    rw [blockAfter?_eq, settingsBody_eq, hits,
      find?_keyed_pass hquiet (getLast?_settingsHead d) (by decide) (by decide) rfl, htail, hitsFrom,
      hspace]
    dsimp only
    obtain ⟨n, hfound⟩ := hfound (0 + d.settingsHead.length + 1) (list ++ [' '])
    obtain ⟨more, hmore⟩ := exists_hitsFrom (by simp) hfound
    rw [hmore, List.find?_cons_of_pos rfl]
    exact hblock
  have hsplit := splitTopLevel_join [] [] (by simp) (by simp) fun s hs =>
    have hs := hd.decorators s hs
    ⟨hs.balanced, hs.stripped, hs.ne_nil⟩
  rw [List.nil_append, List.append_nil] at hsplit
  rw [decorators, hafter]
  exact hsplit

theorem titleShape_title {title : Text} (hne : title ≠ [])
    (hmarks : ∀ c ∈ title, isStringMark c = false) (o : Nat) (s : Text) :
    ∃ n, titleShape ⟨o, some ' ', "title: '".toList ++ (title ++ '\'' :: s)⟩ = some (title, n) := by
  have hkey : afterKey? "title".toList ⟨o, some ' ', "title: '".toList ++ (title ++ '\'' :: s)⟩ =
      some ('\'' :: (title ++ '\'' :: s)) := rfl
  have hopen : one? isStringMark ('\'' :: (title ++ '\'' :: s)) =
      some ('\'', title ++ '\'' :: s) := rfl
  have hrun : run? (fun c => !isStringMark c) (title ++ '\'' :: s) = some (title, '\'' :: s) :=
    run?_append hne (fun c hc => by rw [hmarks c hc]; rfl) rfl
  have hclose : one? isStringMark ('\'' :: s) = some ('\'', s) := rfl
  simp only [titleShape, hkey, hopen, hrun, hclose, Option.bind_eq_bind, Option.bind_some]
  exact ⟨_, rfl⟩

theorem hitsFrom_titleShape_space (o : Nat) (p : Option Char) (s : Text) :
    hitsFrom titleShape 0 o p (' ' :: s) = hitsFrom titleShape 0 (o + 1) (some ' ') s := by
  have hstart : Cursor.atWordStart ⟨o, p, ' ' :: s⟩ = false := Bool.and_false _
  have hkey (key : Text) : afterKey? key ⟨o, p, ' ' :: s⟩ = none := by
    rw [afterKey?, hstart]
    rfl
  have hspace : titleShape ⟨o, p, ' ' :: s⟩ = none := by
    rw [titleShape, hkey]
    rfl
  rw [hitsFrom, hspace]

/-- Behind an empty title no other is found. -/
theorem hits_titleShape_empty (hd : d.WellFormed) (hempty : d.title = []) :
    hits titleShape d.settingsBody = [] := by
  let tail := "itle: '".toList ++ (['\''] ++ (", component: ".toList ++
    ((d.component ++ [',']) ++ (d.settingsTail ++ [' ']))))
  have hsplit : d.settingsBody = ' ' :: 't' :: tail := by
    have hfixed : " title: '".toList = [' ', 't'] ++ "itle: '".toList := rfl
    rw [settingsBody_eq]
    unfold Draft.settingsHead
    rw [hempty]
    simp only [hfixed, tail, List.append_assoc, List.nil_append]
    rfl
  have hquiet : Quiet (Labelling "title".toList isStringMark) tail := by
    have hcomponent : Quiet (Labelling "title".toList isStringMark) (d.component ++ [',']) :=
      (lacks_colon_of_isName Labelling.colon_mem hd.component).quiet fun m hm =>
        hm.notMem (by decide) (by decide) rfl rfl
    have htail : Quiet (Labelling "title".toList isStringMark) d.settingsTail :=
      quiet_settingsTail (hd.untitled hempty)
        (fun m hm => ⟨hm.notMem (by decide) (by decide) rfl rfl,
          hm.notMem (by decide) (by decide) rfl rfl⟩)
        (quiet_all_of_lead Labelling.lead (by decide))
    refine Quiet.append (quiet_of_lead Labelling.lead (by decide)) ?_
    refine Quiet.append (quiet_of_lead Labelling.lead (by decide)) ?_
    refine Quiet.append (quiet_of_lead Labelling.lead (by decide)) ?_
    exact hcomponent.append (htail.append (quiet_of_lead Labelling.lead (by decide)))
  have hunmatched : titleShape ⟨0 + 1, some ' ', 't' :: tail⟩ = none := rfl
  rw [hits, hsplit, hitsFrom_titleShape_space, hitsFrom, hunmatched]
  exact hquiet.hits_eq_nil opens_titleShape

/-- The title is read back; where it is empty, no other title is found. -/
theorem title_settingsBody (hd : d.WellFormed) :
    (firstHit titleShape d.settingsBody).getD [] = d.title := by
  rw [firstHit, firstHitFrom_eq_head?]
  by_cases hempty : d.title = []
  · have hnone := hits_titleShape_empty hd hempty
    rw [hits] at hnone
    rw [hnone, hempty]
    rfl
  · have hsplit : d.settingsBody = ' ' :: ("title: '".toList ++ (d.title ++ '\'' ::
        (", component: ".toList ++ (d.component ++ (", decorators: [".toList ++
          (join ", ".toList d.decorators ++ "] ".toList)))))) := rfl
    obtain ⟨n, hfound⟩ := titleShape_title hempty hd.title.unmarked 1
      (", component: ".toList ++ (d.component ++ (", decorators: [".toList ++
        (join ", ".toList d.decorators ++ "] ".toList))))
    obtain ⟨more, hmore⟩ := exists_hitsFrom (by simp) hfound
    rw [hsplit, hitsFrom_titleShape_space, hmore]
    rfl

theorem componentNameShape_component {component : Text} (hname : IsName component) (o : Nat)
    (s : Text) :
    ∃ n, componentNameShape ⟨o, some ' ', "component: ".toList ++ (component ++ ',' :: s)⟩ =
      some (component, n) := by
  have hkey : afterKey? "component".toList
      ⟨o, some ' ', "component: ".toList ++ (component ++ ',' :: s)⟩ =
      some (stripStart (component ++ ',' :: s)) := rfl
  have hstrip : stripStart (component ++ ',' :: s) = component ++ ',' :: s :=
    stripStart_eq_self_of_strip (strip_of_word hname.word) _ hname.ne_nil
  have hword : word? (component ++ ',' :: s) = some (component, ',' :: s) :=
    word?_append hname.ne_nil hname.word rfl
  simp only [componentNameShape, hkey, hstrip, hword, Option.bind_eq_bind, Option.bind_some]
  exact ⟨_, rfl⟩

theorem component_settingsBody (hd : d.WellFormed) :
    firstHit componentNameShape d.settingsBody = some d.component := by
  let head := " title: '".toList ++ ((d.title ++ ['\'']) ++ ", ".toList)
  let tail := " decorators: [".toList ++ (join ", ".toList d.decorators ++ [']'] ++ [' '])
  have hsplit : d.settingsBody =
      head ++ ("component: ".toList ++ (d.component ++ ([','] ++ tail))) := by
    have hfixed : ", component: ".toList = ", ".toList ++ "component: ".toList := rfl
    rw [settingsBody_eq]
    unfold Draft.settingsHead Draft.settingsTail
    simp only [hfixed, head, tail, List.append_assoc]
  have hquiet : Quiet (Labelling "component".toList isWord) head := by
    have htitle : Quiet (Labelling "component".toList isWord) (d.title ++ ['\'']) :=
      hd.title.component.quiet fun m hm => hm.notMem (by decide) (by decide) rfl rfl
    exact (quiet_of_lead Labelling.lead (by decide)).append
      (htitle.append (quiet_of_lead Labelling.lead (by decide)))
  have hlast : lastOf none head = some ' ' := by
    simp only [head, lastOf_append]
    rfl
  obtain ⟨n, hfound⟩ := componentNameShape_component hd.component (0 + head.length) tail
  obtain ⟨more, hmore⟩ := exists_hitsFrom (by simp) hfound
  have hcomma : d.component ++ ([','] ++ tail) = d.component ++ ',' :: tail := rfl
  rw [firstHit, firstHitFrom_eq_head?, hsplit, hquiet.pass opens_componentNameShape, hlast, hcomma,
    hmore]
  rfl

/-- The inside of the braces of the default export is balanced. -/
theorem balanced_settingsBody (hd : d.WellFormed) : Balanced true d.settingsBody := by
  have hlist : Balanced true ('[' :: (join ", ".toList d.decorators ++ [']'])) :=
    .group (g := square) (by decide) (.join fun s hs => (hd.decorators s hs).balanced.enclose)
  have htitle : Balanced true ('\'' :: (d.title ++ ['\''])) := .literal rfl hd.title.quoted
  have hcomma (s : Text) (hs : ∀ c ∈ s, isPlain c = true) : Balanced true (',' :: s) :=
    .append_of_not_slash (s := [',']) (.plain rfl rfl rfl (by simp)) (by simp) (.of_plain hs)
  have hname : ∀ c ∈ d.component, isPlain c = true :=
    fun c hc => isPlain_of_isWord (hd.component.word c hc)
  have hslash : d.component.getLast? ≠ some '/' := fun hlast =>
    Bool.false_ne_true (hd.component.word '/' (List.mem_of_getLast? hlast))
  have hsplit : d.settingsBody = " title: ".toList ++ (('\'' :: (d.title ++ ['\''])) ++
      ((',' :: " component: ".toList) ++ (d.component ++ ((',' :: " decorators: ".toList) ++
        (('[' :: (join ", ".toList d.decorators ++ [']'])) ++ [' ']))))) := by
    have hopen : " title: '".toList = " title: ".toList ++ ['\''] := rfl
    have hmiddle : ", component: ".toList = ',' :: " component: ".toList := rfl
    have hlist : " decorators: [".toList = " decorators: ".toList ++ ['['] := rfl
    rw [settingsBody_eq]
    unfold Draft.settingsHead Draft.settingsTail
    rw [hopen, hmiddle, hlist]
    simp
  rw [hsplit]
  refine .append_of_not_slash (.of_plain (by decide)) (by decide)
    (.append_of_not_slash htitle (by simp [List.getLast?_cons])
      (.append_of_not_slash (hcomma _ (by decide)) (by decide)
        (.append_of_not_slash (.of_plain hname) hslash
          (.append_of_not_slash (hcomma _ (by decide)) (by decide)
            (.append_of_not_slash hlist (by simp [List.getLast?_cons]) (.of_plain (by decide)))))))

theorem defaultExportBody?_source (hd : d.WellFormed) :
    defaultExportBody? d.source = some d.settingsBody := by
  let rest := ';' :: linesSource d.lines
  obtain ⟨n, hfound⟩ : ∃ n, trailing defaultExportMarker
      ⟨0, none, "export default ".toList ++ '\x7b' :: (d.settingsBody ++ '\x7d' :: rest)⟩ =
        some ('\x7b' :: (d.settingsBody ++ '\x7d' :: rest), n) := ⟨_, rfl⟩
  obtain ⟨more, hmore⟩ := exists_hitsFrom (by simp) hfound
  have hblock := block?_balanced (b := curly) (by decide) (balanced_settingsBody hd) rest
  have hafter : blockAfter? curly defaultExportMarker d.source = some d.settingsBody := by
    rw [blockAfter?_eq, hits, source_eq_export, hmore, List.find?_cons_of_pos rfl]
    exact hblock
  rw [defaultExportBody?, hafter]
  rfl

/-- The settings are read back, whatever lines follow. -/
theorem settings_source (hd : d.WellFormed) (component : Text) :
    settings d.source component = .ok {
      title := d.title
      component := d.component
      stories := []
      argTypes := none
      parameters := none
      decorators := if d.decorators = [] then none else some d.decorators } := by
  rw [settings, defaultExportBody?_source hd]
  dsimp only
  rw [entriesUnder, argTypes_settingsBody hd, entriesUnder, parameters_settingsBody hd,
    title_settingsBody hd, component_settingsBody hd, decorators_settingsBody hd]
  rfl

end Story

end ComponentCatalog
