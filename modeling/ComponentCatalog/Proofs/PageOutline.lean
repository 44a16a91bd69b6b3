import ComponentCatalog.Present.Presenter
import ComponentCatalog.Proofs.Entries
import ComponentCatalog.Proofs.HeadingLines

/-!
The outline of a document on its page. Each section is printed under its title, one level deeper;
what the page then has for headings is told from the sections alone.
-/
namespace ComponentCatalog.Document

open Text

/-- A section as it is cut out of a text. -/
structure IsOutlined (found : Section) : Prop where
  one_le_level : 1 ≤ found.level
  title_stripped : strip found.title = found.title
  title_oneLine : '\n' ∉ found.title
  content_stripped : strip found.content = found.content
  /-- No line of the content is a heading but the first, which lost its indentation. -/
  content_unheaded : (lines found.content).tail.filterMap heading? = []

theorem heading?_title {line title : Text} {level : Nat}
    (h : heading? line = some (level, title)) : strip title = title ∧ title ⊆ line := by
  obtain ⟨n, behind, rfl, hbehind⟩ := exists_replicate line
  rw [heading?_replicate n hbehind] at h
  split at h
  next =>
    cases h
    exact ⟨strip_strip _, fun c hc => List.mem_append_right _ ((strip_isInfix behind).subset hc)⟩
  next => cases h

/-- Lines that are no headings have none when they are joined. -/
theorem headed_join_of_prose {body : List Line}
    (h : ∀ line ∈ body, '\n' ∉ line.text ∧ heading? line.text = none) :
    headed (join ['\n'] (body.map Line.text)) = [] := by
  by_cases hempty : body.map Line.text = []
  · rw [hempty]
    rfl
  · rw [headed_join hempty, List.flatMap_eq_nil_iff]
    refine List.forall_mem_map.mpr fun line hline => ?_
    obtain ⟨hfeed, hnone⟩ := h line hline
    rw [headed_of_oneLine hfeed, hnone]
    rfl

theorem isOutlined_sectionsFrom {all : List Line}
    (h : ∀ line ∈ all, line.kind = lineKind line.text ∧ '\n' ∉ line.text) :
    ∀ found ∈ sectionsFrom all, IsOutlined found := by
  induction all with
  | nil => exact List.forall_mem_nil _
  | cons line rest ih =>
    obtain ⟨⟨hkind, hfeed⟩, hrest⟩ := List.forall_mem_cons.mp h
    cases hline : isHeading line with
    | false =>
      rw [sectionsFrom_cons hline]
      exact ih hrest
    | true =>
      obtain ⟨level, title, hheading⟩ := isHeading_iff.mp hline
      have hparsed := heading?_of_lineKind (hkind.symm.trans hheading)
      obtain ⟨hstripped, hsubset⟩ := heading?_title hparsed
      have hbody : ∀ l ∈ rest.takeWhile fun l => !isHeading l,
          '\n' ∉ l.text ∧ heading? l.text = none := by
        intro l hl
        obtain ⟨hkind, hfeed⟩ := hrest l ((List.takeWhile_sublist _).subset hl)
        have hprose := List.mem_takeWhile_imp hl
        rw [isHeading_eq hkind] at hprose
        exact ⟨hfeed, by simpa using hprose⟩
      rw [sectionsFrom_cons_of_heading hheading]
      refine List.forall_mem_cons.mpr ⟨?_, ih hrest⟩
      constructor
      · exact Int.ofNat_le.mpr (heading?_level hparsed).1
      · exact hstripped
      · exact fun hmem => hfeed (hsubset hmem)
      · exact strip_strip _
      · exact tail_lines_strip (headed_join_of_prose hbody)

theorem isOutlined_sectionsIn (s : Text) : ∀ found ∈ sectionsIn s, IsOutlined found := by
  apply isOutlined_sectionsFrom
  intro line hline
  refine ⟨(numbered_scanLines s).kind_eq line hline, ?_⟩
  have hmem : line.text ∈ lines s := map_text_scanLines s ▸ List.mem_map_of_mem hline
  exact feed_notMem_of_mem_lines hmem

theorem stripEnd_eq_self_of_strip {s : Text} (h : strip s = s) : stripEnd s = s := by
  by_cases hempty : s = []
  · rw [hempty]
    rfl
  · have hstart := stripStart_eq_self_of_strip h [] hempty
    rw [List.append_nil] at hstart
    rwa [strip, hstart] at h

/-- The headings that a section has on a page: its title, unless it is empty or as deep as headings
go, and the first line of its content if it is one. -/
def onPage (found : Section) : List (Nat × Text) :=
  (if found.level ≤ 5 ∧ found.title ≠ [] then [((found.level + 1).toNat, found.title)] else []) ++
    headed found.content

/-- The line under which a section stands on a page. -/
def titleLine (found : Section) : Text :=
  List.replicate (found.level + 1).toNat '#' ++ ' ' :: found.title

theorem headed_titleLine {found : Section} (h : IsOutlined found) :
    headed (titleLine found) =
      if found.level ≤ 5 ∧ found.title ≠ [] then [((found.level + 1).toNat, found.title)] else [] := by
  have hlevel := h.one_le_level
  have hfeed : '\n' ∉ titleLine found := by
    rw [titleLine, List.mem_append, List.mem_cons, List.mem_replicate]
    simp [h.title_oneLine]
  have hstrip : strip (' ' :: found.title) = found.title :=
    (strip_blank_append (u := [' ']) (by decide) found.title).trans h.title_stripped
  have hhead : (' ' :: found.title).head?.any (· == '#') = false := rfl
  have hiff : ((found.level + 1).toNat ≠ 0 ∧ (found.level + 1).toNat ≤ 6 ∧
      (' ' :: found.title).head?.any isBlank ∧ 2 ≤ (' ' :: found.title).length) ↔
      found.level ≤ 5 ∧ found.title ≠ [] := by
    have hlength : 2 ≤ (' ' :: found.title).length ↔ found.title ≠ [] := by
      rw [List.length_cons, ← List.length_pos_iff]
      omega
    have hmarks : (found.level + 1).toNat ≠ 0 ∧ (found.level + 1).toNat ≤ 6 ↔ found.level ≤ 5 := by
      omega
    have hblank : (' ' :: found.title).head?.any isBlank = true := rfl
    rw [← and_assoc, hmarks, hblank, hlength, eq_self_iff_true, true_and]
  rw [headed_of_oneLine hfeed, titleLine, heading?_replicate _ hhead, hstrip]
  by_cases hshown : found.level ≤ 5 ∧ found.title ≠ []
  · rw [if_pos (hiff.mpr hshown), if_pos hshown]
    rfl
  · rw [if_neg (mt hiff.mp hshown), if_neg hshown]
    rfl

theorem headed_stripEnd_titleLine {found : Section} (h : IsOutlined found) :
    headed (stripEnd (titleLine found)) = headed (titleLine found) := by
  by_cases hempty : found.title = []
  · have hnone : headed (titleLine found) = [] := by
      rw [headed_titleLine h, if_neg fun hshown => hshown.2 hempty]
    rw [headed_stripEnd_eq_nil hnone, hnone]
  · have hend := stripEnd_eq_self_of_strip h.title_stripped
    have hsplit : titleLine found =
        (List.replicate (found.level + 1).toNat '#' ++ [' ']) ++ found.title := by
      rw [titleLine, List.append_assoc]
      rfl
    have hne : stripEnd found.title ≠ [] := by rwa [hend]
    rw [hsplit, stripEnd, dropEndWhile_append hne, ← stripEnd, hend]

theorem heads_paragraph {content : Text} (h : strip content = content) :
    Heads (Markdown.paragraph (some content)) (headed content) := by
  have hend := stripEnd_eq_self_of_strip h
  cases content with
  | nil => exact ⟨rfl, List.forall_mem_nil _⟩
  | cons c content =>
    constructor
    · exact List.append_nil _
    · refine List.forall_mem_cons.mpr ⟨by rw [hend], ?_⟩
      exact List.forall_mem_singleton.mpr rfl

/-- What a section prints has the headings of its title line and of its content. -/
theorem heads_sectionLines {found : Section} (h : IsOutlined found) :
    Heads (Markdown.sectionLines found) (onPage found) := by
  have htitle : Heads [titleLine found, []] (headed (titleLine found)) := by
    constructor
    · exact List.append_nil _
    · refine List.forall_mem_cons.mpr ⟨headed_stripEnd_titleLine h, ?_⟩
      exact List.forall_mem_singleton.mpr rfl
  rw [onPage, ← headed_titleLine h]
  exact htitle.append (heads_paragraph h.content_stripped)

/-- What a page prints on one line has no line feed, and the sections are cut out of a text. -/
structure OnLines (d : Document) : Prop where
  metadata : ∀ entry ∈ d.metadata, '\n' ∉ entry.1 ∧ '\n' ∉ entry.2
  sections : ∀ found ∈ d.sections, IsOutlined found
  components : ∀ name ∈ d.components, '\n' ∉ name

theorem unquote_subset (s : Text) : unquote s ⊆ s := by
  have htail : (if s.head?.any isQuote then s.tail else s) ⊆ s := by
    split
    · exact (List.tail_sublist s).subset
    · exact List.Subset.refl s
  rw [unquote]
  generalize (if s.head?.any isQuote then s.tail else s) = t at htail
  split
  · exact List.Subset.trans (List.dropLast_sublist t).subset htail
  · exact htail

theorem frontMatterEntry?_subset {line key value : Text}
    (h : frontMatterEntry? line = some (key, value)) : key ⊆ line ∧ value ⊆ line := by
  simp only [ frontMatterEntry?, Option.bind_eq_bind, Option.bind_eq_some_iff, Prod.exists] at h
  obtain ⟨before, after, hcut, -, -, hpair⟩ := h
  obtain ⟨rfl, rfl⟩ := Prod.mk.inj (Option.some.inj hpair)
  rw [cut?_eq_some hcut]
  constructor
  · exact List.Subset.trans (strip_isInfix before).subset (List.subset_append_left _ _)
  · have hafter : unquote (strip after) ⊆ after :=
      List.Subset.trans (unquote_subset _) (strip_isInfix after).subset
    exact fun c hc => List.mem_append_right _ (List.mem_append_right _ (hafter hc))

theorem feed_notMem_frontMatter (s : Text) :
    ∀ entry ∈ frontMatter s, '\n' ∉ entry.1 ∧ '\n' ∉ entry.2 := by
  unfold frontMatter
  split
  · exact List.forall_mem_nil _
  next body _ _ =>
    intro entry hentry
    rw [Entries.ofPairs_eq_overlaid, Entries.overlaid] at hentry
    obtain ⟨key, -, hkey⟩ := List.mem_filterMap.mp hentry
    obtain ⟨value, hvalue, rfl⟩ := Option.map_eq_some_iff.mp hkey
    have hpair := List.mem_reverse.mp (Entries.mem_of_get? hvalue)
    obtain ⟨line, hline, hread⟩ := List.mem_filterMap.mp hpair
    have hfeed : '\n' ∉ line := feed_notMem_of_mem_lines hline
    obtain ⟨hkey, hvalue⟩ := frontMatterEntry?_subset hread
    exact ⟨fun hmem => hfeed (hkey hmem), fun hmem => hfeed (hvalue hmem)⟩

theorem feed_notMem_referencesIn (s : Text) : ∀ name ∈ referencesIn s, '\n' ∉ name := by
  intro name hname
  refine forall_mem_hits (P := fun name => '\n' ∉ name) (fun at_ a length _ hshape => ?_) name
    (mem_distinct.mp hname)
  simp only [referenceShape, Option.bind_eq_bind, Option.bind_eq_some_iff, Prod.exists] at hshape
  obtain ⟨rest, -, word, behind, hword, -, -, hfound⟩ := hshape
  obtain ⟨rfl, -⟩ := Prod.mk.inj (Option.some.inj hfound)
  intro hmem
  exact absurd ((word?_split hword).2.1 _ hmem) (by decide)

theorem onLines_ofText (component s : Text) : (ofText component s).OnLines where
  metadata := feed_notMem_frontMatter s
  sections := isOutlined_sectionsIn s
  components := feed_notMem_referencesIn s

/-- The lines of the front matter on a page. -/
def metadataLines (entries : Entries Text) : List Text :=
  if entries = [] then []
  else entries.map (fun (key, value) => "- **".toList ++ key ++ "**: ".toList ++ value) ++ [[]]

/-- The line of the components that a document refers to. -/
def componentLines (names : List Text) : List Text :=
  if names = [] then [] else ["Referenced components: ".toList ++ join ", ".toList names]

/-- The line at the head of the page. -/
def topLine (d : Document) : Text := "# ".toList ++ d.title

def linesBelow (d : Document) : List Text :=
  [] :: (metadataLines d.metadata ++ d.sections.flatMap Markdown.sectionLines ++
    componentLines d.components ++ [[]])

theorem document_eq (d : Document) :
    Markdown.document d = stripEnd (d.topLine ++ '\n' :: join ['\n'] d.linesBelow) ++ ['\n'] := by
  have hlines : Markdown.document d = Markdown.page (d.topLine :: d.linesBelow) := by
    simp only [Markdown.document, topLine, linesBelow, metadataLines, componentLines,
      List.append_assoc, List.cons_append, List.nil_append]
  have hjoin : join ['\n'] (d.topLine :: d.linesBelow) =
      '#' :: (' ' :: d.title ++ '\n' :: join ['\n'] d.linesBelow) := by
    have hne : d.linesBelow ≠ [] := List.cons_ne_nil _ _
    rw [join_cons, if_neg hne]
    rfl
  rw [hlines, Markdown.page, hjoin, strip, stripStart_cons (by decide)]
  rfl

/-- A line that begins with another character than a mark. -/
theorem headed_cons_of_ne {c : Char} (hc : c ≠ '#') {line : Text} (hfeed : '\n' ∉ c :: line) :
    headed (c :: line) = [] := by
  rw [headed_of_oneLine hfeed, heading?_eq_none hc]
  rfl

theorem heads_empty : Heads [[]] [] := ⟨rfl, List.forall_mem_singleton.mpr rfl⟩

theorem heads_metadataLines {entries : Entries Text}
    (h : ∀ entry ∈ entries, '\n' ∉ entry.1 ∧ '\n' ∉ entry.2) : Heads (metadataLines entries) [] := by
  rw [metadataLines]
  split
  · exact ⟨rfl, List.forall_mem_nil _⟩
  · have hpairs : Heads (entries.map fun (key, value) =>
        "- **".toList ++ key ++ "**: ".toList ++ value) [] := by
      refine .of_unheaded (List.forall_mem_map.mpr fun entry hentry => ?_)
      obtain ⟨hkey, hvalue⟩ := h entry hentry
      have hfeed : '\n' ∉ "- **".toList ++ entry.1 ++ "**: ".toList ++ entry.2 := by
        simp [hkey, hvalue]
      exact ⟨hfeed, headed_cons_of_ne (by decide) hfeed⟩
    exact hpairs.append heads_empty

theorem heads_componentLines {names : List Text} (h : ∀ name ∈ names, '\n' ∉ name) :
    Heads (componentLines names) [] := by
  rw [componentLines]
  split
  · exact ⟨rfl, List.forall_mem_nil _⟩
  · have hnames : '\n' ∉ join ", ".toList names := notMem_join (by decide) h
    have hfeed : '\n' ∉ "Referenced components: ".toList ++ join ", ".toList names := by
      rw [List.mem_append, not_or]
      exact ⟨by decide, hnames⟩
    refine .of_unheaded (List.forall_mem_singleton.mpr ⟨hfeed, ?_⟩)
    exact headed_cons_of_ne (by decide) hfeed

/-- Below the head of a page only the sections have headings. -/
theorem heads_linesBelow {d : Document} (h : d.OnLines) :
    Heads d.linesBelow (d.sections.flatMap onPage) := by
  have hsections : Heads (d.sections.flatMap Markdown.sectionLines) (d.sections.flatMap onPage) :=
    .flatMap fun found hfound => heads_sectionLines (h.sections found hfound)
  have hlines := ((heads_metadataLines h.metadata).append hsections).append
    (heads_componentLines h.components)
  have hall := heads_empty.append (hlines.append heads_empty)
  rwa [List.append_nil, List.append_nil, List.nil_append, List.nil_append] at hall

/-- The page has nothing but its head. -/
def IsBare (d : Document) : Prop := d.metadata = [] ∧ d.sections = [] ∧ d.components = []

instance (d : Document) : Decidable d.IsBare := inferInstanceAs (Decidable (_ ∧ _ ∧ _))

/-- A page whose lines below the head are blank has none to print there. -/
theorem isBare_of_blank {d : Document} (h : d.OnLines)
    (hblank : ∀ line ∈ d.linesBelow, ∀ c ∈ line, isBlank c = true) : d.IsBare := by
  have hprinted : ∀ line ∈ metadataLines d.metadata ++ d.sections.flatMap Markdown.sectionLines ++
      componentLines d.components, ∀ c ∈ line, isBlank c = true := fun line hline =>
    hblank line (List.mem_cons_of_mem _ (List.mem_append_left _ hline))
  -- Each part that there is prints a line with a character that is no blank.
  refine ⟨?_, ?_, ?_⟩
  · by_contra hne
    obtain ⟨entry, entries, hentries⟩ := List.exists_cons_of_ne_nil hne
    have hline : "- **".toList ++ entry.1 ++ "**: ".toList ++ entry.2 ∈ metadataLines d.metadata := by
      rw [metadataLines, if_neg hne, hentries]
      exact List.mem_cons_self
    have hdash := hprinted _ (List.mem_append_left _ (List.mem_append_left _ hline)) '-' (by simp)
    exact absurd hdash (by decide)
  · by_contra hne
    obtain ⟨found, hfound⟩ := List.exists_mem_of_ne_nil _ hne
    have hlevel := (h.sections found hfound).one_le_level
    have hline : titleLine found ∈ d.sections.flatMap Markdown.sectionLines :=
      List.mem_flatMap.mpr ⟨found, hfound, List.mem_cons_self⟩
    have hmark : '#' ∈ titleLine found := by
      apply List.mem_append_left
      rw [List.mem_replicate]
      exact ⟨by omega, rfl⟩
    have := hprinted _ (List.mem_append_left _ (List.mem_append_right _ hline)) '#' hmark
    exact absurd this (by decide)
  · by_contra hne
    have hline : "Referenced components: ".toList ++ join ", ".toList d.components ∈
        componentLines d.components := by
      rw [componentLines, if_neg hne]
      exact List.mem_singleton.mpr rfl
    have hletter := hprinted _ (List.mem_append_right _ hline) 'R' (by simp)
    exact absurd hletter (by decide)

theorem stripEnd_linesBelow {d : Document} (h : d.OnLines) :
    stripEnd (join ['\n'] d.linesBelow) = [] ↔ d.IsBare := by
  constructor
  · intro hstripped
    refine isBare_of_blank h fun line hline c hc => ?_
    exact forall_isBlank_of_stripEnd hstripped c (subset_join hline hc)
  · rintro ⟨hmetadata, hsections, hcomponents⟩
    rw [linesBelow, hmetadata, hsections, hcomponents]
    rfl

/-- The head of a page as it stands there. -/
def head (d : Document) : Text := if d.IsBare then stripEnd d.topLine else d.topLine

theorem headed_document {d : Document} (h : d.OnLines) :
    headed (Markdown.document d) = headed d.head ++ d.sections.flatMap onPage := by
  have hne : d.linesBelow ≠ [] := List.cons_ne_nil _ _
  have hbelow := (heads_linesBelow h).headed_stripEnd_join hne
  have hnone : headed [] = [] := rfl
  rw [document_eq, headed_append_feed, headed_stripEnd_append, head, hnone, List.append_nil]
  by_cases hbare : d.IsBare
  · rw [if_pos ((stripEnd_linesBelow h).mpr hbare), if_pos hbare, hbare.2.1, List.flatMap_nil,
      List.append_nil]
  · rw [if_neg (mt (stripEnd_linesBelow h).mp hbare), if_neg hbare, hbelow]

theorem headed_titled {title : Text} (hfeed : '\n' ∉ title) (htext : strip title ≠ []) :
    headed ("# ".toList ++ title) = [(1, strip title)] := by
  have hmarked : "# ".toList ++ title = List.replicate 1 '#' ++ ' ' :: title := rfl
  have hline : '\n' ∉ List.replicate 1 '#' ++ ' ' :: title := by
    simp [hfeed]
  have hlength : 2 ≤ (' ' :: title).length := by
    have hne : title ≠ [] := by
      rintro rfl
      exact htext rfl
    rw [List.length_cons]
    exact Nat.succ_le_succ (List.length_pos_iff.mpr hne)
  have hstrip : strip (' ' :: title) = strip title :=
    strip_blank_append (u := [' ']) (by decide) title
  rw [hmarked, headed_of_oneLine hline, heading?_replicate 1 (by rfl),
    if_pos ⟨by decide, by decide, by rfl, hlength⟩, hstrip]
  rfl

/-- A title with text on one line is the one heading at the head of the page. -/
theorem headed_head {d : Document} (hfeed : '\n' ∉ d.title) (htext : strip d.title ≠ []) :
    headed d.head = [(1, strip d.title)] := by
  rw [head]
  split
  · obtain ⟨trail, htrail, hsplit⟩ := exists_dropEndWhile isBlank d.title
    have hstrip : strip d.title = strip (stripEnd d.title) :=
      (congrArg strip hsplit).trans (strip_append_of_blank htrail _)
    have hne : stripEnd d.title ≠ [] := fun hnil => htext (by rw [hstrip, hnil]; rfl)
    have htop : stripEnd d.topLine = "# ".toList ++ stripEnd d.title :=
      dropEndWhile_append hne "# ".toList
    rw [htop, hstrip]
    apply headed_titled
    · exact fun hmem => hfeed ((dropEndWhile_isPrefix _ _).subset hmem)
    · rwa [← hstrip]
  · exact headed_titled hfeed htext

theorem index_of_content {found : Section} (h : IsOutlined found) :
    ∀ heading ∈ headings found.content, heading.index = 0 := by
  apply (numbered_scanLines found.content).index_eq_first
  rw [map_text_scanLines]
  exact h.content_unheaded

/-- The headings on the page of a document are those of its head, which is one if the title has text
and is on one line, and then of each section its own, one level deeper, unless it has no title or is
six levels deep, and the first line of its content if that became a heading when its indentation was
stripped. So the page has the outline of the document if no section is of these kinds. -/
theorem headings_of_page (component s : Text) :
    let d := ofText component s
    let deeper := fun found : Section => LineKind.heading (found.level + 1).toNat found.title
    ∃ page, Presenter.render ⟨fun _ => none⟩ (.document d) .markdown = .ok page ∧
      (headings page).map Line.kind =
        (headings d.head).map Line.kind ++ d.sections.flatMap (fun found =>
          (if found.level ≤ 5 ∧ found.title ≠ [] then [deeper found] else []) ++
            (headings found.content).map Line.kind) ∧
      ('\n' ∉ d.title → strip d.title ≠ [] →
        (headings d.head).map Line.kind = [.heading 1 (strip d.title)]) ∧
      (∀ found ∈ d.sections, (1 ≤ found.level ∧ found.level ≤ 6) ∧
        ∀ heading ∈ headings found.content, heading.index = 0) ∧
      ((∀ found ∈ d.sections,
          found.level ≤ 5 ∧ found.title ≠ [] ∧ headings found.content = []) →
        (headings page).map Line.kind =
          (headings d.head).map Line.kind ++ d.sections.map deeper) := by
  intro d deeper
  have hd : d.OnLines := onLines_ofText component s
  have hpage : (headings (Markdown.document d)).map Line.kind =
      (headings d.head).map Line.kind ++ d.sections.flatMap (fun found =>
        (if found.level ≤ 5 ∧ found.title ≠ [] then [deeper found] else []) ++
          (headings found.content).map Line.kind) := by
    rw [map_kind_headings, headed_document hd, List.map_append, List.map_flatMap, map_kind_headings]
    congr 2
    funext found
    rw [onPage, List.map_append, map_kind_headings]
    congr 1
    split <;> rfl
  refine ⟨Markdown.document d, rfl, hpage, fun hfeed htext => ?_, fun found hfound => ?_,
    fun houtline => ?_⟩
  · rw [map_kind_headings, headed_head hfeed htext]
    rfl
  · have hwithin := within_sectionsIn s found hfound
    exact ⟨⟨hwithin.one_le_level, hwithin.level_le⟩, index_of_content (hd.sections found hfound)⟩
  · have hown : ∀ found ∈ d.sections,
        (if found.level ≤ 5 ∧ found.title ≠ [] then [deeper found] else []) ++
          (headings found.content).map Line.kind = [deeper found] := by
      intro found hfound
      obtain ⟨hlevel, htitle, hcontent⟩ := houtline found hfound
      rw [if_pos ⟨hlevel, htitle⟩, hcontent]
      rfl
    rw [hpage, List.flatMap_congr hown, ← List.map_eq_flatMap]

/-- A heading that the page keeps, one that it makes, one that is too deep and one without a
title. -/
theorem headings_of_page_of_card :
    let s := "# Card\n   # Not one\n## Props\nText\n###### Deep\nBody\n#  \nEnd".toList
    let d := ofText "Card".toList s
    d.sections.map (fun found => (found.level, found.title)) =
        [(1, "Card".toList), (2, "Props".toList), (6, "Deep".toList), (1, [])] ∧
      ∃ page, Presenter.render ⟨fun _ => none⟩ (.document d) .markdown = .ok page ∧
        (headings page).map Line.kind =
          [.heading 1 "Card".toList, .heading 2 "Card".toList, .heading 1 "Not one".toList,
            .heading 3 "Props".toList] := by
  intro s d
  obtain ⟨page, hrender, hheadings, -⟩ := headings_of_page "Card".toList s
  refine ⟨rfl, page, hrender, ?_⟩
  rw [hheadings]
  rfl

end ComponentCatalog.Document
