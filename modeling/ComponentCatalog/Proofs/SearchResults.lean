import ComponentCatalog.Proofs.ConcurrentFetch
import ComponentCatalog.Proofs.Scanning
import ComponentCatalog.Proofs.UnchangingSource

/-!
Searches over a source that does not change. Both go through the sorted listing and keep what
matches, so that one is a part of the other, and a component that does not load is found by its
name.
-/
namespace ComponentCatalog

open Provider
open Relation (ReflTransGen)

namespace Text

theorem precedes_total (s t : Text) : (precedes s t || precedes t s) = true := by
  induction s generalizing t with
  | nil => rfl
  | cons c s ih =>
    cases t with
    | nil => rfl
    | cons d t =>
      rcases Nat.lt_trichotomy c.toNat d.toNat with hlt | heq | hgt
      · simp [precedes, hlt]
      · obtain rfl := Char.toNat_inj.mp heq
        simpa [precedes] using ih t
      · simp [precedes, hgt]

theorem precedes_trans {s t u : Text} (hst : precedes s t = true) (htu : precedes t u = true) :
    precedes s u = true := by
  induction s generalizing t u with
  | nil => rfl
  | cons c s ih =>
    match t, u with
    | d :: t, e :: u =>
      simp only [precedes, Bool.or_eq_true, decide_eq_true_eq, Bool.and_eq_true, beq_iff_eq]
        at hst htu ⊢
      rcases hst with hcd | ⟨rfl, hst⟩ <;> rcases htu with hde | ⟨rfl, htu⟩
      · exact .inl (hcd.trans hde)
      · exact .inl hcd
      · exact .inl hde
      · exact .inr ⟨rfl, ih hst htu⟩

/-- A sorted listing is in code-point order. -/
theorem pairwise_sort (texts : List Text) :
    (sort texts).Pairwise fun s t => precedes s t = true :=
  @List.pairwise_mergeSort Text precedes (fun _ _ _ => precedes_trans) precedes_total texts

theorem sort_perm (texts : List Text) : (sort texts).Perm texts := List.mergeSort_perm texts _

theorem precedes_antisymm {s t : Text} (hst : precedes s t = true) (hts : precedes t s = true) :
    s = t := by
  induction s generalizing t with
  | nil =>
    cases t with
    | nil => rfl
    | cons d t => cases hts
  | cons c s ih =>
    cases t with
    | nil => cases hst
    | cons d t =>
      simp only [precedes, Bool.or_eq_true, decide_eq_true_eq, Bool.and_eq_true, beq_iff_eq]
        at hst hts
      have heq : c = d := by
        rcases hst with hlt | ⟨rfl, -⟩
        · rcases hts with hgt | ⟨rfl, -⟩
          · omega
          · rfl
        · rfl
      subst heq
      exact congrArg (c :: ·) (ih (by simpa using hst) (by simpa using hts))

/-- There is one order in which a listing is sorted. -/
theorem sort_eq_of_perm {texts sorted : List Text} (hperm : sorted.Perm texts)
    (hsorted : sorted.Pairwise fun s t => precedes s t = true) : sort texts = sorted :=
  ((sort_perm texts).trans hperm.symm).eq_of_pairwise (fun _ _ _ _ => precedes_antisymm)
    (pairwise_sort texts) hsorted

end Text

namespace Except

variable {ε α β : Type} {x : Except ε α} {f : α → β}

theorem error_of_map {e : ε} (h : x.map f = .error e) : x = .error e := by
  cases x with
  | error e' => cases h; rfl
  | ok a => cases h

theorem ok_of_map {b : β} (h : x.map f = .ok b) : ∃ a, x = .ok a := by
  cases x with
  | error e => cases h
  | ok a => exact ⟨a, rfl⟩

end Except

namespace Library

/-- The components of a listing that match, with the descriptions of those that loaded. -/
def matching (needle : Text) (names : List Text) (found : Entries Component) : List SearchResult :=
  let results := names.map fun name =>
    SearchResult.mk name ((Entries.get? name found).bind Component.description)
  results.filter fun r =>
    Text.contains needle (Text.lower r.name) ||
      r.description.any fun d => d ≠ [] && Text.contains needle (Text.lower d)

/-- A description without text matches only what every name matches. -/
theorem matches_iff {needle name : Text} {description : Option Text} :
    (Text.contains needle (Text.lower name) ||
      description.any fun d => d ≠ [] && Text.contains needle (Text.lower d)) = true ↔
      needle <:+: Text.lower name ∨ ∃ d ∈ description, needle <:+: Text.lower d := by
  simp only [Bool.or_eq_true, Text.contains_iff, Option.any_eq_true, Bool.and_eq_true,
    decide_eq_true_eq, Option.mem_def]
  constructor
  · rintro (hname | ⟨d, hd, -, hinfix⟩)
    · exact .inl hname
    · exact .inr ⟨d, hd, hinfix⟩
  · rintro (hname | ⟨d, hd, hinfix⟩)
    · exact .inl hname
    · by_cases hempty : d = []
      · -- Then the needle is empty, and the name contains it as well.
        subst hempty
        left
        obtain rfl : needle = [] := List.infix_nil.mp hinfix
        exact List.nil_infix
      · exact .inr ⟨d, hd, hempty, hinfix⟩

/-- Where every look-up comes to a component or a failure of the source, what matches is told by the
look-ups themselves. -/
theorem matching_loaded {needle : Text} {names : List Text}
    {value : Text → Except Failure Component} {description : Text → Option Text}
    (hdescription : ∀ name, (value name).toOption.bind Component.description = description name) :
    matching needle names
        ((Text.distinct names).filterMap fun name => (value name).toOption.map (name, ·)) =
      (names.filter fun name => needle <:+: Text.lower name ∨
        ∃ d ∈ description name, needle <:+: Text.lower d).map fun name => ⟨name, description name⟩ := by
  have hresults : names.map (fun name => SearchResult.mk name
      ((Entries.get? name ((Text.distinct names).filterMap fun name =>
        (value name).toOption.map (name, ·))).bind Component.description)) =
      names.map fun name => ⟨name, description name⟩ := by
    refine List.map_congr_left fun name hname => ?_
    rw [Entries.get?_filterMap, if_pos (Text.mem_distinct.mpr hname), hdescription]
  rw [matching, hresults, List.filter_map]
  congr 1
  refine List.filter_congr fun name _ => ?_
  rw [Bool.eq_iff_iff, decide_eq_true_iff]
  exact matches_iff

section Search

variable {σ : Type} {lib : Library σ} {answers : (k : Kind) → Text → Except Failure k.Answer}
  {holds : σ → Prop} {listing : List Text} {s : Session σ}

theorem run_components (hp : lib.provider.Unchanging answers holds)
    (hlisting : answers .directory lib.layout.componentsPath = .ok listing) (hs : holds s.state) :
    (lib.components.run s).1 = .ok (Text.sort listing) ∧ holds (lib.components.run s).2.state := by
  have hanswered : ((lib.provider.listDirectory lib.layout.componentsPath).run s).1 = .ok listing :=
    (hp.answered .directory lib.layout.componentsPath hs).trans hlisting
  rw [components, Reading.run_map, hanswered]
  exact ⟨rfl, hp.kept .directory lib.layout.componentsPath hs⟩

theorem run_search_named (hp : lib.provider.Unchanging answers holds)
    (hlisting : answers .directory lib.layout.componentsPath = .ok listing) (hs : holds s.state)
    (query : Text) :
    ((lib.search query false).run s).1 =
      .ok (((Text.sort listing).filter fun name =>
        Text.lower (Text.strip query) <:+: Text.lower name).map fun name => ⟨name, none⟩) := by
  have hcomponents := (run_components hp hlisting hs).1
  rw [search, Reading.run_bind]
  rcases hrun : lib.components.run s with ⟨names, t⟩
  rw [hrun] at hcomponents
  subst hcomponents
  have hfilter : (Text.sort listing).filter (fun name =>
      Text.contains (Text.lower (Text.strip query)) (Text.lower name)) =
      (Text.sort listing).filter fun name =>
        Text.lower (Text.strip query) <:+: Text.lower name := by
    refine List.filter_congr fun name _ => ?_
    rw [Bool.eq_iff_iff, decide_eq_true_iff]
    exact Text.contains_iff
  rw [← hfilter]
  rfl

/-- The search by name and description is made from what remains of the look-ups. -/
theorem run_search_described (hp : lib.provider.Unchanging answers holds)
    (hlisting : answers .directory lib.layout.componentsPath = .ok listing)
    (hworkers : 1 ≤ lib.workers) (hs : holds s.state) (query : Text) :
    ((lib.search query true).run s).1 =
      (loaded ((Text.distinct (Text.sort listing)).map fun name =>
        (name, (Task.component lib.layout name).result (answers .file)))).map
          (matching (Text.lower (Text.strip query)) (Text.sort listing)) := by
  obtain ⟨hcomponents, ht⟩ := run_components hp hlisting hs
  rw [search, Reading.run_bind]
  rcases hrun : lib.components.run s with ⟨names, t⟩
  rw [hrun] at hcomponents ht
  subst hcomponents
  have hfetch := run_fetchMany (fun name _ hu => run_component hp.steady hu name) hworkers ht
    (Text.sort listing)
  rw [← hfetch]
  simp only [Bool.not_true, Bool.false_eq_true, if_false, Reading.run_bind]
  rcases (lib.fetchMany (Text.sort listing)).run t with ⟨e | found, u⟩ <;> rfl

theorem mem_distinct_sort {name : Text} :
    name ∈ Text.distinct (Text.sort listing) ↔ name ∈ listing :=
  Text.mem_distinct.trans (Text.sort_perm listing).mem_iff

/-- What ends a search is the failure of a listed component, and none of the source. -/
theorem failure_of_search (hp : lib.provider.Unchanging answers holds)
    (hlisting : answers .directory lib.layout.componentsPath = .ok listing)
    (hworkers : 1 ≤ lib.workers) (hs : holds s.state) {query : Text} {e : Failure}
    (h : ((lib.search query true).run s).1 = .error e) :
    (∃ name ∈ listing, ((lib.component name).run s).1 = .error e) ∧ ∀ e', e ≠ .source e' := by
  rw [run_search_described hp hlisting hworkers hs] at h
  obtain ⟨⟨entry, hentry, hfailed⟩, hnot⟩ := exists_of_loaded_eq_error (Except.error_of_map h)
  obtain ⟨name, hname, rfl⟩ := List.mem_map.mp hentry
  refine ⟨⟨name, mem_distinct_sort.mp hname, ?_⟩, hnot⟩
  exact (run_component hp.steady hs name).1.trans hfailed

/-- Where a search comes to results, every listed component that does not load fails for the
source. -/
theorem sources_of_search (hp : lib.provider.Unchanging answers holds)
    (hlisting : answers .directory lib.layout.componentsPath = .ok listing)
    (hworkers : 1 ≤ lib.workers) (hs : holds s.state) {query : Text} {full : List SearchResult}
    (h : ((lib.search query true).run s).1 = .ok full) :
    ∀ name ∈ listing, ∀ e, ((lib.component name).run s).1 = .error e → ∃ e', e = .source e' := by
  rw [run_search_described hp hlisting hworkers hs] at h
  obtain ⟨found, hfound⟩ := Except.ok_of_map h
  intro name hname e hfailed
  rw [(run_component hp.steady hs name).1] at hfailed
  exact source_of_loaded_eq_ok hfound _ (List.mem_map.mpr ⟨name, mem_distinct_sort.mpr hname, rfl⟩)
    e hfailed

/-- The search looks into the descriptions that the look-ups alone give. -/
theorem run_search_of_sources (hp : lib.provider.Unchanging answers holds)
    (hlisting : answers .directory lib.layout.componentsPath = .ok listing)
    (hworkers : 1 ≤ lib.workers) (hs : holds s.state) (query : Text)
    {description : Text → Option Text}
    (hdescription : ∀ name,
      ((lib.component name).run s).1.toOption.bind Component.description = description name)
    (hsources : ∀ name ∈ listing, ∀ e,
      ((lib.component name).run s).1 = .error e → ∃ e', e = .source e') :
    ((lib.search query true).run s).1 =
      .ok (((Text.sort listing).filter fun name =>
        Text.lower (Text.strip query) <:+: Text.lower name ∨
          ∃ d ∈ description name, Text.lower (Text.strip query) <:+: Text.lower d).map fun name =>
        ⟨name, description name⟩) := by
  have halone := fun name => (run_component hp.steady hs name).1
  rw [run_search_described hp hlisting hworkers hs, loaded_eq_ok, List.filterMap_map]
  · refine congrArg Except.ok (matching_loaded fun name => ?_)
    dsimp only
    rw [← halone, hdescription]
  · intro entry hentry
    obtain ⟨name, hname, rfl⟩ := List.mem_map.mp hentry
    rw [← halone]
    exact hsources name (mem_distinct_sort.mp hname)

/-- Over a source that does not change and lists its components, both searches go through the sorted
listing. The search by name gives the names that contain the stripped query, in lower case; the
search that looks into descriptions too gives those and the names whose descriptions contain it,
each with the description that a look-up of the component alone gives. A component that does not
load has none and is found by its name. Only a failure that is none of the source ends the search,
and it is the failure of a listed component; otherwise the first result is a part of the second. -/
theorem search_of_unchanging (hp : lib.provider.Unchanging answers holds)
    (hlisting : answers .directory lib.layout.componentsPath = .ok listing)
    (hworkers : 1 ≤ lib.workers) (hs : holds s.state) (query : Text) :
    let needle := Text.lower (Text.strip query)
    let alone := fun name => ((lib.component name).run s).1
    let description := fun name => (alone name).toOption.bind Component.description
    let named := ((lib.search query false).run s).1
    let described := ((lib.search query true).run s).1
    ∃ names : List Text, (lib.components.run s).1 = .ok names ∧ names.Perm listing ∧
      names.Pairwise (fun name name' => Text.precedes name name' = true) ∧
      named = .ok ((names.filter fun name => needle <:+: Text.lower name).map (⟨·, none⟩)) ∧
      ((∀ name ∈ listing, ∀ e, alone name = .error e → ∃ e', e = .source e') →
        described = .ok ((names.filter fun name => needle <:+: Text.lower name ∨
          ∃ d ∈ description name, needle <:+: Text.lower d).map fun name =>
            ⟨name, description name⟩)) ∧
      (∀ e, described = .error e →
        (∃ name ∈ listing, alone name = .error e) ∧ ∀ e', e ≠ .source e') ∧
      ∀ plain full, named = .ok plain → described = .ok full →
        (plain.map SearchResult.name).Sublist (full.map SearchResult.name) ∧
        ∀ name ∈ listing, ∀ e, alone name = .error (.source e) → needle <:+: Text.lower name →
          ⟨name, none⟩ ∈ full := by
  intro needle alone description named described
  have hnamed : named = _ := run_search_named hp hlisting hs query
  have hdescribed := fun hsources =>
    run_search_of_sources hp hlisting hworkers hs query (fun name => Eq.refl (description name)) hsources
  refine ⟨Text.sort listing, (run_components hp hlisting hs).1, Text.sort_perm listing,
    Text.pairwise_sort listing, hnamed, hdescribed,
    fun e he => failure_of_search hp hlisting hworkers hs he, fun plain full hplain hfull => ?_⟩
  have hsources := sources_of_search hp hlisting hworkers hs hfull
  obtain rfl := Except.ok.inj (hnamed.symm.trans hplain)
  obtain rfl := Except.ok.inj ((hdescribed hsources).symm.trans hfull)
  constructor
  · simp only [List.map_map, Function.comp_def, List.map_id']
    apply List.monotone_filter_right
    intro name hname
    exact decide_eq_true (.inl (of_decide_eq_true hname))
  · intro name hname e hfailed hinfix
    have hnone : description name = none := by
      simp only [description, hfailed]
      rfl
    rw [← hnone]
    apply List.mem_map_of_mem
    exact List.mem_filter.mpr
      ⟨(Text.sort_perm listing).mem_iff.mpr hname, decide_eq_true (.inl hinfix)⟩

/-- A component without files is found by its name, another one by its description. -/
theorem search_of_missing_component :
    let layout : Layout := ⟨"components".toList, "themes".toList, []⟩
    let code := "/** Shows a card. */\nexport const Alert = 1;".toList
    let memory : Memory :=
      { files := [(layout.componentPath "Alert".toList .source, code),
          (layout.componentPath "Button".toList .source, [])]
        directories := [(layout.componentsPath, ["Card".toList, "Button".toList, "Alert".toList])]
        broken := []
        calls := [] }
    let lib : Library Memory := ⟨.memory, layout, 2⟩
    let search := fun described => ((lib.search " CARD ".toList described).run ⟨memory, []⟩).1
    search false = .ok [⟨"Card".toList, none⟩] ∧
      search true = .ok [⟨"Alert".toList, some "Shows a card.".toList⟩, ⟨"Card".toList, none⟩] := by
  intro layout code memory lib search
  have hp : lib.provider.Unchanging memory.answers fun m => ∃ calls, m = { memory with calls } :=
    memory.unchanging
  have hs : ∃ calls, memory = { memory with calls } := ⟨[], rfl⟩
  have hlisting : memory.answers .directory layout.componentsPath =
      .ok ["Card".toList, "Button".toList, "Alert".toList] := rfl
  obtain ⟨names, hnames, -, -, hnamed, hdescribed, -⟩ :=
    search_of_unchanging (s := ⟨memory, []⟩) hp hlisting (by decide) hs " CARD ".toList
  have hsorted : Text.sort ["Card".toList, "Button".toList, "Alert".toList] =
      ["Alert".toList, "Button".toList, "Card".toList] :=
    Text.sort_eq_of_perm (by decide) (by decide)
  rw [(run_components hp hlisting hs).1, hsorted] at hnames
  cases hnames
  have hAlert : ((lib.component "Alert".toList).run ⟨memory, []⟩).1 =
      .ok (Component.ofSource "Alert".toList code) := rfl
  have hButton : ((lib.component "Button".toList).run ⟨memory, []⟩).1 =
      .ok (Component.ofSource "Button".toList []) := rfl
  have hCard : ((lib.component "Card".toList).run ⟨memory, []⟩).1 = .error (.source (.absent
      ("No such file: ".toList ++ layout.componentPath "Card".toList .source))) := rfl
  constructor
  · exact hnamed.trans (by decide)
  · refine (hdescribed fun name hname e he => ?_).trans ?_
    · simp only [List.mem_cons, List.not_mem_nil, or_false] at hname
      rcases hname with rfl | rfl | rfl
      · exact ⟨_, (Except.error.inj (hCard.symm.trans he)).symm⟩
      · exact absurd (hButton.symm.trans he) (by simp)
      · exact absurd (hAlert.symm.trans he) (by simp)
    · rfl

end Search

/-- A search may have its components looked up by several workers over a cached source, in any order
of their steps and whatever the clock shows: its results are those of the look-ups one after the
other. -/
theorem search_of_workers {τ σ : Type} [Zero τ] [Sub τ] [LT τ] [DecidableLT τ] {lib : Library σ}
    {answers : (k : Kind) → Text → Except Failure k.Answer} {holds : σ → Prop} {listing : List Text}
    (hp : lib.provider.Unchanging answers holds)
    (hlisting : answers .directory lib.layout.componentsPath = .ok listing)
    (hworkers : 1 ≤ lib.workers) {s : Session (Cached τ σ)} (hs : s.state.Agrees answers holds)
    {names : List Text} {t : Session (Cached τ σ)}
    (hnames : lib.cached.components.run s = (.ok names, t)) {pool : Pool τ σ}
    (hsteps : ReflTransGen (Pool.Step lib.provider (lib.limit names))
      (Pool.start lib.layout names t) pool)
    {result : Except Failure (Entries Component)} {u : Session (Cached τ σ)}
    (houtcome : pool.outcome? = some (result, u)) (query : Text) :
    ((lib.cached.search query true).run s).1 =
      result.map (matching (Text.lower (Text.strip query)) names) := by
  have hcached : (lib.cached : Library (Cached τ σ)).provider.Unchanging answers
      (Cached.Agrees answers holds) := hp.cached
  obtain ⟨hlisted, ht⟩ := run_components hcached hlisting hs
  rw [hnames] at hlisted ht
  cases hlisted
  have hsound := (Pool.sound_start ht.faithful _).steps hp.steady hsteps
  rw [run_search_described hcached hlisting hworkers hs, hsound.outcome_eq houtcome]
  rfl

end Library
end ComponentCatalog
