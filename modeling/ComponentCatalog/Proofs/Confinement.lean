import ComponentCatalog.Proofs.Recorded
import ComponentCatalog.Proofs.Scanning
import ComponentCatalog.Source.Checkout

/-!
A checkout depends on nothing outside its root. The place that a path leads to is found by walking
its pieces from the root, which may dip out of the root and come back; the checkout reads that
place, or refuses the path if the place lies outside.
-/
namespace ComponentCatalog

open Text

/-- A normalized path is relative. -/
theorem startsWith_normalizePath (path : Text) : startsWith ['/'] (normalizePath path) = false := by
  have hsegments : ∀ part ∈ segments (strip path), part ≠ [] ∧ '/' ∉ part := by
    intro part hpart
    obtain ⟨hmem, hnames⟩ := List.mem_filter.mp hpart
    exact ⟨(of_decide_eq_true hnames).1, notMem_of_mem_splitOn hmem⟩
  rw [normalizePath]
  cases hparts : segments (strip path) with
  | nil => rfl
  | cons part more =>
    obtain ⟨hne, hnot⟩ := hsegments part (hparts ▸ List.mem_cons_self)
    obtain ⟨c, rest, rfl⟩ := List.exists_cons_of_ne_nil hne
    have hc : '/' ≠ c := fun h => hnot (h ▸ List.mem_cons_self)
    cases more <;> simp [join, startsWith, after?, hc]

namespace Place

/-- The place to which pieces of a path lead, one after another. -/
inductive Leads : Place → List Text → Place → Prop where
  | arrived {place : Place} : Leads place [] place
  /-- An empty piece or a point leads nowhere. -/
  | stay {place last : Place} {piece : Text} {more : List Text} :
      piece = [] ∨ piece = ['.'] → Leads place more last → Leads place (piece :: more) last
  /-- Two points lead up, from the top to itself. -/
  | up {place last : Place} {more : List Text} :
      Leads place.dropLast more last → Leads place (['.', '.'] :: more) last
  | down {place last : Place} {piece : Text} {more : List Text} :
      piece ∉ [[], ['.'], ['.', '.']] → Leads (place ++ [piece]) more last →
        Leads place (piece :: more) last

theorem leads_foldl (place : Place) (pieces : List Text) :
    Leads place pieces
      ((pieces.filter fun part => part ≠ [] ∧ part ≠ ['.']).foldl enter place) := by
  induction pieces generalizing place with
  | nil => exact .arrived
  | cons piece more ih =>
    by_cases hstay : piece = [] ∨ piece = ['.']
    · rw [List.filter_cons_of_neg (by rcases hstay with rfl | rfl <;> simp)]
      exact .stay hstay (ih place)
    · rw [List.filter_cons_of_pos (by simpa [not_or] using hstay), List.foldl_cons]
      by_cases hup : piece = ['.', '.']
      · subst hup
        exact .up (ih _)
      · rw [enter, if_neg hup]
        refine .down ?_ (ih _)
        simpa [not_or, hup] using hstay

theorem Leads.functional {place last last' : Place} {pieces : List Text}
    (h : Leads place pieces last) (h' : Leads place pieces last') : last = last' := by
  induction h with
  | arrived =>
    cases h'
    rfl
  | stay hstay _ ih =>
    cases h' with
    | stay _ h' => exact ih h'
    | up => simp at hstay
    | down hdown => simp_all
  | up _ ih =>
    cases h' with
    | stay hstay => simp at hstay
    | up h' => exact ih h'
    | down hdown => simp at hdown
  | down hdown _ ih =>
    cases h' with
    | stay hstay => simp_all
    | up => simp at hdown
    | down _ h' => exact ih h'

/-- Following a normalized path is walking its pieces. -/
theorem leads_follow (root : Place) (path : Text) :
    Leads root ((normalizePath path).splitOn '/') (root.follow (normalizePath path)) := by
  rw [follow, startsWith_normalizePath]
  exact leads_foldl root _

end Place

/-- The same files and directories at and below a place, and the same of them cannot be read. -/
def FileSystem.AgreesWithin (root : Place) (fs fs' : FileSystem) : Prop :=
  ∀ place, root <+: place →
    fs.file? place = fs'.file? place ∧ fs.directories? place = fs'.directories? place ∧
      fs.refusal? place = fs'.refusal? place

namespace Checkout

open Provider

/-- What is at a place that a path names. -/
def found (fs : FileSystem) (place : Place) (path : Text) : (k : Kind) → Except Failure k.Answer
  | .file =>
    match fs.file? place with
    | none => .error (.source (.noFile path))
    | some octets =>
      match fs.refusal? place with
      | some reason => .error (.source (.unreadable path reason))
      | none => .ok (FileSystem.textOf octets)
  | .directory =>
    match fs.directories? place with
    | none => .error (.source (.noDirectory path))
    | some names => .ok (Text.sort names)

/-- The session after a read at a place: only what a file's text is to be read from is reported. -/
def noted (place : Place) : Kind → Session FileSystem → Session FileSystem
  | .file, s =>
    match s.state.file? place with
    | none => s
    | some _ => s.report .debug "sources.local" ("Reading ".toList ++ place.text)
  | .directory, s => s

variable {root place : Place} {path : Text}

theorem found_ne_outsideRoot (fs : FileSystem) (place : Place) (k : Kind) :
    found fs place path k ≠ .error (.source (.outsideRoot path)) := by
  intro h
  cases k with
  | file =>
    rw [found] at h
    split at h
    · cases h
    · split at h <;> cases h
  | directory =>
    rw [found] at h
    split at h <;> cases h

/-- A path without a null character is located by walking its pieces. -/
theorem locate_eq (hpath : '\x00' ∉ path)
    (hplace : Place.Leads root ((normalizePath path).splitOn '/') place) :
    locate root path =
      if root <+: place then .ok place else .error (.source (.outsideRoot path)) := by
  have hfollow : root.follow (normalizePath path) = place :=
    (Place.leads_follow root path).functional hplace
  simp only [locate, hfollow, if_neg hpath, Place.isWithin, List.isPrefixOf_iff_prefix]

/-- A read of a located path comes to what is at its place; any other is refused. -/
theorem run_read (hpath : '\x00' ∉ path)
    (hplace : Place.Leads root ((normalizePath path).splitOn '/') place) (k : Kind)
    (s : Session FileSystem) :
    ((Provider.checkout root).read k path).run s =
      if root <+: place then (found s.state place path k, noted place k s)
      else (.error (.source (.outsideRoot path)), s) := by
  have hlocate := locate_eq hpath hplace
  cases k with
  | file =>
    change Reading.run (fetchText root path) s = _
    unfold fetchText
    rw [hlocate]
    split
    · simp only [found, noted]
      change Reading.run (match s.state.file? place with
        | none => Reading.fail (.noFile path)
        | some octets => do
          Reading.report .debug "sources.local" ("Reading ".toList ++ place.text)
          match s.state.refusal? place with
          | some reason => Reading.fail (.unreadable path reason)
          | none => return FileSystem.textOf octets) s = _
      cases s.state.file? place with
      | none => rfl
      | some octets => cases s.state.refusal? place <;> rfl
    · rfl
  | directory =>
    change Reading.run (listDirectory root path) s = _
    unfold listDirectory
    rw [hlocate]
    split
    · simp only [found, noted]
      change Reading.run (match s.state.directories? place with
        | none => Reading.fail (.noDirectory path)
        | some names => return Text.sort names) s = _
      cases s.state.directories? place <;> rfl
    · rfl

/-- What a checkout answers, and what it reports, is the same over all file systems that agree at
and below its root. A path is refused exactly if walking its pieces from the root ends outside the
root, whatever it passes on the way; else what is at that end is read. -/
theorem answers_from_within_root (root : Place) (path : Text) (hpath : '\x00' ∉ path) :
    (∀ fs fs', FileSystem.AgreesWithin root fs fs' → ∀ k log,
      let once := ((Provider.checkout root).read k path).run ⟨fs, log⟩
      let again := ((Provider.checkout root).read k path).run ⟨fs', log⟩
      once.1 = again.1 ∧ once.2.log = again.2.log) ∧
    (SourceError.outsideRoot path).message = "Path escapes the source root: ".toList ++ path ∧
    (∃ place, Place.Leads root ((normalizePath path).splitOn '/') place) ∧
    ∀ place, Place.Leads root ((normalizePath path).splitOn '/') place → ∀ fs k log,
      let result := (((Provider.checkout root).read k path).run ⟨fs, log⟩).1
      (result = .error (.source (.outsideRoot path)) ↔ ¬ root <+: place) ∧
      (root <+: place → result = found fs place path k) := by
  have hfollow := Place.leads_follow root path
  refine ⟨fun fs fs' hagree k log => ?_, rfl, ⟨_, hfollow⟩, fun place hplace fs k log => ?_⟩
  · simp only [run_read hpath hfollow]
    by_cases hwithin : root <+: root.follow (normalizePath path)
    · obtain ⟨hfile, hdirectories, hrefusal⟩ := hagree _ hwithin
      rw [if_pos hwithin, if_pos hwithin]
      cases k with
      | file =>
        simp only [found, noted, hfile, hrefusal, true_and]
        cases fs'.file? (root.follow (normalizePath path)) <;> rfl
      | directory => simp only [found, noted, hdirectories, and_self]
    · rw [if_neg hwithin, if_neg hwithin]
      exact ⟨rfl, rfl⟩
  · simp only [run_read hpath hplace]
    by_cases hwithin : root <+: place
    · rw [if_pos hwithin]
      refine ⟨⟨fun h => ?_, fun h => absurd hwithin h⟩, fun _ => rfl⟩
      exact absurd h (found_ne_outsideRoot fs place k)
    · rw [if_neg hwithin]
      exact ⟨⟨fun _ => hwithin, fun _ => rfl⟩, fun h => absurd h hwithin⟩

/-- A path may leave the root if it comes back. -/
theorem found_after_leaving_root :
    let root : Place := ["r".toList]
    let path := " ../../r//./a/../b ".toList
    let fs := FileSystem.ofLists [(["r".toList, "b".toList], [104, 105])] []
    '\x00' ∉ path ∧
      (((Provider.checkout root).read .file path).run ⟨fs, []⟩).1 = .ok "hi".toList := by
  intro root path fs
  have hpath : '\x00' ∉ path := by decide
  have hleads : Place.Leads root ((normalizePath path).splitOn '/')
      ["r".toList, "b".toList] :=
    .up (.up (.down (by decide) (.down (by decide) (.up (.down (by decide) .arrived)))))
  have hanswers := (answers_from_within_root root path hpath).2.2.2
  exact ⟨hpath, (hanswers _ hleads fs .file []).2 (by decide)⟩

end Checkout

end ComponentCatalog
