import ComponentCatalog.Code.Literal
import ComponentCatalog.Code.Bracket
import ComponentCatalog.Proofs.Scanning

/-!
What a scan gives is a part of the text that it scans: what follows a marker is a suffix, and a
block or a value that a shape cuts out is an infix.
-/
namespace ComponentCatalog

namespace Text

variable {s u rest : Text} {p : Char → Bool}

theorem after?_suffix {lead : Text} (h : after? lead s = some rest) : rest <:+ s :=
  ⟨lead, (after?_eq_some.mp h).symm⟩

theorem afterAny?_suffix {alternatives : List Text} (h : afterAny? alternatives s = some rest) :
    rest <:+ s := by
  obtain ⟨lead, -, hlead⟩ := List.exists_of_findSome?_eq_some h
  exact after?_suffix hlead

theorem afterName?_suffix {name : Text} (h : afterName? name s = some rest) : rest <:+ s :=
  after?_suffix (Option.filter_eq_some_iff.mp h).1

theorem stripStart_suffix (s : Text) : stripStart s <:+ s := List.dropWhile_suffix _

theorem stripStart_split (s : Text) :
    ∃ gap, (∀ b ∈ gap, isBlank b = true) ∧ s = gap ++ stripStart s :=
  ⟨s.takeWhile isBlank, fun _ hb => List.mem_takeWhile_imp hb,
    List.takeWhile_append_dropWhile.symm⟩

theorem blanks?_suffix (h : blanks? s = some rest) : rest <:+ s := by
  cases s with
  | nil => cases h
  | cons c s =>
    rw [blanks?] at h
    split at h
    · cases h
      exact (stripStart_suffix s).trans (List.suffix_cons c s)
    · cases h

theorem blanks?_split (h : blanks? s = some rest) :
    ∃ gap, gap ≠ [] ∧ (∀ b ∈ gap, isBlank b = true) ∧ s = gap ++ rest := by
  cases s with
  | nil => cases h
  | cons c s =>
    rw [blanks?] at h
    split at h
    · next hc =>
      cases h
      obtain ⟨gap, hgap, hs⟩ := stripStart_split s
      exact ⟨c :: gap, List.cons_ne_nil _ _, List.forall_mem_cons.mpr ⟨hc, hgap⟩,
        congrArg (c :: ·) hs⟩
    · cases h

theorem blanks?_cons {c : Char} (hc : isBlank c = true)
    (hrest : rest.head?.any isBlank = false) : blanks? (c :: rest) = some rest := by
  rw [blanks?, if_pos hc]
  cases rest with
  | nil => rfl
  | cons d rest => rw [stripStart_cons (by simpa using hrest)]

/-- Where blanks are read no word begins. -/
theorem head?_of_blanks? (h : blanks? s = some rest) : s.head?.any isWord = false := by
  cases s with
  | nil => rfl
  | cons c s =>
    rw [blanks?] at h
    split at h
    · next hc =>
      by_contra hword
      rw [isBlank_of_isWord (by simpa using hword)] at hc
      cases hc
    · cases h

theorem one?_suffix {c : Char} (h : one? p s = some (c, rest)) : rest <:+ s := by
  obtain ⟨rfl, -⟩ := one?_eq_some.mp h
  exact List.suffix_cons c rest

theorem run?_eq_some (h : run? p s = some (u, rest)) : s = u ++ rest ∧ ∀ c ∈ u, p c = true := by
  have hspan : s.span p = (u, rest) := by
    rw [run?] at h
    split at h
    · cases h
    · exact Option.some.inj h
  rw [List.span_eq_takeWhile_dropWhile] at hspan
  obtain ⟨rfl, rfl⟩ := Prod.mk.inj hspan
  exact ⟨List.takeWhile_append_dropWhile.symm, fun c hc => List.mem_takeWhile_imp hc⟩

/-- A run is not empty and goes as far as it can. -/
theorem run?_ends (h : run? p s = some (u, rest)) : u ≠ [] ∧ rest.head?.any p = false := by
  rw [run?, List.span_eq_takeWhile_dropWhile] at h
  split at h
  · cases h
  next found hne =>
    cases h
    constructor
    · intro hnil
      rw [hnil] at hne
      exact hne _ rfl
    · have hhead := List.head?_dropWhile_not p s
      cases hdrop : s.dropWhile p with
      | nil => rfl
      | cons c rest => simpa [hdrop] using hhead

theorem run?_isInfix (h : run? p s = some (u, rest)) : u <:+: s :=
  ⟨[], rest, (run?_eq_some h).1.symm⟩

theorem run?_suffix (h : run? p s = some (u, rest)) : rest <:+ s := ⟨u, (run?_eq_some h).1.symm⟩

theorem word?_suffix (h : word? s = some (u, rest)) : rest <:+ s :=
  run?_suffix (p := isWord) h

theorem word?_split (h : word? s = some (u, rest)) :
    u ≠ [] ∧ (∀ c ∈ u, isWord c = true) ∧ s = u ++ rest := by
  obtain ⟨hs, hu⟩ := run?_eq_some (p := isWord) h
  exact ⟨(run?_ends (p := isWord) h).1, hu, hs⟩

theorem dropEndWhile_isPrefix (p : Char → Bool) (s : Text) : dropEndWhile p s <+: s := by
  induction s with
  | nil => exact List.prefix_rfl
  | cons c s ih =>
    rw [dropEndWhile]
    split
    · split
      · exact List.nil_prefix
      · exact ⟨s, rfl⟩
    · exact List.cons_prefix_cons.mpr ⟨rfl, ih⟩

theorem strip_isInfix (s : Text) : strip s <:+: s :=
  (dropEndWhile_isPrefix isBlank _).isInfix.trans (stripStart_suffix s).isInfix

theorem exists_dropEndWhile (p : Char → Bool) (s : Text) :
    ∃ trail, (∀ c ∈ trail, p c = true) ∧ s = dropEndWhile p s ++ trail := by
  induction s with
  | nil => exact ⟨[], List.forall_mem_nil _, rfl⟩
  | cons c s ih =>
    obtain ⟨trail, htrail, hs⟩ := ih
    rw [dropEndWhile]
    split
    next hnil =>
      rw [hnil, List.nil_append] at hs
      split
      next hc => exact ⟨c :: s, List.forall_mem_cons.mpr ⟨hc, hs ▸ htrail⟩, rfl⟩
      next => exact ⟨trail, htrail, congrArg (c :: ·) hs⟩
    next => exact ⟨trail, htrail, congrArg (c :: ·) hs⟩

/-- What stripping takes away is blank. -/
theorem exists_strip (s : Text) : ∃ lead trail, (∀ b ∈ lead, isBlank b = true) ∧
    (∀ b ∈ trail, isBlank b = true) ∧ s = lead ++ (strip s ++ trail) := by
  obtain ⟨lead, hlead, hstart⟩ := stripStart_split s
  obtain ⟨trail, htrail, hend⟩ := exists_dropEndWhile isBlank (stripStart s)
  refine ⟨lead, trail, hlead, htrail, ?_⟩
  rw [strip, stripEnd, ← hend]
  exact hstart

theorem strip_strip (s : Text) : strip (strip s) = strip s := by
  obtain ⟨lead, trail, hlead, htrail, hs⟩ := exists_strip s
  have hstrip : strip s = strip (lead ++ (strip s ++ trail)) := congrArg strip hs
  rw [strip_blank_append hlead, strip_append_of_blank htrail] at hstrip
  exact hstrip.symm

/-- A character that is no blank is not lost in stripping. -/
theorem strip_cons_ne {c : Char} (hc : isBlank c = false) (s : Text) :
    strip (c :: s) ≠ strip s := by
  intro h
  obtain ⟨lead, trail, hlead, htrail, hs⟩ := exists_strip s
  by_cases hempty : strip s = []
  · rw [hempty] at h
    obtain ⟨lead', trail', hlead', htrail', hsplit⟩ := exists_strip (c :: s)
    rw [h, List.nil_append] at hsplit
    have hmem : c ∈ lead' ++ trail' := hsplit ▸ List.mem_cons_self
    rcases List.mem_append.mp hmem with hmem | hmem
    · exact Bool.false_ne_true (hc.symm.trans (hlead' c hmem))
    · exact Bool.false_ne_true (hc.symm.trans (htrail' c hmem))
  · have hsplit : c :: s = c :: (lead ++ strip s) ++ trail := by
      rw [List.cons_append, List.append_assoc, ← hs]
    have hstrip : strip (c :: s) = c :: (lead ++ strip s) := by
      rw [hsplit, strip_append_of_blank htrail, strip_cons_append hc hempty (strip_strip s)]
    have hlength := congrArg List.length (hstrip.symm.trans h)
    rw [List.length_cons, List.length_append] at hlength
    omega

theorem cut?_suffix {needle before : Text} (h : cut? needle s = some (before, rest)) :
    rest <:+ s := by
  obtain ⟨n, -, hn⟩ := Option.map_eq_some_iff.mp h
  obtain ⟨-, rfl⟩ := Prod.mk.inj hn
  exact List.drop_suffix _ s

/-- What holds of everything that a shape finds at a place of the text holds of all its hits. -/
theorem forall_mem_hits {α : Type} {shape : Shape α} {P : α → Prop}
    (h : ∀ at_ a length, at_.rest <:+ s → shape at_ = some (a, length) → P a) :
    ∀ a ∈ hits shape s, P a := by
  have hfrom (t : Text) (ht : t <:+ s) (skip offset : Nat) (previous : Option Char) :
      ∀ a ∈ hitsFrom shape skip offset previous t, P a := by
    induction t generalizing skip offset previous with
    | nil => simp [hitsFrom]
    | cons c t ih =>
      have ih := ih ((List.suffix_cons c t).trans ht)
      cases skip with
      | succ skip => exact ih skip _ _
      | zero =>
        rw [hitsFrom]
        split
        · exact ih 0 _ _
        · next a length hhit =>
          rintro b (_ | ⟨_, hb⟩)
          · exact h _ _ _ ht hhit
          · exact ih _ _ _ b hb
  exact hfrom s List.suffix_rfl 0 0 none

end Text

namespace Code

open Text

variable {b : Bracket} {marker : Marker} {s block : Text}

theorem block?_isInfix (h : block? b s = some block) : block <:+: s := by
  rw [block?] at h
  split at h
  · split at h
    · cases h
      exact (List.drop_suffix _ _).isInfix.trans (List.take_prefix _ _).isInfix
    · obtain ⟨n, -, rfl⟩ := Option.map_eq_some_iff.mp h
      exact (List.take_prefix _ _).isInfix.trans (List.tail_suffix s).isInfix
  · cases h

/-- What follows the marker is a suffix of what stood at its place. -/
def Marker.Trails (marker : Marker) : Prop :=
  ∀ at_ rest, marker at_ = some rest → rest <:+ at_.rest

theorem Marker.Trails.followers (hmarker : marker.Trails) :
    ∀ rest ∈ followers marker s, rest <:+ s := by
  refine forall_mem_hits fun at_ rest length hat h => ?_
  obtain ⟨rest', hrest, heq⟩ := Option.map_eq_some_iff.mp h
  obtain ⟨rfl, -⟩ := Prod.mk.inj heq
  exact (hmarker at_ rest' hrest).trans hat

theorem Marker.Trails.blockAfter? (hmarker : marker.Trails)
    (h : blockAfter? b marker s = some block) : block <:+: s := by
  obtain ⟨rest, hfind, hblock⟩ := Option.bind_eq_some_iff.mp h
  have hrest := hmarker.followers rest (List.mem_of_find?_eq_some hfind)
  exact (block?_isInfix hblock).trans ((stripStart_suffix rest).trans hrest).isInfix

theorem Marker.Trails.blocksAfter (hmarker : marker.Trails) :
    ∀ block ∈ blocksAfter marker s, block <:+: s := by
  intro block h
  obtain ⟨rest, hmem, hblock⟩ := List.mem_filterMap.mp h
  have hrest := hmarker.followers rest hmem
  exact (block?_isInfix hblock).trans ((stripStart_suffix rest).trans hrest).isInfix

theorem keyed_trails (key : Text) : (keyed key).Trails := by
  intro at_ rest h
  rw [keyed] at h
  split at h
  · obtain ⟨afterKey, hkey, hcolon⟩ := Option.bind_eq_some_iff.mp h
    exact ((after?_suffix hcolon).trans (stripStart_suffix _)).trans (after?_suffix hkey)
  · cases h

/-- The raw value of an entry is a run of characters that do not end it. -/
theorem exists_run?_of_entryShape {at_ : Cursor} {entry : Text × Text} {length : Nat}
    (h : entryShape at_ = some (entry, length)) :
    ∃ tail rest, tail <:+ at_.rest ∧
      run? (fun c => c ≠ ',' && c ≠ '\n' && c ≠ '\x7d') tail = some (entry.2, rest) := by
  simp only [entryShape, Option.bind_eq_bind, Option.bind_eq_some_iff, Prod.exists] at h
  obtain ⟨-, -, key, afterKey, hkey, afterColon, hcolon, raw, rest, hraw, heq⟩ := h
  cases heq
  obtain ⟨blanks, tail, -, rfl, hrun⟩ := exists_of_afterMost hraw
  have htail : tail <:+ blanks ++ tail := List.suffix_append _ _
  exact ⟨tail, rest, (htail.trans (after?_suffix hcolon)).trans (word?_suffix hkey), hrun⟩

/-- The raw value of an entry is a part of the object literal. -/
theorem entryShape_isInfix : ∀ entry ∈ hits entryShape s, entry.2 <:+: s := by
  refine forall_mem_hits fun at_ entry length hat h => ?_
  obtain ⟨tail, rest, htail, hrun⟩ := exists_run?_of_entryShape h
  exact (run?_isInfix hrun).trans (htail.trans hat).isInfix

end Code

end ComponentCatalog
