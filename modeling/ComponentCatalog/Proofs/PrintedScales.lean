import ComponentCatalog.Proofs.Balanced
import ComponentCatalog.Proofs.DigitLimit
import ComponentCatalog.Proofs.FlatLeaves
import ComponentCatalog.Proofs.Literals
import ComponentCatalog.Proofs.PropertySource

/-!
Scales of natural numbers as theme sources write them: on flat lines, a leaf on each, or in a block.
The flat scan and the lookup in blocks find the leaves there that are set.
-/
namespace ComponentCatalog

open Text Code Number
open Component (IsName)

namespace Number

theorem isDigit_natText {n : Nat} : ∀ c ∈ natText n, c.isDigit = true := fun _ hc =>
  Nat.isDigit_of_mem_toDigits (by decide) (by decide) hc

theorem natText_ne_nil (n : Nat) : natText n ≠ [] := Nat.toDigits_ne_nil

theorem isDecimal_natText {n : Nat} : ∀ c ∈ natText n, isDecimal c = true := fun c hc => by
  have hvalue : digitValue? c = some (c.toNat - 48) := if_pos (isDigit_natText c hc)
  rw [isDecimal, hvalue]
  rfl

/-- A number within the digit limit is read back from its digits. -/
theorem readSignedDigits_natText {n : Nat} (h : (natText n).length ≤ digitLimit) :
    readSignedDigits (natText n) = .ok n := by
  have hdigits : (natText n).filterMap digitValue? = digitsOf (natText n) := by
    rw [digitsOf, ← List.filterMap_eq_map]
    exact List.filterMap_congr fun c hc => if_pos (isDigit_natText c hc)
  have hvalue : ofDigits 10 (digitsOf (natText n)) = n :=
    (ofDigits_digitsOf _).trans (Nat.ofDigitChars_toDigits (by decide) (by decide))
  have hlimit : ¬digitLimit < (digitsOf (natText n)).length := by
    rw [digitsOf, List.length_map]
    omega
  rw [readSignedDigits, signed_of_isDecimal isDecimal_natText]
  dsimp only
  rw [hdigits, if_neg hlimit, hvalue]
  rfl

end Number

namespace Scale

variable {ι α : Type} {w : Scale ι α}

/-- The leaves that the scale sets, in order, with their values. -/
def entries [TokenFamily ι] (w : Scale ι α) : List (ι × α) :=
  TokenFamily.all.filterMap fun leaf => (w leaf).map (leaf, ·)

/-- The scale with integers for its values. -/
def toInt (w : Scale ι Nat) : Scale ι Int := fun leaf => (w leaf).map Int.ofNat

theorem mem_entries [TokenFamily ι] (hall : ∀ leaf : ι, leaf ∈ TokenFamily.all) {leaf : ι} {a : α} :
    (leaf, a) ∈ w.entries ↔ w leaf = some a := by
  rw [entries, List.mem_filterMap]
  constructor
  · rintro ⟨leaf', -, hleaf⟩
    obtain ⟨a', ha, heq⟩ := Option.map_eq_some_iff.mp hleaf
    cases heq
    exact ha
  · exact fun h => ⟨leaf, hall leaf, by rw [h]; rfl⟩

theorem mem_map_fst_entries [TokenFamily ι] (hall : ∀ leaf : ι, leaf ∈ TokenFamily.all) {leaf : ι} :
    leaf ∈ w.entries.map Prod.fst ↔ w leaf ≠ none := by
  rw [List.mem_map, Option.ne_none_iff_exists']
  constructor
  · rintro ⟨⟨leaf', a⟩, hmem, rfl⟩
    exact ⟨a, (mem_entries hall).mp hmem⟩
  · rintro ⟨a, ha⟩
    exact ⟨(leaf, a), (mem_entries hall).mpr ha, rfl⟩

theorem entries_ne_nil [TokenFamily ι] (hall : ∀ leaf : ι, leaf ∈ TokenFamily.all) {leaf : ι}
    (h : w leaf ≠ none) : w.entries ≠ [] := fun hnil => by
  have hmem := (mem_map_fst_entries hall).mpr h
  rw [hnil] at hmem
  cases hmem

theorem populated?_of_ne_none [TokenFamily ι] (hall : ∀ leaf : ι, leaf ∈ TokenFamily.all) {leaf : ι}
    (h : w leaf ≠ none) : w.populated? = some w := by
  refine if_neg fun hhollow => h ?_
  exact Option.isNone_iff_eq_none.mp (List.all_eq_true.mp hhollow leaf (hall leaf))

theorem populated?_empty [TokenFamily ι] : (empty : Scale ι α).populated? = none :=
  if_pos (List.all_eq_true.mpr fun _ _ => rfl)

/-- A run of steps, each of which changes one leaf by a value that belongs to the leaf. Another step
at the same leaf changes nothing more. -/
theorem foldlM_steps {ε β : Type} [DecidableEq ι] {step : Scale ι α → β → Except ε (Scale ι α)}
    (items : List β) (leaf : β → ι) (merge : Option α → Option α → Option α)
    (hmerge : ∀ a b, merge (merge a b) b = merge a b)
    (h : ∀ item ∈ items, ∀ scale, step scale item = .ok fun other =>
      if other = leaf item then merge (scale other) (w other) else scale other) (scale : Scale ι α) :
    items.foldlM step scale = .ok fun other =>
      if other ∈ items.map leaf then merge (scale other) (w other) else scale other := by
  induction items generalizing scale with
  | nil => rfl
  | cons item items ih =>
    have hstep := h item List.mem_cons_self scale
    rw [List.foldlM_cons, hstep]
    refine (ih (fun item hitem => h item (.tail _ hitem)) _).trans
      (congrArg Except.ok (funext fun other => ?_))
    by_cases hhere : other = leaf item <;> by_cases hlater : other ∈ items.map leaf <;>
      simp [hhere, hlater, hmerge]

end Scale

namespace Theme

variable {ι : Type} [TokenFamily ι] {lead : Text} {c : Char} {words : List Text}
  {entries : List (ι × Nat)} {tail : Text}

/-- The digits of a number within the limit become it. -/
theorem asInt_natText {n : Nat} (h : (natText n).length ≤ digitLimit) :
    asInt (natText n) = .ok (some (n : Int)) := by
  rw [asInt, if_pos ⟨natText_ne_nil n, List.all_eq_true.mpr isDecimal_natText⟩,
    readSignedDigits_natText h]
  rfl

/-- The digits of a number are taken up to what is no digit. -/
theorem integerValue_natText (n : Nat) {rest : Text} (hrest : rest.head?.any isDecimal = false) :
    integerValue (natText n ++ rest) = some (natText n, rest) :=
  run?_append (natText_ne_nil n) isDecimal_natText hrest

theorem stripStart_natText (n : Nat) (rest : Text) :
    stripStart (' ' :: (natText n ++ rest)) = natText n ++ rest := by
  obtain ⟨d, more, hsplit⟩ := List.exists_cons_of_ne_nil (natText_ne_nil n)
  have hd : isBlank d = false :=
    isBlank_of_isDecimal (isDecimal_natText (n := n) d (by rw [hsplit]; exact List.mem_cons_self))
  have hblank : ∀ b ∈ [' '], isBlank b = true := by decide
  have hstrip := stripStart_append_of_blank hblank (natText n ++ rest)
  rw [List.singleton_append] at hstrip
  rw [hstrip, hsplit, List.cons_append, stripStart_cons hd]

section Step

variable {ι α : Type} [DecidableEq ι] {convert : Conversion α} {w : Scale ι α} {leaf : ι}

/-- A step at a leaf without a value changes nothing. -/
theorem keep_eq (h : w leaf = none) (scale : Scale ι α) :
    (fun other => if other = leaf then (w other).or (scale other) else scale other) = scale := by
  funext other
  split
  · next hother => rw [hother, h, Option.none_or]
  · rfl

/-- A leaf is set to what a text converts to, if it does. -/
theorem set_of_convert {raw : Text} (h : convert raw = .ok (w leaf)) (scale : Scale ι α) :
    (do
      match ← convert raw with
      | none => return scale
      | some value => return scale.set leaf value : Except DigitError (Scale ι α)) =
      .ok fun other => if other = leaf then (w other).or (scale other) else scale other := by
  rw [h]
  cases hvalue : w leaf with
  | none => exact congrArg Except.ok (keep_eq hvalue scale).symm
  | some value =>
    refine congrArg Except.ok (funext fun other => ?_)
    rw [Scale.set]
    split
    · next hother => rw [hother, hvalue, Option.some_or]
    · rfl

end Step

/-- A leaf and its value, as blocks hold them. -/
def pairSource (entry : ι × Nat) : Text :=
  leafKey entry.1 ++ (": ".toList ++ natText entry.2)

/-- The inside of the braces of a block. -/
def blockBody (entries : List (ι × Nat)) : Text :=
  ' ' :: (join ", ".toList (entries.map pairSource) ++ [' '])

/-- A leaf with its prefix and its value. -/
def flatLabel (lead : Text) (entry : ι × Nat) : Text := lead ++ '-' :: pairSource entry

/-- The entries on a line each. -/
def flatSource (lead : Text) (entries : List (ι × Nat)) : Text :=
  join ['\n'] (entries.map fun entry => flatLabel lead entry ++ [';'])

/-- A character of a printed scale that stands outside of prefixes and keys. -/
def isFiller (d : Char) : Bool :=
  d.isDigit || ['-', ':', ' ', ';', ',', '=', '\n', '\x7b', '\x7d'].contains d

/-- The prefix begins with a character that is none of the others. -/
structure Leads (c : Char) (lead : Text) : Prop where
  head : lead.head? = some c
  filler : isFiller c = false
  blank : isBlank c = false

theorem isFiller_natText {n : Nat} : ∀ d ∈ natText n, isFiller d = true := fun d hd => by
  rw [isFiller, isDigit_natText d hd, Bool.true_or]

theorem Leads.quiet (h : Leads c lead) {u : Text} (hu : ∀ d ∈ u, isFiller d = true) :
    Quiet (· = lead) u :=
  quiet_of_notMem (by rintro m rfl; exact h.head) fun hc =>
    Bool.false_ne_true (h.filler.symm.trans (hu c hc))

theorem Leads.ne_nil (h : Leads c lead) : lead ≠ [] := by
  rintro rfl
  exact absurd h.head (by simp)

theorem Leads.quiet_blanks (h : Leads c lead) (htail : ∀ b ∈ tail, isBlank b = true) :
    Quiet (· = lead) tail :=
  quiet_of_notMem (by rintro m rfl; exact h.head) fun hc =>
    Bool.false_ne_true (h.blank.symm.trans (htail c hc))

/-- No key holds a colon. -/
theorem notMem_leafKey (hname : ∀ leaf : ι, IsName (leafKey leaf)) (leaf : ι) :
    ':' ∉ '-' :: leafKey leaf := by
  rw [List.mem_cons, not_or]
  exact ⟨by decide, fun h => absurd ((hname leaf).word _ h) (by decide)⟩

/-- A character that is in neither the prefix nor the keys nor the rest of the lines. -/
theorem notMem_flatSource (hlead : c ∉ lead) (hkeys : ∀ leaf : ι, c ∉ leafKey leaf)
    (hdigit : c.isDigit = false) (hmarks : c ∉ ['-', ':', ' ', ';', '\n']) :
    c ∉ flatSource lead entries := by
  simp only [List.mem_cons, List.not_mem_nil, or_false, not_or] at hmarks
  obtain ⟨hdash, hcolon, hblank, hsemicolon, hfeed⟩ := hmarks
  refine notMem_join (by simpa using hfeed) fun line hline => ?_
  obtain ⟨entry, -, rfl⟩ := List.mem_map.mp hline
  have hnumber : c ∉ natText entry.2 := fun hc =>
    Bool.false_ne_true (hdigit.symm.trans (isDigit_natText c hc))
  simp [flatLabel, pairSource, hlead, hkeys, hnumber, hdash, hcolon, hblank, hsemicolon]

theorem opens_flatShape (form : ValueForm) : Opens (· = lead) (flatShape lead form words) := by
  intro at_ found h
  simp only [flatShape, Option.bind_eq_bind, Option.bind_eq_some_iff] at h
  obtain ⟨rest, hlead, -⟩ := h
  exact ⟨lead, rfl, rest, (after?_eq_some.mp hlead).symm⟩

/-- What the flat scan finds of an entry: the text of the leaf and the digits of its value, if the
words stand in its key. -/
def flatFound (lead : Text) (words : List Text) (entry : ι × Nat) : Option (Text × Text) :=
  if InOrder words ('-' :: leafKey entry.1) then some (flatLabel lead entry, natText entry.2) else none

theorem map_snd_flatFound (lead : Text) (words : List Text) (entry : ι × Nat) :
    (flatFound lead words entry).map Prod.snd =
      if InOrder words ('-' :: leafKey entry.1) then some (natText entry.2) else none := by
  unfold flatFound
  split <;> rfl

/-- The shape takes a leaf whose key has the words, and of another the part up to its colon. -/
theorem finds_flatShape (words : List Text) (hlead : Leads c lead)
    (hname : ∀ leaf : ι, IsName (leafKey leaf)) (entry : ι × Nat) :
    Finds (flatShape lead integerValue words) (flatLabel lead entry ++ [';']) fun _ =>
      [flatFound lead words entry] := by
  have hne {u : Text} : lead ++ u ≠ [] := List.append_ne_nil_of_left_ne_nil hlead.ne_nil _
  have hvalue (rest : Text) : integerValue (stripStart (' ' :: (natText entry.2 ++ ';' :: rest))) =
      some (natText entry.2, ';' :: rest) := by
    rw [stripStart_natText]
    exact integerValue_natText _ (show isDecimal ';' = false by decide)
  have hline (rest : Text) : flatLabel lead entry ++ [';'] ++ rest =
      lead ++ ('-' :: leafKey entry.1 ++ ':' :: (' ' :: (natText entry.2 ++ ';' :: rest))) := by
    simp [flatLabel, pairSource]
  have hshape (offset : Nat) (previous : Option Char) (rest : Text) :
      flatShape lead integerValue words ⟨offset, previous,
        lead ++ ('-' :: leafKey entry.1 ++ ':' :: (' ' :: (natText entry.2 ++ ';' :: rest)))⟩ = _ :=
    flatShape_of_colon (notMem_leafKey hname entry.1)
  by_cases hwords : InOrder words ('-' :: leafKey entry.1)
  · rw [flatFound, if_pos hwords]
    refine finds_hit (opens_flatShape _) rfl hne (hlead.quiet (by decide)) fun offset previous rest => ?_
    rw [hline, hshape, leafValue, if_pos hwords, hvalue, ← hline]
    have hlabel : flatLabel lead entry ++ [';'] ++ rest = flatLabel lead entry ++ ';' :: rest :=
      List.append_assoc _ _ _
    dsimp only
    rw [hlabel, upTo_append, List.length_append, Nat.add_sub_cancel]
  · rw [flatFound, if_neg hwords]
    refine finds_hit (u := lead ++ '-' :: leafKey entry.1 ++ [':'])
      (v := ' ' :: (natText entry.2 ++ [';'])) (opens_flatShape _) ?_ ?_ (hlead.quiet ?_)
      fun offset previous rest => ?_
    · simp [flatLabel, pairSource]
    · exact List.append_ne_nil_of_left_ne_nil hne _
    · simp only [List.forall_mem_cons, List.forall_mem_append]
      exact ⟨by decide, isFiller_natText, by decide, List.forall_mem_nil _⟩
    · rw [hline, hshape, leafValue, if_neg hwords]

/-- On printed lines the flat scan finds the entries whose keys have the words. -/
theorem flatMatches_flatSource (hlead : Leads c lead) (hname : ∀ leaf : ι, IsName (leafKey leaf))
    (htail : ∀ b ∈ tail, isBlank b = true) :
    flatMatches lead integerValue words (flatSource lead entries ++ tail) =
      entries.filterMap (flatFound lead words) := by
  have hhits := hits_lines (opens_flatShape integerValue)
    (fun entry (_ : entry ∈ entries) => finds_flatShape words hlead hname entry)
    (hlead.quiet (by decide)) (hlead.quiet_blanks htail)
  have hone (found : Option (Text × Text)) : [found].filterMap id = found.toList := by
    cases found <;> rfl
  rw [flatMatches, flatSource, hhits, List.filterMap_flatMap, List.filterMap_eq_flatMap_toList]
  simp only [hone]
  rw [← List.flatMap_map (f := Prod.snd) (g := fun entry => (flatFound lead words entry).toList),
    map_snd_placed]

/-- A scan for a prefix finds nothing in a text without one of its characters. -/
theorem flatMatches_eq_nil {s : Text} (form : ValueForm) (hlead : c ∈ lead) (hs : c ∉ s) :
    flatMatches lead form words s = [] := by
  have hnone : ∀ found ∈ hits (flatShape lead form words) s, False :=
    forall_mem_hits fun at_ found length hat h => by
      obtain ⟨m, rfl, hm⟩ := opens_flatShape form at_ _ h
      exact hs ((hm.isInfix.trans hat.isInfix).subset hlead)
  rw [flatMatches, List.eq_nil_iff_forall_not_mem.mpr hnone]
  rfl

/-- Without an opening brace there is no block. -/
theorem blockEntries_eq_nil {s : Text} (names : List Text) (form : ValueForm) (hs : '\x7b' ∉ s) :
    blockEntries names form s = [] := by
  have hblocks : blocksAfter (blockMarker names [':', '=']) s = [] := by
    rw [blocksAfter, List.filterMap_eq_nil_iff]
    intro rest hrest
    have hsuffix := (stripStart_suffix rest).trans
        ((blockMarker_trails names _).followers rest hrest)
    refine if_neg fun hhead => hs (hsuffix.mem ?_)
    obtain ⟨more, hmore⟩ := List.head?_eq_some_iff.mp hhead
    rw [hmore]
    exact List.mem_cons_self
  rw [blockEntries, hblocks]

theorem pairSource_ne_nil (entry : ι × Nat) : pairSource entry ≠ [] :=
  List.append_ne_nil_of_right_ne_nil _ (List.append_ne_nil_of_left_ne_nil (by decide) _)

theorem blockEntryShape_pair (hname : ∀ leaf : ι, IsName (leafKey leaf)) (entry : ι × Nat)
    (offset : Nat) {previous : Option Char} (hprevious : previous.any isWord = false) (rest : Text)
    (hrest : rest.head?.any isDecimal = false) :
    blockEntryShape false integerValue ⟨offset, previous, pairSource entry ++ rest⟩ =
      some ((leafKey entry.1, natText entry.2), (pairSource entry).length) := by
  have hname := hname entry.1
  have hsource : pairSource entry ++ rest =
      leafKey entry.1 ++ ':' :: ' ' :: (natText entry.2 ++ rest) := by
    have hcolon : ": ".toList = [':', ' '] := rfl
    simp only [pairSource, hcolon, List.append_assoc, List.cons_append, List.nil_append]
  have hlength : (pairSource entry ++ rest).length - rest.length = (pairSource entry).length := by
    rw [List.length_append, Nat.add_sub_cancel]
  have hstart := hname.atWordStart offset hprevious (':' :: ' ' :: (natText entry.2 ++ rest))
  have hword : word? (leafKey entry.1 ++ ':' :: ' ' :: (natText entry.2 ++ rest)) =
      some (leafKey entry.1, ':' :: ' ' :: (natText entry.2 ++ rest)) :=
    word?_append hname.ne_nil hname.word (show isWord ':' = false by decide)
  have hcolon : after? [':'] (':' :: ' ' :: (natText entry.2 ++ rest)) =
      some (' ' :: (natText entry.2 ++ rest)) := after?_append [':'] _
  have hstrip : stripStart (':' :: ' ' :: (natText entry.2 ++ rest)) =
      ':' :: ' ' :: (natText entry.2 ++ rest) := stripStart_cons (by decide) _
  rw [hsource] at hlength ⊢
  simp only [blockEntryShape, guard_bind hstart, hword, Bool.false_eq_true, if_false, hstrip,
    hcolon, stripStart_natText, integerValue_natText _ hrest, Option.bind_eq_bind, Option.bind_some,
    Option.pure_def, Cursor.lengthTo, hlength]

theorem hitsFrom_blockEntryShape_skip {d : Char} (hd : isWord d = false) {offset : Nat}
    {previous : Option Char} (rest : Text) :
    hitsFrom (blockEntryShape false integerValue) 0 offset previous (d :: rest) =
      hitsFrom (blockEntryShape false integerValue) 0 (offset + 1) (some d) rest := by
  have hstart : Cursor.atWordStart ⟨offset, previous, d :: rest⟩ = false := by
    simp [Cursor.atWordStart, hd]
  have hnone : blockEntryShape false integerValue ⟨offset, previous, d :: rest⟩ = none := by
    rw [blockEntryShape, hstart]
    rfl
  rw [hitsFrom, hnone]

/-- The entries of a block are found in it, with the digits of their values. -/
theorem hits_blockBody (hname : ∀ leaf : ι, IsName (leafKey leaf)) (entries : List (ι × Nat)) :
    hits (blockEntryShape false integerValue) (blockBody entries) =
      entries.map fun entry => (leafKey entry.1, natText entry.2) := by
  have hfrom (offset : Nat) (previous : Option Char) (hprevious : previous.any isWord = false) :
      hitsFrom (blockEntryShape false integerValue) 0 offset previous
          (join ", ".toList (entries.map pairSource) ++ [' ']) =
        entries.map fun entry => (leafKey entry.1, natText entry.2) := by
    induction entries generalizing offset previous with
    | nil => exact hitsFrom_blockEntryShape_skip (by decide) []
    | cons entry entries ih =>
      cases entries with
      | nil =>
        have hjoin : join ", ".toList ([entry].map pairSource) = pairSource entry :=
          List.append_nil _
        have hhit := blockEntryShape_pair hname entry offset hprevious [' ']
          (show isDecimal ' ' = false by decide)
        rw [hjoin, hitsFrom_hit (pairSource_ne_nil entry) hhit,
          hitsFrom_blockEntryShape_skip (by decide)]
        rfl
      | cons next entries =>
        have hcomma (s : Text) : ", ".toList ++ s = ',' :: ' ' :: s := rfl
        have hhit := blockEntryShape_pair hname entry offset hprevious
          (',' :: ' ' :: (join ", ".toList ((next :: entries).map pairSource) ++ [' ']))
          (show isDecimal ',' = false by decide)
        rw [List.map_cons, List.map_cons, join_cons_cons, ← List.map_cons, List.append_assoc,
          List.append_assoc, hcomma, hitsFrom_hit (pairSource_ne_nil entry) hhit,
          hitsFrom_blockEntryShape_skip (by decide), hitsFrom_blockEntryShape_skip (by decide),
          ih _ _ (by decide)]
        rfl
  rw [hits, blockBody, hitsFrom_blockEntryShape_skip (by decide)]
  exact hfrom 1 (some ' ') (by decide)

/-- A block is made of keys, digits and marks. -/
theorem mem_blockBody {d : Char} (h : d ∈ blockBody entries) :
    (∃ leaf : ι, d ∈ leafKey leaf) ∨ d.isDigit = true ∨ d ∈ [':', ' ', ','] := by
  by_contra hnot
  simp only [not_or, not_exists] at hnot
  obtain ⟨hkey, hdigit, hmark⟩ := hnot
  have hmarks : d ≠ ':' ∧ d ≠ ' ' ∧ d ≠ ',' := by simpa using hmark
  have hentries : d ∉ join ", ".toList (entries.map pairSource) := by
    refine notMem_join (by simpa using ⟨hmarks.2.2, hmarks.2.1⟩) fun part hpart => ?_
    obtain ⟨entry, -, rfl⟩ := List.mem_map.mp hpart
    have hnumber : d ∉ natText entry.2 := fun hd => hdigit (isDigit_natText d hd)
    simpa [pairSource, hkey, hnumber] using ⟨hmarks.1, hmarks.2.1⟩
  have hblank : d ∉ [' '] := by simpa using hmarks.2.1
  rcases List.mem_cons.mp h with hd | hd
  · exact hmarks.2.1 hd
  · exact (List.mem_append.mp hd).elim hentries hblank

theorem balanced_blockBody (hname : ∀ leaf : ι, IsName (leafKey leaf)) (entries : List (ι × Nat)) :
    Balanced true (blockBody entries) := by
  refine .of_plain_or_comma fun d hd => ?_
  rcases mem_blockBody hd with ⟨leaf, hd⟩ | hdigit | hmark
  · exact .inl (isPlain_of_isWord ((hname leaf).word d hd))
  · exact .inl (isPlain_of_isWord (isWord_of_isDigit hdigit))
  · have hplain : ∀ d ∈ [':', ' ', ','], isPlain d = true ∨ d = ',' := by decide
    exact hplain d hmark

theorem notMem_blockBody (hlead : Leads c lead) (hkeys : ∀ leaf : ι, c ∉ leafKey leaf) :
    c ∉ blockBody entries := by
  intro hc
  have hfiller : isFiller c = true := by
    rcases mem_blockBody hc with ⟨leaf, hc⟩ | hdigit | hmark
    · exact absurd hc (hkeys leaf)
    · rw [isFiller, hdigit, Bool.true_or]
    · have hmarks : ∀ d ∈ [':', ' ', ','], isFiller d = true := by decide
      exact hmarks c hmark
  exact Bool.false_ne_true (hlead.filler.symm.trans hfiller)

/-- The block of a marker at the beginning of the text is the first. -/
theorem exists_blocksAfter {marker : Marker} {s rest body : Text} (hne : s ≠ [])
    (hmarker : marker (.start s) = some rest) (hbody : block? curly (stripStart rest) = some body) :
    ∃ more, blocksAfter marker s = body :: more := by
  have hhit : (marker (.start s)).map (fun rest => (rest, (Cursor.start s).lengthTo rest)) =
      some (rest, (Cursor.start s).lengthTo rest) := by
    rw [hmarker]
    rfl
  obtain ⟨more, hfollowers⟩ : ∃ more, followers marker s = rest :: more := exists_hitsFrom hne hhit
  exact ⟨_, by rw [blocksAfter, hfollowers, List.filterMap_cons, hbody]⟩

/-- The first block under a name holds the entries that are printed in it. -/
theorem blockEntries_block {names : List Text} {block gap : Text} {sign : Char}
    (hblock : IsName block) (hnames : names.head? = some block) (hgap : ∀ b ∈ gap, isBlank b = true)
    (hsign : sign ∈ [':', '=']) (hname : ∀ leaf : ι, IsName (leafKey leaf))
    (entries : List (ι × Nat)) (tail : Text) :
    blockEntries names integerValue
        (block ++ (gap ++ sign :: ' ' :: '\x7b' :: (blockBody entries ++ '\x7d' :: tail))) =
      entries.map fun entry => (leafKey entry.1, natText entry.2) := by
  have hsigns : ∀ sign ∈ [':', '='], isBlank sign = false ∧ [':', '='].contains sign = true := by
    decide
  obtain ⟨hblank, hcontains⟩ := hsigns sign hsign
  generalize hrest : ' ' :: '\x7b' :: (blockBody entries ++ '\x7d' :: tail) = rest
  have hmarker : blockMarker names [':', '='] (.start (block ++ (gap ++ sign :: rest))) =
      some rest := by
    have hstart := hblock.atWordStart 0 (show (none : Option Char).any isWord = false from rfl)
        (gap ++ sign :: rest)
    have hafter : afterAny? names (block ++ (gap ++ sign :: rest)) =
        some (gap ++ sign :: rest) := by
      obtain ⟨more, rfl⟩ := List.head?_eq_some_iff.mp hnames
      rw [afterAny?, List.findSome?_cons, after?_append]
    have hstrip : stripStart (gap ++ sign :: rest) = sign :: rest := by
      rw [stripStart_append_of_blank hgap, stripStart_cons hblank]
    have hone : one? [':', '='].contains (sign :: rest) = some (sign, rest) := if_pos hcontains
    rw [blockMarker, Cursor.start, guard_bind hstart]
    simp only [hafter, hstrip, hone, Option.bind_eq_bind, Option.bind_some, Option.pure_def]
  have hblocks : ∃ more, blocksAfter (blockMarker names [':', '='])
      (block ++ (gap ++ sign :: rest)) = blockBody entries :: more := by
    have hne : block ++ (gap ++ sign :: rest) ≠ [] :=
      List.append_ne_nil_of_left_ne_nil hblock.ne_nil _
    have hstrip : stripStart rest = '\x7b' :: (blockBody entries ++ '\x7d' :: tail) := by
      rw [← hrest]
      exact (stripStart_append_of_blank (u := [' ']) (by decide) _).trans
        (stripStart_cons (by decide) _)
    have hbody : block? curly (stripStart rest) = some (blockBody entries) :=
      hstrip ▸ block?_balanced (b := curly) (by decide) (balanced_blockBody hname entries) tail
    exact exists_blocksAfter hne hmarker hbody
  obtain ⟨more, hblocks⟩ := hblocks
  rw [blockEntries, hblocks]
  exact hits_blockBody hname entries

end Theme

end ComponentCatalog
