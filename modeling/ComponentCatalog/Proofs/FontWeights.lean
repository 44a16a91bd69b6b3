import ComponentCatalog.Proofs.PrintedScales
import ComponentCatalog.Theme.Tokens

/-!
Font weights on flat lines. Each leaf is looked for by its name in the keys of the lines, and the
name `bold` stands in `semibold`, which comes first, so the line of the one is read for the other.
-/
namespace ComponentCatalog.Theme

open Text Number
open Component (IsName)

section Collect

variable {ι α : Type} [TokenFamily ι] [DecidableEq ι] {words : ι → List Text} {lead s : Text}
  {form : ValueForm} {convert : Conversion α} {w : Scale ι α}

/-- What is read for a leaf: its first flat match, or else its entry in the first block. -/
def rawOf (words : ι → List Text) (lead : Text) (form : ValueForm) (s : Text) (leaf : ι) :
    Option Text :=
  ((flatMatches lead form (words leaf) s).head?.map (·.2)).or
    (List.lookup (leafKey leaf) (blockEntries [lead] form s))

/-- The step at a leaf. -/
theorem collect_step {leaf : ι} (hnone : rawOf words lead form s leaf = none → w leaf = none)
    (hsome : ∀ raw, rawOf words lead form s leaf = some raw → convert raw = .ok (w leaf))
    (scale : Scale ι α) :
    (match rawOf words lead form s leaf with
      | none => .ok scale
      | some raw => do
        match ← convert raw with
        | none => return scale
        | some value => return scale.set leaf value : Except DigitError (Scale ι α)) =
      .ok fun other => if other = leaf then (w other).or (scale other) else scale other := by
  cases hraw : rawOf words lead form s leaf with
  | none => exact congrArg Except.ok (keep_eq (hnone hraw) scale).symm
  | some raw => exact set_of_convert (hsome raw hraw) scale

/-- A scale is collected leaf by leaf. -/
theorem collect_eq (hall : ∀ leaf : ι, leaf ∈ TokenFamily.all)
    (hnone : ∀ leaf, rawOf words lead form s leaf = none → w leaf = none)
    (hsome : ∀ leaf raw, rawOf words lead form s leaf = some raw → convert raw = .ok (w leaf)) :
    collect words lead form convert s = .ok w.populated? := by
  have hfold := Scale.foldlM_steps (TokenFamily.all : List ι) id (fun a b => b.or a)
    (fun a b => by cases b <;> rfl)
    (fun leaf _ scale => collect_step (hnone leaf) (hsome leaf) scale) Scale.empty
  have hscale : (fun other => if other ∈ (TokenFamily.all : List ι).map id
      then (w other).or (Scale.empty other) else Scale.empty other) = w := by
    funext other
    rw [List.map_id, if_pos (hall other)]
    exact Option.or_none
  rw [hscale] at hfold
  exact congrArg (· >>= fun scale => Except.ok scale.populated?) hfold

/-- A family whose prefix the text lacks has no scale. -/
theorem collect_eq_none {c : Char} (hlead : c ∈ lead) (hs : c ∉ s) (hbrace : '\x7b' ∉ s)
    (hall : ∀ leaf : ι, leaf ∈ TokenFamily.all) :
    collect words lead form convert s = .ok none := by
  have hraw (leaf : ι) : rawOf words lead form s leaf = none := by
    rw [rawOf, flatMatches_eq_nil form hlead hs, blockEntries_eq_nil _ form hbrace]
    rfl
  rw [collect_eq (w := Scale.empty) hall (fun _ _ => rfl) fun leaf raw h => ?_, Scale.populated?_empty]
  rw [hraw leaf] at h
  cases h

end Collect

/-- The weights that are read: bold has the weight of semibold, if that is set. -/
def weightsRead (w : Scale FontWeightLeaf Nat) : Scale FontWeightLeaf Nat
  | .bold => (w .semibold).or (w .bold)
  | leaf => w leaf

theorem eq_none_of_weightsRead {w : Scale FontWeightLeaf Nat} {leaf : FontWeightLeaf}
    (h : weightsRead w leaf = none) : w leaf = none := by
  cases leaf with
  | bold => exact (Option.or_eq_none_iff.mp h).2
  | light | regular | medium | semibold => exact h

/-- The weights are read as they are if bold is set wherever semibold is, to the same weight. -/
theorem weightsRead_eq_iff (w : Scale FontWeightLeaf Nat) :
    (weightsRead w).toInt = w.toInt ↔ ∀ n, w .semibold = some n → w .bold = some n := by
  constructor
  · intro heq n hn
    have hbold : ((w .semibold).or (w .bold)).map Int.ofNat = (w .bold).map Int.ofNat :=
      congrFun heq .bold
    rw [hn, Option.some_or, Option.map_some] at hbold
    obtain ⟨m, hm, hmn⟩ := Option.map_eq_some_iff.mp hbold.symm
    rw [hm, Int.ofNat_inj.mp hmn]
  · intro h
    funext leaf
    cases leaf with
    | bold =>
      show ((w .semibold).or (w .bold)).map Int.ofNat = (w .bold).map Int.ofNat
      cases hsemibold : w .semibold with
      | none => rw [Option.none_or]
      | some n => rw [h n hsemibold, Option.some_or]
    | light | regular | medium | semibold => rfl

/-- The lines that are read for a leaf. -/
theorem inOrder_weight_iff (leaf line : FontWeightLeaf) :
    InOrder (nameWords leaf) ('-' :: leafKey line) ↔
      line = leaf ∨ leaf = .bold ∧ line = .semibold := by
  cases leaf <;> cases line <;> decide

theorem mem_all_weights (leaf : FontWeightLeaf) : leaf ∈ TokenFamily.all := by
  cases leaf <;> decide

theorem isName_weight (leaf : FontWeightLeaf) : IsName (leafKey leaf) := by
  cases leaf <;> decide

theorem leads_fontWeight : Leads 'f' "fontWeight".toList := ⟨by decide, by decide, by decide⟩

/-- The first of the lines that are read for a leaf. -/
theorem head?_weights (w : Scale FontWeightLeaf Nat) (leaf : FontWeightLeaf) :
    ((TokenFamily.all : List FontWeightLeaf).filterMap fun line =>
      if line = leaf ∨ leaf = .bold ∧ line = .semibold then w line else none).head? =
      weightsRead w leaf := by
  have hall : (TokenFamily.all : List FontWeightLeaf) =
      [.light, .regular, .medium, .semibold, .bold] :=
    rfl
  rw [hall, List.head?_filterMap]
  cases leaf with
  | light => cases h : w .light <;> simp [weightsRead, h]
  | regular => cases h : w .regular <;> simp [weightsRead, h]
  | medium => cases h : w .medium <;> simp [weightsRead, h]
  | semibold => cases h : w .semibold <;> simp [weightsRead, h]
  | bold =>
    cases h : w .semibold <;> cases h' : w .bold <;> simp [weightsRead, h, h']

/-- The lines have neither braces nor the capitals of the other prefixes. -/
theorem notMem_flatWeights (entries : List (FontWeightLeaf × Nat)) {tail : Text}
    (htail : ∀ b ∈ tail, isBlank b = true) :
    ∀ c ∈ ['\x7b', 'F', 'S', 'H'], c ∉ flatSource "fontWeight".toList entries ++ tail := by
  intro c hc
  have hlines : ∀ c ∈ ['\x7b', 'F', 'S', 'H'], c ∉ "fontWeight".toList ∧ c.isDigit = false ∧
      c ∉ ['-', ':', ' ', ';', '\n'] ∧ isBlank c = false := by decide
  have hkeys : ∀ leaf : FontWeightLeaf, ∀ c ∈ ['\x7b', 'F', 'S', 'H'], c ∉ leafKey leaf := by
    intro leaf
    cases leaf <;> decide
  obtain ⟨hlead, hdigit, hmarks, hblank⟩ := hlines c hc
  rw [List.mem_append, not_or]
  exact ⟨notMem_flatSource hlead (fun leaf => hkeys leaf c hc) hdigit hmarks, fun h =>
    Bool.false_ne_true (hblank.symm.trans (htail c h))⟩

theorem rawOf_flatWeights (w : Scale FontWeightLeaf Nat) {tail : Text}
    (htail : ∀ b ∈ tail, isBlank b = true) (leaf : FontWeightLeaf) :
    rawOf nameWords "fontWeight".toList integerValue
        (flatSource "fontWeight".toList w.entries ++ tail) leaf =
      (weightsRead w leaf).map natText := by
  have hbrace := notMem_flatWeights w.entries htail '\x7b' (by decide)
  have hfound (line : FontWeightLeaf) :
      (((w line).map fun n => (line, n)).bind (flatFound "fontWeight".toList (nameWords leaf))).map
          Prod.snd =
        (if line = leaf ∨ leaf = .bold ∧ line = .semibold then w line else none).map natText := by
    cases w line with
    | none => rw [Option.map_none, Option.bind_none, ite_self, Option.map_none, Option.map_none]
    | some n =>
      rw [Option.map_some, Option.bind_some, map_snd_flatFound]
      simp only [inOrder_weight_iff]
      split <;> rfl
  rw [rawOf, blockEntries_eq_nil _ _ hbrace, List.lookup_nil, Option.or_none,
    flatMatches_flatSource leads_fontWeight isName_weight htail, Scale.entries,
    List.filterMap_filterMap, ← List.head?_map, List.map_filterMap, ← head?_weights, ← List.head?_map,
    List.map_filterMap]
  simp only [hfound]

/-- Flat lines of weights set nothing else. -/
theorem typographyIn_flatSource {w : Scale FontWeightLeaf Nat} (hset : ∃ leaf, w leaf ≠ none)
    (hlimit : ∀ leaf n, w leaf = some n → (natText n).length ≤ digitLimit) {tail : Text}
    (htail : ∀ b ∈ tail, isBlank b = true) :
    typographyIn (flatSource "fontWeight".toList w.entries ++ tail) =
      .ok (some ⟨none, none, some (weightsRead w).toInt, none, none⟩) := by
  have habsent := notMem_flatWeights w.entries htail
  have hraw := rawOf_flatWeights w htail
  generalize flatSource "fontWeight".toList w.entries ++ tail = s at habsent hraw
  have hbrace := habsent '\x7b' (by decide)
  have hlimit' (leaf : FontWeightLeaf) (n : Nat) (h : weightsRead w leaf = some n) :
      (natText n).length ≤ digitLimit := by
    cases leaf with
    | bold => exact (Option.or_eq_some_iff.mp h).elim (hlimit _ n) fun h => hlimit _ n h.2
    | light | regular | medium | semibold => exact hlimit _ n h
  obtain ⟨leaf, hleaf⟩ := hset
  have hread : (weightsRead w).toInt leaf ≠ none := fun h =>
    hleaf (eq_none_of_weightsRead (Option.map_eq_none_iff.mp h))
  have hfamily : fontFamily s = none := by
    rw [fontFamily, flatMatches_eq_nil _ (by decide) (habsent 'F' (by decide))]
    rfl
  have hsize : collect nameWords "fontSize".toList quotedValue asText s =
      .ok (none : Option (Scale FontSizeLeaf Text)) :=
    collect_eq_none (c := 'S') (by decide) (habsent 'S' (by decide)) hbrace fun leaf => by
      cases leaf <;> decide
  have hweight : collect nameWords "fontWeight".toList integerValue asInt s =
      .ok (some (weightsRead w).toInt) := by
    rw [← Scale.populated?_of_ne_none mem_all_weights hread]
    refine collect_eq mem_all_weights (fun leaf h => ?_) fun leaf raw h => ?_
    · rw [hraw, Option.map_eq_none_iff] at h
      rw [Scale.toInt, h, Option.map_none]
    · rw [hraw] at h
      obtain ⟨n, hn, rfl⟩ := Option.map_eq_some_iff.mp h
      rw [asInt_natText (hlimit' leaf n hn), Scale.toInt, hn]
      rfl
  have hheight : collect nameWords "lineHeight".toList decimalValue asFloat s =
      .ok (none : Option (Scale LineHeightLeaf Float)) :=
    collect_eq_none (c := 'H') (by decide) (habsent 'H' (by decide)) hbrace fun leaf => by
      cases leaf <;> decide
  have hletter : collect nameWords "letterSpacing".toList quotedValue asText s =
      .ok (none : Option (Scale LetterSpacingLeaf Text)) :=
    collect_eq_none (c := 'S') (by decide) (habsent 'S' (by decide)) hbrace fun leaf => by
      cases leaf <;> decide
  rw [typographyIn, hfamily, hsize, hweight, hheight, hletter]
  rfl

/-- From flat lines every weight is read, but bold has the weight of semibold if that is set. So the
weights are those of the lines if and only if bold is set wherever semibold is, to the same
weight. -/
theorem weights_of_flatSource {w : Scale FontWeightLeaf Nat} (hset : ∃ leaf, w leaf ≠ none)
    (hlimit : ∀ leaf n, w leaf = some n → (natText n).length ≤ digitLimit) {tail : Text}
    (htail : ∀ b ∈ tail, isBlank b = true) :
    typographyIn (flatSource "fontWeight".toList w.entries ++ tail) =
        .ok (some ⟨none, none, some (weightsRead w).toInt, none, none⟩) ∧
      ((weightsRead w).toInt = w.toInt ↔ ∀ n, w .semibold = some n → w .bold = some n) :=
  ⟨typographyIn_flatSource hset hlimit htail, weightsRead_eq_iff w⟩

/-- A weight for semibold and another for bold. -/
def twoBoldWeights : Scale FontWeightLeaf Nat
  | .semibold => some 600
  | .bold => some 700
  | _ => none

/-- Of the two lines that bear the name of bold the first is read. -/
theorem weights_of_twoBoldWeights :
    (∃ leaf, twoBoldWeights leaf ≠ none) ∧
      (∀ leaf n, twoBoldWeights leaf = some n → (natText n).length ≤ digitLimit) ∧
      typographyIn ("fontWeight-semibold: 600;\nfontWeight-bold: 700;".toList ++ ['\n']) =
        .ok (some ⟨none, none, some (weightsRead twoBoldWeights).toInt, none, none⟩) ∧
      weightsRead twoBoldWeights .bold = some 600 := by
  have hset : ∃ leaf, twoBoldWeights leaf ≠ none := ⟨.bold, by decide⟩
  have hlimit : ∀ leaf n, twoBoldWeights leaf = some n → (natText n).length ≤ digitLimit := by
    intro leaf n h
    cases leaf <;> cases h <;> decide
  have hsource : "fontWeight-semibold: 600;\nfontWeight-bold: 700;".toList =
      flatSource "fontWeight".toList twoBoldWeights.entries := by decide
  rw [hsource]
  have htail : ∀ b ∈ ['\n'], isBlank b = true := by decide
  exact ⟨hset, hlimit, (weights_of_flatSource hset hlimit htail).1, rfl⟩

/-- A weight for semibold alone. -/
def semiboldWeight : Scale FontWeightLeaf Nat
  | .semibold => some 600
  | _ => none

/-- Bold is not set, but it is read from the line for semibold. -/
theorem semibold_read_as_bold :
    flatSource "fontWeight".toList semiboldWeight.entries = "fontWeight-semibold: 600;".toList ∧
      ∃ t scale, typographyIn "fontWeight-semibold: 600;".toList = .ok (some t) ∧
        t.fontWeight = some scale ∧ semiboldWeight.toInt .bold = none ∧ scale .bold = some 600 := by
  have hset : ∃ leaf, semiboldWeight leaf ≠ none := ⟨.semibold, by decide⟩
  have hlimit : ∀ leaf n, semiboldWeight leaf = some n → (natText n).length ≤ digitLimit := by
    intro leaf n h
    cases leaf <;> cases h
    decide
  have hsource : flatSource "fontWeight".toList semiboldWeight.entries =
      "fontWeight-semibold: 600;".toList := by decide
  have hread := typographyIn_flatSource hset hlimit (List.forall_mem_nil _)
  rw [List.append_nil, hsource] at hread
  exact ⟨hsource, _, _, hread, rfl, rfl, rfl⟩

end ComponentCatalog.Theme
