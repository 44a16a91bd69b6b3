import ComponentCatalog.Proofs.Pattern
import ComponentCatalog.Theme.Leaf

/-!
Flat leaves as occurrences of one pattern: the prefix, the words of the leaf with anything but
colons around them, a colon, and blanks and a value. The scan for them looks at each colon once and
takes each word where it occurs first; the pattern tries every place.
-/
namespace ComponentCatalog.Theme

open Text Code

/-- The values that a leaf may have. -/
inductive ValueKind where
  | quoted | integer | decimal | bare
  deriving DecidableEq, Repr

namespace ValueKind

def form : ValueKind → ValueForm
  | .quoted => quotedValue
  | .integer => integerValue
  | .decimal => decimalValue
  | .bare => bareValue

/-- A character of a value without marks. -/
def isBare (c : Char) : Bool := !isStringMark c && !isBlank c && c != ',' && c != '\x7d'

def pattern : ValueKind → Pattern
  | .quoted =>
    .seq (.one isStringMark) (.seq (.group (.some1 fun c => !isStringMark c)) (.one isStringMark))
  | .integer => .group (.some1 isDecimal)
  | .decimal => .group (.some1 fun c => isDecimal c || c == '.')
  | .bare =>
    .seq (.maybe isStringMark) (.seq (.group (.some1 isBare)) (.maybe isStringMark))

end ValueKind

/-- The pattern prefers the value that the form finds. -/
def Reads (pattern : Pattern) (form : ValueForm) : Prop :=
  ∀ s, (pattern.ways s).head? = (form s).map fun (value, rest) => (some value, rest)

theorem isBlank_of_isStringMark {c : Char} (h : isStringMark c = true) : isBlank c = false :=
  isBlank_eq_false_of_forall (by decide +kernel) h

theorem reads_group (p : Char → Bool) : Reads (.group (.some1 p)) (run? p) := by
  intro s
  cases h : run? p s with
  | none => rw [Pattern.ways_group_eq_nil h, List.head?_nil, Option.map_none]
  | some found =>
    obtain ⟨others, hways, -⟩ := Pattern.exists_ways_group h
    rw [hways, List.head?_cons, Option.map_some]

theorem reads_quoted : Reads ValueKind.quoted.pattern quotedValue := by
  rintro (_ | ⟨c, t⟩)
  · rfl
  by_cases hc : isStringMark c = true
  · have hone : one? isStringMark (c :: t) = some (c, t) := if_pos hc
    rw [ValueKind.pattern, Pattern.ways_one_seq_of_pos hc, quotedValue, hone]
    cases hrun : run? (fun c => !isStringMark c) t with
    | none =>
      rw [Pattern.ways_seq_of_nil (Pattern.ways_group_eq_nil hrun)]
      simp [hrun]
    | some found =>
      obtain ⟨u, rest⟩ := found
      obtain ⟨others, hways, hothers⟩ := Pattern.exists_ways_group hrun
      -- A run that ends earlier has no mark behind it.
      have hnone : ∀ way ∈ others, (Pattern.one isStringMark).ways way.2 = [] := by
        intro way hway
        obtain ⟨d, more, hd, hmark⟩ := hothers way hway
        rw [hd]
        simpa [Pattern.ways, one?] using hmark
      rw [Pattern.head?_ways_seq hways (.inr hnone)]
      cases hend : one? isStringMark rest <;> simp [Pattern.ways, hrun, hend]
  · have hone : one? isStringMark (c :: t) = none := if_neg hc
    rw [ValueKind.pattern, Pattern.ways_one_seq_of_neg hc, quotedValue, hone]
    rfl

/-- The value and a mark behind it, if there is one. -/
theorem head?_ways_unmarked (s : Text) :
    ((Pattern.seq (.group (.some1 ValueKind.isBare)) (.maybe isStringMark)).ways s).head? =
      (run? ValueKind.isBare s).map fun (value, rest) =>
        (some value, ((one? isStringMark rest).map (·.2)).getD rest) := by
  cases hrun : run? ValueKind.isBare s with
  | none => rw [Pattern.ways_seq_of_nil (Pattern.ways_group_eq_nil hrun)]; rfl
  | some found =>
    obtain ⟨u, rest⟩ := found
    obtain ⟨others, hways, -⟩ := Pattern.exists_ways_group hrun
    have hmaybe := Pattern.head?_ways_maybe (p := isStringMark) (s := rest)
    rw [Pattern.head?_ways_seq hways (.inl (by rw [hmaybe]; rfl)), hmaybe]
    rfl

theorem reads_bare : Reads ValueKind.bare.pattern bareValue := by
  intro s
  have hform : bareValue s =
      (run? ValueKind.isBare (((one? isStringMark s).map (·.2)).getD s)).map fun (value, rest) =>
        (value, ((one? isStringMark rest).map (·.2)).getD rest) := by
    rw [Option.map_eq_bind]
    rfl
  rw [hform, Option.map_map, ValueKind.pattern]
  cases s with
  | nil => rfl
  | cons c t =>
    by_cases hc : isStringMark c = true
    · have hways : (Pattern.maybe isStringMark).ways (c :: t) = [(none, t), (none, c :: t)] := by
        simp [Pattern.ways, one?, hc]
      have hbare : run? ValueKind.isBare (c :: t) = none :=
        run?_cons_of_neg (by simp [ValueKind.isBare, hc]) t
      have hnone : ∀ way ∈ [((none : Option Text), c :: t)],
          (Pattern.seq (.group (.some1 ValueKind.isBare)) (.maybe isStringMark)).ways way.2 =
            [] := by
        rintro way (_ | ⟨_, ⟨⟩⟩)
        exact Pattern.ways_seq_of_nil (Pattern.ways_group_eq_nil hbare)
      rw [Pattern.head?_ways_seq hways (.inr hnone), head?_ways_unmarked, Option.map_map]
      simp [one?, hc, Function.comp_def]
    · have hways : (Pattern.maybe isStringMark).ways (c :: t) = [(none, c :: t)] := by
        simp [Pattern.ways, one?, hc]
      rw [Pattern.head?_ways_seq hways (.inr (by simp)), head?_ways_unmarked, Option.map_map]
      simp [one?, hc, Function.comp_def]

theorem ValueKind.reads (kind : ValueKind) : Reads kind.pattern kind.form := by
  cases kind with
  | quoted => exact reads_quoted
  | integer => exact reads_group isDecimal
  | decimal => exact reads_group _
  | bare => exact reads_bare

/-- No value begins with a blank. -/
theorem ValueKind.ways_of_isBlank (kind : ValueKind) {c : Char} (h : isBlank c = true)
    (rest : Text) : kind.pattern.ways (c :: rest) = [] := by
  have hmark : isStringMark c ≠ true := fun hc => by
    rw [isBlank_of_isStringMark hc] at h
    cases h
  have hdecimal : isDecimal c ≠ true := fun hc => by
    rw [isBlank_of_isDecimal hc] at h
    cases h
  cases kind with
  | quoted => exact Pattern.ways_one_seq_of_neg hmark rest
  | integer => exact Pattern.ways_group_eq_nil (run?_cons_of_neg hdecimal rest)
  | decimal =>
    have hdot : c ≠ '.' := by
      rintro rfl
      cases h
    exact Pattern.ways_group_eq_nil (run?_cons_of_neg (by simp [hdecimal, hdot]) rest)
  | bare =>
    have hways : (Pattern.maybe isStringMark).ways (c :: rest) = [c :: rest].map (none, ·) := by
      simp [Pattern.ways, one?, hmark]
    have hbare : run? isBare (c :: rest) = none := run?_cons_of_neg (by simp [isBare, h]) rest
    rw [pattern, Pattern.ways_seq_silent hways, List.flatMap_singleton]
    exact Pattern.ways_seq_of_nil (Pattern.ways_group_eq_nil hbare)

/-- Blanks and a value, as the flat scan reads them. -/
theorem ValueKind.head?_ways_blanks (kind : ValueKind) (s : Text) :
    ((Pattern.seq (.most isBlank) kind.pattern).ways s).head? =
      (kind.form (stripStart s)).map fun (value, rest) => (some value, rest) := by
  rw [Pattern.ways_most_seq_of_forall fun c rest h => kind.ways_of_isBlank h rest]
  exact kind.reads (stripStart s)

/-- The words occur one after another, with any text around them. -/
def InOrder : (words : List Text) → Text → Prop
  | [], _ => True
  | word :: words, s => ∃ gap rest, s = gap ++ (word ++ rest) ∧ InOrder words rest

variable {words : List Text} {s t u tail rest : Text}

/-- More text in front leaves the words where they are. -/
theorem InOrder.of_suffix (h : InOrder words s) (hs : s <:+ t) : InOrder words t := by
  obtain ⟨u, rfl⟩ := hs
  cases words with
  | nil => trivial
  | cons word words =>
    obtain ⟨gap, rest, rfl, hrest⟩ := h
    exact ⟨u ++ gap, rest, (List.append_assoc _ _ _).symm, hrest⟩

/-- Taking each word where it occurs first decides the order. -/
theorem inOrder_iff : inOrder words s = true ↔ InOrder words s := by
  induction words generalizing s with
  | nil => simp [inOrder, InOrder]
  | cons word words ih =>
    constructor
    · intro h
      rw [inOrder] at h
      cases hcut : cut? word s with
      | none => rw [hcut] at h; cases h
      | some found =>
        obtain ⟨before, after⟩ := found
        rw [hcut] at h
        exact ⟨before, after, cut?_eq_some hcut, ih.mp h⟩
    · rintro ⟨gap, rest, rfl, hrest⟩
      obtain ⟨before, after, hcut, hafter⟩ := exists_cut? gap word rest
      rw [inOrder, hcut]
      exact ih.mpr (hrest.of_suffix hafter)

instance decidableInOrder : Decidable (InOrder words s) := decidable_of_iff _ inOrder_iff

/-- A search settled by the first item that is not passed over. -/
theorem findSome?_eq_ite {α β : Type} {P : Prop} [Decidable P] {f : α → Option β}
    {result : Option β} {items : List α} (hf : ∀ a ∈ items, f a = none ∨ f a = result ∧ P)
    (hP : P → ∃ a ∈ items, f a = result) : items.findSome? f = if P then result else none := by
  cases hfound : items.findSome? f with
  | none =>
    have hnone := List.findSome?_eq_none_iff.mp hfound
    split
    · next h =>
      obtain ⟨a, ha, hresult⟩ := hP h
      rw [← hresult, hnone a ha]
    · rfl
  | some b =>
    obtain ⟨a, ha, hb⟩ := List.exists_of_findSome?_eq_some hfound
    rcases hf a ha with hnone | ⟨hresult, h⟩
    · rw [hb] at hnone
      cases hnone
    · rw [if_pos h, ← hresult, hb]

theorem mem_afterRuns_colon {other : Text} (hu : ':' ∉ u) :
    other ∈ Pattern.afterRuns (· != ':') (u ++ ':' :: tail) ↔
      ∃ v, v <:+ u ∧ other = v ++ ':' :: tail := by
  induction u with
  | nil => simp [Pattern.afterRuns]
  | cons c u ih =>
    rw [List.mem_cons, not_or] at hu
    have hc : (c != ':') = true := bne_iff_ne.mpr (Ne.symm hu.1)
    rw [List.cons_append, Pattern.afterRuns, if_pos hc, List.mem_append, ih hu.2,
      List.mem_singleton]
    constructor
    · rintro (⟨v, hv, rfl⟩ | rfl)
      · exact ⟨v, hv.trans (List.suffix_cons c u), rfl⟩
      · exact ⟨c :: u, List.suffix_rfl, rfl⟩
    · rintro ⟨v, hv, rfl⟩
      rcases List.suffix_cons_iff.mp hv with rfl | hv
      · exact .inr rfl
      · exact .inl ⟨v, hv, rfl⟩

/-- The words in order with no colon around them, and then `next`. -/
def wordsPattern : (words : List Text) → (next : Pattern) → Pattern
  | [], next => .seq (.most (· != ':')) next
  | word :: words, next =>
    .seq (.fewest (· != ':')) (.seq (.literal word) (wordsPattern words next))

/-- The prefix, the words before a colon, and a value after blanks. -/
def leafPattern (lead : Text) (words : List Text) (value : Pattern) : Pattern :=
  .seq (.literal lead)
    (wordsPattern words (.seq (.literal [':']) (.seq (.most isBlank) value)))

section Words

variable {next : Pattern}

theorem ways_colon_seq (tail : Text) :
    (Pattern.seq (.literal [':']) next).ways (':' :: tail) = next.ways tail := by
  simp [after?]

theorem ways_colon_seq_of_ne {c : Char} (h : (c != ':') = true) (tail : Text) :
    (Pattern.seq (.literal [':']) next).ways (c :: tail) = [] := by
  have hc : ':' ≠ c := (bne_iff_ne.mp h).symm
  simp [after?, hc]

/-- Before a colon the words are looked for up to it, and what follows it is read in one way. -/
theorem head?_ways_words (hwords : ∀ word ∈ words, ':' ∉ word) (hu : ':' ∉ u) :
    ((wordsPattern words (.seq (.literal [':']) next)).ways (u ++ ':' :: tail)).head? =
      if InOrder words u then (next.ways tail).head? else none := by
  induction words generalizing u with
  | nil =>
    have hdrop : (u ++ ':' :: tail).dropWhile (· != ':') = ':' :: tail := by
      rw [List.dropWhile_append_of_pos fun c hc => by simpa using ne_of_mem_of_not_mem hc hu]
      exact List.dropWhile_cons_of_neg (by simp)
    rw [wordsPattern, Pattern.ways_most_seq_of_forall fun c rest hc => ways_colon_seq_of_ne hc rest,
      hdrop, ways_colon_seq, if_pos (show InOrder [] u from trivial)]
  | cons word words ih =>
    have hword : ':' ∉ word := hwords word List.mem_cons_self
    have hmore : ∀ w ∈ words, ':' ∉ w := fun w hw => hwords w (.tail _ hw)
    rw [wordsPattern, Pattern.ways_fewest_seq, List.head?_flatMap]
    -- A way that is found has the words in order, and if they are in order there is one.
    refine findSome?_eq_ite ?_ ?_
    · intro other hother
      obtain ⟨v, ⟨gap, rfl⟩, rfl⟩ := (mem_afterRuns_colon hu).mp (List.mem_reverse.mp hother)
      rw [Pattern.ways_literal_seq]
      cases hafter : after? word (v ++ ':' :: tail) with
      | none => exact .inl rfl
      | some rest =>
        have hsplit := after?_eq_some.mp hafter
        obtain ⟨w, rfl⟩ := prefix_of_notMem ⟨rest, hsplit.symm⟩ hword
        rw [List.append_assoc, List.append_cancel_left_eq] at hsplit
        have hw : ':' ∉ w := fun h => hu (by simp [h])
        rw [← hsplit, Option.toList_some, List.flatMap_singleton, ih hmore hw]
        by_cases horder : InOrder words w
        · exact .inr ⟨if_pos horder, gap, w, rfl, horder⟩
        · exact .inl (if_neg horder)
    · rintro ⟨gap, rest, rfl, horder⟩
      have hrest : ':' ∉ rest := fun h => hu (by simp [h])
      refine ⟨word ++ rest ++ ':' :: tail, ?_, ?_⟩
      · exact List.mem_reverse.mpr ((mem_afterRuns_colon hu).mpr ⟨_, List.suffix_append _ _, rfl⟩)
      · rw [Pattern.ways_literal_seq, List.append_assoc, after?_append, Option.toList_some,
          List.flatMap_singleton, ih hmore hrest, if_pos horder]

theorem ways_words_of_not_colon (hs : ':' ∉ s) :
    (wordsPattern words (.seq (.literal [':']) next)).ways s = [] := by
  induction words generalizing s with
  | nil =>
    have hdrop : s.dropWhile (· != ':') = [] :=
      List.dropWhile_eq_nil_iff.mpr fun c hc => bne_iff_ne.mpr (ne_of_mem_of_not_mem hc hs)
    rw [wordsPattern, Pattern.ways_most_seq_of_forall fun c rest hc => ways_colon_seq_of_ne hc rest,
      hdrop]
    rfl
  | cons word words ih =>
    rw [wordsPattern, Pattern.ways_fewest_seq, List.flatMap_eq_nil_iff]
    intro other hother
    have hsuffix := Pattern.suffix_of_mem_afterRuns (List.mem_reverse.mp hother)
    rw [Pattern.ways_literal_seq, List.flatMap_eq_nil_iff]
    intro rest hrest
    exact ih fun h => hs (((after?_suffix (Option.mem_toList.mp hrest)).trans hsuffix).mem h)

end Words

section Leaf

variable {lead : Text} {kind : ValueKind}

theorem ways_leaf_of_not_lead {value : Pattern} (h : after? lead s = none) :
    (leafPattern lead words value).ways s = [] := by
  rw [leafPattern, Pattern.ways_literal_seq, h, Option.toList_none, List.flatMap_nil]

theorem ways_leaf {value : Pattern} (s : Text) :
    (leafPattern lead words value).ways (lead ++ s) =
      (wordsPattern words (.seq (.literal [':']) (.seq (.most isBlank) value))).ways s := by
  rw [leafPattern, Pattern.ways_literal_seq, after?_append, Option.toList_some,
    List.flatMap_singleton]

theorem ways_leaf_of_not_colon {value : Pattern} (hs : ':' ∉ s) :
    (leafPattern lead words value).ways (lead ++ s) = [] := by
  rw [ways_leaf, ways_words_of_not_colon hs]

/-- What the scan finds after a prefix whose next colon stands between the two texts. -/
def leafValue (form : ValueForm) (words : List Text) (between tail : Text) : Option (Text × Text) :=
  if InOrder words between then form (stripStart tail) else none

theorem head?_ways_leaf (hwords : ∀ word ∈ words, ':' ∉ word) (hu : ':' ∉ u) :
    ((leafPattern lead words kind.pattern).ways (lead ++ (u ++ ':' :: tail))).head? =
      (leafValue kind.form words u tail).map fun (value, rest) => (some value, rest) := by
  rw [ways_leaf, head?_ways_words hwords hu, kind.head?_ways_blanks, leafValue]
  split <;> rfl

/-- A prefix nearer to the colon has fewer words before it. -/
theorem leafValue_of_suffix {form : ValueForm} (h : leafValue form words u tail = none)
    (ht : t <:+ u) : leafValue form words t tail = none := by
  rw [leafValue] at h ⊢
  split at h
  · rw [h, ite_self]
  · next hwords => exact if_neg fun ht' => hwords (ht'.of_suffix ht)

/-- Where the next colon has no value of the leaf, no leaf begins up to the colon. -/
theorem ways_leaf_of_rejected (hlead : ':' ∉ lead) (hwords : ∀ word ∈ words, ':' ∉ word)
    (hu : ':' ∉ u) (hrejected : leafValue kind.form words u tail = none) {v : Text}
    (hv : v <:+ lead ++ u ++ [':']) (hne : v ≠ []) :
    (leafPattern lead words kind.pattern).ways (v ++ tail) = [] := by
  rcases List.suffix_concat_iff.mp hv with rfl | ⟨w, rfl, hw⟩
  · exact absurd rfl hne
  rw [List.append_assoc, List.singleton_append]
  cases hafter : after? lead (w ++ ':' :: tail) with
  | none => exact ways_leaf_of_not_lead hafter
  | some rest =>
    obtain ⟨t, rfl⟩ := prefix_of_notMem ⟨rest, (after?_eq_some.mp hafter).symm⟩ hlead
    have ht : t <:+ u := by
      refine List.suffix_of_suffix_length_le ((List.suffix_append lead t).trans hw)
        (List.suffix_append lead u) ?_
      have hlength := hw.length_le
      rw [List.length_append, List.length_append] at hlength
      omega
    rw [List.append_assoc, ← List.head?_eq_none_iff,
      head?_ways_leaf hwords fun h => hu (ht.mem h), leafValue_of_suffix hrejected ht,
      Option.map_none]

theorem flatShape_of_not_colon {form : ValueForm} {offset : Nat} {previous : Option Char}
    (hs : ':' ∉ s) : flatShape lead form words ⟨offset, previous, lead ++ s⟩ = none := by
  simp [flatShape, after?_append, cut?_eq_none hs]

theorem flatShape_of_not_lead {form : ValueForm} {offset : Nat} {previous : Option Char}
    (h : after? lead s = none) : flatShape lead form words ⟨offset, previous, s⟩ = none := by
  simp [flatShape, h]

/-- The shape takes the text up to the colon, or the leaf if there is one. -/
theorem flatShape_of_colon {form : ValueForm} {offset : Nat} {previous : Option Char}
    (hu : ':' ∉ u) :
    flatShape lead form words ⟨offset, previous, lead ++ (u ++ ':' :: tail)⟩ =
      some (match leafValue form words u tail with
        | none => (none, (lead ++ u ++ [':']).length)
        | some (value, rest) =>
          (some (upTo (lead ++ (u ++ ':' :: tail)) rest, value),
            (lead ++ (u ++ ':' :: tail)).length - rest.length)) := by
  have hcut : cut? [':'] (u ++ ':' :: tail) = some (u, tail) := cut?_append hu
  have hlength : (lead ++ (u ++ ':' :: tail)).length - tail.length =
      (lead ++ u ++ [':']).length := by
    simp only [List.length_append, List.length_cons, List.length_nil]
    omega
  simp only [flatShape, after?_append, Option.bind_eq_bind, Option.bind_some, hcut, leafValue,
    Cursor.lengthTo, hlength]
  by_cases h : InOrder words u
  · rw [inOrder_iff.mpr h, if_pos h]
    cases form (stripStart tail) <;> rfl
  · have horder : inOrder words u = false := Bool.eq_false_iff.mpr fun hu => h (inOrder_iff.mp hu)
    rw [horder, if_neg h]
    rfl

theorem flatShape_agrees (hne : lead ≠ []) (hlead : ':' ∉ lead)
    (hwords : ∀ word ∈ words, ':' ∉ word) (at_ : Cursor) :
    (leafPattern lead words kind.pattern).Agrees (flatShape lead kind.form words) at_ := by
  obtain ⟨offset, previous, s⟩ := at_
  cases hafter : after? lead s with
  | none => exact .pass (flatShape_of_not_lead hafter) (ways_leaf_of_not_lead hafter)
  | some r =>
    obtain rfl := after?_eq_some.mp hafter
    by_cases hcolon : ':' ∈ r
    · obtain ⟨u, tail, rfl, hu⟩ := List.eq_append_cons_of_mem hcolon
      cases hvalue : leafValue kind.form words u tail with
      | none =>
        have hsplit : lead ++ (u ++ ':' :: tail) = lead ++ u ++ [':'] ++ tail := by simp
        refine .skip hsplit (by simp) ?_ fun v hv => ways_leaf_of_rejected hlead hwords hu hvalue hv
        rw [flatShape_of_colon hu, hvalue]
      | some found =>
        obtain ⟨value, rest⟩ := found
        have hways :
            ((leafPattern lead words kind.pattern).ways (lead ++ (u ++ ':' :: tail))).head? =
              some (some value, rest) := by
          rw [head?_ways_leaf hwords hu, hvalue]
          rfl
        obtain ⟨m, hm⟩ : rest <:+ u ++ ':' :: tail :=
          Pattern.suffix_of_mem_ways (ways_leaf _ ▸ List.mem_of_mem_head? hways)
        have hsplit : lead ++ (u ++ ':' :: tail) = lead ++ m ++ rest := by
          rw [← hm, List.append_assoc]
        refine .take hsplit (by simp [hne]) ?_ (hsplit ▸ hways)
        rw [flatShape_of_colon hu, hvalue, hsplit]
        dsimp only
        rw [upTo_append, List.length_append, Nat.add_sub_cancel]
    · exact .pass (flatShape_of_not_colon hcolon) (ways_leaf_of_not_colon hcolon)

/-- The flat leaves under a prefix are the occurrences of its pattern, with their values: going on
after a colon that has been looked at, and taking each word where it occurs first, lose none. -/
theorem occurs_leafPattern_iff (hne : lead ≠ []) (hlead : ':' ∉ lead)
    (hwords : ∀ word ∈ words, ':' ∉ word) (kind : ValueKind) (s : Text)
    (found : List (Text × Text)) :
    Pattern.Occurs (leafPattern lead words kind.pattern) s found ↔
      flatMatches lead kind.form words s = found := by
  have hempty : (leafPattern lead words kind.pattern).ways [] = [] := by
    refine ways_leaf_of_not_lead ?_
    cases lead with
    | nil => exact absurd rfl hne
    | cons a lead => rfl
  have hflat : Pattern.Occurs (leafPattern lead words kind.pattern) s
      (flatMatches lead kind.form words s) :=
    Pattern.occurs_hitsFrom (flatShape_agrees hne hlead hwords) hempty 0 none s
  constructor
  · exact hflat.unique
  · rintro rfl
    exact hflat

/-- A colon without the words, a prefix before another, a word that occurs twice, and words in the
wrong order. -/
theorem occurs_repeated_prefix :
    let words := ["disabled".toList, "text".toList]
    let label := "action action-disabled-text-text:\n '#8e'".toList
    let s := "action: 'a', ".toList ++ label ++ ", action-textdisabled: 'b'".toList
    "action".toList ≠ [] ∧ ':' ∉ "action".toList ∧ (∀ word ∈ words, ':' ∉ word) ∧
      Pattern.Occurs (leafPattern "action".toList words ValueKind.quoted.pattern) s
        [(label, "#8e".toList)] := by
  intro words label s
  have hne : "action".toList ≠ [] := by decide
  have hlead : ':' ∉ "action".toList := by decide
  have hwords : ∀ word ∈ words, ':' ∉ word := by decide
  have hflat : flatMatches "action".toList ValueKind.quoted.form words s =
      [(label, "#8e".toList)] := by decide +kernel
  exact ⟨hne, hlead, hwords, (occurs_leafPattern_iff hne hlead hwords .quoted s _).mpr hflat⟩

end Leaf

end ComponentCatalog.Theme
