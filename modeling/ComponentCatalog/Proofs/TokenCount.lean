import ComponentCatalog.Proofs.ThemeIntegers
import ComponentCatalog.Theme.Facts

/-!
The tokens of a theme. No record of an extracted theme is hollow, so each has a leaf; the number of
tokens is the number of leaves, and is divided among the categories that the theme sets.
-/
namespace ComponentCatalog

open Text

namespace Text

theorem lowerFrom_of_ascii {s : Text} (h : ∀ c ∈ s, c.toNat < 128) (before : Text) :
    lowerFrom before s = s.map Char.toLower := by
  induction s generalizing before with
  | nil => rfl
  | cons c s ih =>
    have hc := h c List.mem_cons_self
    have hsigma : c ≠ 'Σ' := by
      rintro rfl
      exact absurd hc (by decide)
    rw [lowerFrom, if_neg hsigma, lowerChar, if_pos hc, ih (fun c' hc' => h c' (.tail _ hc'))]
    rfl

theorem ascii_of_toLower {c : Char} (h : c.toLower.toNat < 128) : c.toNat < 128 := by
  by_cases hupper : c.isUpper = true
  · have hlast : c.toNat ≤ 'Z'.toNat := (of_decide_eq_true hupper).2
    exact Nat.lt_of_le_of_lt hlast (by decide)
  · rwa [Char.toLower_eq_of_not_isUpper hupper] at h

end Text

namespace Node

mutual

/-- The number of leaves with a value: a record has those of its fields. -/
def leafCount : Node → Nat
  | .null => 0
  | .record _ fields => fieldLeafCount fields
  | .bool _ | .int _ | .float _ | .text _ | .list _ | .mapping _ => 1

def fieldLeafCount : List (Text × Node) → Nat
  | [] => 0
  | (_, value) :: fields => leafCount value + fieldLeafCount fields

end

/-- The node is a value, and no record. -/
def IsLeaf : Node → Prop
  | .null | .record _ _ => False
  | .bool _ | .int _ | .float _ | .text _ | .list _ | .mapping _ => True

theorem isLeaf_text (s : Text) : (Node.text s).IsLeaf := trivial
theorem isLeaf_int (n : Int) : (Node.int n).IsLeaf := trivial
theorem isLeaf_float (x : Float) : (Node.float x).IsLeaf := trivial

/-- The first node is in a field of the second, or deeper. -/
inductive Inside : Node → Node → Prop
  | field {kind name : Text} {value : Node} {fields : List (Text × Node)}
      (hmem : (name, value) ∈ fields) : Inside value (.record kind fields)
  | deeper {kind name : Text} {part value : Node} {fields : List (Text × Node)}
      (hmem : (name, value) ∈ fields) (hpart : Inside part value) :
      Inside part (.record kind fields)

/-- The record has a field that is not null, and a leaf. -/
def Bears (kind : Text) (fields : List (Text × Node)) : Prop :=
  (∃ field ∈ fields, field.2 ≠ .null) ∧ 0 < (Node.record kind fields).leafCount

/-- Every record of the node, itself or inside, has a leaf. -/
def Leafy (n : Node) : Prop :=
  ∀ kind fields, n = .record kind fields ∨ Inside (.record kind fields) n → Bears kind fields

variable {n : Node} {fields : List (Text × Node)}

theorem fieldLeafCount_eq_sum (fields : List (Text × Node)) :
    fieldLeafCount fields = (fields.map fun field => field.2.leafCount).sum := by
  induction fields with
  | nil => rfl
  | cons field fields ih => rw [fieldLeafCount, ih, List.map_cons, List.sum_cons]

theorem leafCount_recordOf (kind : String) (fields : List (String × Node)) :
    (recordOf kind fields).leafCount = (fields.map fun field => field.2.leafCount).sum := by
  rw [recordOf, leafCount, fieldLeafCount_eq_sum, List.map_map]
  rfl

theorem Leafy.leafCount_pos (h : n.Leafy) (hne : n ≠ .null) : 0 < n.leafCount := by
  cases n with
  | null => exact absurd rfl hne
  | record kind fields => exact (h kind fields (.inl rfl)).2
  | bool | int | float | text | list | mapping => exact Nat.one_pos

theorem IsLeaf.leafCount (h : n.IsLeaf) : n.leafCount = 1 := by
  cases n with
  | null | record => exact h.elim
  | bool | int | float | text | list | mapping => rfl

theorem IsLeaf.isNull (h : n.IsLeaf) : n.isNull = false := by
  cases n with
  | null => exact h.elim
  | bool | int | float | text | list | mapping | record => rfl

theorem IsLeaf.leafy (h : n.IsLeaf) : n.Leafy := by
  rintro kind fields (rfl | hinside)
  · exact h.elim
  · cases hinside <;> exact h.elim

theorem leafy_null : Leafy .null := by
  rintro kind fields (heq | hinside) <;> contradiction

section Optional

variable {α : Type} {form : α → Node}

theorem leafy_optional {a? : Option α} (h : ∀ a, a? = some a → (form a).Leafy) :
    (optional form a?).Leafy := by
  cases a? with
  | none => exact leafy_null
  | some a => exact h a rfl

theorem leafy_unless {hollow : Bool} {a : α} (h : hollow = false → (form a).Leafy) :
    (optional form (if hollow then none else some a)).Leafy := by
  cases hollow with
  | true => exact leafy_null
  | false => exact h rfl

theorem isNull_optional (h : ∀ a, (form a).isNull = false) (a? : Option α) :
    (optional form a?).isNull = a?.isNone := by
  cases a? with
  | none => rfl
  | some a => exact h a

theorem leafCount_optional {count : α → Nat} (h : ∀ a, (form a).leafCount = count a)
    (a? : Option α) : (optional form a?).leafCount = Theme.optionalCount count a? := by
  cases a? with
  | none => rfl
  | some a => exact h a

end Optional

theorem fieldLeafCount_pos {field : Text × Node} (hmem : field ∈ fields)
    (hpos : 0 < field.2.leafCount) : 0 < fieldLeafCount fields := by
  rw [fieldLeafCount_eq_sum]
  exact Nat.lt_of_lt_of_le hpos (List.single_le_sum (by simp) _ (List.mem_map_of_mem hmem))

/-- A record whose fields are leafy is leafy, if one of them is not null. -/
theorem leafy_recordOf {kind : String} {fields : List (String × Node)}
    (h : ∀ field ∈ fields, field.2.Leafy) (hne : (fields.all fun field => field.2.isNull) = false) :
    (recordOf kind fields).Leafy := by
  have hfield {name : Text} {value : Node}
      (hmem : (name, value) ∈ fields.map fun field => (field.1.toList, field.2)) : value.Leafy := by
    obtain ⟨field, hmem', heq⟩ := List.mem_map.mp hmem
    cases heq
    exact h field hmem'
  rintro kind' fields' (heq | hinside)
  · cases heq
    obtain ⟨field, hmem, hset⟩ := List.all_eq_false.mp hne
    have hvalue : field.2 ≠ .null := fun hnull => hset (by rw [hnull]; rfl)
    have hmem' := List.mem_map_of_mem (f := fun field => (String.toList field.1, field.2)) hmem
    exact ⟨⟨_, hmem', hvalue⟩, fieldLeafCount_pos hmem' ((h field hmem).leafCount_pos hvalue)⟩
  · cases hinside with
    | field hmem => exact hfield hmem kind' fields' (.inl rfl)
    | deeper hmem hpart => exact hfield hmem kind' fields' (.inr hpart)

end Node

open Node

namespace Scale

variable {ι α : Type} [TokenFamily ι] {scale : Scale ι α} {form : α → Node} {kind : String}

theorem leafCount_fields {count : α → Nat} (h : ∀ a, (form a).leafCount = count a)
    (scale : Scale ι α) : ((scale.fields form).map fun field => field.2.leafCount).sum =
      ((TokenFamily.all : List ι).map fun leaf => Theme.optionalCount count (scale leaf)).sum := by
  rw [fields, List.map_map]
  exact congrArg List.sum (List.map_congr_left fun leaf _ => leafCount_optional h (scale leaf))

theorem sum_optionalCount_one (scale : Scale ι α) :
    ((TokenFamily.all : List ι).map fun leaf => Theme.optionalCount (fun _ => 1) (scale leaf)).sum =
      scale.count := by
  rw [count, ← List.countP_eq_length_filter]
  generalize (TokenFamily.all : List ι) = leaves
  induction leaves with
  | nil => rfl
  | cons leaf leaves ih =>
    rw [List.map_cons, List.sum_cons, ih, List.countP_cons]
    cases scale leaf with
    | none => exact Nat.zero_add _
    | some a => exact Nat.add_comm _ _

theorem leafCount_node (h : ∀ a, (form a).IsLeaf) (scale : Scale ι α) :
    (scale.node kind form).leafCount = scale.count := by
  rw [Scale.node, leafCount_recordOf, leafCount_fields fun a => (h a).leafCount,
    sum_optionalCount_one]

theorem leafCount_optional_node (h : ∀ a, (form a).IsLeaf) (scale? : Option (Scale ι α)) :
    (optional (Scale.node kind form) scale?).leafCount = Theme.optionalCount count scale? :=
  leafCount_optional (leafCount_node h) scale?

theorem all_isNull_fields (h : ∀ a, (form a).isNull = false) (scale : Scale ι α) :
    ((scale.fields form).all fun field => field.2.isNull) = scale.isHollow := by
  rw [fields, List.all_map]
  exact congrArg (List.all _) (funext fun leaf => isNull_optional h (scale leaf))

theorem isNull_optional_node (scale? : Option (Scale ι α)) :
    (optional (Scale.node kind form) scale?).isNull = scale?.isNone :=
  isNull_optional (fun _ => rfl) scale?

theorem leafy_fields (h : ∀ leaf a, scale leaf = some a → (form a).Leafy) :
    ∀ field ∈ scale.fields form, field.2.Leafy := by
  intro field hfield
  obtain ⟨leaf, -, rfl⟩ := List.mem_map.mp hfield
  exact leafy_optional fun a ha => h leaf a ha

/-- A scale without a value is left out, so one that is kept has a leaf. -/
theorem leafy_populated? (hform : ∀ a, (form a).IsLeaf) (scale : Scale ι α) :
    (optional (Scale.node kind form) scale.populated?).Leafy := by
  refine leafy_unless fun hhollow => leafy_recordOf (leafy_fields fun _ a _ => (hform a).leafy) ?_
  rw [all_isNull_fields fun a => (hform a).isNull]
  exact hhollow

end Scale

namespace Theme

section

variable {ι α : Type} [TokenFamily ι] [DecidableEq ι] {form : α → Node}

theorem gives_leafy_collect (hform : ∀ a, (form a).IsLeaf) (kind : String)
    (words : ι → List Text) (lead : Text) (value : ValueForm) (convert : Conversion α) (s : Text) :
    Gives (collect words lead value convert s) fun scale? =>
      (optional (Scale.node kind form) scale?).Leafy := by
  rw [collect]
  exact (Gives.anything _).bind fun scale _ => .ok (Scale.leafy_populated? hform scale)

theorem gives_leafy_classify (hform : ∀ a, (form a).IsLeaf) (kind : String)
    (marks : List (ι × List Text)) (lead : Text) (blockNames : List Text) (value : ValueForm)
    (convert : Conversion α) (s : Text) :
    Gives (classify marks lead blockNames value convert s) fun scale? =>
      (optional (Scale.node kind form) scale?).Leafy := by
  rw [classify]
  exact (Gives.anything _).bind fun flat _ => (Gives.anything _).bind fun scale _ =>
    .ok (Scale.leafy_populated? hform scale)

end

theorem gives_leafy_colorsIn (s : Text) :
    Gives (colorsIn s) fun colors? => (optional Colors.node colors?).Leafy := by
  rw [colorsIn]
  -- a family is set only to a scale that was kept
  refine Gives.bind (Q := Scale.Each fun scale => (Scale.node "ColorScale" .text scale).Leafy)
    (.foldlM (fun family _ families hfamilies => ?_) each_empty) fun families hfamilies => ?_
  · refine (gives_leafy_collect isLeaf_text "ColorScale" _ _ _ _ s).bind fun scale? hscale => ?_
    cases scale? with
    | none => exact .ok hfamilies
    | some scale => exact .ok (each_set hfamilies family hscale)
  refine (gives_leafy_collect isLeaf_text "TextColors" _ _ _ _ s).bind fun text htext => ?_
  refine (gives_leafy_collect isLeaf_text "BackgroundColors" _ _ _ _ s).bind
    fun background hbackground => ?_
  refine (gives_leafy_collect isLeaf_text "BorderColors" _ _ _ _ s).bind fun border hborder => ?_
  refine (gives_leafy_collect isLeaf_text "ActionColors" _ _ _ _ s).bind fun action haction => .ok ?_
  refine leafy_unless fun hhollow => leafy_recordOf ?_ ?_
  · intro field hfield
    rcases List.mem_append.mp hfield with hfield | hfield
    · exact Scale.leafy_fields hfamilies field hfield
    · simp only [List.mem_cons, List.not_mem_nil, or_false] at hfield
      rcases hfield with rfl | rfl | rfl | rfl <;> assumption
  · rw [← hhollow, List.all_append, Scale.all_isNull_fields fun _ => rfl]
    simp [Colors.isHollow, Scale.isNull_optional_node, Bool.and_assoc]

theorem leafy_fontFamily (s : Text) :
    (optional (Scale.node "FontFamily" .text) (fontFamily s)).Leafy := by
  refine leafy_optional fun scale hscale => leafy_recordOf ?_ ?_
  · exact Scale.leafy_fields fun _ a _ => (isLeaf_text a).leafy
  · unfold fontFamily at hscale
    split at hscale <;> cases hscale
    rfl

theorem gives_leafy_typographyIn (s : Text) :
    Gives (typographyIn s) fun typography? => (optional Typography.node typography?).Leafy := by
  rw [typographyIn]
  refine (gives_leafy_collect isLeaf_text "FontSizeScale" _ _ _ _ s).bind fun fontSize hsize => ?_
  refine (gives_leafy_collect isLeaf_int "FontWeightScale" _ _ _ _ s).bind
    fun fontWeight hweight => ?_
  refine (gives_leafy_collect isLeaf_float "LineHeightScale" _ _ _ _ s).bind
    fun lineHeight hheight => ?_
  refine (gives_leafy_collect isLeaf_text "LetterSpacingScale" _ _ _ _ s).bind
    fun letterSpacing hspacing => .ok ?_
  refine leafy_unless fun hhollow => leafy_recordOf ?_ ?_
  · intro field hfield
    simp only [List.mem_cons, List.not_mem_nil, or_false] at hfield
    rcases hfield with rfl | rfl | rfl | rfl | rfl <;> first | exact leafy_fontFamily s | assumption
  · rw [← hhollow]
    simp [Typography.isHollow, Scale.isNull_optional_node, Bool.and_assoc]

theorem gives_leafy_spacingIn (s : Text) :
    Gives (spacingIn s) fun spacing? => (optional Spacing.node spacing?).Leafy := by
  rw [spacingIn]
  refine (Gives.anything _).bind fun inBlocks _ => (Gives.anything _).bind fun found _ => .ok ?_
  refine leafy_unless fun hhollow => leafy_recordOf ?_ ?_
  · intro field hfield
    rcases List.mem_append.mp hfield with hfield | hfield
    · exact Scale.leafy_fields (fun _ a _ => (isLeaf_text a).leafy) field hfield
    · cases List.mem_singleton.mp hfield
      exact leafy_optional fun n _ => (isLeaf_int n).leafy
  · rw [← hhollow, List.all_append, Scale.all_isNull_fields fun _ => rfl]
    simp [Spacing.isHollow, isNull_optional fun n => (isLeaf_int n).isNull]

variable {t : Theme} {k : Category}

/-- A category of the theme as a node, null if the theme sets nothing in it. -/
def part (t : Theme) : Category → Node
  | .colors => .optional Colors.node t.colors
  | .typography => .optional Typography.node t.typography
  | .spacing => .optional Spacing.node t.spacing
  | .shadows => .optional shadowNode t.shadows
  | .borderRadius => .optional radiusNode t.borderRadius
  | .zIndex => .optional layerNode t.zIndex
  | .breakpoints => .optional breakpointNode t.breakpoints

theorem node_eq (t : Theme) :
    t.node = .record "ThemeTokens".toList (Category.all.map fun k => (k.name, t.part k)) := rfl

theorem gives_leafy_ofSource (s : Text) : Gives (ofSource s) fun t => ∀ k, (t.part k).Leafy := by
  rw [ofSource]
  refine (gives_leafy_colorsIn s).bind fun colors hcolors => ?_
  refine (gives_leafy_typographyIn s).bind fun typography htypography => ?_
  refine (gives_leafy_spacingIn s).bind fun spacing hspacing => ?_
  refine (gives_leafy_classify isLeaf_text "ShadowTokens" _ _ _ _ _ s).bind
    fun shadows hshadows => ?_
  refine (gives_leafy_classify isLeaf_text "BorderRadiusTokens" _ _ _ _ _ s).bind
    fun radius hradius => ?_
  refine (gives_leafy_classify isLeaf_int "ZIndexTokens" _ _ _ _ _ s).bind fun layers hlayers => ?_
  refine (gives_leafy_classify isLeaf_int "BreakpointTokens" _ _ _ _ _ s).bind
    fun breakpoints hbreakpoints => .ok fun k => ?_
  cases k <;> assumption

theorem bears_of_inside {kind : Text} {fields : List (Text × Node)} (h : ∀ k, (t.part k).Leafy)
    (hinside : Inside (.record kind fields) t.node) : Bears kind fields := by
  rw [node_eq] at hinside
  cases hinside with
  | field hmem =>
    obtain ⟨k, -, heq⟩ := List.mem_map.mp hmem
    exact h k kind fields (.inl (congrArg Prod.snd heq))
  | deeper hmem hpart =>
    obtain ⟨k, -, heq⟩ := List.mem_map.mp hmem
    cases heq
    exact h k kind fields (.inr hpart)

theorem Colors.leafCount_node (c : Colors) : c.node.leafCount = c.count := by
  rw [Colors.node, leafCount_recordOf, List.map_append, List.sum_append,
    Scale.leafCount_fields (Scale.leafCount_node isLeaf_text)]
  simp only [List.map_cons, List.map_nil, List.sum_cons, List.sum_nil,
    Scale.leafCount_optional_node isLeaf_text]
  simp only [Colors.count, TokenFamily.all, List.map_cons, List.map_nil, List.sum_cons,
    List.sum_nil, List.foldr_cons, List.foldr_nil]
  omega

theorem Typography.leafCount_node (t : Typography) : t.node.leafCount = t.count := by
  rw [Typography.node, leafCount_recordOf]
  simp only [List.map_cons, List.map_nil, List.sum_cons, List.sum_nil,
    Scale.leafCount_optional_node isLeaf_text,
    Scale.leafCount_optional_node isLeaf_int, Scale.leafCount_optional_node isLeaf_float]
  rw [Typography.count]
  omega

theorem Spacing.leafCount_node (s : Spacing) : s.node.leafCount = s.count := by
  have hsizes : ((s.sizes.fields .text).map fun field => field.2.leafCount).sum = s.sizes.count :=
    (Scale.leafCount_fields (fun _ => rfl) s.sizes).trans s.sizes.sum_optionalCount_one
  rw [Spacing.node, leafCount_recordOf, List.map_append, List.sum_append, hsizes, Spacing.count]
  exact congrArg (s.sizes.count + ·) (leafCount_optional (fun _ => rfl) s.gridSize)

theorem leafCount_node_eq_sum (t : Theme) :
    t.node.leafCount = (Category.all.map fun k => (t.part k).leafCount).sum := by
  rw [node_eq, leafCount, fieldLeafCount_eq_sum, List.map_map]
  rfl

/-- The recursive count is the number of leaves. -/
theorem leafCount_node (t : Theme) : t.node.leafCount = t.count := by
  rw [leafCount_node_eq_sum]
  simp only [Category.all, part, List.map_cons, List.map_nil, List.sum_cons, List.sum_nil,
    leafCount_optional Colors.leafCount_node, leafCount_optional Typography.leafCount_node,
    leafCount_optional Spacing.leafCount_node, shadowNode, radiusNode, layerNode, breakpointNode,
    Scale.leafCount_optional_node isLeaf_text, Scale.leafCount_optional_node isLeaf_int]
  rw [count]
  omega

theorem part_only (t : Theme) (k k' : Category) :
    (t.only k).part k' = if k' = k then t.part k else .null := by
  cases k <;> cases k' <;> rfl

theorem part_of_not_has (h : t.has k = false) : t.part k = .null := by
  have hnone {α : Type} {a? : Option α} (h : a?.isSome = false) : a? = none :=
    Option.isNone_iff_eq_none.mp (Option.isSome_eq_false_iff.mp h)
  cases k <;> rw [part, hnone h] <;> rfl

theorem has_only (t : Theme) (k : Category) : (t.only k).has k = t.has k := by
  cases k <;> rfl

theorem only_only (t : Theme) (k : Category) : (t.only k).only k = t.only k := by
  cases k <;> rfl

theorem count_only (t : Theme) (k : Category) : (t.only k).count = (t.part k).leafCount := by
  rw [← leafCount_node, leafCount_node_eq_sum]
  simp only [part_only]
  cases k <;> simp [Category.all, leafCount]

/-- What stands alone is left alone. -/
theorem inCategory_inCategory (t : Theme) (name : Text) :
    (t.inCategory name).inCategory name = t.inCategory name := by
  unfold inCategory
  cases hname : Category.ofName? name with
  | none => rfl
  | some k =>
    cases hhas : t.has k with
    | false => simp [hhas]
    | true => simp [has_only, only_only, hhas]

theorem ascii_name (k : Category) :
    ((camelCase k.name).map Char.toLower).all (fun c => decide (c.toNat < 128)) = true := by
  cases k <;> decide

/-- A category is found under its name in camel case, in any letter case. -/
theorem ofName?_of_name {name : Text}
    (h : name.map Char.toLower = (camelCase k.name).map Char.toLower) :
    Category.ofName? name = some k := by
  have hascii : ∀ c ∈ name, c.toNat < 128 := fun c hc => by
    have hmem : c.toLower ∈ (camelCase k.name).map Char.toLower := h ▸ List.mem_map_of_mem hc
    exact ascii_of_toLower (of_decide_eq_true (List.all_eq_true.mp (ascii_name k) _ hmem))
  rw [Category.ofName?, lower, lowerFrom_of_ascii hascii, h]
  cases k <;> decide

/-- The name of a category that the theme sets selects the category, in any letter case. -/
theorem inCategory_of_name {name : Text} (hhas : t.has k = true)
    (h : name.map Char.toLower = (camelCase k.name).map Char.toLower) :
    t.inCategory name = t.only k := by
  rw [inCategory, ofName?_of_name h]
  exact if_pos hhas

/-- The leaves of a theme are those of its categories, each taken alone. -/
theorem count_eq_sum (t : Theme) :
    t.count = (t.populatedCategories.map fun name => (t.inCategory name).count).sum := by
  have hfrom (ks : List Category) : (ks.map fun k => (t.part k).leafCount).sum =
      ((ks.filter t.has).map fun k => (t.inCategory (camelCase k.name)).count).sum := by
    induction ks with
    | nil => rfl
    | cons k ks ih =>
      rw [List.map_cons, List.sum_cons, ih, List.filter_cons]
      cases hhas : t.has k with
      | false =>
        -- a category that is not set has no leaves to add
        rw [part_of_not_has hhas]
        exact Nat.zero_add _
      | true =>
        rw [if_pos rfl, List.map_cons, List.sum_cons, inCategory_of_name hhas rfl, count_only]
  rw [← leafCount_node, leafCount_node_eq_sum, hfrom, populatedCategories, List.map_map]
  rfl

theorem exists_ofSource {s : Text} {facts : Facts} (h : factsOf s = .ok facts) :
    ∃ t, ofSource s = .ok t := by
  cases ht : ofSource s with
  | error e =>
    rw [factsOf, ht] at h
    cases h
  | ok t => exact ⟨t, rfl⟩

/-- The accounts of an extracted theme balance. Each of its records holds a leaf; the number in its
facts is that of its leaves, and that of the categories added up; the reported name of a category
selects it and nothing else, in any letter case; and to select a second time changes nothing. -/
theorem tokens_accounted {s : Text} {t : Theme} (h : ofSource s = .ok t) :
    (∀ kind fields, Inside (.record kind fields) t.node → Bears kind fields) ∧
    (∃ facts, factsOf s = .ok facts ∧ facts.categories = t.populatedCategories ∧
      facts.tokens = t.node.leafCount ∧
      facts.tokens =
        ((t.populatedCategories.map fun name => (t.inCategory name).count).sum : Nat)) ∧
    (∀ name ∈ t.populatedCategories, ∃ k, name = camelCase k.name ∧ t.has k = true ∧
      ∀ name', name'.map Char.toLower = name.map Char.toLower →
        Category.ofName? name' = some k ∧ t.inCategory name' = t.only k ∧
        ∀ k', (t.inCategory name').part k' = if k' = k then t.part k else .null) ∧
    ∀ name, (t.inCategory name).inCategory name = t.inCategory name := by
  refine ⟨fun kind fields => bears_of_inside (gives_leafy_ofSource s t h), ?_, ?_,
    inCategory_inCategory t⟩
  · rw [factsOf, h]
    refine ⟨_, rfl, rfl, ?_, ?_⟩
    · exact congrArg Int.ofNat (leafCount_node t).symm
    · exact congrArg Int.ofNat (count_eq_sum t)
  · intro name hname
    obtain ⟨k, hk, rfl⟩ := List.mem_map.mp hname
    have hhas : t.has k = true := (List.mem_filter.mp hk).2
    refine ⟨k, rfl, hhas, fun name' hcase => ?_⟩
    have hselected := inCategory_of_name hhas hcase
    exact ⟨ofName?_of_name hcase, hselected, fun k' => hselected ▸ part_only t k k'⟩

/-- A block of spacing and one of layers: three leaves, two in the one and one in the other. -/
theorem tokens_accounted_of_twoCategories :
    ∃ t, ofSource
        "spacing: \x7b md: '8px', gridSize: 8 \x7d, zIndex: \x7b modal: 1050 \x7d".toList = .ok t ∧
      t.populatedCategories = ["spacing".toList, "zIndex".toList] ∧ t.node.leafCount = 3 ∧
      (t.inCategory "spacing".toList).count + (t.inCategory "zIndex".toList).count = 3 ∧
      t.inCategory "ZINDEX".toList = t.only .zIndex := by
  have hfacts : factsOf
      "spacing: \x7b md: '8px', gridSize: 8 \x7d, zIndex: \x7b modal: 1050 \x7d".toList =
    .ok ⟨"Grafana Theme".toList, "light".toList, "1.0.0".toList, 3,
      ["spacing".toList, "zIndex".toList], false, false, true⟩ := by
    rw [String.toList_ofList]
    decide +kernel
  obtain ⟨t, h⟩ := exists_ofSource hfacts
  obtain ⟨-, ⟨facts, hfacts', hcategories, hleaves, hsum⟩, hselect, -⟩ := tokens_accounted h
  cases hfacts.symm.trans hfacts'
  rw [← hcategories] at hsum
  have htotal : 3 = (t.inCategory "spacing".toList).count +
    ((t.inCategory "zIndex".toList).count + 0) := Int.ofNat.inj hsum
  obtain ⟨k, -, -, hcase⟩ := hselect "zIndex".toList (hcategories ▸ .tail _ (.head _))
  obtain ⟨haccepted, hselected, -⟩ := hcase "ZINDEX".toList (by decide)
  cases haccepted
  exact ⟨t, h, hcategories.symm, (Int.ofNat.inj hleaves).symm, htotal.symm, hselected⟩

end Theme

end ComponentCatalog
