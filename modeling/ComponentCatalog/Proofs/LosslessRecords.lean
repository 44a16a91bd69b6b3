import ComponentCatalog.Library.Search
import ComponentCatalog.Record
import ComponentCatalog.Proofs.WireForm

/-!
Records are known by their wire forms. No two names of the fields of a class are the same in camel
case, so what a field holds can be told from the member of its name, or from the lack of one.
-/
namespace ComponentCatalog

namespace Node

@[simp] theorem isPlain_bool (b : Bool) : (Node.bool b).IsPlain := trivial
@[simp] theorem isPlain_int (n : Int) : (Node.int n).IsPlain := trivial
@[simp] theorem isPlain_float (x : Float) : (Node.float x).IsPlain := trivial
@[simp] theorem isPlain_text (s : Text) : (Node.text s).IsPlain := trivial

@[simp] theorem isPlain_texts (items : List Text) : (Node.texts items).IsPlain := by
  rw [texts, IsPlain]
  induction items with
  | nil => trivial
  | cons s items ih => exact ⟨trivial, ih⟩

@[simp] theorem isPlain_textMapping (entries : Entries Text) :
    (Node.textMapping entries).IsPlain := by
  rw [textMapping, IsPlain]
  induction entries with
  | nil => trivial
  | cons entry entries ih => exact ⟨trivial, ih⟩

@[simp] theorem isPlain_optional {α : Type} {form : α → Node} (h : ∀ a, (form a).IsPlain)
    (value? : Option α) : (Node.optional form value?).IsPlain := by
  cases value? with
  | none => trivial
  | some a => exact h a

end Node

mutual

@[simp] theorem Value.isPlain_node : ∀ v : Value, v.node.IsPlain
  | .text _ | .int _ | .float _ | .bool _ => trivial
  | .mapping entries => Value.entriesPlain_entryNodes entries

theorem Value.entriesPlain_entryNodes :
    ∀ entries : List (Text × Value), Node.EntriesPlain (Value.entryNodes entries)
  | [] => trivial
  | (_, v) :: entries => ⟨v.isPlain_node, Value.entriesPlain_entryNodes entries⟩

end

mutual

theorem Value.eq_of_node : ∀ {v v' : Value}, v.node = v'.node → v = v'
  | .text _, .text _, h | .int _, .int _, h | .float _, .float _, h | .bool _, .bool _, h => by
    cases h
    rfl
  | .mapping _, .mapping _, h =>
    congrArg Value.mapping (Value.eq_of_entryNodes (Node.mapping.inj h))

theorem Value.eq_of_entryNodes : ∀ {entries entries' : List (Text × Value)},
    Value.entryNodes entries = Value.entryNodes entries' → entries = entries'
  | [], [], _ => rfl
  | (key, v) :: entries, (key', v') :: entries', h => by
    obtain ⟨hentry, hentries⟩ := List.cons.inj h
    obtain ⟨rfl, hv⟩ := Prod.mk.inj hentry
    rw [Value.eq_of_node hv, Value.eq_of_entryNodes hentries]

end

namespace Node

@[simp] theorem texts_inj {items items' : List Text} :
    Node.texts items = .texts items' ↔ items = items' := by
  rw [texts, texts, Node.list.injEq]
  exact (List.map_injective_iff.mpr fun _ _ => Node.text.inj).eq_iff

@[simp] theorem textMapping_inj {entries entries' : Entries Text} :
    Node.textMapping entries = .textMapping entries' ↔ entries = entries' := by
  rw [textMapping, textMapping, Node.mapping.injEq]
  refine (List.map_injective_iff.mpr ?_).eq_iff
  rintro ⟨key, s⟩ ⟨key', s'⟩ h
  cases h
  rfl

/-- The records of the form are known by their wire forms, and none is null. -/
structure Lossless {α : Type} (form : α → Node) : Prop where
  injective : Function.Injective form
  ne_null : ∀ a, form a ≠ .null
  kept : ∀ a a', Kept (form a) (form a')

theorem lossless_int : Lossless Node.int :=
  ⟨fun _ _ => Node.int.inj, nofun, fun _ _ => kept_of_isPlain trivial trivial⟩

theorem lossless_float : Lossless Node.float :=
  ⟨fun _ _ => Node.float.inj, nofun, fun _ _ => kept_of_isPlain trivial trivial⟩

theorem lossless_text : Lossless Node.text :=
  ⟨fun _ _ => Node.text.inj, nofun, fun _ _ => kept_of_isPlain trivial trivial⟩

theorem lossless_texts : Lossless Node.texts :=
  ⟨fun _ _ => texts_inj.mp, nofun, fun _ _ => kept_of_isPlain (isPlain_texts _) (isPlain_texts _)⟩

theorem lossless_valueMapping : Lossless valueMapping :=
  ⟨fun _ _ h => Value.mapping.inj (Value.eq_of_node h), nofun,
    fun _ _ => kept_of_isPlain (Value.isPlain_node _) (Value.isPlain_node _)⟩

namespace Lossless

variable {α : Type} {form : α → Node}

theorem eq_of_payload (h : Lossless form) {a a' : α}
    (hpayload : (form a).payload = (form a').payload) : a = a' := by
  refine h.injective (h.kept a a' false ?_).eq
  rw [hpayload]
  exact Same.refl _

theorem list_inj (h : Lossless form) {items items' : List α} :
    Node.list (items.map form) = .list (items'.map form) ↔ items = items' := by
  rw [Node.list.injEq]
  exact (List.map_injective_iff.mpr h.injective).eq_iff

theorem optional_inj (h : Lossless form) {value? value?' : Option α} :
    Node.optional form value? = .optional form value?' ↔ value? = value?' := by
  cases value? with
  | none =>
    cases value?' with
    | none => simp
    | some a' => simpa [optional] using (h.ne_null a').symm
  | some a =>
    cases value?' with
    | none => simpa [optional] using h.ne_null a
    | some a' => simpa [optional] using h.injective.eq_iff

/-- A record is known by its wire form if each of its fields is and their names differ on the
wire. -/
theorem recordOf {kind : String} {fields : α → List (String × Node)}
    (hinjective : ∀ a a', fields a = fields a' → a = a')
    (hkept : ∀ a a', List.Forall₂ (fun field field' => field.1 = field'.1 ∧ Kept field.2 field'.2)
      (fields a) (fields a'))
    (hnames : ∀ a, ((fields a).map fun field => camelCase field.1.toList).Nodup) :
    Lossless fun a => .recordOf kind (fields a) where
  injective a a' h := by
    refine hinjective a a' (List.map_injective_iff.mpr ?_ (Node.record.inj h).2)
    rintro ⟨name, value⟩ ⟨name', value'⟩ hfield
    obtain ⟨hname, rfl⟩ := Prod.mk.inj hfield
    rw [String.toList_inj.mp hname]
  ne_null := nofun
  kept a a' := kept_recordOf (hkept a a') (hnames a)

end Lossless

@[simp] theorem optional_text_inj {text? text?' : Option Text} :
    Node.optional .text text? = .optional .text text?' ↔ text? = text?' :=
  lossless_text.optional_inj

end Node

open Node

namespace Component

theorem Property.lossless : Lossless Property.node := by
  refine .recordOf (fun p p' h => ?_) (fun p p' => ?_) fun p => ?_
  · cases p
    cases p'
    simpa using h
  · simp
  · simp only [List.map_cons, List.map_nil]
    decide

theorem Export.lossless : Lossless Export.node := by
  refine .recordOf (fun e e' h => ?_) (fun e e' => ?_) fun e => ?_
  · cases e
    cases e'
    simpa using h
  · simp
  · simp only [List.map_cons, List.map_nil]
    decide

theorem Import.lossless : Lossless Import.node := by
  refine .recordOf (fun i i' h => ?_) (fun i i' => ?_) fun i => ?_
  · cases i
    cases i'
    simpa using h
  · simp
  · simp only [List.map_cons, List.map_nil]
    decide

theorem lossless : Lossless node := by
  refine .recordOf (fun c c' h => ?_) (fun c c' => ?_) fun c => ?_
  · cases c
    cases c'
    simpa [Property.lossless.list_inj, Export.lossless.list_inj, Import.lossless.list_inj] using h
  · simp [kept_list_map Property.lossless.kept, kept_list_map Export.lossless.kept,
      kept_list_map Import.lossless.kept]
  · simp only [List.map_cons, List.map_nil]
    decide

end Component

theorem Story.lossless : Lossless Story.node := by
  refine .recordOf (fun s s' h => ?_) (fun s s' => ?_) fun s => ?_
  · cases s
    cases s'
    simpa [lossless_valueMapping.optional_inj] using h
  · simp [kept_optional lossless_valueMapping.kept]
  · simp only [List.map_cons, List.map_nil]
    decide

theorem StorySettings.lossless : Lossless StorySettings.node := by
  refine .recordOf (fun s s' h => ?_) (fun s s' => ?_) fun s => ?_
  · cases s
    cases s'
    simpa [lossless_texts.optional_inj, lossless_valueMapping.optional_inj,
      Story.lossless.list_inj] using h
  · simp [kept_optional lossless_valueMapping.kept, kept_list_map Story.lossless.kept]
  · simp only [List.map_cons, List.map_nil]
    decide

theorem StoryFile.lossless : Lossless StoryFile.node := by
  refine .recordOf (fun f f' h => ?_) (fun f f' => ?_) fun f => ?_
  · cases f
    cases f'
    simpa [StorySettings.lossless.injective.eq_iff] using h
  · simp [StorySettings.lossless.kept]
  · simp only [List.map_cons, List.map_nil]
    decide

theorem Example.lossless : Lossless Example.node := by
  refine .recordOf (fun e e' h => ?_) (fun e e' => ?_) fun e => ?_
  · cases e
    cases e'
    simpa using h
  · simp
  · simp only [List.map_cons, List.map_nil]
    decide

theorem Section.lossless : Lossless Section.node := by
  refine .recordOf (fun s s' h => ?_) (fun s s' => ?_) fun s => ?_
  · cases s
    cases s'
    simpa [Example.lossless.list_inj] using h
  · simp [kept_list_map Example.lossless.kept]
  · simp only [List.map_cons, List.map_nil]
    decide

theorem Document.lossless : Lossless Document.node := by
  refine .recordOf (fun d d' h => ?_) (fun d d' => ?_) fun d => ?_
  · cases d
    cases d'
    simpa [Example.lossless.list_inj, Section.lossless.list_inj] using h
  · simp [kept_list_map Example.lossless.kept, kept_list_map Section.lossless.kept]
  · simp only [List.map_cons, List.map_nil]
    decide

theorem DocumentFacts.lossless : Lossless DocumentFacts.node := by
  refine .recordOf (fun f f' h => ?_) (fun f f' => ?_) fun f => ?_
  · cases f
    cases f'
    simpa using h
  · simp
  · simp only [List.map_cons, List.map_nil]
    decide

theorem DocumentSummary.lossless : Lossless DocumentSummary.node := by
  refine .recordOf (fun s s' h => ?_) (fun s s' => ?_) fun s => ?_
  · cases s
    cases s'
    simpa [DocumentFacts.lossless.injective.eq_iff] using h
  · simp [DocumentFacts.lossless.kept]
  · simp only [List.map_cons, List.map_nil]
    decide

theorem SearchResult.lossless : Lossless SearchResult.node := by
  refine .recordOf (fun r r' h => ?_) (fun r r' => ?_) fun r => ?_
  · cases r
    cases r'
    simpa using h
  · simp
  · simp only [List.map_cons, List.map_nil]
    decide

/-- A family that lists all of its leaves, with names that differ on the wire. -/
class LawfulFamily (ι : Type) [TokenFamily ι] : Prop where
  mem_all : ∀ leaf : ι, leaf ∈ (TokenFamily.all : List ι)
  nodup_names :
    ((TokenFamily.all : List ι).map fun leaf => camelCase (TokenFamily.name leaf).toList).Nodup

namespace Scale

variable {ι α : Type} [TokenFamily ι] {form : α → Node}

theorem names_fields (scale : Scale ι α) :
    ((scale.fields form).map fun field => camelCase field.1.toList) =
      (TokenFamily.all : List ι).map fun leaf => camelCase (TokenFamily.name leaf).toList := by
  rw [fields, List.map_map]
  rfl

theorem length_fields (scale : Scale ι α) :
    (scale.fields form).length = (TokenFamily.all : List ι).length := List.length_map _

theorem kept_fields (h : Lossless form) (scale scale' : Scale ι α) :
    List.Forall₂ (fun field field' => field.1 = field'.1 ∧ Kept field.2 field'.2)
      (scale.fields form) (scale'.fields form) := by
  rw [fields, fields, List.forall₂_map_left_iff, List.forall₂_map_right_iff, List.forall₂_same]
  exact fun leaf _ => ⟨rfl, Node.kept_optional h.kept _ _⟩

variable [LawfulFamily ι]

theorem fields_inj (h : Lossless form) {scale scale' : Scale ι α} :
    scale.fields form = scale'.fields form ↔ scale = scale' := by
  refine ⟨fun heq => funext fun leaf => ?_, fun heq => heq ▸ rfl⟩
  have hleaf := List.map_inj_left.mp heq leaf (LawfulFamily.mem_all leaf)
  exact h.optional_inj.mp (Prod.mk.inj hleaf).2

theorem lossless (h : Lossless form) (kind : String) :
    Lossless (Scale.node kind form : Scale ι α → Node) :=
  .recordOf (fun _ _ => (fields_inj h).mp) (kept_fields h) fun scale =>
    (names_fields scale).symm ▸ LawfulFamily.nodup_names

theorem optional_inj (h : Lossless form) (kind : String) {scale? scale?' : Option (Scale ι α)} :
    Node.optional (Scale.node kind form) scale? = .optional (Scale.node kind form) scale?' ↔
      scale? = scale?' := (lossless h kind).optional_inj

theorem kept_optional (h : Lossless form) (kind : String) (scale? scale?' : Option (Scale ι α)) :
    Kept (.optional (Scale.node kind form) scale?) (.optional (Scale.node kind form) scale?') :=
  Node.kept_optional (lossless h kind).kept scale? scale?'

end Scale

namespace Theme

instance : LawfulFamily ColorFamily := ⟨fun leaf => by cases leaf <;> decide, by decide⟩
instance : LawfulFamily ColorLeaf := ⟨fun leaf => by cases leaf <;> decide, by decide⟩
instance : LawfulFamily TextLeaf := ⟨fun leaf => by cases leaf <;> decide, by decide⟩
instance : LawfulFamily BackgroundLeaf := ⟨fun leaf => by cases leaf <;> decide, by decide⟩
instance : LawfulFamily BorderLeaf := ⟨fun leaf => by cases leaf <;> decide, by decide⟩
instance : LawfulFamily ActionLeaf := ⟨fun leaf => by cases leaf <;> decide, by decide⟩
instance : LawfulFamily FontFamilyLeaf := ⟨fun leaf => by cases leaf <;> decide, by decide⟩
instance : LawfulFamily FontSizeLeaf := ⟨fun leaf => by cases leaf <;> decide, by decide⟩
instance : LawfulFamily FontWeightLeaf := ⟨fun leaf => by cases leaf <;> decide, by decide⟩
instance : LawfulFamily LineHeightLeaf := ⟨fun leaf => by cases leaf <;> decide, by decide⟩
instance : LawfulFamily LetterSpacingLeaf := ⟨fun leaf => by cases leaf <;> decide, by decide⟩
instance : LawfulFamily SizeLeaf := ⟨fun leaf => by cases leaf <;> decide, by decide⟩
instance : LawfulFamily ShadowLeaf := ⟨fun leaf => by cases leaf <;> decide, by decide⟩
instance : LawfulFamily RadiusLeaf := ⟨fun leaf => by cases leaf <;> decide, by decide⟩
instance : LawfulFamily LayerLeaf := ⟨fun leaf => by cases leaf <;> decide, by decide⟩

theorem Colors.lossless : Lossless Colors.node := by
  have hscale : Lossless (Scale.node "ColorScale" .text : Scale ColorLeaf Text → Node) :=
    Scale.lossless lossless_text _
  refine .recordOf (fun c c' h => ?_) (fun c c' => ?_) fun c => ?_
  · obtain ⟨hfamilies, hparts⟩ :=
      List.append_inj h (by rw [Scale.length_fields, Scale.length_fields])
    cases c
    cases c'
    obtain rfl := (Scale.fields_inj hscale).mp hfamilies
    simpa [Scale.optional_inj lossless_text] using hparts
  · refine List.rel_append (Scale.kept_fields hscale _ _) ?_
    simp [Scale.kept_optional lossless_text]
  · rw [List.map_append, Scale.names_fields]
    simp only [List.map_cons, List.map_nil]
    decide

theorem Typography.lossless : Lossless Typography.node := by
  refine .recordOf (fun t t' h => ?_) (fun t t' => ?_) fun t => ?_
  · cases t
    cases t'
    simpa [Scale.optional_inj lossless_text, Scale.optional_inj lossless_int,
      Scale.optional_inj lossless_float] using h
  · simp [Scale.kept_optional lossless_text, Scale.kept_optional lossless_int,
      Scale.kept_optional lossless_float]
  · simp only [List.map_cons, List.map_nil]
    decide

theorem Spacing.lossless : Lossless Spacing.node := by
  refine .recordOf (fun s s' h => ?_) (fun s s' => ?_) fun s => ?_
  · obtain ⟨hsizes, hgrid⟩ := List.append_inj h (by rw [Scale.length_fields, Scale.length_fields])
    cases s
    cases s'
    obtain rfl := (Scale.fields_inj lossless_text).mp hsizes
    simpa [lossless_int.optional_inj] using hgrid
  · refine List.rel_append (Scale.kept_fields lossless_text _ _) ?_
    simp
  · rw [List.map_append, Scale.names_fields]
    simp only [List.map_cons, List.map_nil]
    decide

theorem lossless : Lossless node := by
  refine .recordOf (fun t t' h => ?_) (fun t t' => ?_) fun t => ?_
  · cases t
    cases t'
    simpa [shadowNode, radiusNode, layerNode, breakpointNode, Colors.lossless.optional_inj,
      Typography.lossless.optional_inj, Spacing.lossless.optional_inj,
      Scale.optional_inj lossless_text, Scale.optional_inj lossless_int] using h
  · simp [shadowNode, radiusNode, layerNode, breakpointNode, kept_optional Colors.lossless.kept,
      kept_optional Typography.lossless.kept, kept_optional Spacing.lossless.kept,
      Scale.kept_optional lossless_text, Scale.kept_optional lossless_int]
  · simp only [List.map_cons, List.map_nil]
    decide

theorem Facts.lossless : Lossless Facts.node := by
  refine .recordOf (fun f f' h => ?_) (fun f f' => ?_) fun f => ?_
  · cases f
    cases f'
    simpa using h
  · simp
  · simp only [List.map_cons, List.map_nil]
    decide

end Theme

namespace DependencyTree

mutual

theorem eq_of_record : ∀ {t t' : DependencyTree}, t.record = t'.record → t = t'
  | .node _ _ _ _, .node _ _ _ _, h => by
    simp only [record, recordOf, List.map_cons, List.map_nil, Node.record.injEq, List.cons.injEq,
      Prod.mk.injEq, Node.text.injEq, Node.list.injEq, texts_inj, true_and, and_true] at h
    obtain ⟨rfl, rfl, rfl, hchildren⟩ := h
    rw [eq_of_records hchildren]

theorem eq_of_records : ∀ {ts ts' : List DependencyTree}, records ts = records ts' → ts = ts'
  | [], [], _ => rfl
  | _ :: _, _ :: _, h => by
    obtain ⟨htree, htrees⟩ := List.cons.inj h
    rw [eq_of_record htree, eq_of_records htrees]

end

mutual

theorem kept_record : ∀ t t' : DependencyTree, Kept t.record t'.record
  | .node _ _ _ children, .node _ _ _ children' => by
    refine kept_recordOf ?_ (by simp only [List.map_cons, List.map_nil]; decide)
    simp [kept_records children children']

theorem kept_records :
    ∀ ts ts' : List DependencyTree, Kept (.list (records ts)) (.list (records ts'))
  | [], [] => kept_of_isPlain trivial trivial
  | [], _ :: _ => kept_nil_cons
  | _ :: _, [] => kept_cons_nil
  | t :: ts, t' :: ts' => kept_list_cons (kept_record t t') (kept_records ts ts')

end

theorem lossless : Lossless record where
  injective _ _ := eq_of_record
  ne_null
    | .node _ _ _ _ => nofun
  kept := kept_record

end DependencyTree

/-- A class of records. -/
structure RecordForm where
  Record : Type
  node : Record → Node

/-- The classes of the records that the catalogue extracts and presents, the parts of records among
them. -/
def recordForms : List RecordForm :=
  [⟨_, Component.Property.node⟩, ⟨_, Component.Export.node⟩, ⟨_, Component.Import.node⟩,
    ⟨_, Component.node⟩,
    ⟨_, Story.node⟩, ⟨_, StorySettings.node⟩, ⟨_, StoryFile.node⟩,
    ⟨_, Example.node⟩, ⟨_, Section.node⟩, ⟨_, Document.node⟩, ⟨_, DocumentFacts.node⟩,
    ⟨Scale Theme.ColorLeaf Text, Scale.node "ColorScale" .text⟩,
    ⟨Scale Theme.TextLeaf Text, Scale.node "TextColors" .text⟩,
    ⟨Scale Theme.BackgroundLeaf Text, Scale.node "BackgroundColors" .text⟩,
    ⟨Scale Theme.BorderLeaf Text, Scale.node "BorderColors" .text⟩,
    ⟨Scale Theme.ActionLeaf Text, Scale.node "ActionColors" .text⟩,
    ⟨_, Theme.Colors.node⟩,
    ⟨Scale Theme.FontFamilyLeaf Text, Scale.node "FontFamily" .text⟩,
    ⟨Scale Theme.FontSizeLeaf Text, Scale.node "FontSizeScale" .text⟩,
    ⟨Scale Theme.FontWeightLeaf Int, Scale.node "FontWeightScale" .int⟩,
    ⟨Scale Theme.LineHeightLeaf Float, Scale.node "LineHeightScale" .float⟩,
    ⟨Scale Theme.LetterSpacingLeaf Text, Scale.node "LetterSpacingScale" .text⟩,
    ⟨_, Theme.Typography.node⟩, ⟨_, Theme.Spacing.node⟩,
    ⟨_, Theme.shadowNode⟩, ⟨_, Theme.radiusNode⟩, ⟨_, Theme.layerNode⟩, ⟨_, Theme.breakpointNode⟩,
    ⟨_, Theme.node⟩, ⟨_, Theme.Facts.node⟩,
    ⟨_, DocumentSummary.node⟩, ⟨_, DependencyTree.record⟩, ⟨_, SearchResult.node⟩]

theorem lossless_of_mem_recordForms : ∀ form ∈ recordForms, Lossless form.node := by
  simp only [recordForms, List.forall_mem_cons]
  exact ⟨Component.Property.lossless, Component.Export.lossless, Component.Import.lossless,
    Component.lossless, Story.lossless, StorySettings.lossless, StoryFile.lossless,
    Example.lossless, Section.lossless, Document.lossless, DocumentFacts.lossless,
    Scale.lossless lossless_text _, Scale.lossless lossless_text _, Scale.lossless lossless_text _,
    Scale.lossless lossless_text _, Scale.lossless lossless_text _, Theme.Colors.lossless,
    Scale.lossless lossless_text _, Scale.lossless lossless_text _, Scale.lossless lossless_int _,
    Scale.lossless lossless_float _, Scale.lossless lossless_text _, Theme.Typography.lossless,
    Theme.Spacing.lossless, Scale.lossless lossless_text _, Scale.lossless lossless_text _,
    Scale.lossless lossless_int _, Scale.lossless lossless_int _, Theme.lossless,
    Theme.Facts.lossless, DocumentSummary.lossless, DependencyTree.lossless, SearchResult.lossless,
    List.forall_mem_nil _⟩

/-- Nothing but null is lost on the wire: two records of one class with equal wire forms are equal,
also where the order of keys does not count. A wire form is its own wire form, no record has a null
member in it, and the keys of mappings stay as they are, in order; a node without records, as the
mappings of text and of mined values are, does not change at all. -/
theorem payload_lossless :
    (∀ form ∈ recordForms, ∀ r r' : form.Record,
      ((form.node r).payload = (form.node r').payload → r = r') ∧
      ((form.node r).payload.Same true (form.node r').payload →
        (form.node r).Same true (form.node r'))) ∧
    (∀ n : Node, (ofJson n.payload).payload = n.payload) ∧
    (∀ (kind : Text) (fields : List (Text × Node)), ∃ members,
      (Node.record kind fields).payload = .object members ∧ ∀ member ∈ members, member.2 ≠ .null) ∧
    (∀ entries : List (Text × Node), (Node.mapping entries).payload =
      .object (entries.map fun (key, value) => (key, value.payload))) ∧
    (∀ n : Node, n.IsPlain → ofJson n.payload = n) ∧
    (∀ entries : Entries Value, (valueMapping entries).IsPlain) ∧
    ∀ entries : Entries Text, (textMapping entries).IsPlain := by
  refine ⟨fun form hform r r' => ?_, fun n => payload_ofJson n.payload, fun kind fields => ?_,
    fun entries => ?_, fun n => IsPlain.ofJson_payload, fun entries => Value.isPlain_node _,
    isPlain_textMapping⟩
  · have hlossless := lossless_of_mem_recordForms form hform
    exact ⟨hlossless.eq_of_payload, hlossless.kept r r' true⟩
  · exact ⟨payloadFields fields, rfl, ne_null_of_mem_payloadFields⟩
  · exact congrArg Json.object (payloadEntries_eq_map entries)

/-- Two stories with their arguments in different orders, of which one is named in snake case and
one as the first would be in camel case. -/
theorem payload_lossless_arguments :
    let story (args : Entries Value) : Story :=
      ⟨"Open".toList, "\x7b\x7d".toList, some args, none, none⟩
    let s := story [("is_open".toList, .bool true), ("isOpen".toList, .int 1)]
    let s' := story [("isOpen".toList, .int 1), ("is_open".toList, .bool true)]
    ⟨Story, Story.node⟩ ∈ recordForms ∧ s.node.payload.Same true s'.node.payload ∧
      s.node.Same true s'.node := by
  intro story s s'
  have hform : ⟨Story, Story.node⟩ ∈ recordForms := by simp [recordForms]
  have hargs : SameEntries true [("is_open".toList, .bool true), ("isOpen".toList, .int 1)]
      [("isOpen".toList, .int 1), ("is_open".toList, .bool true)] :=
    @SameEntries.cons true _ _ _ _ [("isOpen".toList, .int 1)] [] nofun (.bool true) (.refl _)
  have hpayload : s.node.payload.Same true s'.node.payload :=
    .mapping (.cons (fun _ => rfl) (.text _) (.cons (fun _ => rfl) (.text _)
      (.cons (fun _ => rfl) (.mapping hargs) .nil)))
  exact ⟨hform, hpayload, (payload_lossless.1 _ hform s s').2 hpayload⟩

end ComponentCatalog
