import ComponentCatalog.Present.Presenter
import ComponentCatalog.Proofs.JsonDocuments
import ComponentCatalog.Proofs.SectionSpans
import ComponentCatalog.Proofs.ThemeIntegers

/-!
Which extracted records are presented as JSON documents of the grammar. A component has no numbers,
those of a document are counts of its lines and marks, and the integers of a theme are short; a line
height of a theme and the numbers of a story may be too large.
-/
namespace ComponentCatalog

open Json Number

namespace Node

/-- A property of numbers: values that are none and have no parts have it. -/
structure OfNumbers (P : Json → Prop) : Prop where
  null : P .null
  bool (b : Bool) : P (.bool b)
  text (s : Text) : P (.text s)

/-- The value is no infinite or undefined number. -/
def IsFinite (v : Json) : Prop := ∀ x, v = .float x → x.isFinite = true

instance : DecidablePred IsFinite
  | .float x => decidable_of_iff (x.isFinite = true)
      ⟨fun h _ hv => Json.float.inj hv ▸ h, fun h => h x rfl⟩
  | .null | .bool _ | .int _ | .text _ | .list _ | .object _ => .isTrue (by simp [IsFinite])

/-- The value is no integer of more digits than are written. -/
def IsShort (v : Json) : Prop := ∀ n, v = .int n → ¬IsLong n

theorem ofNumbers_isFinite : OfNumbers IsFinite where
  null := by simp [IsFinite]
  bool := by simp [IsFinite]
  text := by simp [IsFinite]

theorem ofNumbers_isShort : OfNumbers IsShort where
  null := by simp [IsShort]
  bool := by simp [IsShort]
  text := by simp [IsShort]

/-- Every value without parts in the wire form of the node has the property. -/
def Each (P : Json → Prop) (n : Node) : Prop := ∀ v ∈ n.payload.leaves, P v

variable {P : Json → Prop}

theorem allFinite_iff (n : Node) : AllFinite n.payload.leaves ↔ n.Each IsFinite :=
  ⟨fun h _ hv x hx => h x (hx ▸ hv), fun h x hx => h _ hx x rfl⟩

theorem noneLong_iff (n : Node) : NoneLong n.payload.leaves ↔ n.Each IsShort :=
  ⟨fun h _ hv m hm => h m (hm ▸ hv), fun h m hm => h _ hm m rfl⟩

theorem each_null (hP : OfNumbers P) : Each P .null := List.forall_mem_singleton.mpr hP.null

theorem each_bool (hP : OfNumbers P) (b : Bool) : Each P (.bool b) :=
  List.forall_mem_singleton.mpr (hP.bool b)

theorem each_text (hP : OfNumbers P) (s : Text) : Each P (.text s) :=
  List.forall_mem_singleton.mpr (hP.text s)

theorem each_int {n : Int} (h : P (.int n)) : Each P (.int n) := List.forall_mem_singleton.mpr h

theorem each_float {x : Float} (h : P (.float x)) : Each P (.float x) :=
  List.forall_mem_singleton.mpr h

theorem each_list {items : List Node} (h : ∀ item ∈ items, item.Each P) : Each P (.list items) := by
  change ∀ v ∈ leavesOfItems (payloads items), P v
  induction items with
  | nil => exact List.forall_mem_nil _
  | cons item items ih =>
    rw [payloads, leavesOfItems, List.forall_mem_append]
    exact ⟨h item List.mem_cons_self, ih fun item hitem => h item (.tail _ hitem)⟩

theorem each_mapping {entries : List (Text × Node)} (h : ∀ entry ∈ entries, entry.2.Each P) :
    Each P (.mapping entries) := by
  change ∀ v ∈ leavesOfMembers (payloadEntries entries), P v
  induction entries with
  | nil => exact List.forall_mem_nil _
  | cons entry entries ih =>
    rw [payloadEntries, leavesOfMembers, List.forall_mem_append]
    exact ⟨h entry List.mem_cons_self, ih fun entry hentry => h entry (.tail _ hentry)⟩

theorem each_record {kind : Text} {fields : List (Text × Node)}
    (h : ∀ field ∈ fields, field.2.Each P) : Each P (.record kind fields) := by
  change ∀ v ∈ leavesOfMembers (payloadFields fields), P v
  induction fields with
  | nil => exact List.forall_mem_nil _
  | cons field fields ih =>
    have hrest := ih fun field hfield => h field (.tail _ hfield)
    rw [payloadFields.eq_def]
    split
    next heq => cases heq
    next heq =>
      cases heq
      exact hrest
    next heq =>
      cases heq
      rw [leavesOfMembers, List.forall_mem_append]
      exact ⟨h _ List.mem_cons_self, hrest⟩

theorem each_recordOf {kind : String} {fields : List (String × Node)}
    (h : ∀ field ∈ fields, field.2.Each P) : Each P (.recordOf kind fields) := by
  apply each_record
  intro field hfield
  obtain ⟨field, hmem, rfl⟩ := List.mem_map.mp hfield
  exact h field hmem

theorem each_optional {α : Type} {form : α → Node} (hP : OfNumbers P) {value? : Option α}
    (h : ∀ value, value? = some value → (form value).Each P) :
    Each P (.optional form value?) := by
  cases value? with
  | none => exact each_null hP
  | some value => exact h value rfl

theorem each_optional_text (hP : OfNumbers P) (text? : Option Text) :
    Each P (.optional .text text?) :=
  each_optional hP fun text _ => each_text hP text

theorem each_texts (hP : OfNumbers P) (items : List Text) : Each P (.texts items) := by
  apply each_list
  intro item hitem
  obtain ⟨s, -, rfl⟩ := List.mem_map.mp hitem
  exact each_text hP s

theorem each_textMapping (hP : OfNumbers P) (entries : Entries Text) :
    Each P (.textMapping entries) := by
  apply each_mapping
  intro entry hentry
  obtain ⟨entry, -, rfl⟩ := List.mem_map.mp hentry
  exact each_text hP entry.2

theorem each_list_map {α : Type} {form : α → Node} (h : ∀ a, (form a).Each P) (items : List α) :
    Each P (.list (items.map form)) := by
  apply each_list
  intro item hitem
  obtain ⟨a, -, rfl⟩ := List.mem_map.mp hitem
  exact h a

end Node

open Node

namespace Component

variable {P : Json → Prop}

theorem each_node (hP : OfNumbers P) (c : Component) : c.node.Each P := by
  have hproperty (p : Property) : p.node.Each P := by
    apply each_recordOf
    simp [each_text hP, each_bool hP, each_optional_text hP]
  have hexport (e : Export) : e.node.Each P := by
    apply each_recordOf
    simp [each_text hP, each_bool hP]
  have himport (i : Import) : i.node.Each P := by
    apply each_recordOf
    simp [each_text hP, each_bool hP, each_texts hP]
  apply each_recordOf
  simp [each_text hP, each_bool hP, each_optional_text hP, each_texts hP,
    each_list_map hproperty, each_list_map hexport, each_list_map himport]

end Component

namespace Document

variable {P : Json → Prop}

/-- The numbers of a document are the levels and the line numbers of its sections. -/
theorem each_node (hP : OfNumbers P) {d : Document}
    (hint : ∀ s ∈ d.sections, P (.int s.level) ∧ P (.int s.startLine) ∧ P (.int s.endLine)) :
    d.node.Each P := by
  have hexample (e : Example) : e.node.Each P := by
    apply each_recordOf
    simp [each_text hP, each_optional_text hP]
  have hsections : Each P (.list (d.sections.map Section.node)) := by
    apply each_list
    intro item hitem
    obtain ⟨s, hs, rfl⟩ := List.mem_map.mp hitem
    obtain ⟨hlevel, hstart, hend⟩ := hint s hs
    apply each_recordOf
    simp [each_text hP, each_int hlevel, each_int hstart, each_int hend, each_list_map hexample]
  apply each_recordOf
  simp [each_text hP, each_texts hP, each_textMapping hP, hsections, each_list_map hexample]

/-- A section has no more lines than its document, and no more marks than a heading may have. -/
theorem each_node_ofText (component : Text) {s : Text} (h : ¬IsLong (Text.lines s).length) :
    (ofText component s).node.Each IsShort := by
  apply each_node ofNumbers_isShort
  intro found hfound
  have hwithin := within_sectionsIn s found hfound
  have hshort {n : Int} (hn : n.natAbs ≤ (Text.lines s).length) : IsShort (.int n) := by
    intro m hm
    cases hm
    apply not_isLong_of_le _ h
    exact hn
  have hsix : ¬IsLong 6 := by
    unfold IsLong
    decide
  obtain ⟨hone, hlevel, hstart, hordered, hend⟩ := hwithin
  refine ⟨fun n hn => ?_, hshort (by omega), hshort (by omega)⟩
  cases hn
  exact not_isLong_of_le (by omega) hsix

end Document

namespace Theme

variable {P : Json → Prop}

theorem each_fields {ι α : Type} [TokenFamily ι] {form : α → Node} (hP : OfNumbers P)
    {scale : Scale ι α} (h : scale.Each fun a => (form a).Each P) :
    ∀ field ∈ scale.fields form, field.2.Each P := by
  intro field hfield
  obtain ⟨leaf, -, rfl⟩ := List.mem_map.mp hfield
  exact each_optional hP fun a ha => h leaf a ha

theorem each_scale {ι α : Type} [TokenFamily ι] {form : α → Node} (hP : OfNumbers P) (kind : String)
    {scale : Scale ι α} (h : scale.Each fun a => (form a).Each P) :
    (scale.node kind form).Each P := each_recordOf (each_fields hP h)

theorem each_scale_text {ι : Type} [TokenFamily ι] (hP : OfNumbers P) (kind : String)
    (scale? : Option (Scale ι Text)) : Each P (.optional (Scale.node kind .text) scale?) :=
  each_optional hP fun _ _ => each_scale hP kind fun _ s _ => each_text hP s

/-- The integers of a theme that has short ones are short on the wire as well. -/
theorem each_node (hP : OfNumbers P) (hfloat : ∀ x, P (.float x))
    (hint : ∀ n, ¬IsLong n → P (.int n)) {t : Theme} (h : t.ShortIntegers) : t.node.Each P := by
  have hscale {ι : Type} [TokenFamily ι] (kind : String) {scale : Scale ι Int}
      (hscale : scale.Each fun n => ¬IsLong n) : (scale.node kind .int).Each P :=
    each_scale hP kind fun leaf n hn => each_int (hint n (hscale leaf n hn))
  have hcolors (c : Colors) : c.node.Each P := by
    apply each_recordOf
    rw [List.forall_mem_append]
    refine ⟨each_fields hP fun _ scale _ => each_scale hP _ fun _ s _ => each_text hP s, ?_⟩
    simp [each_scale_text hP]
  have htypography (y : Typography) (hy : t.typography = some y) : y.node.Each P := by
    apply each_recordOf
    have hweight : Each P (.optional (Scale.node "FontWeightScale" .int) y.fontWeight) :=
      each_optional hP fun scale hset => hscale _ (h.fontWeight y hy scale hset)
    have hheight : Each P (.optional (Scale.node "LineHeightScale" .float) y.lineHeight) :=
      each_optional hP fun _ _ => each_scale hP _ fun _ x _ => each_float (hfloat x)
    simp [each_scale_text hP, hweight, hheight]
  have hspacing (s : Spacing) (hs : t.spacing = some s) : s.node.Each P := by
    apply each_recordOf
    rw [List.forall_mem_append]
    refine ⟨each_fields hP fun _ size _ => each_text hP size, List.forall_mem_singleton.mpr ?_⟩
    exact each_optional hP fun n hn => each_int (hint n (h.gridSize s hs n hn))
  apply each_recordOf
  simp only [List.forall_mem_cons]
  exact ⟨each_optional hP fun c _ => hcolors c, each_optional hP htypography,
    each_optional hP hspacing, each_scale_text hP _ _, each_scale_text hP _ _,
    each_optional hP fun scale hset => hscale _ (h.zIndex scale hset),
    each_optional hP fun scale hset => hscale _ (h.breakpoints scale hset), List.forall_mem_nil _⟩

end Theme

theorem render_json_eq_ok_iff (presenter : Presenter) (record : Record) (t : Text) :
    presenter.render record .json = .ok t ↔
      ∃ u, write .document record.node.payload = .ok u ∧ u ++ ['\n'] = t := by
  unfold Presenter.render jsonText
  dsimp only
  cases write .document record.node.payload <;> simp [Except.map, Except.mapError]

/-- Every record that is extracted is presented as a JSON document of the grammar if and only if its
numbers are finite and none of its integers has more digits than are written. That is so for every
component, and for every document unless the number of its lines is too long; a theme has no integer
that is too long. -/
theorem render_json_isDocument_iff (presenter : Presenter) {kind : SourceKind} {name text : Text}
    {record : Record} (h : extract kind name text = .ok record) :
    ((∃ t, presenter.render record .json = .ok t ∧ IsDocument t) ↔
      AllFinite record.node.payload.leaves ∧ NoneLong record.node.payload.leaves) ∧
    (kind = .component →
      AllFinite record.node.payload.leaves ∧ NoneLong record.node.payload.leaves) ∧
    (kind = .docs → AllFinite record.node.payload.leaves ∧
      (¬IsLong (Text.lines text).length → NoneLong record.node.payload.leaves)) ∧
    (kind = .theme → NoneLong record.node.payload.leaves) := by
  simp only [render_json_eq_ok_iff, ← exists_isDocument_iff]
  refine ⟨?_, ?_, ?_, ?_⟩
  · constructor
    · rintro ⟨t, ⟨u, hu, rfl⟩, hdocument⟩
      exact ⟨u, hu, hdocument⟩
    · rintro ⟨u, hu, hdocument⟩
      exact ⟨_, ⟨u, hu, rfl⟩, hdocument⟩
  · rintro rfl
    cases h
    rw [exists_isDocument_iff, allFinite_iff, noneLong_iff]
    exact ⟨Component.each_node ofNumbers_isFinite _, Component.each_node ofNumbers_isShort _⟩
  · rintro rfl
    cases h
    rw [allFinite_iff, noneLong_iff]
    exact ⟨Document.each_node ofNumbers_isFinite fun s _ => by simp [IsFinite],
      Document.each_node_ofText name⟩
  · rintro rfl
    unfold extract at h
    cases ht : Theme.ofSource text with
    | error e =>
      rw [ht] at h
      cases h
    | ok t =>
      rw [ht] at h
      cases h
      rw [noneLong_iff]
      exact Theme.each_node ofNumbers_isShort (by simp [IsShort])
        (fun n hn m hm => Json.int.inj hm ▸ hn) (Theme.gives_ofSource text t ht)

/-- A story whose argument is past every double is extracted, and what is presented is no
document. -/
theorem render_json_infinite_argument :
    let text := "export default \x7b title: 'T', component: A \x7d;\n".toList ++
      "export const Basic: StoryObj = \x7b args: \x7b size: 1e999 \x7d \x7d;".toList
    ∃ record t, extract .stories ['A'] text = .ok record ∧
      Presenter.render ⟨fun _ => none⟩ record .json = .ok t ∧ ¬IsDocument t := by
  intro text
  have hinfinite : ((extract .stories ['A'] text).toOption.any fun record =>
      (Presenter.render ⟨fun _ => none⟩ record .json).isOk &&
        record.node.payload.leaves.any fun v => !decide (Node.IsFinite v)) = true := by
    decide +kernel
  cases h : extract .stories ['A'] text with
  | error e =>
    rw [h] at hinfinite
    cases hinfinite
  | ok record =>
    rw [h] at hinfinite
    obtain ⟨hwritten, hany⟩ := Bool.and_eq_true_iff.mp hinfinite
    cases ht : Presenter.render ⟨fun _ => none⟩ record .json with
    | error e =>
      rw [ht] at hwritten
      cases hwritten
    | ok t =>
      refine ⟨record, t, rfl, ht, fun hdocument => ?_⟩
      have hfinite := (render_json_isDocument_iff _ h).1.mp ⟨t, ht, hdocument⟩
      obtain ⟨v, hv, hbad⟩ := List.any_eq_true.mp hany
      exact absurd ((Node.allFinite_iff _).mp hfinite.1 v hv) (by simpa using hbad)

end ComponentCatalog
