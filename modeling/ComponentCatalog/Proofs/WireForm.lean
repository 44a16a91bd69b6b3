import ComponentCatalog.Node
import Mathlib.Data.List.Forall2

/-!
What the wire form keeps of a node. A node without records is its own wire form; a record becomes an
object that lacks its kind and its null fields, and is known again by its class.
-/
namespace ComponentCatalog

namespace Node

mutual

theorem payload_ofJson : ∀ j : Json, (ofJson j).payload = j
  | .null => rfl
  | .bool _ => rfl
  | .int _ => rfl
  | .float _ => rfl
  | .text _ => rfl
  | .list items => congrArg Json.list (payloads_ofJsonItems items)
  | .object members => congrArg Json.object (payloadEntries_ofJsonMembers members)

theorem payloads_ofJsonItems : ∀ items : List Json, payloads (ofJsonItems items) = items
  | [] => rfl
  | j :: items => congrArg₂ List.cons (payload_ofJson j) (payloads_ofJsonItems items)

theorem payloadEntries_ofJsonMembers :
    ∀ members : List (Text × Json), payloadEntries (ofJsonMembers members) = members
  | [] => rfl
  | (name, j) :: members =>
    congrArg₂ List.cons (congrArg (Prod.mk name) (payload_ofJson j))
      (payloadEntries_ofJsonMembers members)

end

mutual

/-- No part of the node is a record. -/
def IsPlain : Node → Prop
  | .null | .bool _ | .int _ | .float _ | .text _ => True
  | .list items => ArePlain items
  | .mapping entries => EntriesPlain entries
  | .record _ _ => False

def ArePlain : List Node → Prop
  | [] => True
  | item :: items => item.IsPlain ∧ ArePlain items

def EntriesPlain : List (Text × Node) → Prop
  | [] => True
  | (_, value) :: entries => value.IsPlain ∧ EntriesPlain entries

end

mutual

/-- Nothing of a node without records changes on the wire, at no depth. -/
theorem IsPlain.ofJson_payload : ∀ {n : Node}, n.IsPlain → ofJson n.payload = n
  | .null, _ => rfl
  | .bool _, _ => rfl
  | .int _, _ => rfl
  | .float _, _ => rfl
  | .text _, _ => rfl
  | .list _, h => congrArg Node.list (ArePlain.ofJsonItems_payloads h)
  | .mapping _, h => congrArg Node.mapping (EntriesPlain.ofJsonMembers_payloadEntries h)

theorem ArePlain.ofJsonItems_payloads :
    ∀ {items : List Node}, ArePlain items → ofJsonItems (payloads items) = items
  | [], _ => rfl
  | _ :: _, ⟨hitem, hitems⟩ =>
    congrArg₂ List.cons hitem.ofJson_payload (ArePlain.ofJsonItems_payloads hitems)

theorem EntriesPlain.ofJsonMembers_payloadEntries :
    ∀ {entries : List (Text × Node)}, EntriesPlain entries →
      ofJsonMembers (payloadEntries entries) = entries
  | [], _ => rfl
  | (key, _) :: _, ⟨hvalue, hentries⟩ =>
    congrArg₂ List.cons (congrArg (Prod.mk key) hvalue.ofJson_payload)
      (EntriesPlain.ofJsonMembers_payloadEntries hentries)

end

theorem payloadEntries_eq_map (entries : List (Text × Node)) :
    payloadEntries entries = entries.map fun (key, value) => (key, value.payload) := by
  induction entries with
  | nil => rfl
  | cons entry entries ih => rw [payloadEntries, ih, List.map_cons]

/-- Nothing but null is null on the wire. -/
theorem eq_null_of_payload {n : Node} (h : n.payload = .null) : n = .null := by
  cases n with
  | null => rfl
  | _ => cases h

theorem payloadFields_null (name : Text) (fields : List (Text × Node)) :
    payloadFields ((name, .null) :: fields) = payloadFields fields := rfl

theorem payloadFields_cons {value : Node} (h : value ≠ .null) (name : Text)
    (fields : List (Text × Node)) :
    payloadFields ((name, value) :: fields) =
      (camelCase name, value.payload) :: payloadFields fields := by
  cases value with
  | null => exact absurd rfl h
  | _ => rfl

/-- No member of the wire form of a record is null. -/
theorem ne_null_of_mem_payloadFields {fields : List (Text × Node)} :
    ∀ member ∈ payloadFields fields, member.2 ≠ .null := by
  induction fields with
  | nil => exact fun _ h => nomatch h
  | cons field fields ih =>
    obtain ⟨name, value⟩ := field
    by_cases hvalue : value = .null
    · rw [hvalue, payloadFields_null]
      exact ih
    · rw [payloadFields_cons hvalue]
      exact List.forall_mem_cons.mpr ⟨fun h => hvalue (eq_null_of_payload h), ih⟩

mutual

/-- Equal nodes. With `anyOrder`, the entries of a mapping may stand in any order; the fields of a
record stand in that of its class. -/
inductive Same (anyOrder : Bool) : Node → Node → Prop
  | null : Same anyOrder .null .null
  | bool (b : Bool) : Same anyOrder (.bool b) (.bool b)
  | int (n : Int) : Same anyOrder (.int n) (.int n)
  | float (x : Float) : Same anyOrder (.float x) (.float x)
  | text (s : Text) : Same anyOrder (.text s) (.text s)
  | list {items items' : List Node} :
      SameItems anyOrder items items' → Same anyOrder (.list items) (.list items')
  | mapping {entries entries' : List (Text × Node)} :
      SameEntries anyOrder entries entries' → Same anyOrder (.mapping entries) (.mapping entries')
  | record {kind : Text} {fields fields' : List (Text × Node)} :
      SameFields anyOrder fields fields' →
      Same anyOrder (.record kind fields) (.record kind fields')

inductive SameItems (anyOrder : Bool) : List Node → List Node → Prop
  | nil : SameItems anyOrder [] []
  | cons {n n' : Node} {items items' : List Node} :
      Same anyOrder n n' → SameItems anyOrder items items' →
      SameItems anyOrder (n :: items) (n' :: items')

inductive SameEntries (anyOrder : Bool) : List (Text × Node) → List (Text × Node) → Prop
  | nil : SameEntries anyOrder [] []
  | cons {key : Text} {n n' : Node} {entries before after : List (Text × Node)} :
      (anyOrder = false → before = []) → Same anyOrder n n' →
      SameEntries anyOrder entries (before ++ after) →
      SameEntries anyOrder ((key, n) :: entries) (before ++ (key, n') :: after)

inductive SameFields (anyOrder : Bool) : List (Text × Node) → List (Text × Node) → Prop
  | nil : SameFields anyOrder [] []
  | cons {name : Text} {n n' : Node} {fields fields' : List (Text × Node)} :
      Same anyOrder n n' → SameFields anyOrder fields fields' →
      SameFields anyOrder ((name, n) :: fields) ((name, n') :: fields')

end

variable {anyOrder : Bool}

mutual

theorem Same.refl : ∀ n : Node, n.Same anyOrder n
  | .null => .null
  | .bool b => .bool b
  | .int n => .int n
  | .float x => .float x
  | .text s => .text s
  | .list items => .list (SameItems.refl items)
  | .mapping entries => .mapping (SameEntries.refl entries)
  | .record _ fields => .record (SameFields.refl fields)

theorem SameItems.refl : ∀ items : List Node, SameItems anyOrder items items
  | [] => .nil
  | n :: items => .cons (.refl n) (SameItems.refl items)

theorem SameEntries.refl : ∀ entries : List (Text × Node), SameEntries anyOrder entries entries
  | [] => .nil
  | (_, n) :: entries => .cons (fun _ => rfl) (.refl n) (SameEntries.refl entries)

theorem SameFields.refl : ∀ fields : List (Text × Node), SameFields anyOrder fields fields
  | [] => .nil
  | (_, n) :: fields => .cons (.refl n) (SameFields.refl fields)

end

mutual

/-- In order, nodes are equal only to themselves. -/
theorem Same.eq : ∀ {n n' : Node}, n.Same false n' → n = n'
  | _, _, .null => rfl
  | _, _, .bool _ => rfl
  | _, _, .int _ => rfl
  | _, _, .float _ => rfl
  | _, _, .text _ => rfl
  | _, _, .list h => congrArg Node.list h.eq
  | _, _, .mapping h => congrArg Node.mapping h.eq
  | _, _, .record h => congrArg (Node.record _) h.eq

theorem SameItems.eq : ∀ {items items' : List Node}, SameItems false items items' → items = items'
  | _, _, .nil => rfl
  | _, _, .cons h hitems => congrArg₂ List.cons h.eq hitems.eq

theorem SameEntries.eq : ∀ {entries entries' : List (Text × Node)},
    SameEntries false entries entries' → entries = entries'
  | _, _, .nil => rfl
  | _, _, .cons hbefore h hentries => by
    obtain rfl := hbefore rfl
    rw [h.eq, hentries.eq]
    rfl

theorem SameFields.eq : ∀ {fields fields' : List (Text × Node)},
    SameFields false fields fields' → fields = fields'
  | _, _, .nil => rfl
  | _, _, .cons h hfields => by rw [h.eq, hfields.eq]

end

theorem SameEntries.mem_keys_iff {entries entries' : List (Text × Node)}
    (h : SameEntries anyOrder entries entries') (key : Text) :
    key ∈ entries.map (·.1) ↔ key ∈ entries'.map (·.1) := by
  induction entries generalizing entries' with
  | nil =>
    cases h
    rfl
  | cons entry entries ih =>
    cases h with
    | cons _ _ hentries =>
      have hkeys := ih hentries
      simp only [List.map_cons, List.map_append, List.mem_cons, List.mem_append] at hkeys ⊢
      rw [hkeys]
      exact or_left_comm

/-- Of entries that begin with one key, which the others lack, the first are equal and the others
are. -/
theorem SameEntries.of_cons {key : Text} {n n' : Node} {entries entries' : List (Text × Node)}
    (hkey : key ∉ entries'.map (·.1))
    (h : SameEntries anyOrder ((key, n) :: entries) ((key, n') :: entries')) :
    n.Same anyOrder n' ∧ SameEntries anyOrder entries entries' := by
  generalize hright : (key, n') :: entries' = right at h
  cases h with
  | @cons _ _ m _ before after _ hsame hentries =>
    cases before with
    | nil =>
      cases hright
      exact ⟨hsame, hentries⟩
    | cons entry before =>
      obtain ⟨-, rfl⟩ := List.cons.inj hright
      exact absurd (by simp) hkey

end Node

/-- Equal wire forms. With `anyOrder`, the members of an object may stand in any order. -/
def Json.Same (anyOrder : Bool) (j j' : Json) : Prop :=
  (Node.ofJson j).Same anyOrder (Node.ofJson j')

namespace Node

/-- If the two nodes have equal wire forms, they are equal. -/
def Kept (n n' : Node) : Prop :=
  ∀ anyOrder, n.payload.Same anyOrder n'.payload → n.Same anyOrder n'

@[simp] theorem kept_of_isPlain {n n' : Node} (h : n.IsPlain) (h' : n'.IsPlain) : Kept n n' := by
  intro anyOrder hsame
  rwa [Json.Same, h.ofJson_payload, h'.ofJson_payload] at hsame

theorem eq_null_of_null_same {n : Node} (h : Json.Same anyOrder .null n.payload) : n = .null := by
  cases n with
  | null => rfl
  | _ => cases h

theorem eq_null_of_same_null {n : Node} (h : Json.Same anyOrder n.payload .null) : n = .null := by
  cases n with
  | null => rfl
  | _ => cases h

theorem kept_optional {α : Type} {form : α → Node} (h : ∀ a a', Kept (form a) (form a'))
    (value? value?' : Option α) : Kept (.optional form value?) (.optional form value?') := by
  intro anyOrder hsame
  cases value? with
  | none =>
    rw [eq_null_of_null_same hsame]
    exact .null
  | some a =>
    cases value?' with
    | none =>
      rw [eq_null_of_same_null hsame]
      exact .null
    | some a' => exact h a a' anyOrder hsame

theorem kept_list_cons {n n' : Node} {items items' : List Node} (h : Kept n n')
    (hitems : Kept (.list items) (.list items')) :
    Kept (.list (n :: items)) (.list (n' :: items')) := by
  intro anyOrder hsame
  cases hsame with
  | list hsame =>
    cases hsame with
    | cons hhead hrest =>
      cases hitems anyOrder (.list hrest) with
      | list hitems => exact .list (.cons (h anyOrder hhead) hitems)

/-- Lists of different lengths have different wire forms. -/
theorem kept_nil_cons {n : Node} {items : List Node} : Kept (.list []) (.list (n :: items)) := by
  intro anyOrder hsame
  cases hsame with
  | list hitems => cases hitems

theorem kept_cons_nil {n : Node} {items : List Node} : Kept (.list (n :: items)) (.list []) := by
  intro anyOrder hsame
  cases hsame with
  | list hitems => cases hitems

theorem kept_list_map {α : Type} {form : α → Node} (h : ∀ a a', Kept (form a) (form a')) :
    ∀ items items' : List α, Kept (.list (items.map form)) (.list (items'.map form))
  | [], [] => kept_of_isPlain trivial trivial
  | [], _ :: _ => kept_nil_cons
  | _ :: _, [] => kept_cons_nil
  | a :: items, a' :: items' => kept_list_cons (h a a') (kept_list_map h items items')

theorem mem_names_of_mem_keys {fields : List (Text × Node)} {key : Text}
    (h : key ∈ (ofJsonMembers (payloadFields fields)).map (·.1)) :
    key ∈ fields.map fun field => camelCase field.1 := by
  induction fields with
  | nil => exact h
  | cons field fields ih =>
    obtain ⟨name, value⟩ := field
    by_cases hvalue : value = .null
    · rw [hvalue, payloadFields_null] at h
      exact .tail _ (ih h)
    · rw [payloadFields_cons hvalue, ofJsonMembers, List.map_cons] at h
      rcases List.mem_cons.mp h with rfl | h
      · exact List.mem_cons_self
      · exact .tail _ (ih h)

theorem map_camelCase_eq {P : Node → Node → Prop} {fields fields' : List (Text × Node)}
    (hfields : List.Forall₂ (fun field field' => field.1 = field'.1 ∧ P field.2 field'.2)
      fields fields') :
    (fields.map fun field => camelCase field.1) = fields'.map fun field => camelCase field.1 := by
  induction hfields with
  | nil => rfl
  | cons hfield _ ih => rw [List.map_cons, List.map_cons, hfield.1, ih]

/-- Fields of the same names with equal wire forms are equal: a field that is left out on one side
is left out on the other, since no other field has its name on the wire. -/
theorem sameFields_of_payloadFields {fields fields' : List (Text × Node)}
    (hfields : List.Forall₂ (fun field field' => field.1 = field'.1 ∧ Kept field.2 field'.2)
      fields fields')
    (hnames : (fields.map fun field => camelCase field.1).Nodup)
    (hsame : SameEntries anyOrder (ofJsonMembers (payloadFields fields))
      (ofJsonMembers (payloadFields fields'))) : SameFields anyOrder fields fields' := by
  induction hfields with
  | nil => exact .nil
  | @cons field field' fields fields' hfield hfields ih =>
    obtain ⟨name, value⟩ := field
    obtain ⟨name', value'⟩ := field'
    obtain ⟨rfl, hkept⟩ := hfield
    rw [List.map_cons, List.nodup_cons] at hnames
    obtain ⟨hname, hnames⟩ := hnames
    have hlacks {more : List (Text × Node)}
        (hmore : (more.map fun field => camelCase field.1) =
          fields.map fun field => camelCase field.1) :
        camelCase name ∉ (ofJsonMembers (payloadFields more)).map (·.1) :=
      fun h => hname (hmore ▸ mem_names_of_mem_keys h)
    have hleft := hlacks rfl
    have hright := hlacks (map_camelCase_eq hfields).symm
    -- A field that one side alone leaves out would need its name among the later ones there.
    by_cases hvalue : value = .null <;> by_cases hvalue' : value' = .null
    · subst hvalue hvalue'
      exact .cons .null (ih hnames hsame)
    · rw [hvalue, payloadFields_null, payloadFields_cons hvalue', ofJsonMembers] at hsame
      exact absurd ((hsame.mem_keys_iff _).mpr List.mem_cons_self) hleft
    · rw [hvalue', payloadFields_null, payloadFields_cons hvalue, ofJsonMembers] at hsame
      exact absurd ((hsame.mem_keys_iff _).mp List.mem_cons_self) hright
    · rw [payloadFields_cons hvalue, payloadFields_cons hvalue', ofJsonMembers,
        ofJsonMembers] at hsame
      obtain ⟨hhead, hrest⟩ := hsame.of_cons hright
      exact .cons (hkept anyOrder hhead) (ih hnames hrest)

theorem kept_record {kind : Text} {fields fields' : List (Text × Node)}
    (hfields : List.Forall₂ (fun field field' => field.1 = field'.1 ∧ Kept field.2 field'.2)
      fields fields')
    (hnames : (fields.map fun field => camelCase field.1).Nodup) :
    Kept (.record kind fields) (.record kind fields') := by
  intro anyOrder hsame
  cases hsame with
  | mapping hentries => exact .record (sameFields_of_payloadFields hfields hnames hentries)

theorem kept_recordOf {kind : String} {fields fields' : List (String × Node)}
    (hfields : List.Forall₂ (fun field field' => field.1 = field'.1 ∧ Kept field.2 field'.2)
      fields fields')
    (hnames : (fields.map fun field => camelCase field.1.toList).Nodup) :
    Kept (.recordOf kind fields) (.recordOf kind fields') := by
  refine kept_record ?_ (by rwa [List.map_map])
  refine List.forall₂_map_left_iff.mpr (List.forall₂_map_right_iff.mpr (hfields.imp ?_))
  rintro ⟨name, value⟩ ⟨name', value'⟩ ⟨rfl, hkept⟩
  exact ⟨rfl, hkept⟩

end Node

end ComponentCatalog
