import Mathlib.Data.List.Nodup
import Mathlib.Data.Option.Basic
import ComponentCatalog.Proofs.ComponentDeclaration
import ComponentCatalog.Proofs.Entries

/-!
The defaults in a property source: the parameter of the component is split into the entries that
were written, and each entry gives its default.
-/
namespace ComponentCatalog.Component

open Text Code

namespace Property

variable {p : Property}

theorem entry_ne_nil (h : p.WellFormed) : p.entry ≠ [] := by
  rw [entry]
  split
  · exact h.name.ne_nil
  · exact List.append_ne_nil_of_left_ne_nil h.name.ne_nil _

theorem balanced_entry (h : p.WellFormed) : Balanced false p.entry := by
  have hname : ∀ c ∈ p.name, isPlain c = true := fun c hc => isPlain_of_isWord (h.name.word c hc)
  have hslash : p.name.getLast? ≠ some '/' := fun hlast =>
    notMem_slash_of_isPlain hname (List.mem_of_getLast? hlast)
  cases hd : p.default with
  | none =>
    simp only [entry, hd]
    exact .of_plain hname
  | some d =>
    simp only [entry, hd]
    exact .append_of_not_slash (.of_plain hname) hslash
      (.append_of_not_slash (.of_plain (by decide)) (by decide)
        ((h.default d hd).expression.balanced fun _ => ⟨rfl, rfl⟩))

theorem strip_entry (h : p.WellFormed) : strip p.entry = p.entry := by
  cases hd : p.default with
  | none =>
    simp only [entry, hd]
    exact strip_of_word h.name.word
  | some d =>
    obtain ⟨c, s, hname⟩ := List.exists_cons_of_ne_nil h.name.ne_nil
    have hc : isBlank c = false := isBlank_of_isWord (h.name.word c (hname ▸ List.mem_cons_self))
    have hdefault := h.default d hd
    simp only [entry, hd, hname, List.cons_append]
    rw [← List.append_assoc]
    exact strip_cons_append hc hdefault.nonempty hdefault.stripped _

/-- An entry gives the default of its property. -/
theorem defaultEntry?_entry (h : p.WellFormed) :
    defaultEntry? p.entry = p.default.map fun d => (p.name, d) := by
  have hequals : '=' ∉ p.name := fun hmem => Bool.false_ne_true (h.name.word '=' hmem)
  have hcolon : ':' ∉ p.name := fun hmem => Bool.false_ne_true (h.name.word ':' hmem)
  cases hd : p.default with
  | none =>
    simp only [entry, hd, defaultEntry?, cut?_eq_none hequals]
    rfl
  | some d =>
    have hdefault := h.default d hd
    have hblank : ∀ c ∈ [' '], isBlank c = true := by decide
    have hcut : cut? ['='] p.entry = some (p.name ++ [' '], ' ' :: d) := by
      have hsplit : p.entry = (p.name ++ [' ']) ++ ('=' :: [] ++ ' ' :: d) := by simp [entry, hd]
      rw [hsplit]
      exact cut?_append (by simpa using hequals)
    have hkey : strip (before [':'] (p.name ++ [' '])) = p.name := by
      rw [before_eq_self (by simpa using hcolon), strip_append_of_blank hblank,
        strip_of_word h.name.word]
    have hvalue : strip (' ' :: d) = d := by
      rw [← List.singleton_append, strip_blank_append hblank, hdefault.stripped]
    have hguard : p.name ≠ [] ∧ p.name.all isWord = true ∧ d ≠ [] :=
      ⟨h.name.ne_nil, List.all_eq_true.mpr h.name.word, hdefault.nonempty⟩
    simp only [hcut, defaultEntry?, Option.bind_eq_bind, Option.bind_some, hkey, hvalue]
    rw [guard, if_pos hguard]
    rfl

end Property

/-- The parameter is split into the entries of the properties. -/
theorem splitTopLevel_entries {properties : List Property} (h : ∀ p ∈ properties, p.WellFormed) :
    splitTopLevel (some ',')
        (' ' :: (join ", ".toList (properties.map Property.entry) ++ [' '])) =
      properties.map Property.entry := by
  refine splitTopLevel_join [' '] [' '] (by simp) (by simp) fun s hs => ?_
  obtain ⟨p, hp, rfl⟩ := List.mem_map.mp hs
  have hp := h p hp
  exact ⟨Property.balanced_entry hp, Property.strip_entry hp, Property.entry_ne_nil hp⟩

/-- The brace of the parameter is the first that a parenthesis precedes. -/
theorem firstHit_destructuring (component : Text) (properties : List Property) :
    firstHit destructuringShape (before "=>".toList (parameter component properties)) =
      some 4 := by
  let tail := ' ' :: (join ", ".toList (properties.map Property.entry) ++
    (" \x7d: ".toList ++ (component ++ "Props) => null;".toList)))
  have hparameter : parameter component properties =
      ' ' :: '=' :: ' ' :: '(' :: '\x7b' :: tail := rfl
  have hbefore : before "=>".toList (parameter component properties) =
      ' ' :: '=' :: ' ' :: '(' :: '\x7b' :: before "=>".toList tail := by
    rw [hparameter, before_cons rfl, before_cons rfl, before_cons rfl, before_cons rfl,
      before_cons rfl]
  have hpass (s : Text) : firstHit destructuringShape (' ' :: '=' :: ' ' :: '(' :: '\x7b' :: s) =
      firstHitFrom destructuringShape 3 (some ' ') ('(' :: '\x7b' :: s) := rfl
  have hhit (s : Text) : destructuringShape ⟨3, some ' ', '(' :: '\x7b' :: s⟩ = some (4, 2) := by
    have hopen : after? ['('] ('(' :: '\x7b' :: s) = some ('\x7b' :: s) := rfl
    have hstart : stripStart ('\x7b' :: s) = '\x7b' :: s := rfl
    have hbrace : after? ['\x7b'] ('\x7b' :: s) = some s := rfl
    simp [destructuringShape, hopen, hstart, hbrace, Cursor.lengthTo]
    omega
  rw [hbefore, hpass, firstHitFrom, hhit]

theorem block?_parameter {component : Text} {properties : List Property}
    (h : ∀ p ∈ properties, p.WellFormed) :
    block? curly ((parameter component properties).drop 4) =
      some (' ' :: (join ", ".toList (properties.map Property.entry) ++ [' '])) := by
  let entries := join ", ".toList (properties.map Property.entry)
  have hdrop : (parameter component properties).drop 4 =
      '\x7b' :: (' ' :: (entries ++ [' ']) ++ '\x7d' :: (": ".toList ++
        (component ++ "Props) => null;".toList))) := by
    have hclose (s : Text) : " \x7d: ".toList ++ s = ' ' :: '\x7d' :: (": ".toList ++ s) := rfl
    calc (parameter component properties).drop 4 =
          '\x7b' :: ' ' :: (entries ++ (" \x7d: ".toList ++
            (component ++ "Props) => null;".toList))) := rfl
      _ = _ := by simp only [hclose, List.cons_append, List.append_assoc, List.nil_append]
  have hentries : Balanced true entries := by
    refine .join fun s hs => ?_
    obtain ⟨p, hp, rfl⟩ := List.mem_map.mp hs
    exact (Property.balanced_entry (h p hp)).enclose
  have hbody : Balanced true (' ' :: (entries ++ [' '])) :=
    .append_of_not_slash (s := [' ']) (.of_plain (by decide)) (by decide)
      (.append hentries (.of_plain (by decide)) fun _ => by simp [OpensNoComment])
  rw [hdrop]
  exact block?_balanced (b := curly) (by decide) hbody _

/-- The names and defaults of the properties that have one. -/
def defaultsOf (properties : List Property) : List (Text × Text) :=
  properties.filterMap fun p => p.default.map fun d => (p.name, d)

theorem keys_defaultsOf (properties : List Property) :
    Entries.keys (defaultsOf properties) =
      (properties.filter fun p => p.default.isSome).map Property.name := by
  induction properties with
  | nil => rfl
  | cons p properties ih =>
    rw [Entries.keys, defaultsOf] at ih
    cases hd : p.default <;> simp [Entries.keys, defaultsOf, hd, ih]

/-- The defaults that are found are those of the properties, under their names. -/
theorem defaultValues_propertySource {component : Text} {properties : List Property}
    (hcomponent : IsName component)
    (h : ∀ p ∈ properties, p.WellFormed ∧ p.Unmentioned component) :
    defaultValues (propertySource component properties) component =
      Entries.ofPairs (defaultsOf properties) := by
  have hwellFormed : ∀ p ∈ properties, p.WellFormed := fun p hp => (h p hp).1
  have hentries : (properties.map Property.entry).filterMap defaultEntry? =
      defaultsOf properties := by
    rw [List.filterMap_map]
    exact List.filterMap_congr fun p hp => Property.defaultEntry?_entry (hwellFormed p hp)
  rw [← hentries, ← splitTopLevel_entries hwellFormed]
  simp only [defaultValues, firstHit_propertySource hcomponent h, firstHit_destructuring,
    block?_parameter hwellFormed, Option.bind_eq_bind, Option.bind_some]

/-- The field of a property gets its default back. -/
theorem withDefault_declared {properties : List Property}
    (hdistinct : (properties.map Property.name).Nodup) {p : Property} (hp : p ∈ properties) :
    p.declared.withDefault (Entries.ofPairs (defaultsOf properties)) = p := by
  cases hd : p.default with
  | some d =>
    have hmem : (p.name, d) ∈ defaultsOf properties :=
      List.mem_filterMap.mpr ⟨p, hp, by rw [hd]; rfl⟩
    have hnodup : (Entries.keys (defaultsOf properties)).Nodup :=
      keys_defaultsOf properties ▸ (List.filter_sublist.map Property.name).nodup hdistinct
    have hget : Entries.get? p.declared.name (Entries.ofPairs (defaultsOf properties)) = some d :=
      Entries.get?_setAll_of_mem hnodup hmem
    rw [Property.withDefault, hget]
    cases p
    cases hd
    rfl
  | none =>
    have hnot : p.name ∉ Entries.keys (defaultsOf properties) := by
      rw [keys_defaultsOf]
      intro hmem
      obtain ⟨q, hq, hname⟩ := List.mem_map.mp hmem
      obtain ⟨hq, hsome⟩ := List.mem_filter.mp hq
      rw [List.inj_on_of_nodup_map hdistinct hq hp hname, hd] at hsome
      cases hsome
    have hget : Entries.get? p.declared.name (Entries.ofPairs (defaultsOf properties)) = none :=
      Entries.get?_setAll_of_notMem hnot
    rw [Property.withDefault, hget]
    cases p
    cases hd
    rfl

end ComponentCatalog.Component
