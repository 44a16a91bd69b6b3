import Mathlib.Data.List.Basic
import Mathlib.Data.List.Forall2
import Mathlib.Data.List.Induction
import ComponentCatalog.Text.Entries

/-!
The view of ordered entries: what stands under a key, and which keys there are, after each
operation.
-/
namespace ComponentCatalog.Entries

variable {α : Type} {key : Text} {entries : Entries α}

def keys (entries : Entries α) : List Text := entries.map Prod.fst

@[simp] theorem get?_nil : get? key ([] : Entries α) = none := rfl

theorem get?_cons (key k : Text) (v : α) (entries : Entries α) :
    get? key ((k, v) :: entries) = if key = k then some v else get? key entries := by
  by_cases h : key = k
  · simp [get?, h]
  · have hb : (key == k) = false := by simpa using h
    simp [get?, List.lookup_cons, h, hb]

theorem get?_eq_none_iff {key : Text} {entries : Entries α} :
    get? key entries = none ↔ key ∉ keys entries := by
  induction entries with
  | nil => simp [keys]
  | cons entry entries ih =>
    obtain ⟨k, v⟩ := entry
    by_cases h : key = k <;> simp_all [get?_cons, keys]

theorem get?_set (key key' : Text) (value : α) (entries : Entries α) :
    get? key' (set key value entries) = if key' = key then some value else get? key' entries := by
  induction entries with
  | nil => simp [set, get?_cons]
  | cons entry entries ih =>
    obtain ⟨k, v⟩ := entry
    by_cases hk : k = key
    · by_cases h : key' = key <;> simp [set, get?_cons, hk, h]
    · by_cases h : key' = k
      · simp [set, get?_cons, hk, h]
      · simp [set, get?_cons, hk, h, ih]

theorem setAll_cons (key : Text) (value : α) (pairs : List (Text × α)) (entries : Entries α) :
    setAll entries ((key, value) :: pairs) = setAll (set key value entries) pairs := rfl

theorem get?_setAll_of_notMem {pairs : List (Text × α)} (h : key ∉ keys pairs) :
    get? key (setAll entries pairs) = get? key entries := by
  induction pairs generalizing entries with
  | nil => rfl
  | cons pair pairs ih =>
    obtain ⟨k, v⟩ := pair
    obtain ⟨hne, hnot⟩ := not_or.mp (mt List.mem_cons.mpr h)
    rw [setAll_cons, ih hnot, get?_set, if_neg hne]

/-- Of pairs with distinct keys every one can be looked up. -/
theorem get?_setAll_of_mem {pairs : List (Text × α)} {value : α} (hnodup : (keys pairs).Nodup)
    (hmem : (key, value) ∈ pairs) : get? key (setAll entries pairs) = some value := by
  induction pairs generalizing entries with
  | nil => cases hmem
  | cons pair pairs ih =>
    obtain ⟨k, v⟩ := pair
    obtain ⟨hnot, hnodup⟩ := List.nodup_cons.mp hnodup
    rw [setAll_cons]
    rcases List.mem_cons.mp hmem with heq | hmem
    · cases heq
      rw [get?_setAll_of_notMem hnot, get?_set, if_pos rfl]
    · exact ih hnodup hmem

/-- Keeping the entries whose keys satisfy `p` hides the others and changes no value. -/
theorem get?_filter (p : Text → Bool) (key : Text) (entries : Entries α) :
    get? key (entries.filter fun entry => p entry.1) =
      if p key then get? key entries else none := by
  induction entries with
  | nil => simp
  | cons entry entries ih =>
    obtain ⟨k, v⟩ := entry
    by_cases hp : p k
    · by_cases h : key = k
      · simp [hp, get?_cons, h]
      · simp [hp, get?_cons, h, ih]
    · by_cases h : key = k
      · subst h
        simp [hp, ih]
      · simp [hp, get?_cons, h, ih]

theorem get?_erase (key key' : Text) (entries : Entries α) :
    get? key' (erase key entries) = if key' = key then none else get? key' entries := by
  have h := get?_filter (fun k => k ≠ key) key' entries
  by_cases hk : key' = key <;> simpa [erase, hk] using h

/-- A key without a value can be erased without effect. -/
theorem erase_eq_self {key : Text} {entries : Entries α} (h : get? key entries = none) :
    erase key entries = entries := by
  rw [erase, List.filter_eq_self]
  intro entry hm
  simp only [decide_eq_true_eq]
  rintro rfl
  exact get?_eq_none_iff.mp h (List.mem_map_of_mem hm)

theorem keys_erase (key : Text) (entries : Entries α) :
    keys (erase key entries) = (keys entries).filter (· ≠ key) := by
  rw [keys, keys, erase, List.filter_map]
  rfl

theorem keys_erase_sublist (key : Text) (entries : Entries α) :
    (keys (erase key entries)).Sublist (keys entries) :=
  keys_erase key entries ▸ List.filter_sublist

theorem notMem_keys_erase (key : Text) (entries : Entries α) : key ∉ keys (erase key entries) := by
  simp [keys_erase]

theorem mem_of_get? {value : α} (h : get? key entries = some value) : (key, value) ∈ entries := by
  induction entries with
  | nil => cases h
  | cons entry entries ih =>
    obtain ⟨k, v⟩ := entry
    rw [get?_cons] at h
    split at h
    · next hk =>
      cases h
      exact hk ▸ List.mem_cons_self
    · exact .tail _ (ih h)

theorem get?_eq_some_iff_mem (hnodup : (keys entries).Nodup) {value : α} :
    get? key entries = some value ↔ (key, value) ∈ entries := by
  refine ⟨mem_of_get?, fun h => ?_⟩
  induction entries with
  | nil => cases h
  | cons entry entries ih =>
    obtain ⟨k, v⟩ := entry
    obtain ⟨hnot, hnodup⟩ := List.nodup_cons.mp hnodup
    rw [get?_cons]
    rcases List.mem_cons.mp h with heq | hmem
    · cases heq
      exact if_pos rfl
    · have hk : key ≠ k := by
        rintro rfl
        exact hnot (List.mem_map.mpr ⟨_, hmem, rfl⟩)
      rw [if_neg hk, ih hnodup hmem]

/-- A key that is present keeps its place, and a new one comes last. -/
theorem keys_set (key : Text) (value : α) (entries : Entries α) :
    keys (set key value entries) =
      if key ∈ keys entries then keys entries else keys entries ++ [key] := by
  induction entries with
  | nil => rfl
  | cons entry entries ih =>
    obtain ⟨k, v⟩ := entry
    by_cases hk : k = key
    · simp [set, keys, hk]
    · simp only [keys, set, if_neg hk, List.map_cons, List.mem_cons, Ne.symm hk, false_or] at ih ⊢
      by_cases hmem : key ∈ entries.map Prod.fst <;> simp [ih, hmem]

theorem mem_keys_set {key' : Text} {value : α} :
    key' ∈ keys (set key value entries) ↔ key' = key ∨ key' ∈ keys entries := by
  rw [keys_set]
  split
  next hmem => exact ⟨Or.inr, fun h => h.elim (fun heq => heq ▸ hmem) id⟩
  next => rw [List.mem_append, List.mem_singleton, or_comm]

theorem nodup_keys_set {value : α} (h : (keys entries).Nodup) :
    (keys (set key value entries)).Nodup := by
  rw [keys_set]
  split
  · exact h
  · next hnot =>
    rw [List.nodup_append]
    refine ⟨h, by simp, ?_⟩
    rintro k hk k' hk' rfl
    exact hnot (List.mem_singleton.mp hk' ▸ hk)

theorem nodup_keys_filter (p : Text × α → Bool) (h : (keys entries).Nodup) :
    (keys (entries.filter p)).Nodup :=
  (List.filter_sublist.map Prod.fst).nodup h

/-- What stands under a key, where the entries are read off their keys. -/
theorem get?_filterMap (f : Text → Option α) (key : Text) (keys : List Text) :
    get? key (keys.filterMap fun k => (f k).map (k, ·)) = if key ∈ keys then f key else none := by
  induction keys with
  | nil => rfl
  | cons k keys ih =>
    by_cases hk : key = k
    · subst hk
      cases hf : f key with
      | none => simp [hf, ih]
      | some a => simp [hf, get?_cons]
    · cases hf : f k with
      | none => simp [hf, ih, hk]
      | some a => simp [hf, get?_cons, ih, hk]

/-- The last value of each key, in the order in which the keys occur first. -/
def overlaid (pairs : List (Text × α)) : Entries α :=
  (Text.distinct (keys pairs)).filterMap fun key => (get? key pairs.reverse).map (Prod.mk key)

theorem ofPairs_concat (pairs : List (Text × α)) (key : Text) (value : α) :
    ofPairs (pairs ++ [(key, value)]) = set key value (ofPairs pairs) := by
  simp [ofPairs, setAll]

theorem distinct_concat (items : List Text) (a : Text) :
    Text.distinct (items ++ [a]) =
      if a ∈ items then Text.distinct items else Text.distinct items ++ [a] := by
  induction items with
  | nil => rfl
  | cons b items ih =>
    rw [List.cons_append, Text.distinct, Text.distinct, ih]
    by_cases hab : a = b
    · subst hab
      by_cases ha : a ∈ items <;> simp [ha]
    · by_cases ha : a ∈ items <;> simp [hab, ha]

theorem keys_concat (pairs : List (Text × α)) (key : Text) (value : α) :
    keys (pairs ++ [(key, value)]) = keys pairs ++ [key] := List.map_append

theorem keys_ofPairs (pairs : List (Text × α)) :
    keys (ofPairs pairs) = Text.distinct (keys pairs) := by
  induction pairs using List.reverseRecOn with
  | nil => rfl
  | append_singleton pairs pair ih =>
    obtain ⟨key, value⟩ := pair
    rw [ofPairs_concat, keys_set, ih, keys_concat, distinct_concat]
    simp only [Text.mem_distinct]

theorem nodup_keys_ofPairs (pairs : List (Text × α)) : (keys (ofPairs pairs)).Nodup :=
  keys_ofPairs pairs ▸ Text.nodup_distinct _

theorem get?_ofPairs (key : Text) (pairs : List (Text × α)) :
    get? key (ofPairs pairs) = get? key pairs.reverse := by
  induction pairs using List.reverseRecOn with
  | nil => rfl
  | append_singleton pairs pair ih =>
    rw [ofPairs_concat, get?_set, ih, List.reverse_concat, get?_cons]

theorem eq_filterMap_keys (h : (keys entries).Nodup) :
    entries = (keys entries).filterMap fun key => (get? key entries).map (Prod.mk key) := by
  induction entries with
  | nil => rfl
  | cons entry entries ih =>
    obtain ⟨k, v⟩ := entry
    obtain ⟨hnot, hnodup⟩ := List.nodup_cons.mp h
    have hrest : ∀ key ∈ keys entries, (get? key ((k, v) :: entries)).map (Prod.mk key) =
        (get? key entries).map (Prod.mk key) := by
      intro key hkey
      have hne : key ≠ k := by
        rintro rfl
        exact hnot hkey
      rw [get?_cons, if_neg hne]
    have hkeys : keys ((k, v) :: entries) = k :: keys entries := rfl
    rw [hkeys, List.filterMap_cons, get?_cons, if_pos rfl, List.filterMap_congr hrest,
      ← ih hnodup]
    rfl

/-- Setting pairs in turn keeps the last value of each key at the first place of the key. -/
theorem ofPairs_eq_overlaid (pairs : List (Text × α)) : ofPairs pairs = overlaid pairs := by
  rw [eq_filterMap_keys (nodup_keys_ofPairs pairs), keys_ofPairs, overlaid]
  simp only [get?_ofPairs]

theorem set_of_notMem {key : Text} {value : α} {entries : Entries α} (h : key ∉ keys entries) :
    set key value entries = entries ++ [(key, value)] := by
  induction entries with
  | nil => rfl
  | cons entry entries ih =>
    obtain ⟨k, v⟩ := entry
    obtain ⟨hk, hmore⟩ := not_or.mp (mt List.mem_cons.mpr h)
    rw [set, if_neg (Ne.symm hk), ih hmore]
    rfl

/-- Pairs whose keys are distinct are the entries that they set. -/
theorem ofPairs_eq_self {pairs : List (Text × α)} (h : (keys pairs).Nodup) :
    ofPairs pairs = pairs := by
  induction pairs using List.reverseRecOn with
  | nil => rfl
  | append_singleton pairs pair ih =>
    obtain ⟨key, value⟩ := pair
    rw [keys_concat] at h
    obtain ⟨hnodup, -, hne⟩ := List.nodup_append.mp h
    have hnot : key ∉ keys pairs := fun hmem => hne key hmem key (by simp) rfl
    rw [ofPairs_concat, ih hnodup, set_of_notMem hnot]

section SetAll

variable {value : α} {pairs : Entries α}

theorem set_set (key : Text) (value value' : α) (entries : Entries α) :
    set key value (set key value' entries) = set key value entries := by
  induction entries with
  | nil => simp [set]
  | cons entry entries ih =>
    by_cases hk : entry.1 = key <;> simp [set, hk, ih]

theorem set_comm {key' : Text} {value' : α} (hne : key ≠ key') (hkey : key ∈ keys entries) :
    set key value (set key' value' entries) = set key' value' (set key value entries) := by
  induction entries with
  | nil => cases hkey
  | cons entry entries ih =>
    obtain ⟨k, v⟩ := entry
    by_cases hk : k = key
    · have hk' : k ≠ key' := hk ▸ hne
      simp [set, hk, hk ▸ hk']
    · have hmem : key ∈ keys entries := by
        rcases List.mem_cons.mp hkey with h | h
        · exact absurd h.symm hk
        · exact h
      by_cases hk' : k = key'
      · subst hk'
        simp [set, hk]
      · simp [set, hk, hk', ih hmem]

theorem set_setAll (hkey : key ∈ keys entries) (hnot : key ∉ keys pairs) :
    set key value (setAll entries pairs) = setAll (set key value entries) pairs := by
  induction pairs generalizing entries with
  | nil => rfl
  | cons pair pairs ih =>
    obtain ⟨k, v⟩ := pair
    obtain ⟨hne, hnot⟩ := not_or.mp (mt List.mem_cons.mpr hnot)
    rw [setAll_cons, setAll_cons, ih (mem_keys_set.mpr (.inr hkey)) hnot, set_comm hne hkey]

theorem setAll_set (h : (keys pairs).Nodup) :
    setAll entries (set key value pairs) = set key value (setAll entries pairs) := by
  induction pairs generalizing entries with
  | nil => rfl
  | cons pair pairs ih =>
    obtain ⟨k, v⟩ := pair
    obtain ⟨hnot, hnodup⟩ := List.nodup_cons.mp h
    by_cases hk : k = key
    · subst hk
      have hmem : k ∈ keys (set k v entries) := mem_keys_set.mpr (.inl rfl)
      have hhead : set k value ((k, v) :: pairs) = (k, value) :: pairs := if_pos rfl
      rw [hhead, setAll_cons, setAll_cons, set_setAll hmem hnot, set_set]
    · have hhead : set key value ((k, v) :: pairs) = (k, v) :: set key value pairs := if_neg hk
      rw [hhead, setAll_cons, setAll_cons, ih hnodup]

/-- Pairs that were set in turn before have the same effect as the pairs themselves. -/
theorem setAll_ofPairs (entries : Entries α) (pairs : List (Text × α)) :
    setAll entries (ofPairs pairs) = setAll entries pairs := by
  induction pairs using List.reverseRecOn with
  | nil => rfl
  | append_singleton pairs pair ih =>
    obtain ⟨key, value⟩ := pair
    rw [ofPairs_concat, setAll_set (nodup_keys_ofPairs pairs), ih]
    simp [setAll]

end SetAll

/-- Where every item is read, the results stand beside the items they were read from. -/
theorem forall₂_of_mapM {α β ε : Type} {f : α → Except ε β} {items : List α} {results : List β}
    (h : items.mapM f = .ok results) : List.Forall₂ (fun a b => f a = .ok b) items results := by
  induction items generalizing results with
  | nil =>
    cases h
    exact .nil
  | cons a items ih =>
    rw [List.mapM_cons] at h
    cases hfirst : f a with
    | error e =>
      rw [hfirst] at h
      cases h
    | ok first =>
      cases hmore : items.mapM f with
      | error e =>
        rw [hfirst, hmore] at h
        cases h
      | ok more =>
        rw [hfirst, hmore] at h
        cases h
        exact .cons hfirst (ih hmore)

end ComponentCatalog.Entries

namespace ComponentCatalog.Text

/-- Keeping each item where it occurs first is what the standard library does. -/
theorem distinct_eq_eraseDups (items : List Text) : distinct items = items.eraseDups := by
  have hfilter : ∀ (p : Text → Bool) (items : List Text),
      (distinct items).filter p = distinct (items.filter p) := by
    intro p items
    induction items with
    | nil => rfl
    | cons a items ih =>
      rw [distinct]
      by_cases ha : p a = true
      · rw [List.filter_cons_of_pos ha, List.filter_cons_of_pos ha, distinct, ← ih,
          List.filter_filter, List.filter_filter]
        simp only [Bool.and_comm]
      · rw [List.filter_cons_of_neg ha, List.filter_cons_of_neg ha, ← ih, List.filter_filter]
        refine List.filter_congr fun b _ => ?_
        by_cases hb : b = a
        · simp [hb, ha]
        · simp [hb]
  induction hlength : items.length using Nat.strongRecOn generalizing items with
  | _ n ih =>
    cases items with
    | nil => rfl
    | cons a items =>
      have hshort := List.length_filter_le (fun b => !b == a) items
      rw [List.length_cons] at hlength
      rw [distinct, List.eraseDups_cons, ← ih _ (by omega) (items.filter fun b => !b == a) rfl,
        hfilter]
      congr 2
      refine List.filter_congr fun b _ => ?_
      by_cases hb : b = a <;> simp [hb]

end ComponentCatalog.Text
