import ComponentCatalog.Proofs.Literals
import ComponentCatalog.Proofs.Parts
import ComponentCatalog.Proofs.StoryArguments

/-!
Quoted strings as the values of mined entries. A value ends at the first comma, closing brace or
line feed, in quotes or not, so strings are mined whole exactly if they hold none of them.
-/
namespace ComponentCatalog.Code

open Text Story
open Component (IsName)

section Mined

variable {s t raw key : Text}

theorem coerceNumber_ne_text (s t : Text) : coerceNumber s ≠ .ok (some (.text t)) := by
  intro h
  unfold coerceNumber at h
  dsimp only at h
  split at h
  · next n hn =>
    split at h
    · cases hint : n.toInt <;> simp [hint, Except.map] at h
    · split at h <;> cases h
  · cases hint : prefixedInt? (if s.getLast? = some '\n' then s.dropLast else s) <;>
      simp [hint] at h

/-- Text that is read is a part of what it is read from. -/
theorem isInfix_of_coerceValue (h : coerceValue raw = .ok (.text t)) : t <:+: raw := by
  refine List.IsInfix.trans ?_ (strip_isInfix raw)
  unfold coerceValue at h
  dsimp only at h
  split at h
  · cases h
    exact (List.dropLast_prefix _).isInfix.trans (List.tail_suffix _).isInfix
  split at h
  · cases h
  split at h
  · cases h
  · cases hnumber : coerceNumber (strip raw) with
    | error e =>
      rw [hnumber] at h
      cases h
    | ok number? =>
      rw [hnumber] at h
      cases number? with
      | none =>
        cases h
        exact List.infix_rfl
      | some value =>
        have htext : value = .text t := Except.ok.inj h
        exact absurd (htext ▸ hnumber) (coerceNumber_ne_text _ _)

/-- No raw value goes on behind a character that ends it. -/
theorem endsEntry_of_mem_hits :
    ∀ entry ∈ hits entryShape s, ∀ c ∈ entry.2, endsEntry c = false := by
  refine forall_mem_hits fun at_ entry length _ h c hc => ?_
  obtain ⟨tail, rest, -, hrun⟩ := exists_run?_of_entryShape h
  have hkept := (run?_eq_some hrun).2 c hc
  simpa [endsEntry, and_assoc] using hkept

theorem coerceValue_of_readEntry {key' : Text} {value : Value}
    (h : readEntry (key', raw) = .ok (key, value)) : coerceValue raw = .ok value := by
  cases hraw : coerceValue raw with
  | error e =>
    simp only [readEntry, hraw] at h
    cases h
  | ok value' =>
    rw [readEntry_eq_ok hraw] at h
    cases h
    rfl

theorem exists_of_mem_mapM {α β ε : Type} {f : α → Except ε β} {items : List α} {results : List β}
    (h : items.mapM f = .ok results) : ∀ b ∈ results, ∃ a ∈ items, f a = .ok b := by
  have hread := Entries.forall₂_of_mapM h
  clear h
  induction hread with
  | nil => simp
  | @cons a b items results hfirst _ ih =>
    rintro c (_ | ⟨_, hc⟩)
    · exact ⟨a, List.mem_cons_self, hfirst⟩
    · obtain ⟨found, hfound, hread⟩ := ih c hc
      exact ⟨found, .tail _ hfound, hread⟩

/-- No mined text holds a character that ends an entry. -/
theorem endsEntry_of_mem_parseObjectLiteral {entries : Entries Value}
    (h : parseObjectLiteral s = .ok entries) (hmem : (key, .text t) ∈ entries) :
    ∀ c ∈ t, endsEntry c = false := by
  rw [parseObjectLiteral_eq] at h
  cases hpairs : (hits entryShape s).mapM readEntry with
  | error e =>
    rw [hpairs] at h
    cases h
  | ok pairs =>
    rw [hpairs] at h
    cases h
    have hget : Entries.get? key pairs.reverse = some (.text t) := by
      rw [← Entries.get?_ofPairs]
      exact (Entries.get?_eq_some_iff_mem (Entries.nodup_keys_ofPairs pairs)).mpr hmem
    have hpair : (key, .text t) ∈ pairs := List.mem_reverse.mp (Entries.mem_of_get? hget)
    obtain ⟨⟨key', raw⟩, hentry, hread⟩ := exists_of_mem_mapM hpairs _ hpair
    have hpart : t <:+: raw := isInfix_of_coerceValue (coerceValue_of_readEntry hread)
    intro c hc
    exact endsEntry_of_mem_hits _ hentry c (hpart.subset hc)

end Mined

/-- A key with a string in quotes. -/
structure StringEntry where
  key : Text
  quote : Char
  content : Text

def StringEntry.raw (e : StringEntry) : Text := e.quote :: (e.content ++ [e.quote])

def StringEntry.source (e : StringEntry) : Text := e.key ++ (": ".toList ++ e.raw)

/-- Entries as they are printed one behind the other. -/
def stringEntries (entries : List StringEntry) : Text :=
  join ", ".toList (entries.map StringEntry.source)

/-- The keys with the full contents of the strings. -/
def contents (entries : List StringEntry) : Entries Value :=
  entries.map fun e => (e.key, .text e.content)

structure StringEntry.WellFormed (e : StringEntry) : Prop where
  key : IsName e.key
  quote : isQuote e.quote = true
  feed : '\n' ∉ e.content

instance (e : StringEntry) : Decidable e.WellFormed :=
  decidable_of_iff (IsName e.key ∧ isQuote e.quote = true ∧ '\n' ∉ e.content)
    ⟨fun h => ⟨h.1, h.2.1, h.2.2⟩, fun h => ⟨h.key, h.quote, h.feed⟩⟩

/-- Nothing in the string ends the entry. -/
def StringEntry.Whole (e : StringEntry) : Prop := ',' ∉ e.content ∧ '\x7d' ∉ e.content

instance (e : StringEntry) : Decidable e.Whole :=
  inferInstanceAs (Decidable (',' ∉ e.content ∧ '\x7d' ∉ e.content))

section Quoted

variable {e : StringEntry} {entries : List StringEntry}

/-- The argument that is printed like the entry. -/
def StringEntry.argument (e : StringEntry) : Argument := ⟨e.key, e.raw, .text e.content⟩

theorem endsEntry_eq_false {c : Char} :
    endsEntry c = false ↔ c ≠ ',' ∧ c ≠ '\n' ∧ c ≠ '\x7d' := by
  simp [endsEntry, and_assoc]

theorem StringEntry.whole_iff (hfeed : '\n' ∉ e.content) :
    e.Whole ↔ ∀ c ∈ e.content, endsEntry c = false := by
  unfold StringEntry.Whole
  constructor
  · rintro ⟨hcomma, hbrace⟩ c hc
    rw [endsEntry_eq_false]
    exact ⟨ne_of_mem_of_not_mem hc hcomma, ne_of_mem_of_not_mem hc hfeed,
      ne_of_mem_of_not_mem hc hbrace⟩
  · intro h
    constructor
    · intro hc
      exact absurd (h _ hc) (by decide)
    · intro hc
      exact absurd (h _ hc) (by decide)

theorem StringEntry.WellFormed.quote_cases (h : e.WellFormed) : e.quote = '\'' ∨ e.quote = '"' := by
  simpa [isQuote] using h.quote

theorem StringEntry.WellFormed.mineable (h : e.WellFormed) (hwhole : e.Whole) :
    e.argument.Mineable := by
  have hquote : isBlank e.quote = false ∧ endsEntry e.quote = false := by
    rcases h.quote_cases with hq | hq <;> rw [hq] <;> decide
  have hone : strip [e.quote] = [e.quote] := by
    rcases h.quote_cases with hq | hq <;> rw [hq] <;> decide
  have hstrip : strip e.raw = e.raw := strip_cons_append hquote.1 (by simp) hone e.content
  refine ⟨h.key, List.cons_ne_nil _ _, hstrip, ?_, coerceValue_of_spells (.quoted h.quote _) hstrip⟩
  intro c hc
  have hcases : c = e.quote ∨ c ∈ e.content := by
    simpa [StringEntry.argument, StringEntry.raw, or_comm] using hc
  rcases hcases with rfl | hc
  · exact hquote.2
  · exact (StringEntry.whole_iff h.feed).mp hwhole c hc

/-- Strings that hold nothing that ends an entry are mined whole, colons and blanks included. -/
theorem parseObjectLiteral_of_whole (h : ∀ e ∈ entries, e.WellFormed)
    (hwhole : ∀ e ∈ entries, e.Whole) :
    parseObjectLiteral (stringEntries entries) = .ok (Entries.ofPairs (contents entries)) := by
  have hmineable : ∀ a ∈ entries.map StringEntry.argument, a.Mineable := by
    intro a ha
    obtain ⟨e, he, rfl⟩ := List.mem_map.mp ha
    exact (h e he).mineable (hwhole e he)
  have hsource : stringEntries entries =
      join ", ".toList ((entries.map StringEntry.argument).map Argument.source) ++ [] := by
    rw [List.append_nil, List.map_map]
    rfl
  have hpairs : pairs (entries.map StringEntry.argument) = contents entries := by
    unfold pairs contents
    rw [List.map_map]
    rfl
  have hread : (hitsFrom entryShape 0 0 none
      (join ", ".toList ((entries.map StringEntry.argument).map Argument.source) ++ [])).mapM
        readEntry = .ok (pairs (entries.map StringEntry.argument)) :=
    mapM_hits_arguments hmineable 0 rfl (List.forall_mem_nil _)
  rw [parseObjectLiteral_eq, hsource, hits, hread, hpairs]
  rfl

end Quoted

/-- Printed strings are mined to exactly their contents if and only if none of them holds a comma or
a closing brace. -/
theorem parseObjectLiteral_stringEntries {entries : List StringEntry}
    (h : ∀ e ∈ entries, e.WellFormed) (hkeys : (entries.map StringEntry.key).Nodup) :
    parseObjectLiteral (stringEntries entries) = .ok (contents entries) ↔
      ∀ e ∈ entries, e.Whole := by
  constructor
  · intro hmined e he
    rw [StringEntry.whole_iff (h e he).feed]
    exact endsEntry_of_mem_parseObjectLiteral hmined (List.mem_map.mpr ⟨e, he, rfl⟩)
  · intro hwhole
    have hnodup : (Entries.keys (contents entries)).Nodup := by
      unfold Entries.keys contents
      rwa [List.map_map]
    rw [parseObjectLiteral_of_whole h hwhole, Entries.ofPairs_eq_self hnodup]

/-- Strings with colons, an opening brace and blanks, and an empty one. -/
def spacedStrings : List StringEntry :=
  [⟨"ratio".toList, '\'', " a: \x7b b:c ".toList⟩, ⟨"to".toList, '"', []⟩]

theorem parseObjectLiteral_of_spacedStrings :
    (∀ e ∈ spacedStrings, e.WellFormed) ∧ (spacedStrings.map StringEntry.key).Nodup ∧
      parseObjectLiteral "ratio: ' a: \x7b b:c ', to: \"\"".toList =
        .ok [("ratio".toList, .text " a: \x7b b:c ".toList), ("to".toList, .text [])] := by
  have hformed : ∀ e ∈ spacedStrings, e.WellFormed := by decide +kernel
  have hkeys : (spacedStrings.map StringEntry.key).Nodup := by decide
  have hwhole : ∀ e ∈ spacedStrings, e.Whole := by decide
  exact ⟨hformed, hkeys, (parseObjectLiteral_stringEntries hformed hkeys).mpr hwhole⟩

/-- A string with a comma, and behind it what looks like another entry. -/
def listString : StringEntry := ⟨"label".toList, '\'', "to, from: x".toList⟩

/-- The string is cut at its comma, its last character before that is taken for the closing quote,
and an entry is mined from the rest. -/
theorem listString_misread :
    listString.WellFormed ∧
      (∀ c ∈ listString.content, isQuote c = false ∧ c ≠ '\\' ∧ c ≠ '\n') ∧
      parseObjectLiteral (stringEntries [listString]) =
        .ok [("label".toList, .text "t".toList), ("from".toList, .text "x'".toList)] ∧
      parseObjectLiteral (stringEntries [listString]) ≠ .ok (contents [listString]) := by
  have hmined : parseObjectLiteral (stringEntries [listString]) =
      .ok [("label".toList, .text "t".toList), ("from".toList, .text "x'".toList)] := by rfl
  refine ⟨by decide +kernel, by decide, hmined, ?_⟩
  rw [hmined]
  simp [contents]

end ComponentCatalog.Code
