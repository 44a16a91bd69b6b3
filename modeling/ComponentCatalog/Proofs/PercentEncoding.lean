import Mathlib.Data.List.Infix
import ComponentCatalog.Proofs.CharacterOctets
import ComponentCatalog.Source.Url

/-!
Percent-encoding and its reading. What `quote` writes is read back. A text as it stands is read as
itself exactly if it has no escape, since every escape makes what is read shorter.
-/
namespace ComponentCatalog.Url

open Text Utf8

/-- The text has a percent sign with two hexadecimal digits behind it. -/
def HasEscape (s : Text) : Prop :=
  ∃ a b octet, ['%', a, b] <:+: s ∧ octet? a b = some octet

variable {a b c : Char} {s rest : Text} {octet : UInt8}

theorem octets_escaped (h : octet? a b = some octet) :
    octets ('%' :: a :: b :: rest) = octet :: octets rest := by
  rw [octets, h]

theorem octets_cons (h : ∀ a b more, c = '%' → rest = a :: b :: more → octet? a b = none) :
    octets (c :: rest) = String.utf8EncodeChar c ++ octets rest := by
  rw [octets.eq_def]
  split
  · rename_i heq
    cases heq
  · rename_i a b more heq
    cases heq
    rw [h a b more rfl rfl]
  · rename_i heq
    cases heq
    rfl

theorem octets_cons_of_ne (h : c ≠ '%') :
    octets (c :: rest) = String.utf8EncodeChar c ++ octets rest :=
  octets_cons fun _ _ _ hc => absurd hc h

/-- Reading goes on behind an escape or behind a character that begins none. -/
theorem octets_induction {motive : Text → Prop} (nil : motive [])
    (escape : ∀ a b octet rest, octet? a b = some octet → motive rest →
      motive ('%' :: a :: b :: rest))
    (char : ∀ c rest, (∀ a b more, c = '%' → rest = a :: b :: more → octet? a b = none) →
      motive rest → motive (c :: rest)) (s : Text) : motive s := by
  induction s using octets.induct with
  | case1 => exact nil
  | case2 a b rest octet h ih => exact escape a b octet rest h ih
  | case3 a b rest h ih =>
    refine char '%' (a :: b :: rest) (fun a' b' more _ heq => ?_) ih
    cases heq
    exact h
  | case4 c rest h ih =>
    refine char c rest (fun a b more hc heq => ?_) ih
    exact absurd heq (h a b more hc)

theorem hexValue?_hexDigit : ∀ n < 16, Number.hexValue? (hexDigit n) = some n := by decide

theorem isPlain_hexDigit : ∀ n < 16, isPlain (hexDigit n) = true := by decide

theorem octet?_escape (octet : UInt8) :
    octet? (hexDigit (octet.toNat / 16)) (hexDigit (octet.toNat % 16)) = some octet := by
  have hlt := octet.toNat_lt
  rw [octet?, hexValue?_hexDigit _ (by omega), hexValue?_hexDigit _ (by omega)]
  simp only [Option.bind_eq_bind, Option.bind_some, Nat.div_add_mod, UInt8.ofNat_toNat,
    Option.pure_def]

theorem octets_flatMap_escape (found : Octets) :
    octets (found.flatMap escape ++ rest) = found ++ octets rest := by
  induction found with
  | nil => rfl
  | cons octet found ih =>
    rw [List.flatMap_cons, List.append_assoc, List.cons_append, ← ih]
    exact octets_escaped (octet?_escape octet)

theorem ne_percent_of_isPlain (h : isPlain c = true) : c ≠ '%' := by
  rintro rfl
  revert h
  decide

theorem octets_quote (s : Text) : octets (quote s) = encode s := by
  induction s with
  | nil => rfl
  | cons c s ih =>
    rw [quote, List.flatMap_cons, ← quote, encode, List.flatMap_cons, ← encode, ← ih]
    split
    · exact octets_cons_of_ne (ne_percent_of_isPlain ‹_›)
    · exact octets_flatMap_escape _

theorem unquote_quote (s : Text) : unquote (quote s) = s := by
  rw [unquote, octets_quote, decodeLossy_encode]

/-- A quoted text has plain characters and percent signs only. -/
theorem mem_quote (h : c ∈ quote s) : isPlain c = true ∨ c = '%' := by
  obtain ⟨d, -, hc⟩ := List.mem_flatMap.mp h
  split at hc
  · rw [List.mem_singleton.mp hc]
    exact .inl ‹_›
  · obtain ⟨octet, -, hc⟩ := List.mem_flatMap.mp hc
    have hlt := octet.toNat_lt
    simp only [escape, List.mem_cons, List.not_mem_nil, or_false] at hc
    rcases hc with rfl | rfl | rfl
    · exact .inr rfl
    · exact .inl (isPlain_hexDigit _ (by omega))
    · exact .inl (isPlain_hexDigit _ (by omega))

theorem notMem_quote (hplain : isPlain c = false) (hc : c ≠ '%') : c ∉ quote s := fun h =>
  (mem_quote h).elim (by simp [hplain]) hc

theorem octet?_slash_left (b : Char) : octet? '/' b = none := rfl

theorem octet?_slash_right (a : Char) : octet? a '/' = none := by
  unfold octet?
  cases Number.hexValue? a <;> rfl

/-- No escape goes across a slash. -/
theorem octets_append_slash (u v : Text) :
    octets (u ++ '/' :: v) = octets u ++ (String.utf8EncodeChar '/' ++ octets v) := by
  induction u using octets_induction with
  | nil => exact octets_cons_of_ne (by decide)
  | escape a b octet rest h ih =>
    rw [octets_escaped h, @List.cons_append _ octet, ← ih]
    exact octets_escaped h
  | char c rest h ih =>
    have hc : ∀ a b more, c = '%' → rest ++ '/' :: v = a :: b :: more → octet? a b = none := by
      rintro a b more hc heq
      rcases rest with _ | ⟨x, _ | ⟨y, rest⟩⟩
      · obtain ⟨rfl, -⟩ := List.cons.inj heq
        exact octet?_slash_left b
      · obtain ⟨-, heq⟩ := List.cons.inj heq
        obtain ⟨rfl, -⟩ := List.cons.inj heq
        exact octet?_slash_right a
      · cases heq
        exact h a b rest hc rfl
    rw [List.cons_append, octets_cons hc, ih, octets_cons h, List.append_assoc]

theorem unquote_append_slash (u v : Text) :
    unquote (u ++ '/' :: v) = unquote u ++ '/' :: unquote v := by
  rw [unquote, octets_append_slash, decodeLossy_append_char]
  rfl

theorem HasEscape.of_cons (h : HasEscape (c :: rest))
    (hc : ∀ a b more, c = '%' → rest = a :: b :: more → octet? a b = none) : HasEscape rest := by
  obtain ⟨a, b, octet, hpart, hoctet⟩ := h
  rcases List.infix_cons_iff.mp hpart with hprefix | hpart
  · obtain ⟨more, hmore⟩ := hprefix
    obtain ⟨hpercent, hrest⟩ := List.cons.inj hmore
    exact absurd (hc a b more hpercent.symm hrest.symm) (by simp [hoctet])
  · exact ⟨a, b, octet, hpart, hoctet⟩

theorem HasEscape.cons (h : HasEscape rest) : HasEscape (c :: rest) := by
  obtain ⟨a, b, octet, hpart, hoctet⟩ := h
  exact ⟨a, b, octet, hpart.trans (List.suffix_cons c rest).isInfix, hoctet⟩

theorem octets_of_not_hasEscape (h : ¬HasEscape s) : octets s = encode s := by
  induction s using octets_induction with
  | nil => rfl
  | escape a b octet rest hoctet ih =>
    exact absurd ⟨a, b, octet, (List.prefix_append ['%', a, b] rest).isInfix, hoctet⟩ h
  | char c rest hc ih =>
    rw [octets_cons hc, ih fun hrest => h hrest.cons, encode, encode, List.flatMap_cons]

/-- No character of a text is read as more than one, and an escape is read as one at most. -/
theorem length_decodeFrom_octets (s : Text) (pending : Option Pending)
    (hp : ∀ p, pending = some p → p.OwesTails) :
    (decodeFrom pending (octets s)).length ≤ (decodeFrom pending []).length + s.length ∧
      (HasEscape s →
        (decodeFrom pending (octets s)).length < (decodeFrom pending []).length + s.length) := by
  induction s using octets_induction generalizing pending with
  | nil =>
    refine ⟨Nat.le_refl _, fun ⟨a, b, octet, hpart, _⟩ => ?_⟩
    cases List.infix_nil.mp hpart
  | escape a b octet rest h ih =>
    have hstep := length_step_add_le octet.toNat pending
    have hrest := (ih (step octet.toNat pending).2 fun q hq => owesTails_step hp hq).1
    rw [octets_escaped h, decodeFrom_cons, List.length_append, List.length_cons, List.length_cons,
      List.length_cons]
    exact ⟨by omega, fun _ => by omega⟩
  | char c rest h ih =>
    have hchar := decodeFrom_append_char hp [] c (octets rest)
    obtain ⟨hle, hlt⟩ := ih none (by simp)
    simp only [decodeFrom, List.length_nil, Nat.zero_add] at hle hlt
    rw [octets_cons h, ← List.nil_append (String.utf8EncodeChar c ++ octets rest), hchar,
      List.length_append, List.length_cons, List.length_cons]
    exact ⟨by omega, fun hescape => by have := hlt (hescape.of_cons h); omega⟩

theorem length_unquote_le (s : Text) : (unquote s).length ≤ s.length := by
  have hle := (length_decodeFrom_octets s none (by simp)).1
  simpa [unquote, decodeLossy, decode, decodeFrom] using hle

theorem length_unquote_lt (h : HasEscape s) : (unquote s).length < s.length := by
  have hlt := (length_decodeFrom_octets s none (by simp)).2 h
  simpa [unquote, decodeLossy, decode, decodeFrom] using hlt

/-- A text is read as itself exactly if it has no escape. -/
theorem unquote_eq_self_iff : unquote s = s ↔ ¬HasEscape s := by
  refine ⟨fun h hescape => ?_, fun h => ?_⟩
  · exact absurd (length_unquote_lt hescape) (by rw [h]; exact Nat.lt_irrefl _)
  · rw [unquote, octets_of_not_hasEscape h, decodeLossy_encode]

theorem not_hasEscape_of_notMem (h : '%' ∉ s) : ¬HasEscape s := fun ⟨_, _, _, hpart, _⟩ =>
  h (hpart.subset List.mem_cons_self)

theorem unquote_of_notMem (h : '%' ∉ s) : unquote s = s :=
  unquote_eq_self_iff.mpr (not_hasEscape_of_notMem h)

end ComponentCatalog.Url
