import Mathlib.Tactic.SplitIfs
import ComponentCatalog.Text.Utf8

/-!
The octets of a character are read as that character wherever they stand. What is pending before
them owes octets that begin no character, so it is broken off and leaves one mark.
-/
namespace ComponentCatalog.Text.Utf8

/-- An octet that begins a character and continues none. -/
def Begins (b : Nat) : Prop := b < 0x80 ∨ 0xC0 ≤ b

/-- A pending character owes octets that begin none. -/
def Pending.OwesTails (p : Pending) : Prop :=
  ∀ range ∈ p.owed :: p.more, 0x80 ≤ range.1 ∧ range.2 ≤ 0xBF

variable {b : Nat} {p : Pending} {pending : Option Pending} {rest : Octets}

theorem owesTails_of_begin? (h : begin? b = some p) : p.OwesTails := by
  unfold begin? at h
  split_ifs at h
  all_goals
    obtain rfl := Option.some.inj h
    simp only [Pending.OwesTails, tail, List.forall_mem_cons]
    decide

theorem owesTails_first (h : (first b).2 = some p) : p.OwesTails := by
  unfold first at h
  split at h
  · cases h
  · split at h
    · cases h
      exact owesTails_of_begin? ‹_›
    · cases h

/-- Reading an octet keeps what is owed within the octets that begin no character. -/
theorem owesTails_step {q : Pending} (hp : ∀ p, pending = some p → p.OwesTails)
    (h : (step b pending).2 = some q) : q.OwesTails := by
  cases pending with
  | none => exact owesTails_first h
  | some p =>
    obtain ⟨code, owed, more⟩ := p
    dsimp only [step] at h
    split_ifs at h
    · cases more with
      | nil => cases h
      | cons next more =>
        obtain rfl := Option.some.inj h
        exact fun range hrange => hp _ rfl range (.tail _ hrange)
    · exact owesTails_first h

theorem step_of_begins (hp : p.OwesTails) (hb : Begins b) :
    step b (some p) = (none :: (first b).1, (first b).2) := by
  obtain ⟨hlow, hhigh⟩ := hp p.owed List.mem_cons_self
  have hout : ¬(p.owed.1 ≤ b ∧ b ≤ p.owed.2) := by
    rcases hb with hb | hb <;> omega
  rw [step, if_neg hout]

theorem decodeFrom_cons (pending : Option Pending) (octet : UInt8) (rest : Octets) :
    decodeFrom pending (octet :: rest) =
      (step octet.toNat pending).1 ++ decodeFrom (step octet.toNat pending).2 rest := by
  cases pending <;> rfl

/-- An octet that begins a character breaks off what is pending. -/
theorem decodeFrom_of_begins {octet : UInt8} (hp : ∀ p, pending = some p → p.OwesTails)
    (hb : Begins octet.toNat) :
    decodeFrom pending (octet :: rest) =
      decodeFrom pending [] ++ decodeFrom none (octet :: rest) := by
  cases pending with
  | none => rfl
  | some p =>
    rw [decodeFrom_cons, step_of_begins (hp p rfl) hb]
    rfl

theorem exists_utf8EncodeChar (c : Char) :
    ∃ octet more, String.utf8EncodeChar c = octet :: more ∧ Begins octet.toNat := by
  unfold String.utf8EncodeChar
  dsimp only
  split_ifs with h1 h2 h3
  · exact ⟨_, _, rfl, .inl (by rw [UInt8.toNat_ofNat']; omega)⟩
  all_goals exact ⟨_, _, rfl, .inr (by rw [UInt8.toNat_ofNat']; omega)⟩

theorem begin?_two {v : Nat} (hlow : 0x80 ≤ v) (hhigh : v < 0x800) :
    begin? (v / 64 + 192) = some ⟨v / 64, tail, []⟩ := by
  rw [begin?, if_pos (by omega), Nat.add_sub_cancel]

/-- The first of three octets owes a range that the second lies in, as the character is no
surrogate. -/
theorem begin?_three {v : Nat} (hlow : 0x800 ≤ v) (hhigh : v < 0x10000)
    (hplain : v < 0xD800 ∨ 0xDFFF < v) :
    ∃ owed, begin? (v / 4096 + 224) = some ⟨v / 4096, owed, [tail]⟩ ∧
      owed.1 ≤ v / 64 % 64 + 128 ∧ v / 64 % 64 + 128 ≤ owed.2 := by
  unfold begin?
  split_ifs
  any_goals omega
  · have hfirst : v / 4096 = 0 := by omega
    exact ⟨(0xA0, 0xBF), by rw [hfirst], by dsimp only; omega, by dsimp only; omega⟩
  · have hfirst : v / 4096 = 0xD := by omega
    exact ⟨(0x80, 0x9F), by rw [hfirst], by dsimp only; omega, by dsimp only; omega⟩
  · exact ⟨tail, by rw [Nat.add_sub_cancel], by dsimp only [tail]; omega,
      by dsimp only [tail]; omega⟩

theorem begin?_four {v : Nat} (hlow : 0x10000 ≤ v) (hhigh : v < 0x110000) :
    ∃ owed, begin? (v / 262144 + 240) = some ⟨v / 262144, owed, [tail, tail]⟩ ∧
      owed.1 ≤ v / 4096 % 64 + 128 ∧ v / 4096 % 64 + 128 ≤ owed.2 := by
  unfold begin?
  split_ifs
  any_goals omega
  · have hfirst : v / 262144 = 0 := by omega
    exact ⟨(0x90, 0xBF), by rw [hfirst], by dsimp only; omega, by dsimp only; omega⟩
  · exact ⟨tail, by rw [Nat.add_sub_cancel], by dsimp only [tail]; omega,
      by dsimp only [tail]; omega⟩
  · have hfirst : v / 262144 = 4 := by omega
    exact ⟨(0x80, 0x8F), by rw [hfirst], by dsimp only; omega, by dsimp only; omega⟩

variable {octet : UInt8} {n code : Nat} {owed next : Nat × Nat} {more : List (Nat × Nat)}

theorem decodeFrom_begin (hn : octet.toNat = n) (hascii : 0x80 ≤ n) (h : begin? n = some p) :
    decodeFrom none (octet :: rest) = decodeFrom (some p) rest := by
  rw [decodeFrom_cons, hn, step, first, if_neg (by omega), h]
  rfl

theorem decodeFrom_next (hn : octet.toNat = n + 128) (hlow : owed.1 ≤ n + 128)
    (hhigh : n + 128 ≤ owed.2) :
    decodeFrom (some ⟨code, owed, next :: more⟩) (octet :: rest) =
      decodeFrom (some ⟨code * 64 + n, next, more⟩) rest := by
  rw [decodeFrom_cons, hn, step, if_pos ⟨hlow, hhigh⟩, Nat.add_sub_cancel]
  rfl

theorem decodeFrom_last (hn : octet.toNat = n + 128) (hlow : owed.1 ≤ n + 128)
    (hhigh : n + 128 ≤ owed.2) :
    decodeFrom (some ⟨code, owed, []⟩) (octet :: rest) =
      some (Char.ofNat (code * 64 + n)) :: decodeFrom none rest := by
  rw [decodeFrom_cons, hn, step, if_pos ⟨hlow, hhigh⟩, Nat.add_sub_cancel]
  rfl

theorem decodeFrom_none_utf8EncodeChar (c : Char) (rest : Octets) :
    decodeFrom none (String.utf8EncodeChar c ++ rest) = some c :: decodeFrom none rest := by
  have hvalid : c.toNat < 0xD800 ∨ 0xDFFF < c.toNat ∧ c.toNat < 0x110000 := c.valid
  have htail (n : Nat) : tail.1 ≤ n % 64 + 128 ∧ n % 64 + 128 ≤ tail.2 := by
    dsimp only [tail]
    omega
  have hcode : c.val.toNat = c.toNat := rfl
  unfold String.utf8EncodeChar
  simp only [hcode]
  generalize hv : c.toNat = v at hvalid
  have hc : Char.ofNat v = c := hv ▸ Char.ofNat_toNat c
  -- One case a width; each octet behind the first adds a digit of the code in base 64.
  split_ifs with h1 h2 h3
  · rw [List.singleton_append, decodeFrom_cons, UInt8.toNat_ofNat', Nat.mod_eq_of_lt (by omega),
      step, first, if_pos (by omega), hc]
    rfl
  · have hsum : v / 64 * 64 + v % 64 = v := by omega
    rw [List.cons_append, List.singleton_append,
      decodeFrom_begin (by rw [UInt8.toNat_ofNat']; omega) (by omega)
        (begin?_two (v := v) (by omega) (by omega)),
      decodeFrom_last (n := v % 64) (by rw [UInt8.toNat_ofNat']; omega) (htail _).1 (htail _).2,
      hsum, hc]
  · obtain ⟨owed, hbegin, hlow, hhigh⟩ := begin?_three (v := v) (by omega) (by omega) (by omega)
    have hsum : (v / 4096 * 64 + v / 64 % 64) * 64 + v % 64 = v := by omega
    rw [List.cons_append, List.cons_append, List.singleton_append,
      decodeFrom_begin (by rw [UInt8.toNat_ofNat']; omega) (by omega) hbegin,
      decodeFrom_next (n := v / 64 % 64) (by rw [UInt8.toNat_ofNat']; omega) hlow hhigh,
      decodeFrom_last (n := v % 64) (by rw [UInt8.toNat_ofNat']; omega) (htail _).1 (htail _).2,
      hsum, hc]
  · obtain ⟨owed, hbegin, hlow, hhigh⟩ := begin?_four (v := v) (by omega) (by omega)
    have hsum : ((v / 262144 * 64 + v / 4096 % 64) * 64 + v / 64 % 64) * 64 + v % 64 = v := by omega
    rw [List.cons_append, List.cons_append, List.cons_append, List.singleton_append,
      decodeFrom_begin (by rw [UInt8.toNat_ofNat']; omega) (by omega) hbegin,
      decodeFrom_next (n := v / 4096 % 64) (by rw [UInt8.toNat_ofNat']; omega) hlow hhigh,
      decodeFrom_next (n := v / 64 % 64) (by rw [UInt8.toNat_ofNat']; omega) (htail _).1
        (htail _).2,
      decodeFrom_last (n := v % 64) (by rw [UInt8.toNat_ofNat']; omega) (htail _).1 (htail _).2,
      hsum, hc]

/-- The octets of a character are that character behind any octets at all. -/
theorem decodeFrom_append_char (hp : ∀ p, pending = some p → p.OwesTails) (octets : Octets)
    (c : Char) (rest : Octets) :
    decodeFrom pending (octets ++ (String.utf8EncodeChar c ++ rest)) =
      decodeFrom pending octets ++ some c :: decodeFrom none rest := by
  induction octets generalizing pending with
  | nil =>
    rw [← decodeFrom_none_utf8EncodeChar]
    obtain ⟨octet, more, henc, hbegins⟩ := exists_utf8EncodeChar c
    rw [henc]
    exact decodeFrom_of_begins hp hbegins
  | cons octet octets ih =>
    rw [List.cons_append, decodeFrom_cons, ih fun q hq => owesTails_step hp hq, decodeFrom_cons,
      List.append_assoc]

theorem decodeLossy_append_char (octets : Octets) (c : Char) (rest : Octets) :
    decodeLossy (octets ++ (String.utf8EncodeChar c ++ rest)) =
      decodeLossy octets ++ c :: decodeLossy rest := by
  have hnone : ∀ p, (none : Option Pending) = some p → p.OwesTails := by simp
  simp only [decodeLossy, decode, decodeFrom_append_char hnone, List.map_append, List.map_cons,
    Option.getD_some]

theorem decodeLossy_encode (s : Text) : decodeLossy (encode s) = s := by
  induction s with
  | nil => rfl
  | cons c s ih =>
    have hchar := decodeLossy_append_char [] c (encode s)
    rw [List.nil_append, ih] at hchar
    rwa [encode, List.flatMap_cons]

theorem length_first_add_le (b : Nat) :
    (first b).1.length + (decodeFrom (first b).2 []).length ≤ 1 := by
  unfold first
  split_ifs
  · simp [decodeFrom]
  · cases begin? b <;> simp [decodeFrom]

/-- An octet adds one character or mark at most to those that would be read without it. -/
theorem length_step_add_le (b : Nat) (pending : Option Pending) :
    (step b pending).1.length + (decodeFrom (step b pending).2 []).length ≤
      (decodeFrom pending []).length + 1 := by
  have hfirst := length_first_add_le b
  cases pending with
  | none => exact Nat.le_trans hfirst (Nat.le_add_left 1 _)
  | some p =>
    obtain ⟨code, owed, more⟩ := p
    dsimp only [step]
    split_ifs
    · cases more <;> simp [decodeFrom]
    · simp only [List.length_cons, decodeFrom, List.length_nil]
      omega

end ComponentCatalog.Text.Utf8
