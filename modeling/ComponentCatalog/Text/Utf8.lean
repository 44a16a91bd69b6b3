import ComponentCatalog.Text.Basic

/-!
UTF-8. Decoding reads one octet at a time; octets that begin no character, and the longest
beginnings of characters that another octet breaks off, are each marked by one `none`.
-/
namespace ComponentCatalog.Text.Utf8

abbrev Octets := List UInt8

/-- The octets of a text. -/
def encode (s : Text) : Octets := s.flatMap String.utf8EncodeChar

/-- A character of which some octets are read: its code so far, and the ranges of the octets
owed. -/
structure Pending where
  code : Nat
  owed : Nat × Nat
  more : List (Nat × Nat)

def tail : Nat × Nat := (0x80, 0xBF)

/-- The character that an octet above ASCII begins. The range of the second octet leaves out
overlong forms, surrogates and codes past the last plane. -/
def begin? (b : Nat) : Option Pending :=
  if 0xC2 ≤ b ∧ b ≤ 0xDF then some ⟨b - 0xC0, tail, []⟩
  else if b = 0xE0 then some ⟨0, (0xA0, 0xBF), [tail]⟩
  else if b = 0xED then some ⟨0xD, (0x80, 0x9F), [tail]⟩
  else if 0xE1 ≤ b ∧ b ≤ 0xEF then some ⟨b - 0xE0, tail, [tail]⟩
  else if b = 0xF0 then some ⟨0, (0x90, 0xBF), [tail, tail]⟩
  else if 0xF1 ≤ b ∧ b ≤ 0xF3 then some ⟨b - 0xF0, tail, [tail, tail]⟩
  else if b = 0xF4 then some ⟨4, (0x80, 0x8F), [tail, tail]⟩
  else none

/-- Reads an octet between characters. -/
def first (b : Nat) : List (Option Char) × Option Pending :=
  if b < 0x80 then ([some (Char.ofNat b)], none)
  else match begin? b with
    | some p => ([], some p)
    | none => ([none], none)

/-- Reads an octet: the characters and marks it completes, and what is then pending. -/
def step (b : Nat) : Option Pending → List (Option Char) × Option Pending
  | none => first b
  | some p =>
    if p.owed.1 ≤ b ∧ b ≤ p.owed.2 then
      let code := p.code * 64 + (b - 0x80)
      match p.more with
      | [] => ([some (Char.ofNat code)], none)
      | owed :: more => ([], some ⟨code, owed, more⟩)
    else
      let (found, pending) := first b
      (none :: found, pending)

def decodeFrom : Option Pending → Octets → List (Option Char)
  | none, [] => []
  | some _, [] => [none]
  | pending, b :: rest =>
    let (found, pending) := step b.toNat pending
    found ++ decodeFrom pending rest

/-- The characters of the octets, with a mark in place of what is none. -/
def decode (octets : Octets) : List (Option Char) := decodeFrom none octets

/-- The text of the octets, with the replacement character in place of what is none. -/
def decodeLossy (octets : Octets) : Text := (decode octets).map fun c => c.getD '\uFFFD'

/-- The text of the octets, if all of them are well formed. -/
def decode? (octets : Octets) : Option Text := (decode octets).mapM id

inductive Flaw where
  /-- An octet begins no character. -/
  | start
  /-- A character is broken off by an octet that does not continue it. -/
  | continuation
  /-- A character is broken off by the end. -/
  | unfinished
  deriving DecidableEq, Repr

def Flaw.message : Flaw → Text
  | .start => "invalid start byte".toList
  | .continuation => "invalid continuation byte".toList
  | .unfinished => "unexpected end of data".toList

/-- The first octets that are no character: how many precede them, and what is wrong with them. -/
structure Fault where
  offset : Nat
  octets : Octets
  flaw : Flaw
  deriving DecidableEq, Repr

/-- The first fault after `offset` octets, of which `begun` are those of the pending character. -/
def faultFrom? (offset : Nat) (begun : Octets) : Option Pending → Octets → Option Fault
  | none, [] => none
  | some _, [] => some ⟨offset - begun.length, begun, .unfinished⟩
  | pending, b :: rest =>
    let (found, next) := step b.toNat pending
    if found.any Option.isNone then
      match pending with
      | none => some ⟨offset, [b], .start⟩
      | some _ => some ⟨offset - begun.length, begun, .continuation⟩
    else faultFrom? (offset + 1) (if next.isSome then begun ++ [b] else []) next rest

/-- The first fault of octets that are no text. -/
def fault? (octets : Octets) : Option Fault := faultFrom? 0 [] none octets

end ComponentCatalog.Text.Utf8
