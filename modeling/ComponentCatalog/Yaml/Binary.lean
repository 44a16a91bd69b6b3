import ComponentCatalog.Text.Basic

/-!
Octets written as base 64: four characters for three octets. Other characters count for nothing, and
what follows the padding of a last group is not read.
-/
namespace ComponentCatalog.Yaml

/-- The six bits that a character stands for. -/
def sextet? (c : Char) : Option Nat :=
  if c.isUpper then some (c.toNat - 'A'.toNat)
  else if c.isLower then some (c.toNat - 'a'.toNat + 26)
  else if c.isDigit then some (c.toNat - '0'.toNat + 52)
  else if c = '+' then some 62
  else if c = '/' then some 63
  else none

/-- The octets of a text within a group: `place` of its characters and `pads` padding signs are
read, and the bits in `left` are not yet part of an octet. -/
def octetsFrom? : (place pads left : Nat) → Text → Option (List Nat)
  | place, _, _, [] => if place = 0 then some [] else none
  | place, pads, left, '=' :: rest =>
    if place < 2 then octetsFrom? place pads left rest
    else if place + pads + 1 < 4 then octetsFrom? place (pads + 1) left rest
    else some []
  | place, pads, left, c :: rest =>
    match sextet? c with
    | none => octetsFrom? place pads left rest
    | some bits =>
      match place with
      | 0 => octetsFrom? 1 0 bits rest
      | 1 => (octetsFrom? 2 0 (bits % 16) rest).map ((left * 4 + bits / 16) :: ·)
      | 2 => (octetsFrom? 3 0 (bits % 4) rest).map ((left * 16 + bits / 4) :: ·)
      | _ => (octetsFrom? 0 0 0 rest).map ((left * 64 + bits) :: ·)

/-- The octets of a text whose last group is whole. -/
def octets? (s : Text) : Option (List Nat) := octetsFrom? 0 0 0 s

end ComponentCatalog.Yaml
