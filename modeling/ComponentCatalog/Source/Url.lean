import ComponentCatalog.Number.Integer
import ComponentCatalog.Text.Utf8

/-!
Percent-encoding of text in an address.
-/
namespace ComponentCatalog.Url

open Text

/-- A character that stands for itself in a path: a letter, a digit, a slash or one of `_.-~`. -/
def isPlain (c : Char) : Bool :=
  c.isAlphanum || c == '/' || c == '_' || c == '.' || c == '-' || c == '~'

def hexDigit (n : Nat) : Char := (Nat.digitChar n).toUpper

/-- An octet as a percent sign and two hexadecimal digits. -/
def escape (octet : UInt8) : Text := ['%', hexDigit (octet.toNat / 16), hexDigit (octet.toNat % 16)]

/-- The text with every character that is not plain as the escapes of its octets. -/
def quote (s : Text) : Text :=
  s.flatMap fun c => if isPlain c then [c] else (String.utf8EncodeChar c).flatMap escape

/-- The octet of an escape without its percent sign. -/
def octet? (a b : Char) : Option UInt8 := do
  return UInt8.ofNat (16 * (← Number.hexValue? a) + (← Number.hexValue? b))

/-- The octets that a text with escapes stands for; a percent sign that begins no escape stands for
itself. -/
def octets : Text → Utf8.Octets
  | [] => []
  | '%' :: a :: b :: rest =>
    match octet? a b with
    | some octet => octet :: octets rest
    | none => String.utf8EncodeChar '%' ++ octets (a :: b :: rest)
  | c :: rest => String.utf8EncodeChar c ++ octets rest

/-- The text that a text with escapes stands for. -/
def unquote (s : Text) : Text := Utf8.decodeLossy (octets s)

end ComponentCatalog.Url
