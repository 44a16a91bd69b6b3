import ComponentCatalog.Number.Integer

/-!
YAML 1.1 token by token: the kinds of token, the character classes that separate them, and why a
text is refused.
-/
namespace ComponentCatalog.Yaml

/-- Why a text has no value. -/
inductive Error where
  | malformed
  | digits (e : DigitError)
  /-- An escape past the last code point. -/
  | codePoint
  | notInteger (base : Nat) (literal : Text)
  | notFloat (literal : Text)
  | notTruthValue (literal : Text)
  | emptyNumber
  | year (n : Nat)
  | month
  | day
  | hour
  | minute
  | second
  deriving DecidableEq, Repr

inductive Directive where
  | version (major : Nat)
  | tag (handle lead : Text)
  | other
  deriving DecidableEq, Repr

inductive Token where
  | directive (d : Directive)
  | documentStart
  | documentEnd
  | blockSequenceStart
  | blockMappingStart
  | blockEnd
  | flowSequenceStart
  | flowSequenceEnd
  | flowMappingStart
  | flowMappingEnd
  | blockEntry
  | flowEntry
  | key
  | value
  | alias (name : Text)
  | anchor (name : Text)
  /-- A tag with its handle, if it is not verbatim. -/
  | tag (handle : Option Text) (suffix : Text)
  | scalar (isPlain : Bool) (text : Text)
  deriving DecidableEq, Repr

/-- Characters that end a line; carriage returns are line feeds before a text is read. -/
def isBreak (c : Char) : Bool := c == '\n' || c == '\x85' || c == '\u2028' || c == '\u2029'

/-- What a line break stands for inside a scalar. -/
def breakText (c : Char) : Char := if c = '\x85' then '\n' else c

def isBlank (c : Char) : Bool := c == ' ' || c == '\t'

/-- The line ends here. -/
def endsLine : Text → Bool
  | [] => true
  | c :: _ => isBreak c

/-- A space, a line break or the end is here. -/
def atSpace (s : Text) : Bool := endsLine s || s.head? == some ' '

/-- A blank, a line break or the end is here. -/
def atGap (s : Text) : Bool := atSpace s || s.head? == some '\t'

/-- A line that begins here separates documents. -/
def atSeparator : Text → Bool
  | '-' :: '-' :: '-' :: rest => atGap rest
  | '.' :: '.' :: '.' :: rest => atGap rest
  | _ => false

def isNameChar (c : Char) : Bool := c.isAlphanum || c == '-' || c == '_'

/-- Characters that a text may hold. -/
def isPrintable (c : Char) : Bool :=
  let n := c.toNat
  n == 0x9 || n == 0xA || n == 0xD || (0x20 ≤ n && n ≤ 0x7E) || n == 0x85 ||
    (0xA0 ≤ n && n ≤ 0xD7FF) || (0xE000 ≤ n && n ≤ 0xFFFD) || 0x10000 ≤ n

end ComponentCatalog.Yaml
