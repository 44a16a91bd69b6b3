import ComponentCatalog.Text.Basic
import ComponentCatalog.Text.WordTable

/-!
Character classes: blanks, word characters and decimal digits. ASCII is decided by comparison, the
rest by the tables.
-/
namespace ComponentCatalog.Text

def inRanges (ranges : List (Nat × Nat)) (n : Nat) : Bool :=
  ranges.any fun (first, last) => first ≤ n && n ≤ last

/-- White space: the controls from tab to carriage return, the four information separators, the
space, the next-line control and the Unicode spaces and line separators. -/
def isBlank (c : Char) : Bool :=
  let n := c.toNat
  (9 ≤ n && n ≤ 13) || (28 ≤ n && n ≤ 32) || n == 0x85 || n == 0xA0 || n == 0x1680 ||
    (0x2000 ≤ n && n ≤ 0x200A) || n == 0x2028 || n == 0x2029 || n == 0x202F || n == 0x205F ||
    n == 0x3000

/-- A letter, a digit or other numeral, or the underscore. -/
def isWord (c : Char) : Bool :=
  if c.toNat < 128 then c.isAlphanum || c == '_' else inRanges wordRanges c.toNat

/-- The value of a decimal digit of any script. -/
def digitValue? (c : Char) : Option Nat :=
  if c.isDigit then some (c.toNat - 48)
  else (digitZeros.find? fun start => start ≤ c.toNat && c.toNat < start + 10).map (c.toNat - ·)

def isDecimal (c : Char) : Bool := (digitValue? c).isSome

def stripStart (s : Text) : Text := s.dropWhile isBlank

def stripEnd (s : Text) : Text := dropEndWhile isBlank s

/-- The text without the blanks around it. -/
def strip (s : Text) : Text := stripEnd (stripStart s)

/-- Exactly one of the two neighbours is a word character. -/
def isBoundary (previous next : Option Char) : Bool :=
  previous.any isWord != next.any isWord

/-- Characters that end a line. -/
def isLineBreak (c : Char) : Bool :=
  let n := c.toNat
  (10 ≤ n && n ≤ 13) || (28 ≤ n && n ≤ 30) || n == 0x85 || n == 0x2028 || n == 0x2029

/-- The text with a line feed for each carriage return, alone or with its line feed. -/
def unifyLineEnds : Text → Text
  | [] => []
  | '\r' :: '\n' :: rest => '\n' :: unifyLineEnds rest
  | '\r' :: rest => '\n' :: unifyLineEnds rest
  | c :: rest => c :: unifyLineEnds rest

/-- The lines between line breaks of every kind, a carriage return with its line feed counting as
one; no empty line follows a final break. -/
def breakLines : Text → List Text
  | [] => []
  | '\r' :: '\n' :: rest => [] :: breakLines rest
  | c :: rest =>
    if isLineBreak c then [] :: breakLines rest
    else match breakLines rest with
      | [] => [[c]]
      | line :: more => (c :: line) :: more

end ComponentCatalog.Text
