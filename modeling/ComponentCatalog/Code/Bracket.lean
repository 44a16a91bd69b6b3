import ComponentCatalog.Text.Scan

/-!
Brackets in program text. `closing?` finds the partner of the bracket at the head of a text; string
literals and comments are stepped over. `block?` is the text between the two.
-/
namespace ComponentCatalog.Code

open Text

structure Bracket where
  opening : Char
  closing : Char
  deriving DecidableEq, Repr

def curly : Bracket := ⟨'{', '}'⟩
def square : Bracket := ⟨'[', ']'⟩
def round : Bracket := ⟨'(', ')'⟩

/-- How much of a string literal follows its opening quote: through the closing quote, or up to a
line feed that only a backtick literal may hold, or to the end. A backslash takes the next character
along. -/
def stringTail (quote : Char) : Text → Nat
  | [] => 0
  | ['\\'] => 1
  | '\\' :: _ :: rest => stringTail quote rest + 2
  | c :: rest =>
    if c = quote then 1
    else if c = '\n' ∧ quote ≠ '\x60' then 0
    else stringTail quote rest + 1

/-- How much of a block comment follows its first two characters: through the first `*/`. -/
def blockCommentTail : Text → Nat
  | [] => 0
  | '*' :: '/' :: _ => 2
  | _ :: rest => blockCommentTail rest + 1

/-- How much of a line comment follows its first two characters: up to the line feed. -/
def lineCommentTail (s : Text) : Nat := (s.takeWhile (· ≠ '\n')).length

/-- How many characters after `c` belong to the string literal or comment that begins with it;
`none` where neither begins. -/
def opaqueTail? (c : Char) (rest : Text) : Option Nat :=
  if isStringMark c then some (stringTail c rest)
  else if c = '/' then
    match rest with
    | '/' :: more => some (lineCommentTail more + 1)
    | '*' :: more => some (blockCommentTail more + 1)
    | _ => none
  else none

def closingFrom (b : Bracket) : (skip : Nat) → (depth : Int) → (offset : Nat) → Text → Option Nat
  | _, _, _, [] => none
  | skip + 1, depth, offset, _ :: rest => closingFrom b skip depth (offset + 1) rest
  | 0, depth, offset, c :: rest =>
    match opaqueTail? c rest with
    | some tail => closingFrom b tail depth (offset + 1) rest
    | none =>
      if c = b.opening then closingFrom b 0 (depth + 1) (offset + 1) rest
      else if c = b.closing then
        if depth = 1 then some offset else closingFrom b 0 (depth - 1) (offset + 1) rest
      else closingFrom b 0 depth (offset + 1) rest

/-- How many characters precede the partner of the opening bracket at the head of the text. -/
def closing? (b : Bracket) (s : Text) : Option Nat :=
  if s.head? = some b.opening then closingFrom b 0 0 0 s else none

/-- The text from a position on; nothing stands before the first or after the last character. -/
def fromPosition? (s : Text) (index : Int) : Option Text :=
  if 0 ≤ index ∧ index < s.length then some (s.drop index.toNat) else none

/-- The position of the partner of the opening bracket at `index`. -/
def findClosing (b : Bracket) (s : Text) (index : Int) : Option Nat :=
  ((fromPosition? s index).bind (closing? b)).map (· + index.toNat)

/-- The text between the opening bracket at the head and its partner; without a partner, the text up
to the first closing bracket of all. -/
def block? (b : Bracket) (s : Text) : Option Text :=
  if s.head? = some b.opening then
    match closing? b s with
    | some n => some (slice s 1 n)
    | none => (s.tail.idxOf? b.closing).map fun n => s.tail.take n
  else none

/-- The block whose opening bracket stands at `index`. -/
def captureBlock (b : Bracket) (s : Text) (index : Int) : Option Text :=
  (fromPosition? s index).bind (block? b)

/-- A shape that is only looked for, with what follows it. -/
abbrev Marker := Cursor → Option Text

/-- The texts that follow the occurrences of a marker. -/
def followers (marker : Marker) (s : Text) : List Text :=
  hits (fun at_ => (marker at_).map fun rest => (rest, at_.lengthTo rest)) s

/-- The block of the first occurrence of the marker that blanks, if anything, part from an opening
bracket. -/
def blockAfter? (b : Bracket) (marker : Marker) (s : Text) : Option Text :=
  ((followers marker s).find? fun rest => (stripStart rest).head? = some b.opening).bind
    fun rest => block? b (stripStart rest)

/-- The curly block of every occurrence of the marker that blanks, if anything, part from one. -/
def blocksAfter (marker : Marker) (s : Text) : List Text :=
  (followers marker s).filterMap fun rest => block? curly (stripStart rest)

/-- A key at a word boundary, and its colon. -/
def keyed (key : Text) : Marker := fun at_ =>
  if isBoundary at_.previous at_.rest.head? then
    (after? key at_.rest).bind fun rest => after? [':'] (stripStart rest)
  else none

end ComponentCatalog.Code
