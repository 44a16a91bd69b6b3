import ComponentCatalog.Text.Class

/-!
Leftmost scanning. A shape is a function from a place in the text to what it recognises there and
how many characters that takes; `hits` collects its non-overlapping occurrences from left to right.
-/
namespace ComponentCatalog.Text

/-- A place in a text: how many characters precede it, the last of them, and all that follows. -/
structure Cursor where
  offset : Nat
  previous : Option Char
  rest : Text

namespace Cursor

def start (s : Text) : Cursor := ⟨0, none, s⟩

/-- The place one character on. -/
def next (at_ : Cursor) : Cursor :=
  match at_.rest with
  | [] => at_
  | c :: rest => ⟨at_.offset + 1, some c, rest⟩

/-- A word begins here. -/
def atWordStart (at_ : Cursor) : Bool :=
  !at_.previous.any isWord && at_.rest.head?.any isWord

/-- The number of characters between here and the suffix `rest`. -/
def lengthTo (at_ : Cursor) (rest : Text) : Nat := at_.rest.length - rest.length

end Cursor

/-- A shape finds a value and its length at a place, or nothing. -/
abbrev Shape (α : Type) := Cursor → Option (α × Nat)

def hitsFrom (shape : Shape α) : (skip offset : Nat) → Option Char → Text → List α
  | _, _, _, [] => []
  | skip + 1, offset, _, c :: rest => hitsFrom shape skip (offset + 1) (some c) rest
  | 0, offset, previous, c :: rest =>
    match shape ⟨offset, previous, c :: rest⟩ with
    | none => hitsFrom shape 0 (offset + 1) (some c) rest
    | some (a, length) => a :: hitsFrom shape (length - 1) (offset + 1) (some c) rest

/-- The non-overlapping occurrences of a shape, leftmost first. -/
def hits (shape : Shape α) (s : Text) : List α := hitsFrom shape 0 0 none s

def firstHitFrom (shape : Shape α) : (offset : Nat) → Option Char → Text → Option α
  | _, _, [] => none
  | offset, previous, c :: rest =>
    match shape ⟨offset, previous, c :: rest⟩ with
    | none => firstHitFrom shape (offset + 1) (some c) rest
    | some (a, _) => some a

/-- The leftmost occurrence of a shape. -/
def firstHit (shape : Shape α) (s : Text) : Option α := firstHitFrom shape 0 none s

theorem firstHitFrom_eq_head? (shape : Shape α) (offset : Nat) (previous : Option Char)
    (s : Text) :
    firstHitFrom shape offset previous s = (hitsFrom shape 0 offset previous s).head? := by
  induction s generalizing offset previous with
  | nil => rfl
  | cons c rest ih =>
    rw [firstHitFrom, hitsFrom]
    split <;> simp_all

/-- The first success of `k` after some of the characters satisfying `p`, most of them first. -/
def afterMost (p : Char → Bool) (k : Text → Option α) : Text → Option α
  | [] => k []
  | c :: rest => if p c then (afterMost p k rest).or (k (c :: rest)) else k (c :: rest)

/-- The first success of `k` after some of the characters satisfying `p`, fewest of them first. -/
def afterLeast (p : Char → Bool) (k : Text → Option α) : Text → Option α
  | [] => k []
  | c :: rest => (k (c :: rest)).or (if p c then afterLeast p k rest else none)

/-- The blanks here, at least one; what follows them starts with no blank. -/
def blanks? : Text → Option Text
  | [] => none
  | c :: rest => if isBlank c then some (stripStart rest) else none

/-- The word here and what follows it. -/
def word? (s : Text) : Option (Text × Text) :=
  match s.span isWord with
  | ([], _) => none
  | found => some found

/-- One or more characters satisfying `p`, as many as there are, and what follows them. -/
def run? (p : Char → Bool) (s : Text) : Option (Text × Text) :=
  match s.span p with
  | ([], _) => none
  | found => some found

/-- The character here, if it satisfies `p`, and what follows it. -/
def one? (p : Char → Bool) : Text → Option (Char × Text)
  | [] => none
  | c :: rest => if p c then some (c, rest) else none

/-- What follows the first of the alternatives that begins the text. -/
def afterAny? (alternatives : List Text) (s : Text) : Option Text :=
  alternatives.findSome? (after? · s)

def isQuote (c : Char) : Bool := c == '\'' || c == '"'

/-- A quote of either kind or a backtick. -/
def isStringMark (c : Char) : Bool := c == '\'' || c == '"' || c == '\x60'

/-- A name on its own: no word character continues it. -/
def afterName? (name s : Text) : Option Text :=
  (after? name s).filter fun rest => isBoundary name.getLast? rest.head?

end ComponentCatalog.Text
