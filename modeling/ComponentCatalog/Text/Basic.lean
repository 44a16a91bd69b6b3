/-!
Text is the list of its characters, so that every scan is a recursion on the data. This module has
the searches and cuts that need no character classes.
-/
namespace ComponentCatalog

abbrev Text := List Char

namespace Text

/-- What follows `lead`, if the text begins with it. -/
def after? : (lead : Text) → Text → Option Text
  | [], s => some s
  | _ :: _, [] => none
  | a :: lead, c :: rest => if a = c then after? lead rest else none

theorem after?_append (lead s : Text) : after? lead (lead ++ s) = some s := by
  induction lead with
  | nil => rfl
  | cons a lead ih => simp [after?, ih]

theorem after?_eq_some {lead s rest : Text} : after? lead s = some rest ↔ s = lead ++ rest := by
  induction lead generalizing s with
  | nil => simp [after?]
  | cons a lead ih =>
    cases s with
    | nil => simp [after?]
    | cons c s => by_cases h : a = c <;> simp [after?, h, ih, eq_comm]

/-- The text begins with `lead`. -/
def startsWith (lead s : Text) : Bool := (after? lead s).isSome

/-- The text ends with `tail`. -/
def endsWith (tail s : Text) : Bool := startsWith tail.reverse s.reverse

/-- How many characters precede the first occurrence of `needle`. -/
def offset? (needle : Text) : Text → Option Nat
  | [] => if needle = [] then some 0 else none
  | c :: rest =>
    if startsWith needle (c :: rest) then some 0 else (offset? needle rest).map (· + 1)

/-- `needle` occurs in the text. -/
def contains (needle s : Text) : Bool := (offset? needle s).isSome

/-- The text around the first occurrence of `needle`. -/
def cut? (needle s : Text) : Option (Text × Text) :=
  (offset? needle s).map fun n => (s.take n, s.drop (n + needle.length))

/-- The text before the first occurrence of `needle`, or all of it. -/
def before (needle s : Text) : Text := ((cut? needle s).map (·.1)).getD s

def join (separator : Text) (parts : List Text) : Text := separator.intercalate parts

/-- The parts between line feeds; a final line feed leaves an empty last part. -/
def lines (s : Text) : List Text := s.splitOn '\n'

/-- Each item where it occurs first. -/
def distinct : List Text → List Text
  | [] => []
  | a :: rest => a :: (distinct rest).filter (· ≠ a)

theorem mem_distinct {a : Text} {items : List Text} : a ∈ distinct items ↔ a ∈ items := by
  induction items with
  | nil => simp [distinct]
  | cons b rest ih => by_cases h : a = b <;> simp [distinct, ih, h]

theorem nodup_distinct (items : List Text) : (distinct items).Nodup := by
  induction items with
  | nil => exact List.nodup_nil
  | cons a rest ih => exact List.nodup_cons.mpr ⟨by simp, ih.filter _⟩

/-- The character joins the first of the parts. -/
def prepend (c : Char) : List Text → List Text
  | [] => [[c]]
  | part :: more => (c :: part) :: more

/-- Drops the longest tail whose characters all satisfy `p`. -/
def dropEndWhile (p : Char → Bool) : Text → Text
  | [] => []
  | c :: rest =>
    match dropEndWhile p rest with
    | [] => if p c then [] else [c]
    | kept => c :: kept

/-- The characters of `s` from `first` up to, not including, `last`. -/
def slice (s : Text) (first last : Nat) : Text := (s.take last).drop first

/-- The part of `s` that precedes its suffix `rest`. -/
def upTo (s rest : Text) : Text := s.take (s.length - rest.length)

/-- Code-point order; a proper beginning of a text comes before it. -/
def precedes : Text → Text → Bool
  | [], _ => true
  | _ :: _, [] => false
  | c :: s, d :: t => c.toNat < d.toNat || (c == d && precedes s t)

/-- In code-point order; equal texts keep their number. -/
def sort (texts : List Text) : List Text := texts.mergeSort precedes

end ComponentCatalog.Text
