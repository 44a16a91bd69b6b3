import ComponentCatalog.Json.Basic
import ComponentCatalog.Number.Shortest
import ComponentCatalog.Text.PrintTable

/-!
How values are spelled in running text. A text stands for itself; inside a list or a mapping it is
quoted, and characters without a printed form are escaped.
-/
namespace ComponentCatalog.Display

open Text

def isPrintable (c : Char) : Bool :=
  let n := c.toNat
  if n < 128 then 32 ≤ n && n ≤ 126 else !inRanges unprintableRanges n

def hexDigits (width n : Nat) : Text :=
  let digits := Nat.toDigits 16 n
  List.replicate (width - digits.length) '0' ++ digits

def escapeChar (quote c : Char) : Text :=
  if c = quote ∨ c = '\\' then ['\\', c]
  else if c = '\n' then ['\\', 'n']
  else if c = '\r' then ['\\', 'r']
  else if c = '\t' then ['\\', 't']
  else if isPrintable c then [c]
  else if c.toNat < 0x100 then '\\' :: 'x' :: hexDigits 2 c.toNat
  else if c.toNat < 0x10000 then '\\' :: 'u' :: hexDigits 4 c.toNat
  else '\\' :: 'U' :: hexDigits 8 c.toNat

/-- A quoted text: in single quotes, unless it has single quotes and no double ones. -/
def quoted (s : Text) : Text :=
  let quote := if '\'' ∈ s ∧ '"' ∉ s then '"' else '\''
  quote :: s.flatMap (escapeChar quote) ++ [quote]

def boolText (b : Bool) : Text := if b then "True".toList else "False".toList

mutual

/-- The spelling of a value inside a list or a mapping. -/
def inner : Json → Except DigitError Text
  | .null => .ok "None".toList
  | .bool b => .ok (boolText b)
  | .int n => Number.writeInt n
  | .float x => .ok (Number.FloatLayout.plain.text x)
  | .text s => .ok (quoted s)
  | .list items => (innerItems items).map fun parts => '[' :: join ", ".toList parts ++ [']']
  | .object members => (innerMembers members).map fun parts =>
      '\x7b' :: join ", ".toList parts ++ ['\x7d']

def innerItems : List Json → Except DigitError (List Text)
  | [] => .ok []
  | item :: items => do return (← inner item) :: (← innerItems items)

def innerMembers : List (Text × Json) → Except DigitError (List Text)
  | [] => .ok []
  | (name, value) :: members => do
    return (quoted name ++ ": ".toList ++ (← inner value)) :: (← innerMembers members)

end

/-- The spelling of a value on its own. -/
def ofJson : Json → Except DigitError Text
  | .text s => .ok s
  | value => inner value

end ComponentCatalog.Display
