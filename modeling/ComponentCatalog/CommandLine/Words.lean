import ComponentCatalog.Text.Class

/-!
The words of a command line. A word names a switch, is an operand, or separates the switches from
the operands after it. A switch may be shortened as long as it stays the only one; flags may also
have a letter, and letters may stand together behind one dash.
-/
namespace ComponentCatalog.CommandLine

open Text

structure Switch (α : Type) where
  key : α
  /-- The long name, without its dashes. -/
  name : String
  takesValue : Bool := false
  /-- The letter of a flag. -/
  letter : Option Char := none

/-- What a word may be where certain switches are known. -/
inductive Word (α : Type) where
  | operand
  | separator
  /-- A switch by its long name, and the value that follows an equals sign. -/
  | switch (s : Switch α) (value : Option Text)
  /-- Letters of flags. -/
  | letters (s : Text)
  | unknown
  | ambiguous

/-- What a command line says, word by word. -/
inductive Event (α : Type) where
  | flag (key : α)
  | value (key : α) (s : Text)
  | operand (s : Text)
  /-- A command and the words after it. -/
  | command (name : Text) (words : List Text)
  /-- A word that nothing takes. -/
  | surplus
  /-- The operand is missing. -/
  | missing
  /-- A switch is wrongly used; what follows is not read. -/
  | misuse
  deriving DecidableEq, Repr

/-- The operands that a command line may have. -/
inductive Operands where
  | none
  | one
  /-- The name of a command, which takes all words after it. -/
  | command
  deriving DecidableEq, Repr

def long (s : Switch α) : Text := '-' :: '-' :: s.name.toList

def letterOf (switches : List (Switch α)) (c : Char) : Option (Switch α) :=
  switches.find? fun s => s.letter == some c

/-- Decimal digits that fill the text; a final line feed does not count. -/
def isDigits (s : Text) : Bool :=
  let digits := if endsWith ['\n'] s then s.dropLast else s
  !digits.isEmpty && digits.all isDecimal

/-- A dash and digits, with a point before or among them if there is one. -/
def isNegativeNumber : Text → Bool
  | '-' :: rest =>
    isDigits rest ||
      match rest.dropWhile isDecimal with
      | '.' :: decimals => isDigits decimals
      | _ => false
  | _ => false

/-- The name and, after the first equals sign, the value. -/
def nameAndValue (s : Text) : Text × Option Text :=
  match cut? ['='] s with
  | some (name, value) => (name, some value)
  | none => (s, none)

/-- A word with a dash that names no switch. -/
def unnamed (s : Text) : Word α :=
  if isNegativeNumber s ∨ ' ' ∈ s then .operand else .unknown

def wordOf (switches : List (Switch α)) (s : Text) : Word α :=
  match s with
  | '-' :: '-' :: _ =>
    let (name, value) := nameAndValue s
    match switches.find? fun t => long t = name with
    | some t => .switch t value
    | none =>
      match switches.filter fun t => startsWith name (long t) with
      | [] => unnamed s
      | [t] => .switch t value
      | _ => .ambiguous
  | '-' :: c :: rest =>
    if (letterOf switches c).isSome then .letters (c :: rest) else unnamed s
  | _ => .operand

/-- The words with what they are: after the first separator all are operands. -/
def classify (switches : List (Switch α)) : List Text → List (Text × Word α)
  | [] => []
  | s :: rest =>
    if s = ['-', '-'] then (s, .separator) :: rest.map fun t => (t, .operand)
    else (s, wordOf switches s) :: classify switches rest

/-- The flags behind one dash; `none` where an equals sign or a dash follows one of them. -/
def flagsOf (switches : List (Switch α)) : Text → Option (List (Event α))
  | [] => some []
  | c :: rest =>
    match letterOf switches c with
    | none => some [.surplus]
    | some s =>
      match rest with
      | '=' :: _ | '-' :: _ => none
      | _ => (flagsOf switches rest).map (.flag s.key :: ·)

/-- Reads words of known kinds. -/
def readWords (switches : List (Switch α)) :
    Operands → List (Text × Word α) → List (Event α)
  | .none, [] => []
  | _, [] => [.missing]
  | .command, (s, .operand) :: rest => [.command s (rest.map Prod.fst)]
  | .command, (s, .separator) :: rest => [.command s (rest.map Prod.fst)]
  | .one, (s, .operand) :: (_, .separator) :: rest => .operand s :: readWords switches .none rest
  | .one, (s, .operand) :: rest => .operand s :: readWords switches .none rest
  | .one, (_, .separator) :: (s, _) :: rest => .operand s :: readWords switches .none rest
  | .one, (_, .separator) :: [] => [.surplus, .missing]
  | .none, (_, .operand) :: rest => .surplus :: readWords switches .none rest
  | .none, (_, .separator) :: rest => .surplus :: readWords switches .none rest
  | operands, (_, .unknown) :: rest => .surplus :: readWords switches operands rest
  | _, (_, .ambiguous) :: _ => [.misuse]
  | operands, (_, .letters s) :: rest =>
    match flagsOf switches s with
    | some events => events ++ readWords switches operands rest
    | none => [.misuse]
  | operands, (_, .switch s value) :: rest =>
    match s.takesValue, value, rest with
    | true, some v, rest => .value s.key v :: readWords switches operands rest
    | true, none, (v, .operand) :: rest => .value s.key v :: readWords switches operands rest
    | true, none, _ => [.misuse]
    | false, some _, _ => [.misuse]
    | false, none, rest => .flag s.key :: readWords switches operands rest

def Word.isAmbiguous : Word α → Bool
  | .ambiguous => true
  | _ => false

/-- What a command line says. One ambiguous word spoils all of it. -/
def read (switches : List (Switch α)) (operands : Operands) (words : List Text) : List (Event α) :=
  let words := classify switches words
  if words.any fun (_, w) => w.isAmbiguous then [.misuse] else readWords switches operands words

end ComponentCatalog.CommandLine
