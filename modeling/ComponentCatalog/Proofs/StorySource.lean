import ComponentCatalog.Story.Listing
import ComponentCatalog.Proofs.Entries
import ComponentCatalog.Proofs.Phrases
import ComponentCatalog.Proofs.PropertySource

/-!
The source of a story file: the default export on the first line, and after it story declarations
and assignments to their arguments, each on a line of its own and in any order.
-/
namespace ComponentCatalog.Story

open Text Code
open Component (IsName)

/-- An argument: its key, its value as it is written, and what this is read as. -/
structure Argument where
  key : Text
  raw : Text
  value : Value

inductive Line where
  | typed (name : Text) (arguments : List Argument)
  | plain (name : Text)
  | assigned (name : Text) (arguments : List Argument)

/-- What a story file is written from. -/
structure Draft where
  title : Text
  component : Text
  decorators : List Text
  lines : List Line

def Argument.source (a : Argument) : Text := a.key ++ (": ".toList ++ a.raw)

/-- The inside of the braces of an object. -/
def objectBody (arguments : List Argument) : Text :=
  ' ' :: (join ", ".toList (arguments.map Argument.source) ++ [' '])

def objectSource (arguments : List Argument) : Text :=
  '\x7b' :: (objectBody arguments ++ ['\x7d'])

def Line.source : Line → Text
  | .typed name arguments =>
    "export const ".toList ++ (name ++ (": StoryObj = \x7b args: ".toList ++
      (objectSource arguments ++ " \x7d;".toList)))
  | .plain name => "export const ".toList ++ (name ++ " = () => null;".toList)
  | .assigned name arguments => name ++ (".args = ".toList ++ (objectSource arguments ++ [';']))

def linesSource (lines : List Line) : Text := lines.flatMap fun line => '\n' :: line.source

/-- The inside of the braces of the default export. -/
def Draft.settingsBody (d : Draft) : Text :=
  " title: '".toList ++ (d.title ++ ("', component: ".toList ++ (d.component ++
    (", decorators: [".toList ++ (join ", ".toList d.decorators ++ "] ".toList)))))

def Draft.source (d : Draft) : Text :=
  "export default \x7b".toList ++ (d.settingsBody ++ ("\x7d;".toList ++ linesSource d.lines))

def Line.name : Line → Text
  | .typed name _ | .plain name | .assigned name _ => name

def Line.isDeclaration : Line → Bool
  | .typed _ _ | .plain _ => true
  | .assigned _ _ => false

/-- The arguments that a declaration holds. -/
def Line.inline? : Line → Option (List Argument)
  | .typed _ arguments => some arguments
  | .plain _ | .assigned _ _ => none

/-- The arguments that a line assigns to the story `name`. -/
def Line.assignedTo? (name : Text) : Line → Option (List Argument)
  | .assigned name' arguments => if name' = name then some arguments else none
  | _ => none

def pairs (arguments : List Argument) : List (Text × Value) :=
  arguments.map fun a => (a.key, a.value)

/-- The arguments of a story in the end: those of its declaration, overlaid by those of every
assignment to it in the order of the file; none if there is neither. -/
def finalArgs (lines : List Line) (name : Text) (inline : Option (List Argument)) :
    Option (Entries Value) :=
  match inline.toList ++ lines.filterMap (Line.assignedTo? name) with
  | [] => none
  | objects => some (Entries.overlaid (pairs objects.flatten))

/-- The declared names in the order of the file. -/
def declaredNames (lines : List Line) : List Text :=
  (lines.filter Line.isDeclaration).map Line.name

/-- The stories of a file: name, source and arguments of each, in the order of the file. -/
def Draft.stories (d : Draft) : List (Text × Text × Option (Entries Value)) :=
  (d.lines.filter Line.isDeclaration).map fun line =>
    (line.name, line.source, finalArgs d.lines line.name line.inline?)

/-- The beginning of an exported constant. -/
def Exporting (m : Text) : Prop :=
  ∃ gap gap' c, gap ≠ [] ∧ gap' ≠ [] ∧ (∀ b ∈ gap ++ gap', isBlank b = true) ∧ isWord c = true ∧
    m = "export".toList ++ (gap ++ ("const".toList ++ (gap' ++ [c])))

/-- What makes a story of an exported constant, behind its name. -/
def Marking (m : Text) : Prop :=
  (∃ gap type, (∀ b ∈ gap, isBlank b = true) ∧ type ∈ storyTypes ∧ m = ':' :: (gap ++ type)) ∨
    ∃ gap, (∀ b ∈ gap, isBlank b = true) ∧ m = '=' :: (gap ++ ['('])

/-- The beginning of the declaration of a story. -/
def Declaring (m : Text) : Prop :=
  ∃ gap gap' name gap'' mark, gap ≠ [] ∧ gap' ≠ [] ∧
    (∀ b ∈ gap ++ (gap' ++ gap''), isBlank b = true) ∧ IsName name ∧ Marking mark ∧
    m = "export".toList ++ (gap ++ ("const".toList ++ (gap' ++ (name ++ (gap'' ++ mark)))))

/-- The beginning of an assignment of an object to the args of a name. -/
def Assigning (m : Text) : Prop :=
  ∃ name gap gap', IsName name ∧ (∀ b ∈ gap ++ gap', isBlank b = true) ∧
    m = name ++ (".args".toList ++ (gap ++ '=' :: (gap' ++ ['\x7b'])))

/-- The key and its colon, and after blanks a character of a kind. -/
def Labelling (key : Text) (kind : Char → Bool) (m : Text) : Prop :=
  ∃ gap c, (∀ b ∈ gap, isBlank b = true) ∧ kind c = true ∧ m = key ++ ':' :: (gap ++ [c])

/-- The key and its colon and an opening bracket, with blanks between them. -/
def Keying (key : Text) (b : Bracket) (m : Text) : Prop :=
  ∃ gap gap', (∀ c ∈ gap ++ gap', isBlank c = true) ∧
    m = key ++ (gap ++ ':' :: (gap' ++ [b.opening]))

/-- Nothing in the text is taken for a story or for an assignment. -/
structure StoryFree (s : Text) : Prop where
  declaring : Lacks Declaring s
  assigning : Lacks Assigning s

/-- A text that can be quoted as the title: it holds nothing that is taken for another part of the
file. -/
structure IsTitle (s : Text) : Prop where
  unmarked : ∀ c ∈ s, isStringMark c = false
  quoted : Quoted '\'' s
  storyFree : StoryFree s
  component : Lacks (Labelling "component".toList isWord) s
  decorators : Lacks (Keying "decorators".toList square) s
  argTypes : Lacks (Keying "argTypes".toList curly) s
  parameters : Lacks (Keying "parameters".toList curly) s

/-- An expression that can stand in the list of decorators. -/
structure IsDecorator (s : Text) : Prop where
  ne_nil : s ≠ []
  stripped : strip s = s
  balanced : Balanced false s
  storyFree : StoryFree s
  argTypes : Lacks (Keying "argTypes".toList curly) s
  parameters : Lacks (Keying "parameters".toList curly) s

/-- The characters that end the value of an entry. -/
def endsEntry (c : Char) : Bool := c == ',' || c == '\n' || c == '\x7d'

structure Argument.WellFormed (a : Argument) : Prop where
  key : IsName a.key
  ne_nil : a.raw ≠ []
  stripped : strip a.raw = a.raw
  balanced : Balanced true a.raw
  whole : ∀ c ∈ a.raw, endsEntry c = false
  storyFree : StoryFree a.raw
  reads : coerceValue a.raw = .ok a.value

def Line.WellFormed : Line → Prop
  | .typed name arguments => IsName name ∧ ∀ a ∈ arguments, a.WellFormed ∧ ';' ∉ a.raw
  | .plain name => IsName name
  | .assigned name arguments => IsName name ∧ ∀ a ∈ arguments, a.WellFormed

structure Draft.WellFormed (d : Draft) : Prop where
  title : IsTitle d.title
  component : IsName d.component
  decorators : ∀ s ∈ d.decorators, IsDecorator s
  untitled : d.title = [] → ∀ s ∈ d.decorators, Lacks (Labelling "title".toList isStringMark) s
  lines : ∀ line ∈ d.lines, line.WellFormed
  distinct : (declaredNames d.lines).Nodup

end ComponentCatalog.Story
