import ComponentCatalog.Yaml.Value

/-!
How a setting of one kind is read as another. A setting that cannot be read so counts as absent.
-/
namespace ComponentCatalog.Config

/-- Why a setting could not be coerced. -/
inductive CoercionError where
  | digits (e : DigitError)
  /-- The integer is past the largest double. -/
  | tooLarge
  deriving DecidableEq, Repr

def CoercionError.message : CoercionError → Text
  | .digits e => e.message
  | .tooLarge => "int too large to convert to float".toList

/-- A text, number or truth value as text. -/
def asText : Yaml.Value → Except CoercionError (Option Text)
  | .text s => .ok (some s)
  | .int n => ((Number.writeInt n).mapError .digits).map some
  | .float x => .ok (some (Number.FloatLayout.plain.text x))
  | .bool b => .ok (some (Display.boolText b))
  | _ => .ok none

/-- A text that is not empty, or the given one. -/
def textOr (absent : Text) (v : Yaml.Value) : Except CoercionError Text := do
  match ← asText v with
  | none | some [] => return absent
  | some s => return s

/-- A number, or a text that spells one. -/
def asFloat : Yaml.Value → Except CoercionError (Option Float)
  | .float x => .ok (some x)
  | .int n =>
    match Number.ofInt? n with
    | some x => .ok (some x)
    | none => .error .tooLarge
  | .text s => .ok (Number.readFloat? s)
  | _ => .ok none

/-- An integer, or a text that spells one. -/
def asInt : Yaml.Value → Option Int
  | .int n => some n
  | .text s =>
    match Number.readInt? s with
    | .ok n? => n?
    | .error _ => none
  | _ => none

/-- A truth value, or a text that spells one in any letter case. -/
def asBool : Yaml.Value → Option Bool
  | .bool b => some b
  | .text s =>
    let word := Text.lower (Text.strip s)
    if ["true".toList, "yes".toList, "1".toList].contains word then some true
    else if ["false".toList, "no".toList, "0".toList].contains word then some false
    else none
  | _ => none

/-- A text alone, or the texts of a list. -/
def asTexts : Yaml.Value → Except CoercionError (List Text)
  | .text s => .ok [s]
  | .list items => do return (← items.mapM asText).filterMap id
  | _ => .ok []

/-- The setting under a key of a mapping; null where there is none. -/
def setting (v : Yaml.Value) (key : String) : Yaml.Value :=
  match v with
  | .mapping entries => (Entries.get? key.toList entries).getD .null
  | _ => .null

end ComponentCatalog.Config
