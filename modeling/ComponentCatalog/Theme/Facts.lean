import ComponentCatalog.Theme.Tokens
import ComponentCatalog.Text.Case

/-!
Facts about a theme: its name, mode and version, the categories it sets, and one category of it
alone.
-/
namespace ComponentCatalog.Theme

open Text

inductive Category where
  | colors | typography | spacing | shadows | borderRadius | zIndex | breakpoints
  deriving DecidableEq, Repr

namespace Category

def all : List Category :=
  [.colors, .typography, .spacing, .shadows, .borderRadius, .zIndex, .breakpoints]

/-- The name of a category in snake case. -/
def name : Category → Text
  | .colors => "colors".toList
  | .typography => "typography".toList
  | .spacing => "spacing".toList
  | .shadows => "shadows".toList
  | .borderRadius => "border_radius".toList
  | .zIndex => "z_index".toList
  | .breakpoints => "breakpoints".toList

/-- The names under which a category may be asked for. -/
def aliases : List (Text × Category) :=
  [("colors".toList, .colors), ("color".toList, .colors), ("typography".toList, .typography),
    ("font".toList, .typography), ("spacing".toList, .spacing), ("space".toList, .spacing),
    ("shadows".toList, .shadows), ("shadow".toList, .shadows), ("radius".toList, .borderRadius),
    ("borderradius".toList, .borderRadius), ("border_radius".toList, .borderRadius),
    ("zindex".toList, .zIndex), ("z_index".toList, .zIndex), ("z".toList, .zIndex),
    ("breakpoints".toList, .breakpoints), ("breakpoint".toList, .breakpoints)]

/-- The category of a name, in any letter case. -/
def ofName? (name : Text) : Option Category := List.lookup (lower name) aliases

end Category

def has (t : Theme) : Category → Bool
  | .colors => t.colors.isSome
  | .typography => t.typography.isSome
  | .spacing => t.spacing.isSome
  | .shadows => t.shadows.isSome
  | .borderRadius => t.borderRadius.isSome
  | .zIndex => t.zIndex.isSome
  | .breakpoints => t.breakpoints.isSome

/-- One category of the theme alone. -/
def only (t : Theme) : Category → Theme
  | .colors => { empty with colors := t.colors }
  | .typography => { empty with typography := t.typography }
  | .spacing => { empty with spacing := t.spacing }
  | .shadows => { empty with shadows := t.shadows }
  | .borderRadius => { empty with borderRadius := t.borderRadius }
  | .zIndex => { empty with zIndex := t.zIndex }
  | .breakpoints => { empty with breakpoints := t.breakpoints }

/-- The category of the given name alone; the whole theme if there is no such category or the theme
sets nothing in it. -/
def inCategory (t : Theme) (name : Text) : Theme :=
  match Category.ofName? name with
  | none => t
  | some category => if t.has category then t.only category else t

/-- The names of the categories that the theme sets, as they are presented. -/
def populatedCategories (t : Theme) : List Text :=
  (Category.all.filter t.has).map fun category => camelCase category.name

/-- `dark` where a word for darkness occurs, in any letter case. -/
def mode (s : Text) : Text :=
  let lowered := lower s
  if ["dark".toList, "night".toList, "black".toList].any (contains · lowered) then "dark".toList
  else "light".toList

structure Facts where
  name : Text
  mode : Text
  version : Text
  tokens : Int
  categories : List Text
  hasColors : Bool
  hasTypography : Bool
  hasSpacing : Bool
  deriving DecidableEq, Repr

def Facts.node (f : Facts) : Node :=
  .recordOf "ThemeMetadata" [("name", .text f.name), ("mode", .text f.mode),
    ("version", .text f.version), ("tokens_count", .int f.tokens),
    ("categories", .texts f.categories), ("has_colors", .bool f.hasColors),
    ("has_typography", .bool f.hasTypography), ("has_spacing", .bool f.hasSpacing)]

/-- A key, a colon and a quoted value, wherever they stand. -/
def labelShape (key : Text) : Shape Text := fun at_ => do
  let rest ← after? [':'] (stripStart (← after? key at_.rest))
  let (value, rest) ← quotedValue (stripStart rest)
  return (value, at_.lengthTo rest)

/-- The facts of a theme source. -/
def factsOf (s : Text) : Except DigitError Facts := do
  let theme ← ofSource s
  return {
    name := (firstHit (labelShape "name".toList) s).getD "Grafana Theme".toList
    mode := mode s
    version := (firstHit (labelShape "version".toList) s).getD "1.0.0".toList
    tokens := theme.count
    categories := theme.populatedCategories
    hasColors := theme.colors.isSome
    hasTypography := theme.typography.isSome
    hasSpacing := theme.spacing.isSome }

end ComponentCatalog.Theme
