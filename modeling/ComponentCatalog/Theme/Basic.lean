import ComponentCatalog.Node

/-!
Design tokens. A family enumerates the leaves that a theme may set, and a scale is a partial
assignment to one; a theme is a tree of scales in which a part nothing was found for is absent.
-/
namespace ComponentCatalog

/-- A finite enumeration of token leaves, in the order in which they are presented. -/
class TokenFamily (ι : Type) where
  all : List ι
  /-- The name of a leaf in snake case. -/
  name : ι → String

/-- The values that a theme sets for the leaves of a family. -/
def Scale (ι α : Type) := ι → Option α

namespace Scale

variable {ι α : Type}

def empty : Scale ι α := fun _ => none

def set [DecidableEq ι] (scale : Scale ι α) (leaf : ι) (value : α) : Scale ι α :=
  fun other => if other = leaf then some value else scale other

variable [TokenFamily ι]

/-- The number of leaves with a value. -/
def count (scale : Scale ι α) : Nat :=
  ((TokenFamily.all : List ι).filter fun leaf => (scale leaf).isSome).length

def isHollow (scale : Scale ι α) : Bool :=
  (TokenFamily.all : List ι).all fun leaf => (scale leaf).isNone

/-- The scale, unless no leaf has a value. -/
def populated? (scale : Scale ι α) : Option (Scale ι α) :=
  if scale.isHollow then none else some scale

def fields (form : α → Node) (scale : Scale ι α) : List (String × Node) :=
  (TokenFamily.all : List ι).map fun leaf => (TokenFamily.name leaf, .optional form (scale leaf))

def node (kind : String) (form : α → Node) (scale : Scale ι α) : Node :=
  .recordOf kind (scale.fields form)

end Scale

namespace Theme

inductive ColorFamily where
  | primary | secondary | success | warning | error | info
  deriving DecidableEq, Repr

instance : TokenFamily ColorFamily where
  all := [.primary, .secondary, .success, .warning, .error, .info]
  name
    | .primary => "primary"
    | .secondary => "secondary"
    | .success => "success"
    | .warning => "warning"
    | .error => "error"
    | .info => "info"

inductive ColorLeaf where
  | main | light | dark | contrastText
  deriving DecidableEq, Repr

instance : TokenFamily ColorLeaf where
  all := [.main, .light, .dark, .contrastText]
  name
    | .main => "main"
    | .light => "light"
    | .dark => "dark"
    | .contrastText => "contrast_text"

inductive TextLeaf where
  | primary | secondary | disabled | maxContrast | link
  deriving DecidableEq, Repr

instance : TokenFamily TextLeaf where
  all := [.primary, .secondary, .disabled, .maxContrast, .link]
  name
    | .primary => "primary"
    | .secondary => "secondary"
    | .disabled => "disabled"
    | .maxContrast => "max_contrast"
    | .link => "link"

inductive BackgroundLeaf where
  | canvas | primary | secondary | dropdown | hover
  deriving DecidableEq, Repr

instance : TokenFamily BackgroundLeaf where
  all := [.canvas, .primary, .secondary, .dropdown, .hover]
  name
    | .canvas => "canvas"
    | .primary => "primary"
    | .secondary => "secondary"
    | .dropdown => "dropdown"
    | .hover => "hover"

inductive BorderLeaf where
  | weak | medium | strong
  deriving DecidableEq, Repr

instance : TokenFamily BorderLeaf where
  all := [.weak, .medium, .strong]
  name
    | .weak => "weak"
    | .medium => "medium"
    | .strong => "strong"

inductive ActionLeaf where
  | hover | focus | selected | selectedBorder | disabledBackground | disabledText
  deriving DecidableEq, Repr

instance : TokenFamily ActionLeaf where
  all := [.hover, .focus, .selected, .selectedBorder, .disabledBackground, .disabledText]
  name
    | .hover => "hover"
    | .focus => "focus"
    | .selected => "selected"
    | .selectedBorder => "selected_border"
    | .disabledBackground => "disabled_background"
    | .disabledText => "disabled_text"

inductive FontFamilyLeaf where
  | sans | mono
  deriving DecidableEq, Repr

instance : TokenFamily FontFamilyLeaf where
  all := [.sans, .mono]
  name
    | .sans => "sans"
    | .mono => "mono"

inductive FontSizeLeaf where
  | xs | sm | md | lg | xl | h1 | h2 | h3 | h4 | h5 | h6
  deriving DecidableEq, Repr

instance : TokenFamily FontSizeLeaf where
  all := [.xs, .sm, .md, .lg, .xl, .h1, .h2, .h3, .h4, .h5, .h6]
  name
    | .xs => "xs"
    | .sm => "sm"
    | .md => "md"
    | .lg => "lg"
    | .xl => "xl"
    | .h1 => "h1"
    | .h2 => "h2"
    | .h3 => "h3"
    | .h4 => "h4"
    | .h5 => "h5"
    | .h6 => "h6"

inductive FontWeightLeaf where
  | light | regular | medium | semibold | bold
  deriving DecidableEq, Repr

instance : TokenFamily FontWeightLeaf where
  all := [.light, .regular, .medium, .semibold, .bold]
  name
    | .light => "light"
    | .regular => "regular"
    | .medium => "medium"
    | .semibold => "semibold"
    | .bold => "bold"

inductive LineHeightLeaf where
  | xs | sm | md | lg
  deriving DecidableEq, Repr

instance : TokenFamily LineHeightLeaf where
  all := [.xs, .sm, .md, .lg]
  name
    | .xs => "xs"
    | .sm => "sm"
    | .md => "md"
    | .lg => "lg"

inductive LetterSpacingLeaf where
  | normal | wide
  deriving DecidableEq, Repr

instance : TokenFamily LetterSpacingLeaf where
  all := [.normal, .wide]
  name
    | .normal => "normal"
    | .wide => "wide"

/-- The size steps of spacing and of breakpoints. -/
inductive SizeLeaf where
  | xs | sm | md | lg | xl | xxl
  deriving DecidableEq, Repr

instance : TokenFamily SizeLeaf where
  all := [.xs, .sm, .md, .lg, .xl, .xxl]
  name
    | .xs => "xs"
    | .sm => "sm"
    | .md => "md"
    | .lg => "lg"
    | .xl => "xl"
    | .xxl => "xxl"

inductive ShadowLeaf where
  | z1 | z2 | z3
  deriving DecidableEq, Repr

instance : TokenFamily ShadowLeaf where
  all := [.z1, .z2, .z3]
  name
    | .z1 => "z1"
    | .z2 => "z2"
    | .z3 => "z3"

inductive RadiusLeaf where
  | default | pill | circle
  deriving DecidableEq, Repr

instance : TokenFamily RadiusLeaf where
  all := [.default, .pill, .circle]
  name
    | .default => "default"
    | .pill => "pill"
    | .circle => "circle"

inductive LayerLeaf where
  | dropdown | sticky | fixed | modal | popover | tooltip
  deriving DecidableEq, Repr

instance : TokenFamily LayerLeaf where
  all := [.dropdown, .sticky, .fixed, .modal, .popover, .tooltip]
  name
    | .dropdown => "dropdown"
    | .sticky => "sticky"
    | .fixed => "fixed"
    | .modal => "modal"
    | .popover => "popover"
    | .tooltip => "tooltip"

structure Colors where
  families : Scale ColorFamily (Scale ColorLeaf Text)
  text : Option (Scale TextLeaf Text)
  background : Option (Scale BackgroundLeaf Text)
  border : Option (Scale BorderLeaf Text)
  action : Option (Scale ActionLeaf Text)

structure Typography where
  fontFamily : Option (Scale FontFamilyLeaf Text)
  fontSize : Option (Scale FontSizeLeaf Text)
  fontWeight : Option (Scale FontWeightLeaf Int)
  lineHeight : Option (Scale LineHeightLeaf Float)
  letterSpacing : Option (Scale LetterSpacingLeaf Text)

structure Spacing where
  sizes : Scale SizeLeaf Text
  gridSize : Option Int

end Theme

structure Theme where
  colors : Option Theme.Colors
  typography : Option Theme.Typography
  spacing : Option Theme.Spacing
  shadows : Option (Scale Theme.ShadowLeaf Text)
  borderRadius : Option (Scale Theme.RadiusLeaf Text)
  zIndex : Option (Scale Theme.LayerLeaf Int)
  breakpoints : Option (Scale Theme.SizeLeaf Int)

namespace Theme

/-- No part of the theme is known. -/
def empty : Theme := ⟨none, none, none, none, none, none, none⟩

def Colors.isHollow (c : Colors) : Bool :=
  c.families.isHollow && c.text.isNone && c.background.isNone && c.border.isNone && c.action.isNone

def Typography.isHollow (t : Typography) : Bool :=
  t.fontFamily.isNone && t.fontSize.isNone && t.fontWeight.isNone && t.lineHeight.isNone &&
    t.letterSpacing.isNone

def Spacing.isHollow (s : Spacing) : Bool := s.sizes.isHollow && s.gridSize.isNone

def Colors.node (c : Colors) : Node :=
  .recordOf "ColorTokens" (c.families.fields (Scale.node "ColorScale" .text) ++
    [("text", .optional (Scale.node "TextColors" .text) c.text),
      ("background", .optional (Scale.node "BackgroundColors" .text) c.background),
      ("border", .optional (Scale.node "BorderColors" .text) c.border),
      ("action", .optional (Scale.node "ActionColors" .text) c.action)])

def Typography.node (t : Typography) : Node :=
  .recordOf "TypographyTokens"
    [("font_family", .optional (Scale.node "FontFamily" .text) t.fontFamily),
      ("font_size", .optional (Scale.node "FontSizeScale" .text) t.fontSize),
      ("font_weight", .optional (Scale.node "FontWeightScale" .int) t.fontWeight),
      ("line_height", .optional (Scale.node "LineHeightScale" .float) t.lineHeight),
      ("letter_spacing", .optional (Scale.node "LetterSpacingScale" .text) t.letterSpacing)]

def Spacing.node (s : Spacing) : Node :=
  .recordOf "SpacingTokens" (s.sizes.fields .text ++ [("grid_size", .optional .int s.gridSize)])

def shadowNode : Scale ShadowLeaf Text → Node := Scale.node "ShadowTokens" .text
def radiusNode : Scale RadiusLeaf Text → Node := Scale.node "BorderRadiusTokens" .text
def layerNode : Scale LayerLeaf Int → Node := Scale.node "ZIndexTokens" .int
def breakpointNode : Scale SizeLeaf Int → Node := Scale.node "BreakpointTokens" .int

def node (t : Theme) : Node :=
  .recordOf "ThemeTokens"
    [("colors", .optional Colors.node t.colors), ("typography", .optional Typography.node t.typography),
      ("spacing", .optional Spacing.node t.spacing), ("shadows", .optional shadowNode t.shadows),
      ("border_radius", .optional radiusNode t.borderRadius),
      ("z_index", .optional layerNode t.zIndex),
      ("breakpoints", .optional breakpointNode t.breakpoints)]

def optionalCount (count : α → Nat) : Option α → Nat
  | none => 0
  | some a => count a

def Colors.count (c : Colors) : Nat :=
  (TokenFamily.all : List ColorFamily).foldr
      (fun f total => optionalCount Scale.count (c.families f) + total) 0 +
    optionalCount Scale.count c.text + optionalCount Scale.count c.background +
    optionalCount Scale.count c.border + optionalCount Scale.count c.action

def Typography.count (t : Typography) : Nat :=
  optionalCount Scale.count t.fontFamily + optionalCount Scale.count t.fontSize +
    optionalCount Scale.count t.fontWeight + optionalCount Scale.count t.lineHeight +
    optionalCount Scale.count t.letterSpacing

def Spacing.count (s : Spacing) : Nat := s.sizes.count + optionalCount (fun _ => 1) s.gridSize

/-- The number of leaves with a value. -/
def count (t : Theme) : Nat :=
  optionalCount Colors.count t.colors + optionalCount Typography.count t.typography +
    optionalCount Spacing.count t.spacing + optionalCount Scale.count t.shadows +
    optionalCount Scale.count t.borderRadius + optionalCount Scale.count t.zIndex +
    optionalCount Scale.count t.breakpoints

end Theme

end ComponentCatalog
