import ComponentCatalog.Theme.Basic
import ComponentCatalog.Theme.Leaf

/-!
The tokens of a theme source. Every family is searched for in the whole text, so declarations that
share the name of a leaf may match each other's.
-/
namespace ComponentCatalog.Theme

open Text Code

/-- How the text of a value becomes the value; none where it denotes none. -/
abbrev Conversion (α : Type) := Text → Except DigitError (Option α)

def asText : Conversion Text := fun s => .ok (some s)

/-- A text of decimal digits as an integer. -/
def asInt : Conversion Int := fun s =>
  if s ≠ [] ∧ s.all isDecimal then (Number.readSignedDigits s).map some else .ok none

def asFloat : Conversion Float := fun s => .ok (Number.readFloat? s)

variable {ι α : Type} [TokenFamily ι] [DecidableEq ι]

def leafKey (leaf : ι) : Text := camelCase (TokenFamily.name leaf).toList

/-- The scale of a family: each leaf from its first flat match, or else from its entry in the first
block under the prefix. -/
def collect (words : ι → List Text) (lead : Text) (form : ValueForm) (convert : Conversion α)
    (s : Text) : Except DigitError (Option (Scale ι α)) := do
  let entries := blockEntries [lead] form s
  let scale ← (TokenFamily.all : List ι).foldlM (fun scale leaf => do
    let flat? := (flatMatches lead form (words leaf) s).head?.map (·.2)
    match flat?.or (List.lookup (leafKey leaf) entries) with
    | none => return scale
    | some raw =>
      match ← convert raw with
      | none => return scale
      | some value => return scale.set leaf value) Scale.empty
  return scale.populated?

/-- The scale of a family by marks: each flat match goes to the first leaf one of whose marks it
contains, and the leaves left are looked up under their marks in the first block. -/
def classify (marks : List (ι × List Text)) (lead : Text) (blockNames : List Text)
    (form : ValueForm) (convert : Conversion α) (s : Text) :
    Except DigitError (Option (Scale ι α)) := do
  let flat ← (flatMatches lead form [] s).foldlM (fun scale (label, raw) =>
    match marks.find? fun (_, names) => names.any (contains · label) with
    | none => .ok scale
    | some (leaf, _) => do
      match ← convert raw with
      | none => return scale
      | some value => return scale.set leaf value) Scale.empty
  let entries := blockEntries blockNames form s
  let scale ← marks.foldlM (fun (scale : Scale ι α) (leaf, names) =>
    if (scale leaf).isSome then .ok scale
    else match names.findSome? (List.lookup · entries) with
      | none => .ok scale
      | some raw => do
        match ← convert raw with
        | none => return scale
        | some value => return scale.set leaf value) flat
  return scale.populated?

def nameWords (leaf : ι) : List Text := [leafKey leaf]

def colorWords : ColorLeaf → List Text
  | .contrastText => ["contrast".toList]
  | leaf => nameWords leaf

def actionWords : ActionLeaf → List Text
  | .disabledBackground => ["disabled".toList, "background".toList]
  | .disabledText => ["disabled".toList, "text".toList]
  | leaf => nameWords leaf

def colorScale (lead : Text) : Text → Except DigitError (Option (Scale ColorLeaf Text)) :=
  collect colorWords lead quotedValue asText

def colorsIn (s : Text) : Except DigitError (Option Colors) := do
  let families ← (TokenFamily.all : List ColorFamily).foldlM (fun families family => do
    match ← colorScale (leafKey family) s with
    | none => return families
    | some scale => return families.set family scale) Scale.empty
  let found : Colors := {
    families
    text := ← collect nameWords "text".toList quotedValue asText s
    background := ← collect nameWords "background".toList quotedValue asText s
    border := ← collect nameWords "border".toList quotedValue asText s
    action := ← collect actionWords "action".toList quotedValue asText s }
  return if found.isHollow then none else some found

/-- The quoted entries of color blocks. They are informative and no part of the tokens. -/
def colorObject (s : Text) : Entries Text :=
  let markers := [blockMarker ["colors".toList, "color".toList] [':'],
    blockMarker ["palette".toList] [':'], blockMarker ["color".toList] ['=']]
  let blocks := markers.flatMap fun marker => blocksAfter marker s
  Entries.ofPairs (blocks.flatMap (hits (blockEntryShape true quotedValue)))

/-- The first family without `mono` in its name, and the first with it. -/
def fontFamily (s : Text) : Option (Scale FontFamilyLeaf Text) :=
  match (flatMatches "fontFamily".toList quotedValue [] s).map (·.2) with
  | [] => none
  | first :: more =>
    let isMono := contains "mono".toList
    let sans := ((first :: more).find? fun family => !isMono family).getD first
    let mono := ((first :: more).find? isMono).getD "monospace".toList
    some fun
      | .sans => some sans
      | .mono => some mono

def typographyIn (s : Text) : Except DigitError (Option Typography) := do
  let found : Typography := {
    fontFamily := fontFamily s
    fontSize := ← collect nameWords "fontSize".toList quotedValue asText s
    fontWeight := ← collect nameWords "fontWeight".toList integerValue asInt s
    lineHeight := ← collect nameWords "lineHeight".toList decimalValue asFloat s
    letterSpacing := ← collect nameWords "letterSpacing".toList quotedValue asText s }
  return if found.isHollow then none else some found

/-- One entry of a spacing block. -/
def Spacing.add (spacing : Spacing) (entry : Text × Text) : Except DigitError Spacing :=
  let (key, raw) := entry
  match (TokenFamily.all : List SizeLeaf).find? fun leaf => leafKey leaf = key with
  | some leaf => .ok { spacing with sizes := spacing.sizes.set leaf raw }
  | none =>
    if key = "gridSize".toList then do
      match ← asInt raw with
      | none => return spacing
      | some n => return { spacing with gridSize := some n }
    else .ok spacing

/-- A grid size, wherever it stands. -/
def gridSizeShape : Shape Text := fun at_ => do
  let rest ← after? [':'] (stripStart (← after? "gridSize".toList at_.rest))
  let (digits, rest) ← integerValue (stripStart rest)
  return (digits, at_.lengthTo rest)

def spacingIn (s : Text) : Except DigitError (Option Spacing) := do
  let blocks := blocksAfter (keyed "spacing".toList) s ++ blocksAfter (keyed "space".toList) s
  let entries := blocks.flatMap (hits (blockEntryShape true bareValue))
  let inBlocks ← entries.foldlM Spacing.add ⟨Scale.empty, none⟩
  let found ← (hits gridSizeShape s).foldlM (fun (spacing : Spacing) digits => do
    return { spacing with gridSize := some (← Number.readSignedDigits digits) }) inBlocks
  return if found.isHollow then none else some found

/-- Every leaf under its own name. -/
def ownMarks : List (ι × List Text) := TokenFamily.all.map fun leaf => (leaf, [leafKey leaf])

def shadowsIn : Text → Except DigitError (Option (Scale ShadowLeaf Text)) :=
  classify ownMarks "shadow".toList ["shadows".toList, "shadow".toList] quotedValue asText

def radiusMarks : List (RadiusLeaf × List Text) :=
  [(.default, ["default".toList, "base".toList]), (.pill, ["pill".toList]),
    (.circle, ["circle".toList])]

def borderRadiusIn : Text → Except DigitError (Option (Scale RadiusLeaf Text)) :=
  classify radiusMarks "radius".toList ["radius".toList, "borderRadius".toList] bareValue asText

def zIndexIn : Text → Except DigitError (Option (Scale LayerLeaf Int)) :=
  classify ownMarks "zIndex".toList ["zIndex".toList] integerValue asInt

/-- The longer of two names that contain each other comes first. -/
def breakpointMarks : List (SizeLeaf × List Text) :=
  [(.xs, ["xs".toList]), (.sm, ["sm".toList]), (.md, ["md".toList]), (.lg, ["lg".toList]),
    (.xxl, ["xxl".toList]), (.xl, ["xl".toList])]

def breakpointsIn : Text → Except DigitError (Option (Scale SizeLeaf Int)) :=
  classify breakpointMarks "breakpoint".toList ["breakpoints".toList, "breakpoint".toList]
    integerValue asInt

/-- The tokens that a theme source sets. -/
def ofSource (s : Text) : Except DigitError Theme := do
  return {
    colors := ← colorsIn s
    typography := ← typographyIn s
    spacing := ← spacingIn s
    shadows := ← shadowsIn s
    borderRadius := ← borderRadiusIn s
    zIndex := ← zIndexIn s
    breakpoints := ← breakpointsIn s }

end ComponentCatalog.Theme
