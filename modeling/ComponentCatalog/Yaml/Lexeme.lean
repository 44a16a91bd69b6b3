import ComponentCatalog.Yaml.Scalar
import ComponentCatalog.Source.Url

/-!
Names, tags and directives of YAML: what follows the characters `&`, `*`, `!` and `%`.
-/
namespace ComponentCatalog.Yaml

/-- The name of an anchor or alias. -/
def anchorName (s : Text) : Except Error (Text × Text) :=
  match s.span isNameChar with
  | ([], _) => .error .malformed
  | (name, rest) =>
    if atGap rest ∨ rest.head?.any ("?:,]\x7d%@\x60".toList.contains ·) then .ok (name, rest)
    else .error .malformed

def isTagChar (c : Char) : Bool := c.isAlphanum || "-;/?:@&=+$,_.!~*'()[]%".toList.contains c

/-- A run of tag characters, with its percent escapes read as octets. -/
def tagText (s : Text) : Except Error (Text × Text) :=
  match s.span isTagChar with
  | ([], _) => .error .malformed
  | (raw, rest) =>
    if escapesComplete raw then
      match Text.Utf8.decode? (Url.octets raw) with
      | some text => .ok (text, rest)
      | none => .error .malformed
    else .error .malformed
where
  /-- Two hexadecimal digits follow every percent sign. -/
  escapesComplete : Text → Bool
    | [] => true
    | '%' :: a :: b :: rest => (Url.octet? a b).isSome && escapesComplete rest
    | '%' :: _ => false
    | _ :: rest => escapesComplete rest

/-- A tag handle: `!`, or a name between two. -/
def tagHandle (s : Text) : Except Error (Text × Text) :=
  match s with
  | '!' :: rest =>
    if rest.head? = some ' ' then .ok (['!'], rest)
    else match rest.span isNameChar with
      | (name, '!' :: tail) => .ok ('!' :: name ++ ['!'], tail)
      | _ => .error .malformed
  | _ => .error .malformed

/-- The handle and the suffix of a tag after its first `!`. -/
def tag (s : Text) : Except Error (Option Text × Text × Text) := do
  let (handle, suffix, rest) ← match s with
    | '<' :: rest =>
      match ← tagText rest with
      | (suffix, '>' :: rest) => pure (none, suffix, rest)
      | _ => .error .malformed
    | s =>
      if atGap s then pure (none, ['!'], s)
      else
        let (handle, rest) ←
          if (s.takeWhile fun c => !atSpace [c]).contains '!' then tagHandle ('!' :: s)
          else pure (['!'], s)
        let (suffix, rest) ← tagText rest
        pure (some handle, suffix, rest)
  if atSpace rest then return (handle, suffix, rest) else .error .malformed

/-- A run of digits. -/
def versionNumber (s : Text) : Except Error (Nat × Text) :=
  match s.span Char.isDigit with
  | ([], _) => .error .malformed
  | (digits, rest) => .ok (Number.ofDigits 10 (digits.map fun c => c.toNat - 48), rest)

/-- A directive after its percent sign, through the end of its line. -/
def directive (s : Text) : Except Error (Directive × Text) := do
  let (name, rest) := s.span isNameChar
  if name = [] ∨ !atSpace rest then .error .malformed
  let argument := rest.dropWhile (· == ' ')
  let (found, rest) ←
    if name = "YAML".toList then
      match ← versionNumber argument with
      | (major, '.' :: rest) =>
        let (_, rest) ← versionNumber rest
        if atSpace rest then pure (Directive.version major, rest) else .error .malformed
      | _ => .error .malformed
    else if name = "TAG".toList then
      let (handle, rest) ← tagHandle argument
      if rest.head? ≠ some ' ' then .error .malformed
      let (lead, rest) ← tagText (rest.dropWhile (· == ' '))
      if atSpace rest then pure (Directive.tag handle lead, rest) else .error .malformed
    else pure (Directive.other, rest.dropWhile fun c => !isBreak c)
  return (found, ← ignoredLine rest)

end ComponentCatalog.Yaml
