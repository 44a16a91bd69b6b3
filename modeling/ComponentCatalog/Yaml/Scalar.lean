import ComponentCatalog.Yaml.Token

/-!
The text of YAML scalars: plain, quoted, literal and folded. Each function reads at the head of the
text and returns what follows the scalar.
-/
namespace ComponentCatalog.Yaml

/-- A plain scalar does not go on with `c`, which `rest` follows. -/
def endsPlain (inFlow : Bool) (c : Char) (rest : Text) : Bool :=
  atGap [c] ||
    (c == ':' && (atGap rest || (inFlow && rest.head?.any (",[]\x7b\x7d".toList.contains ·)))) ||
    (inFlow && ",?[]\x7b\x7d".toList.contains c)

/-- The characters of a plain scalar up to a gap. -/
def plainRun (inFlow : Bool) : Text → Text × Text
  | [] => ([], [])
  | c :: rest =>
    if endsPlain inFlow c rest then ([], c :: rest)
    else let (run, tail) := plainRun inFlow rest; (c :: run, tail)

/-- What stands between two runs of a plain scalar. -/
structure Gap where
  /-- The text that the gap stands for; empty where the scalar cannot go on. -/
  text : Text
  rest : Text
  broke : Bool
  /-- The spaces after the last break. -/
  column : Nat

/-- The breaks and spaces here. `none` for the breaks where a separator follows one of them. -/
def foldLines : (column : Nat) → Text → Option Text × Nat × Text
  | column, [] => (some [], column, [])
  | column, c :: rest =>
    if c = ' ' then foldLines (column + 1) rest
    else if isBreak c then
      if atSeparator rest then (none, 0, rest)
      else
        let (breaks, column, tail) := foldLines 0 rest
        (breaks.map (breakText c :: ·), column, tail)
    else (some [], column, c :: rest)

/-- A single line feed becomes a space, and of several the first one goes. -/
def foldBreak (first : Char) (more : Text) : Text :=
  if first ≠ '\n' then first :: more else if more = [] then [' '] else more

def plainGap (s : Text) : Gap :=
  let (spaces, rest) := s.span (· == ' ')
  match rest with
  | [] => ⟨spaces, rest, false, 0⟩
  | c :: tail =>
    if !isBreak c then ⟨spaces, rest, false, 0⟩
    else if atSeparator tail then ⟨[], tail, true, 0⟩
    else
      let (breaks?, column, tail) := foldLines 0 tail
      match breaks? with
      | none => ⟨[], tail, true, column⟩
      | some breaks => ⟨foldBreak (breakText c) breaks, tail, true, column⟩

/-- The rest of a plain scalar after the text `pending`, which belongs to it only if more follows;
and whether a line ended after its last run. -/
def plainFrom (inFlow : Bool) (indent : Int) :
    (fuel : Nat) → (broke : Bool) → (pending : Text) → Text → Text × Text × Bool
  | 0, broke, _, s => ([], s, broke)
  | fuel + 1, broke, pending, s =>
    match plainRun inFlow s with
    | ([], _) => ([], s, broke)
    | (run, rest) =>
      if s.head? = some '#' then ([], s, broke)
      else
        let gap := plainGap rest
        if gap.text = [] ∨ gap.rest.head? = some '#' ∨
            (!inFlow ∧ gap.broke ∧ (gap.column : Int) < indent) then
          (pending ++ run, gap.rest, gap.broke)
        else
          let (more, rest, broke) := plainFrom inFlow indent fuel gap.broke gap.text gap.rest
          (pending ++ run ++ more, rest, broke)

/-- A plain scalar, whose further lines are indented by `indent` at least. -/
def plain (inFlow : Bool) (indent : Int) (s : Text) : Text × Text × Bool :=
  plainFrom inFlow indent (s.length + 1) false [] s

/-- The breaks here, after a break in a quoted scalar, each line without its leading blanks. -/
def quotedBreaks : (atStart : Bool) → Text → Except Error (Text × Text)
  | _, [] => .ok ([], [])
  | atStart, c :: rest =>
    if atStart && atSeparator (c :: rest) then .error .malformed
    else if isBlank c then quotedBreaks false rest
    else if isBreak c then do
      let (breaks, tail) ← quotedBreaks true rest
      return (breakText c :: breaks, tail)
    else .ok ([], c :: rest)

/-- The escapes of one character. -/
def escapes : List (Char × Char) :=
  [('0', '\x00'), ('a', '\x07'), ('b', '\x08'), ('t', '\t'), ('\t', '\t'), ('n', '\n'), ('v', '\x0b'),
    ('f', '\x0c'), ('r', '\r'), ('e', '\x1b'), (' ', ' '), ('"', '"'), ('\\', '\\'), ('/', '/'),
    ('N', '\x85'), ('_', '\xa0'), ('L', '\u2028'), ('P', '\u2029')]

/-- The letters of the escapes by code, with their numbers of digits. -/
def codeEscapes : List (Char × Nat) := [('x', 2), ('u', 4), ('U', 8)]

/-- An escape after its backslash. -/
def escape (s : Text) : Except Error (Text × Text) :=
  match s with
  | [] => .error .malformed
  | c :: rest =>
    match List.lookup c escapes, List.lookup c codeEscapes with
    | some d, _ => .ok ([d], rest)
    | none, some count =>
      match Number.readBase? 16 (rest.take count) with
      | some code =>
        if (rest.take count).length < count then .error .malformed
        else if 0x10FFFF < code then .error .codePoint
        else .ok ([Char.ofNat code], rest.drop count)
      | none => .error .malformed
    | none, none => if isBreak c then quotedBreaks true rest else .error .malformed

/-- The rest of a quoted scalar after its opening quote. -/
def quotedFrom (quote : Char) : (fuel : Nat) → Text → Except Error (Text × Text)
  | 0, _ => .error .malformed
  | _ + 1, [] => .error .malformed
  | fuel + 1, c :: rest => do
    if c = quote then
      match quote, rest with
      | '\'', '\'' :: rest =>
        let (more, tail) ← quotedFrom quote fuel rest
        return ('\'' :: more, tail)
      | _, _ => return ([], rest)
    else if c = '\\' ∧ quote = '"' then
      let (text, rest) ← escape rest
      let (more, tail) ← quotedFrom quote fuel rest
      return (text ++ more, tail)
    else if isBlank c ∨ isBreak c then
      let (blanks, rest) := (c :: rest).span isBlank
      match rest with
      | [] => .error .malformed
      | d :: tail =>
        if isBreak d then
          let (breaks, rest) ← quotedBreaks true tail
          let (more, tail) ← quotedFrom quote fuel rest
          return (foldBreak (breakText d) breaks ++ more, tail)
        else
          let (more, tail) ← quotedFrom quote fuel rest
          return (blanks ++ more, tail)
    else
      let (more, tail) ← quotedFrom quote fuel rest
      return (c :: more, tail)

/-- A quoted scalar after its opening quote. -/
def quoted (quote : Char) (s : Text) : Except Error (Text × Text) := quotedFrom quote (s.length + 1) s

/-- What becomes of the line breaks at the end of a block scalar. -/
inductive Chomping where
  | strip | clip | keep
  deriving DecidableEq, Repr

def chomping? (s : Text) : Option (Chomping × Text) :=
  match s with
  | '+' :: rest => some (.keep, rest)
  | '-' :: rest => some (.strip, rest)
  | _ => none

/-- A digit from one to nine; zero is refused. -/
def increment? (s : Text) : Except Error (Option Nat × Text) :=
  match s with
  | [] => .ok (none, s)
  | c :: rest =>
    if c = '0' then .error .malformed
    else if c.isDigit then .ok (some (c.toNat - 48), rest)
    else .ok (none, s)

/-- The rest of a line that holds nothing but spaces and a comment, and its break. -/
def ignoredLine (s : Text) : Except Error Text :=
  let rest := s.dropWhile (· == ' ')
  let rest := if rest.head? = some '#' then rest.dropWhile (fun c => !isBreak c) else rest
  match rest with
  | [] => .ok []
  | c :: tail => if isBreak c then .ok tail else .error .malformed

/-- The indicators of a block scalar: chomping and indentation, in either order. -/
def blockHeader (s : Text) : Except Error (Chomping × Option Nat × Text) := do
  let (chomping, increment, rest) ← match chomping? s with
    | some (chomping, rest) => do
      let (increment, rest) ← increment? rest
      pure (chomping, increment, rest)
    | none => do
      let (increment, rest) ← increment? s
      match increment, chomping? rest with
      | some _, some (chomping, rest) => pure (chomping, increment, rest)
      | _, _ => pure (Chomping.clip, increment, rest)
  if !atSpace rest then .error .malformed
  return (chomping, increment, ← ignoredLine rest)

/-- The leading breaks and spaces; the most spaces of a line among them, and those of the last. -/
def leadingLines : (column most : Nat) → Text → Text × Nat × Nat × Text
  | column, most, [] => ([], column, most, [])
  | column, most, c :: rest =>
    if c = ' ' then leadingLines (column + 1) (max most (column + 1)) rest
    else if isBreak c then
      let (breaks, column, most, tail) := leadingLines 0 most rest
      (breakText c :: breaks, column, most, tail)
    else ([], column, most, c :: rest)

/-- The breaks here, and the spaces after each up to the indentation. -/
def blockBreaks (indent : Nat) : (column : Nat) → Text → Text × Nat × Text
  | column, [] => ([], column, [])
  | column, c :: rest =>
    if c = ' ' ∧ column < indent then blockBreaks indent (column + 1) rest
    else if isBreak c then
      let (breaks, column, tail) := blockBreaks indent 0 rest
      (breakText c :: breaks, column, tail)
    else ([], column, c :: rest)

/-- The lines of a block scalar from its first one, with the text that its end stands for. -/
def blockLines (folded : Bool) (chomping : Chomping) (indent : Nat) :
    (fuel : Nat) → (breaks : Text) → (column : Nat) → (lineBreak : Text) → Text → Text × Text
  | 0, _, _, _, s => ([], s)
  | fuel + 1, breaks, column, lineBreak, s =>
    let final : Text := match chomping with
      | .strip => []
      | .clip => lineBreak
      | .keep => lineBreak ++ breaks
    if column = indent ∧ s ≠ [] then
      let (line, rest) := s.span fun c => !isBreak c
      let (lineBreak, rest) : Text × Text := match rest with
        | [] => ([], [])
        | c :: rest => ([breakText c], rest)
      let (nextBreaks, column, rest) := blockBreaks indent 0 rest
      let joint : Text :=
        if column = indent ∧ rest ≠ [] then
          if folded ∧ lineBreak = ['\n'] ∧ !s.head?.any isBlank ∧ !rest.head?.any isBlank then
            if nextBreaks = [] then [' '] else []
          else lineBreak
        else []
      let (more, rest) := blockLines folded chomping indent fuel nextBreaks column lineBreak rest
      (breaks ++ line ++ joint ++ more, rest)
    else (final, s)

/-- A block scalar after its indicator, inside a block with the given indentation. -/
def blockScalar (folded : Bool) (parent : Int) (s : Text) : Except Error (Text × Text) := do
  let (chomping, increment, rest) ← blockHeader s
  let least := (max 1 (parent + 1)).toNat
  match increment with
  | some n =>
    let indent := least + n - 1
    let (breaks, column, rest) := blockBreaks indent 0 rest
    return blockLines folded chomping indent (rest.length + 1) breaks column [] rest
  | none =>
    let (breaks, column, most, rest) := leadingLines 0 0 rest
    let indent := max least most
    return blockLines folded chomping indent (rest.length + 1) breaks column [] rest

end ComponentCatalog.Yaml
