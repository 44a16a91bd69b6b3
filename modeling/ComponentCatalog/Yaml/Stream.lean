import ComponentCatalog.Yaml.Lexeme

/-!
The tokens of a YAML text. Indentation opens and closes blocks; a simple key is known for one only
at its colon, so the key token goes in front of what was read since the key began.
-/
namespace ComponentCatalog.Yaml

/-- A token that may turn out to begin a simple key. -/
structure SimpleKey where
  /-- How many tokens precede the key. -/
  number : Nat
  /-- A token at the indentation of the block can only be a key. -/
  required : Bool
  index : Nat
  line : Nat
  column : Nat

/-- How far a text is read. -/
structure Scanner where
  rest : Text
  index : Nat
  line : Nat
  column : Nat
  /-- How many flow collections are open. -/
  flow : Nat
  indent : Int
  outer : List Int
  allowKey : Bool
  /-- At most one possible key for each level of flow. -/
  keys : List (Nat × SimpleKey)
  /-- The tokens so far, the last one first. -/
  tokens : List Token

namespace Scanner

def start (s : Text) : Scanner := ⟨s, 0, 0, 0, 0, -1, [], true, [], []⟩

/-- Reads on to the suffix `rest`. -/
def goTo (s : Scanner) (rest : Text) : Scanner :=
  (s.rest.take (s.rest.length - rest.length)).foldl
    (fun s c =>
      if isBreak c then { s with index := s.index + 1, line := s.line + 1, column := 0 }
      else { s with index := s.index + 1, column := if c = '\uFEFF' then s.column else s.column + 1 })
    { s with rest }

def push (t : Token) (s : Scanner) : Scanner := { s with tokens := t :: s.tokens }

/-- Puts a token behind the first `number` tokens. -/
def insertAt (number : Nat) (t : Token) (s : Scanner) : Scanner :=
  { s with tokens := s.tokens.insertIdx (s.tokens.length - number) t }

/-- The blanks, breaks and comments before the next token. Outside of flow a line may begin with a
key. -/
def skipToToken (s : Scanner) : Scanner :=
  let (breaks, rest) := skip s.rest.length s.rest
  { s.goTo rest with allowKey := s.allowKey || (breaks && s.flow = 0) }
where
  skip : Nat → Text → Bool × Text
    | 0, s => (false, s)
    | fuel + 1, s =>
      let rest := s.dropWhile (· == ' ')
      let rest := if rest.head? = some '#' then rest.dropWhile (fun c => !isBreak c) else rest
      match rest with
      | [] => (false, [])
      | c :: tail => if isBreak c then (true, (skip fuel tail).2) else (false, rest)

/-- A possible key is given up on the next line and after 1024 characters. -/
def dropStaleKeys (s : Scanner) : Except Error Scanner :=
  let isStale (k : SimpleKey) : Bool := k.line != s.line || decide (1024 < s.index - k.index)
  if s.keys.any fun (_, k) => isStale k && k.required then .error .malformed
  else .ok { s with keys := s.keys.filter fun (_, k) => !isStale k }

/-- Closes the blocks that are indented more than `column`. -/
def unwind (column : Int) (s : Scanner) : Scanner :=
  if s.flow ≠ 0 then s
  else
    let (closed, outer) := (s.indent :: s.outer).span (column < ·)
    { s with
      indent := outer.head?.getD (-1)
      outer := outer.tail
      tokens := closed.map (fun _ => Token.blockEnd) ++ s.tokens }

/-- Forgets the possible key of this level; one that had to be a key is an error. -/
def dropKey (s : Scanner) : Except Error Scanner :=
  match List.lookup s.flow s.keys with
  | none => .ok s
  | some k =>
    if k.required then .error .malformed
    else .ok { s with keys := s.keys.filter fun (level, _) => level ≠ s.flow }

/-- The next token may begin a key, if one is allowed here. -/
def saveKey (s : Scanner) : Except Error Scanner :=
  if s.allowKey then do
    let s ← s.dropKey
    let key : SimpleKey :=
      ⟨s.tokens.length, s.flow = 0 && s.indent = (s.column : Int), s.index, s.line, s.column⟩
    return { s with keys := (s.flow, key) :: s.keys }
  else .ok s

/-- Opens a block at a column, if that is indented more than the block here. -/
def openBlock (column : Nat) (s : Scanner) : Bool × Scanner :=
  if s.indent < (column : Int) then
    (true, { s with indent := column, outer := s.indent :: s.outer })
  else (false, s)

/-- Reads a token of `count` characters. -/
def take (count : Nat) (t : Token) (s : Scanner) : Scanner := (s.goTo (s.rest.drop count)).push t

/-- A token that stands between documents, after the end of all blocks. -/
def betweenDocuments (s : Scanner) : Except Error Scanner := do
  let s ← (s.unwind (-1)).dropKey
  return { s with allowKey := false }

/-- A token that has to stand where a block can begin, and opens a block of its kind. -/
def beginEntry (opening : Token) (s : Scanner) : Except Error Scanner :=
  if s.flow ≠ 0 then .ok s
  else if !s.allowKey then .error .malformed
  else
    let (isNew, s) := s.openBlock s.column
    .ok (if isNew then s.push opening else s)

def blockEntry (s : Scanner) : Except Error Scanner := do
  let s ← (← s.beginEntry .blockSequenceStart).dropKey
  return { s with allowKey := true }.take 1 .blockEntry

def explicitKey (s : Scanner) : Except Error Scanner := do
  let s ← (← s.beginEntry .blockMappingStart).dropKey
  return { s with allowKey := s.flow = 0 }.take 1 .key

def value (s : Scanner) : Except Error Scanner := do
  match List.lookup s.flow s.keys with
  | some k =>
    let s := { s with keys := s.keys.filter fun (level, _) => level ≠ s.flow }
    let s := s.insertAt k.number .key
    let (isNew, s) := if s.flow = 0 then s.openBlock k.column else (false, s)
    let s := if isNew then s.insertAt k.number .blockMappingStart else s
    return { s with allowKey := false }.take 1 .value
  | none =>
    let s ← (← s.beginEntry .blockMappingStart).dropKey
    return { s with allowKey := s.flow = 0 }.take 1 .value

def openFlow (t : Token) (s : Scanner) : Except Error Scanner := do
  let s ← s.saveKey
  return { s with flow := s.flow + 1, allowKey := true }.take 1 t

def closeFlow (t : Token) (s : Scanner) : Except Error Scanner := do
  if s.flow = 0 then .error .malformed
  let s ← s.dropKey
  return { s with flow := s.flow - 1, allowKey := false }.take 1 t

def flowEntry (s : Scanner) : Except Error Scanner := do
  let s ← s.dropKey
  return { s with allowKey := true }.take 1 .flowEntry

/-- A token whose text `read` takes from behind the first character, and which may begin a key. -/
def keyLike (read : Text → Except Error (Token × Text)) (s : Scanner) : Except Error Scanner := do
  let s ← s.saveKey
  let (t, rest) ← read s.rest.tail
  return ({ s with allowKey := false }.goTo rest).push t

def blockScalar (folded : Bool) (s : Scanner) : Except Error Scanner := do
  let s ← s.dropKey
  let (text, rest) ← Yaml.blockScalar folded s.indent s.rest.tail
  return ({ s with allowKey := true }.goTo rest).push (.scalar false text)

def plainScalar (s : Scanner) : Except Error Scanner := do
  let s ← s.saveKey
  let (text, rest, broke) := plain (s.flow ≠ 0) (s.indent + 1) s.rest
  return ({ s with allowKey := broke }.goTo rest).push (.scalar true text)

/-- A plain scalar can begin here. -/
def atPlain (s : Scanner) : Bool :=
  match s.rest with
  | [] => false
  | c :: rest =>
    (!atGap [c] && !"-?:,[]\x7b\x7d#&*!|>'\"%@\x60".toList.contains c) ||
      (!atGap rest && (c == '-' || (s.flow = 0 && (c == '?' || c == ':'))))

/-- Reads the token at the head of the text. -/
def token (s : Scanner) : Except Error Scanner :=
  let inFlow := s.flow ≠ 0
  match s.rest with
  | [] => .error .malformed
  | c :: rest =>
    if s.column = 0 ∧ c = '%' then do
      let s ← s.betweenDocuments
      let (d, rest) ← directive rest
      return (s.goTo rest).push (.directive d)
    else if s.column = 0 ∧ atSeparator s.rest then do
      let s ← s.betweenDocuments
      return s.take 3 (if c = '-' then .documentStart else .documentEnd)
    else if c = '[' then s.openFlow .flowSequenceStart
    else if c = '\x7b' then s.openFlow .flowMappingStart
    else if c = ']' then s.closeFlow .flowSequenceEnd
    else if c = '\x7d' then s.closeFlow .flowMappingEnd
    else if c = ',' then s.flowEntry
    else if c = '-' ∧ atGap rest then s.blockEntry
    else if c = '?' ∧ (inFlow ∨ atGap rest) then s.explicitKey
    else if c = ':' ∧ (inFlow ∨ atGap rest) then s.value
    else if c = '*' then
      s.keyLike fun s => (anchorName s).map fun (name, rest) => (.alias name, rest)
    else if c = '&' then
      s.keyLike fun s => (anchorName s).map fun (name, rest) => (.anchor name, rest)
    else if c = '!' then
      s.keyLike fun s => (tag s).map fun (handle, suffix, rest) => (.tag handle suffix, rest)
    else if c = '|' ∧ !inFlow then s.blockScalar false
    else if c = '>' ∧ !inFlow then s.blockScalar true
    else if c = '\'' ∨ c = '"' then
      s.keyLike fun s => (quoted c s).map fun (text, rest) => (.scalar false text, rest)
    else if s.atPlain then s.plainScalar
    else .error .malformed

/-- Reads all tokens. Every one takes a character at least. -/
def run : (fuel : Nat) → Scanner → Except Error (List Token)
  | 0, _ => .error .malformed
  | fuel + 1, s => do
    let s ← s.skipToToken.dropStaleKeys
    let s := s.unwind s.column
    if s.rest = [] then
      return (← (s.unwind (-1)).dropKey).tokens.reverse
    run fuel (← s.token)

end Scanner

/-- The tokens of a text. A byte order mark may come first. -/
def tokens (s : Text) : Except Error (List Token) :=
  if s.all isPrintable then
    Scanner.run (s.length + 2) (Scanner.start (if s.head? = some '\uFEFF' then s.tail else s))
  else .error .malformed

end ComponentCatalog.Yaml
