import ComponentCatalog.Yaml.Stream
import ComponentCatalog.Yaml.Tag

/-!
The document of a YAML text: scalars, sequences and mappings with their tags, and aliases replaced
by what they name.
-/
namespace ComponentCatalog.Yaml

inductive Node where
  | scalar (tag : Tag) (text : Text)
  | sequence (tag : Tag) (items : List Node)
  | mapping (tag : Tag) (pairs : List (Node × Node))

namespace Node

/-- What is left to read, and what the anchors name so far. A collection that is not read to its end
counts as empty. -/
structure State where
  tokens : List Token
  anchors : List (Text × Node)
  handles : List (Text × Text)

abbrev Build := StateT State (Except Error)

def next? : Build (Option Token) := return (← get).tokens.head?

def skip : Build Unit := modify fun s => { s with tokens := s.tokens.tail }

/-- The next token is one of these. -/
def atAny (kinds : List Token) : Build Bool := return (← next?).any kinds.contains

/-- Skips the next token if it is this one. -/
def accept (t : Token) : Build Bool := do
  if ← atAny [t] then
    skip
    return true
  else return false

def expect (t : Token) : Build Unit := do
  if !(← accept t) then throw .malformed

/-- The value of nothing. -/
def blank : Node := .scalar .null []

def setAnchor (anchor? : Option Text) (n : Node) : Build Unit :=
  match anchor? with
  | none => return
  | some name => modify fun s => { s with anchors := (name, n) :: s.anchors }

/-- The anchor and the tag of a node, in either order. -/
def properties : Build (Option Text × Option (Option Text × Text)) := do
  match ← next? with
  | some (.anchor name) =>
    skip
    match ← next? with
    | some (.tag handle suffix) =>
      skip
      return (some name, some (handle, suffix))
    | _ => return (some name, none)
  | some (.tag handle suffix) =>
    skip
    match ← next? with
    | some (.anchor name) =>
      skip
      return (some name, some (handle, suffix))
    | _ => return (none, some (handle, suffix))
  | _ => return (none, none)

/-- The full name of a tag. -/
def tagName (handle : Option Text) (suffix : Text) : Build Text := do
  match handle with
  | none => return suffix
  | some handle =>
    match List.lookup handle (← get).handles with
    | some lead => return lead ++ suffix
    | none => throw .malformed

/-- The tag of a name, or the one that its absence stands for. -/
def tagOr (name? : Option Text) (absent : Tag) : Tag :=
  match name? with
  | none | some ['!'] => absent
  | some name => Tag.ofName name

mutual

/-- A node. Outside of flow it may be a block; under a key also a sequence without indentation. -/
def node : (fuel : Nat) → (inBlock indentless : Bool) → Build Node
  | 0, _, _ => throw .malformed
  | fuel + 1, inBlock, indentless => do
    if let some (.alias name) := ← next? then
      skip
      match List.lookup name (← get).anchors with
      | some n => return n
      | none => throw .malformed
    let (anchor?, tag?) ← properties
    let name? ← tag?.mapM fun (handle, suffix) => tagName handle suffix
    let known := (← get).anchors
    if anchor?.any fun a => known.any (·.1 = a) then throw .malformed
    match ← next? with
    | some (.scalar isPlain text) =>
      skip
      let implicit := if isPlain ∨ name? = some ['!'] then Tag.ofSpelling text else .text
      let n := Node.scalar (tagOr name? implicit) text
      setAnchor anchor? n
      return n
    | some .flowSequenceStart =>
      skip
      let tag := tagOr name? .sequence
      setAnchor anchor? (.sequence tag [])
      let n := Node.sequence tag (← flowItems fuel true)
      setAnchor anchor? n
      return n
    | some .flowMappingStart =>
      skip
      let tag := tagOr name? .mapping
      setAnchor anchor? (.mapping tag [])
      let n := Node.mapping tag (← flowPairs fuel true)
      setAnchor anchor? n
      return n
    | some .blockEntry =>
      if !indentless then throw .malformed
      let tag := tagOr name? .sequence
      setAnchor anchor? (.sequence tag [])
      let n := Node.sequence tag (← blockItems fuel [.blockEntry, .key, .value, .blockEnd])
      setAnchor anchor? n
      return n
    | some .blockSequenceStart =>
      if !inBlock then throw .malformed
      skip
      let tag := tagOr name? .sequence
      setAnchor anchor? (.sequence tag [])
      let n := Node.sequence tag (← blockItems fuel [.blockEntry, .blockEnd])
      expect .blockEnd
      setAnchor anchor? n
      return n
    | some .blockMappingStart =>
      if !inBlock then throw .malformed
      skip
      let tag := tagOr name? .mapping
      setAnchor anchor? (.mapping tag [])
      let n := Node.mapping tag (← blockPairs fuel)
      setAnchor anchor? n
      return n
    | _ =>
      if anchor?.isNone ∧ name?.isNone then throw .malformed
      let n := Node.scalar (tagOr name? .null) []
      setAnchor anchor? n
      return n

/-- The items of a block sequence; an entry that one of `ends` follows is blank. -/
def blockItems : (fuel : Nat) → (ends : List Token) → Build (List Node)
  | 0, _ => throw .malformed
  | fuel + 1, ends => do
    if ← accept .blockEntry then
      let item ← if ← atAny ends then pure blank else node fuel true false
      return item :: (← blockItems fuel ends)
    else return []

/-- The pairs of a block mapping through its end. -/
def blockPairs : (fuel : Nat) → Build (List (Node × Node))
  | 0 => throw .malformed
  | fuel + 1 => do
    let ends := [Token.key, .value, .blockEnd]
    if ← accept .key then
      let key ← if ← atAny ends then pure blank else node fuel true true
      let value ←
        if ← accept .value then
          if ← atAny ends then pure blank else node fuel true true
        else pure blank
      return (key, value) :: (← blockPairs fuel)
    else
      expect .blockEnd
      return []

/-- The items of a flow sequence through its end; a pair stands for a mapping of one. -/
def flowItems : (fuel : Nat) → (isFirst : Bool) → Build (List Node)
  | 0, _ => throw .malformed
  | fuel + 1, isFirst => do
    if ← accept .flowSequenceEnd then return []
    if !isFirst then expect .flowEntry
    if ← accept .key then
      let ends := [Token.value, .flowEntry, .flowSequenceEnd]
      let key ← if ← atAny ends then pure blank else node fuel false false
      let value ←
        if ← accept .value then
          if ← atAny [.flowEntry, .flowSequenceEnd] then pure blank else node fuel false false
        else pure blank
      return .mapping .mapping [(key, value)] :: (← flowItems fuel false)
    else if ← accept .flowSequenceEnd then return []
    else
      let item ← node fuel false false
      return item :: (← flowItems fuel false)

/-- The pairs of a flow mapping through its end; a lone node is a key with a blank value. -/
def flowPairs : (fuel : Nat) → (isFirst : Bool) → Build (List (Node × Node))
  | 0, _ => throw .malformed
  | fuel + 1, isFirst => do
    if ← accept .flowMappingEnd then return []
    if !isFirst then expect .flowEntry
    if ← accept .key then
      let ends := [Token.value, .flowEntry, .flowMappingEnd]
      let key ← if ← atAny ends then pure blank else node fuel false false
      let value ←
        if ← accept .value then
          if ← atAny [.flowEntry, .flowMappingEnd] then pure blank else node fuel false false
        else pure blank
      return (key, value) :: (← flowPairs fuel false)
    else if ← accept .flowMappingEnd then return []
    else
      let key ← node fuel false false
      return (key, blank) :: (← flowPairs fuel false)

end

/-- The tag handles that need no directive. -/
def standardHandles : List (Text × Text) :=
  [(['!'], ['!']), (['!', '!'], Tag.standardLead)]

/-- The directives here: at most one version, which has to be 1, and one tag a handle. -/
def directives : (fuel : Nat) → (hasVersion : Bool) → List (Text × Text) → Build (List (Text × Text))
  | 0, _, handles => return handles
  | fuel + 1, hasVersion, handles => do
    match ← next? with
    | some (.directive (.version major)) =>
      skip
      if hasVersion ∨ major ≠ 1 then throw .malformed
      directives fuel true handles
    | some (.directive (.tag handle lead)) =>
      skip
      if handles.any (·.1 = handle) then throw .malformed
      directives fuel hasVersion ((handle, lead) :: handles)
    | some (.directive .other) =>
      skip
      directives fuel hasVersion handles
    | _ => return handles

/-- Skips the ends of documents. -/
def skipEnds : (fuel : Nat) → Build Unit
  | 0 => return
  | fuel + 1 => do if ← accept .documentEnd then skipEnds fuel

/-- The only document of a text, if there is one. -/
def document : Build (Option Node) := do
  let fuel := 2 * (← get).tokens.length + 2
  match ← next? with
  | none => return none
  | some (.directive _) | some .documentStart =>
    let handles ← directives fuel false []
    modify fun s => { s with handles := handles ++ s.handles }
    expect .documentStart
    let isBlank := match ← next? with
      | none | some (.directive _) | some .documentStart | some .documentEnd => true
      | _ => false
    let n ← if isBlank then pure blank else node fuel true false
    finish fuel
    return some n
  | some _ =>
    let n ← node fuel true false
    finish fuel
    return some n
where
  /-- Nothing but ends of documents is left. -/
  finish (fuel : Nat) : Build Unit := do
    skipEnds fuel
    if (← next?).isSome then throw .malformed

/-- The document of a list of tokens. -/
def ofTokens (tokens : List Token) : Except Error (Option Node) :=
  (document.run ⟨tokens, [], standardHandles⟩).map (·.1)

end Node

end ComponentCatalog.Yaml
