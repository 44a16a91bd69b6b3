import ComponentCatalog.Text.Class
import ComponentCatalog.Text.CaseTable

/-!
Case: the full lower and upper case of a text, in which one character may become several, and the
rule that a capital sigma at the end of a word becomes a final one.
-/
namespace ComponentCatalog.Text

def runImage? (runs : List (Nat × Nat × Nat × Nat)) (n : Nat) : Option Nat :=
  (runs.find? fun (first, last, step, _) =>
    first ≤ n && n ≤ last && (n - first) % step == 0).map fun (first, _, _, image) =>
      image + (n - first)

def caseImage (runs : List (Nat × Nat × Nat × Nat)) (expansions : List (Nat × List Nat))
    (c : Char) : Text :=
  match expansions.lookup c.toNat with
  | some codes => codes.map Char.ofNat
  | none => [((runImage? runs c.toNat).map Char.ofNat).getD c]

/-- The lower case of a character out of context. -/
def lowerChar (c : Char) : Text :=
  if c.toNat < 128 then [c.toLower] else caseImage lowerRuns lowerExpansions c

/-- The upper case of a character. -/
def upperChar (c : Char) : Text :=
  if c.toNat < 128 then [c.toUpper] else caseImage upperRuns upperExpansions c

/-- The next character that the final-sigma rule looks at has case. -/
def meetsCased (s : Text) : Bool :=
  (s.find? fun c => !inRanges caseIgnorableRanges c.toNat).any fun c =>
    inRanges casedRanges c.toNat

def lowerFrom (before : Text) : Text → Text
  | [] => []
  | c :: rest =>
    (if c = 'Σ' then [if meetsCased before && !meetsCased rest then 'ς' else 'σ']
      else lowerChar c) ++ lowerFrom (c :: before) rest

/-- The text in lower case; a capital sigma after a letter and before none becomes final. -/
def lower (s : Text) : Text := lowerFrom [] s

/-- The text in upper case. -/
def upper (s : Text) : Text := s.flatMap upperChar

/-- An upper-case character. -/
def isUpperCase (c : Char) : Bool :=
  if c.toNat < 128 then c.isUpper
  else upperCaseRuns.any fun (first, last, step) =>
    first ≤ c.toNat && c.toNat ≤ last && (c.toNat - first) % step == 0

end ComponentCatalog.Text
