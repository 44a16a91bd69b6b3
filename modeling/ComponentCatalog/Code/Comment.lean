import ComponentCatalog.Text.Scan

/-!
Comments: the text of a doc comment and its first line.
-/
namespace ComponentCatalog.Code

open Text

/-- The text without comment marks, wherever they stand. -/
def withoutCommentMarks : Text → Text
  | [] => []
  | '/' :: '*' :: '*' :: rest => withoutCommentMarks rest
  | '*' :: '/' :: rest => withoutCommentMarks rest
  | '*' :: rest => withoutCommentMarks rest
  | '/' :: '/' :: rest => withoutCommentMarks rest
  | c :: rest => c :: withoutCommentMarks rest

/-- The first line of a comment that has more than marks and blanks, without them. -/
def firstCommentLine (comment : Text) : Option Text :=
  ((breakLines (withoutCommentMarks comment)).map strip).find? (· ≠ [])

/-- The inside of the doc comment that begins here and what follows its end. -/
def docComment? (s : Text) : Option (Text × Text) :=
  (after? "/**".toList s).bind (cut? "*/".toList)

/-- The first line of the doc comment that directly precedes the exported constant `name`. -/
def constantDescription (name s : Text) : Option Text :=
  let shape : Shape Text := fun at_ => do
    let (inside, rest) ← docComment? at_.rest
    let rest ← after? "export".toList (stripStart rest)
    let rest ← after? "const".toList (← blanks? rest)
    let (_, rest) ← one? isBlank rest
    let rest ← afterMost isBlank (afterName? name) rest
    return (inside, at_.lengthTo rest)
  (firstHit shape s).bind firstCommentLine

end ComponentCatalog.Code
