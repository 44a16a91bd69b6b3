import ComponentCatalog.Document.Basic
import ComponentCatalog.Document.Element
import ComponentCatalog.Text.Case

/-!
The examples in a document: framed examples, fenced code and elements whose tag is capitalised, in
this order.
-/
namespace ComponentCatalog.Document

open Text

def frameShape : Shape Text := fun at_ => do
  let rest ← afterTagEnd? (← after? "<ExampleFrame".toList at_.rest)
  let (body, rest) ← cut? "</ExampleFrame>".toList rest
  return (strip body, at_.lengthTo rest)

def fenceMark : Text := "```".toList

/-- Fenced code: the language word after the opening fence, and the lines up to a line that begins
with a fence. -/
def fenceShape : Shape (Text × Text) := fun at_ => do
  let (language, rest) := (← after? fenceMark at_.rest).span isWord
  let (code, rest) ← cut? ('\n' :: fenceMark) (← after? ['\n'] rest)
  return ((language, code), at_.lengthTo rest)

def frameExample (code : Text) : Example :=
  ⟨code, "example-frame".toList, some "jsx".toList, none, some "Interactive example".toList⟩

def codeExample (language code : Text) : Example :=
  let language := if language = [] then "text".toList else language
  ⟨code, "code".toList, some language, none, some (language ++ " code example".toList)⟩

def elementExample (tag element : Text) : Example :=
  ⟨element, "component".toList, some "jsx".toList, none, some (tag ++ " usage example".toList)⟩

/-- The examples of a document or of a part of one. -/
def examplesIn (s : Text) : List Example :=
  (hits frameShape s).map frameExample ++
    (hits fenceShape s).map (fun (language, code) => codeExample language code) ++
    ((elements s).filter fun (tag, _) => tag.head?.any isUpperCase).map fun (tag, element) =>
      elementExample tag element

end ComponentCatalog.Document
