import ComponentCatalog.Source.Path
import ComponentCatalog.Text.Utf8

/-!
A file system without links: the contents of files and the names of the directories in a directory.
A file may be there and still not be read.
-/
namespace ComponentCatalog

structure FileSystem where
  file? : Place → Option Text.Utf8.Octets
  /-- The names of the directories in a directory. -/
  directories? : Place → Option (List Text)
  fileCount : Nat
  /-- Why the file at a place cannot be read, if it cannot. -/
  refusal? : Place → Option Text := fun _ => none

namespace FileSystem

/-- The file system without any file, and with the top as its only directory. -/
def empty : FileSystem where
  file? _ := none
  directories? place := if place = [] then some [] else none
  fileCount := 0

def isFile (fs : FileSystem) (place : Place) : Bool := (fs.file? place).isSome

def isDirectory (fs : FileSystem) (place : Place) : Bool := (fs.directories? place).isSome

/-- The file system with the given files, the given directories and those on the way to them. -/
def ofLists (files : List (Place × Text.Utf8.Octets)) (directories : List Place) : FileSystem :=
  let all := directories ++ files.map fun (place, _) => place.dropLast
  { file? := fun place => List.lookup place files
    directories? := fun place =>
      if place = [] ∨ all.any place.isPrefixOf then
        some (Text.distinct (all.filterMap fun d =>
          if place.isPrefixOf d then (d.drop place.length).head? else none))
      else none
    fileCount := files.length }

/-- The file system with one more directory, and those on the way to it. -/
def withDirectory (fs : FileSystem) (directory : Place) : FileSystem :=
  { fs with
    directories? := fun place =>
      if place.isPrefixOf directory then
        let names := (fs.directories? place).getD []
        match (directory.drop place.length).head? with
        | none => some names
        | some name => some (if names.contains name then names else names ++ [name])
      else fs.directories? place }

/-- The file system in which a file has the given content. -/
def withFile (fs : FileSystem) (file : Place) (octets : Text.Utf8.Octets) : FileSystem :=
  { fs with
    file? := fun place => if place = file then some octets else fs.file? place
    fileCount := if fs.isFile file then fs.fileCount else fs.fileCount + 1 }

/-- The file system in which the given files cannot be read, each for its reason. -/
def withRefusals (fs : FileSystem) (refusals : List (Place × Text)) : FileSystem :=
  { fs with refusal? := fun place => (List.lookup place refusals).or (fs.refusal? place) }

/-- The place at the end of an absolute path, each `..` of which has to lead up from a directory. -/
def reach? (fs : FileSystem) (path : Text) : Option Place :=
  (segments path).foldlM
    (fun place segment => if fs.isDirectory place then some (place.enter segment) else none) []

/-- The text of a file of octets: UTF-8, with a line feed for every kind of line end. -/
def textOf (octets : Text.Utf8.Octets) : Text := Text.unifyLineEnds (Text.Utf8.decodeLossy octets)

end FileSystem

end ComponentCatalog
