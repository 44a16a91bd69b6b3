import ComponentCatalog.Node

/-!
Documents: long-form documentation in Markdown with embedded elements, cut into sections and mined
for examples.
-/
namespace ComponentCatalog

/-- A runnable snippet. -/
structure Example where
  code : Text
  kind : Text
  language : Option Text
  title : Option Text
  description : Option Text
  deriving DecidableEq, Repr

/-- The span of a document that a heading opens; both line numbers belong to it. -/
structure Section where
  title : Text
  level : Int
  content : Text
  examples : List Example
  startLine : Int
  endLine : Int
  deriving DecidableEq, Repr

structure Document where
  title : Text
  content : Text
  sections : List Section
  examples : List Example
  metadata : Entries Text
  imports : List Text
  components : List Text
  deriving DecidableEq, Repr

/-- Counts and flags of a document. -/
structure DocumentFacts where
  component : Text
  title : Text
  description : Option Text
  sections : Int
  examples : Int
  hasProperties : Bool
  hasUsage : Bool
  hasAccessibility : Bool
  deriving DecidableEq, Repr

/-- The facts of a document with what it says of usage and accessibility. -/
structure DocumentSummary where
  facts : DocumentFacts
  usagePatterns : List Text
  accessibilityGuidelines : List Text
  deriving DecidableEq, Repr

def Example.node (e : Example) : Node :=
  .recordOf "CodeExample" [("code", .text e.code), ("kind", .text e.kind),
    ("language", .optional .text e.language), ("title", .optional .text e.title),
    ("description", .optional .text e.description)]

def Section.node (s : Section) : Node :=
  .recordOf "MDXSection" [("title", .text s.title), ("level", .int s.level),
    ("content", .text s.content), ("examples", .list (s.examples.map Example.node)),
    ("start_line", .int s.startLine), ("end_line", .int s.endLine)]

def Document.node (d : Document) : Node :=
  .recordOf "MDXContent" [("title", .text d.title), ("content", .text d.content),
    ("sections", .list (d.sections.map Section.node)),
    ("examples", .list (d.examples.map Example.node)), ("metadata", .textMapping d.metadata),
    ("imports", .texts d.imports), ("components", .texts d.components)]

def DocumentFacts.node (f : DocumentFacts) : Node :=
  .recordOf "MDXMetadata" [("component_name", .text f.component), ("title", .text f.title),
    ("description", .optional .text f.description), ("sections", .int f.sections),
    ("examples", .int f.examples), ("has_props", .bool f.hasProperties),
    ("has_usage_guidelines", .bool f.hasUsage),
    ("has_accessibility_info", .bool f.hasAccessibility)]

def DocumentSummary.node (s : DocumentSummary) : Node :=
  .recordOf "DocumentationSummary" [("metadata", s.facts.node),
    ("usage_patterns", .texts s.usagePatterns),
    ("accessibility_guidelines", .texts s.accessibilityGuidelines)]

end ComponentCatalog
