import ComponentCatalog.Node

/-!
Stories: the named examples that a story file exports, and the settings of its default export.
-/
namespace ComponentCatalog

structure Story where
  name : Text
  source : Text
  args : Option (Entries Value)
  parameters : Option (Entries Value)
  description : Option Text

/-- The default export of a story file. -/
structure StorySettings where
  title : Text
  component : Text
  stories : List Story
  argTypes : Option (Entries Value)
  parameters : Option (Entries Value)
  decorators : Option (List Text)

structure StoryFile where
  component : Text
  settings : StorySettings
  total : Int
  isInteractive : Bool
  hasExamples : Bool

def valueMapping (entries : Entries Value) : Node := (Value.mapping entries).node

def Story.node (s : Story) : Node :=
  .recordOf "StoryDefinition" [("name", .text s.name), ("source", .text s.source),
    ("args", .optional valueMapping s.args), ("parameters", .optional valueMapping s.parameters),
    ("description", .optional .text s.description)]

def StorySettings.node (s : StorySettings) : Node :=
  .recordOf "StorybookMeta" [("title", .text s.title), ("component", .text s.component),
    ("stories", .list (s.stories.map Story.node)), ("arg_types", .optional valueMapping s.argTypes),
    ("parameters", .optional valueMapping s.parameters),
    ("decorators", .optional .texts s.decorators)]

def StoryFile.node (f : StoryFile) : Node :=
  .recordOf "StoryMetadata" [("component_name", .text f.component), ("meta", f.settings.node),
    ("total_stories", .int f.total), ("has_interactive_stories", .bool f.isInteractive),
    ("has_examples", .bool f.hasExamples)]

end ComponentCatalog
