import ComponentCatalog.Component.Import
import ComponentCatalog.Component.Export
import ComponentCatalog.Component.Property

/-!
A component: what its source file says of it. Whether it has tests, stories and documentation is
known from the files beside it.
-/
namespace ComponentCatalog

structure Component where
  name : Text
  description : Option Text
  properties : List Component.Property
  exports : List Component.Export
  imports : List Component.Import
  dependencies : List Text
  hasTests : Bool
  hasStories : Bool
  hasDocumentation : Bool
  deriving DecidableEq, Repr

namespace Component

/-- The component `name` as its source declares it. -/
def ofSource (name code : Text) : Component where
  name
  description := Code.constantDescription name code
  properties := propertiesOf code name
  exports := exportsIn code
  imports := importsIn code
  dependencies := dependenciesIn code
  hasTests := false
  hasStories := false
  hasDocumentation := false

def node (c : Component) : Node :=
  .recordOf "ComponentMetadata" [("name", .text c.name),
    ("description", .optional .text c.description),
    ("props", .list (c.properties.map Property.node)),
    ("exports", .list (c.exports.map Export.node)),
    ("imports", .list (c.imports.map Import.node)),
    ("dependencies", .texts c.dependencies), ("has_tests", .bool c.hasTests),
    ("has_stories", .bool c.hasStories), ("has_documentation", .bool c.hasDocumentation)]

end Component

end ComponentCatalog
