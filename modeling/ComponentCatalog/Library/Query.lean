import ComponentCatalog.Text.Basic

/-!
What a library can be asked for.
-/
namespace ComponentCatalog

inductive Query where
  /-- The names of all components. -/
  | components
  | source (component : Text)
  | tests (component : Text)
  | component (name : Text)
  | stories (component : Text)
  | document (component : Text)
  | summary (component : Text)
  | dependencies (component : Text) (deep : Bool)
  /-- The theme, or one category of it. -/
  | theme (category : Option Text)
  | themeFacts
  | search (query : Text) (described : Bool)
  deriving DecidableEq, Repr

end ComponentCatalog
