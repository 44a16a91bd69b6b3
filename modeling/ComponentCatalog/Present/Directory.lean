import ComponentCatalog.Present.Presenter
import ComponentCatalog.Source.FileSystem

/-!
Page templates from the files of a directory.
-/
namespace ComponentCatalog

/-- The presenter with the templates of a directory, if one is given by its absolute path. -/
def Presenter.ofDirectory (fs : FileSystem) (directory : Option Text) : Presenter where
  template? name := do
    let place ← fs.reach? ((← directory) ++ '/' :: name)
    return Text.Utf8.decodeLossy (← fs.file? place)

end ComponentCatalog
