import ComponentCatalog.Config.Origin
import ComponentCatalog.Present.Directory
import ComponentCatalog.Service.Basic

/-!
The service that a configuration describes.
-/
namespace ComponentCatalog.Service

def ofConfig (c : Config) (w : World) : Service (Cached Float World) :=
  ⟨c.library, .ofDirectory w.files c.templates, [c.origin.notice]⟩

/-- The state before the first request. -/
def initial (c : Config) (w : World) : State (Cached Float World) := ⟨c.cached w, false⟩

/-- What is reported when the service starts to listen. -/
def startNotice (host : Text) (port : Int) : Log.Entry :=
  ⟨.info, "service".toList,
    "Serving uidocs on http://".toList ++ host ++ ':' :: Number.intText port⟩

end ComponentCatalog.Service
