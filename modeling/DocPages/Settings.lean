import DocPages.Keyed
import DocPages.Text.Class

/-!
# Settings

What the renderer and the client of the content store have in common, and how reserved media paths become
addresses. Settings come from environment variables; one that is missing, blank or no number leaves its
default in place.
-/

namespace DocPages

structure Settings where
  cmsUrl : Text := "http://localhost:3000"
  apiKey : Text := []
  mediaRoot : Text := "/_r2/"
  maxDepth : Int := 4

namespace Settings

/-- The value of a variable without the blanks around it, empty if it is not set. -/
def setting (env : Keyed Text) (name : Text) : Text := Text.strip ((env.get? name).getD [])

def ofEnv (env : Keyed Text) : Settings where
  cmsUrl := Text.orDefault (setting env "CMS_URL") ({} : Settings).cmsUrl
  apiKey := setting env "CMS_API_KEY"
  mediaRoot := Text.orDefault (setting env "DOCFORGE_MEDIA_PREFIX") ({} : Settings).mediaRoot
  maxDepth := (Text.toInt? (setting env "DOCFORGE_MAX_SCHEMA_DEPTH")).getD ({} : Settings).maxDepth

end Settings

def dropSlashes (url : Text) : Text := Text.trimEnd (· == '/') url

/-- The address of a media path. Paths below the reserved root are served by the content store; the words
`null` and `undefined` stand for no path. -/
def resolveMedia (cmsUrl mediaRoot url : Text) : Text :=
  let url := Text.strip url
  let word := Text.lower url
  if url.isEmpty ∨ word = "null" ∨ word = "undefined" then []
  else if Text.startsWith url mediaRoot then dropSlashes cmsUrl ++ url
  else url

end DocPages
