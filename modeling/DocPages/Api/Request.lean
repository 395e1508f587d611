import DocPages.Api.Security
import DocPages.Schema.Panel

/-!
# Request cards

The body of a request: whether it is required, what it is for, and its media types.
-/

namespace DocPages.Api

open Html

def requestBody (maxDepth : Int) (body : Json) : StateM IdSupply (Option Html) := do
  let content ← Schema.mediaTypes maxDepth (body.get "content")
  let description := body.get "description"
  if content.isNone && !description.isTruthy then return none
  let required := (body.get "required").isTruthy
  return some (div "doc-api-request-body"
    (card "doc-api-body-card"
      (span "doc-api-card-title" (.text "Body")
        ++ Schema.badge (if required then "required" else "optional"))
      (when description.isTruthy (div "doc-api-description" (.text description.display))
        ++ content.getD .empty)))

end DocPages.Api
