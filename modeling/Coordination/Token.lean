import Coordination.Web
import Coordination.Model.Json
/-!
# Access tokens

A host proves who it is with its id and secret and gets a token for the broker.
-/

namespace Coordination.Token

/-- What a host asks for. -/
def connectScope : String := "connect"

/-- The form that asks for a token of a scope. -/
def form (scope : String) : String :=
  Uri.formBody [("grant_type", "client_credentials"), ("scope", scope)]

/-- The token in an answer.  The status is told with the text of a refusal. -/
def ofReply (r : WebReply) : Except Error AccessToken :=
  if !r.isSuccess then
    .error (.connectivity
      ("token request failed (" ++ WebReply.statusText r.status ++ "): " ++ r.text))
  else match r.document?.bind AccessToken.ofDocument? with
    | none => .error (.connectivity "malformed token response")
    | some t =>
      if t.token = "" then .error (.connectivity "token response has an empty access_token")
      else .ok t

def request (w : Web) (endpoint id secret scope : String) : Except Error AccessToken × Web :=
  match Uri.target? endpoint with
  | none => (.error (.connectivity "token endpoint cannot be requested"), w)
  | some uri =>
    let (reply, w) := w.post uri (id ++ ":" ++ secret) (form scope)
    (ofReply reply, w)

end Coordination.Token
