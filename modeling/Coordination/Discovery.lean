import Coordination.Web
import Coordination.Model.Json
import Coordination.Backoff
import Coordination.Text.Quoted
/-!
# Discovery

An authority publishes a document that names its endpoints.  Discovery fetches it again and again
with growing delays until an answer is acceptable or the operation is given up; the first success
is kept for good.
-/

namespace Coordination

/-- Where to find an authority. -/
structure DiscoveryConfig where
  /-- The public address; its host is the id of the authority. -/
  authorityUri : String
  /-- Another address at which the authority is reached. -/
  internalUri : Option String := none
  /-- A broker that takes the place of the published one. -/
  brokerUri : Option String := none
  maxBackoff : Duration := Backoff.defaultMax
deriving DecidableEq, Repr

structure Endpoints where
  brokerUri : String
  tokenEndpoint : String
deriving DecidableEq, Repr

/-- The search for the endpoints of one authority. -/
structure Discovery where
  /-- The id of the authority. -/
  id : String
  authorityUri : Uri
  internalUri : Option Uri
  /-- The broker that takes precedence, if any; never empty. -/
  brokerOverride : Option String
  backoff : Backoff
  /-- The endpoints once they were found. -/
  endpoints : Option Endpoints := none
deriving DecidableEq, Repr

namespace Discovery

/-- Where the document lies below the address of an authority. -/
def documentPath : String := "/.well-known/openid-configuration"

/-- Reads an address of the configuration. -/
def parseUri (name value : String) : Except Error Uri :=
  match Uri.parse? value with
  | some u => .ok u
  | none =>
    .error (.invalidConfig (name ++ " " ++ Text.Quoted.quote value ++ ": malformed address"))

/-- A search that has found nothing yet. -/
def create (config : DiscoveryConfig) : Except Error Discovery := do
  let authorityUri ← parseUri "authority_uri" config.authorityUri
  match authorityUri.hostName? with
  | none => .error (.invalidConfig ("authority_uri has no host: " ++ authorityUri.render))
  | some id =>
    let internalUri ← match config.internalUri with
      | some text => (parseUri "authority_uri_internal" text).map some
      | none => .ok none
    return { id, authorityUri, internalUri
             brokerOverride := config.brokerUri.filter (· ≠ "")
             backoff := .withMax config.maxBackoff }

def isInitialized (d : Discovery) : Bool := d.endpoints.isSome

/-- The broker: the one that takes precedence, otherwise the one that was found. -/
def brokerUri? (d : Discovery) : Option String :=
  d.brokerOverride.or (d.endpoints.map Endpoints.brokerUri)

/-- The characters without any slash at their end. -/
def dropSlashes (cs : List Char) : List Char := (cs.reverse.dropWhile (· = '/')).reverse

/-- The address of the document. -/
def documentUri (d : Discovery) : String :=
  String.ofList (dropSlashes (d.internalUri.getD d.authorityUri).render.toList) ++ documentPath

/-- An endpoint at the host and port at which the authority is reached. -/
def endpointThrough (endpoint : String) (internal : Uri) : Except Error String :=
  match Uri.parse? endpoint with
  | none => .error (.connectivity "malformed token endpoint")
  | some u =>
    match u.withOriginOf? internal with
    | some v => .ok v.render
    | none => .error (.invalidConfig "internal host: not applicable")

/-- The endpoints that an answer gives. -/
def ofReply (d : Discovery) (r : WebReply) : Except Error Endpoints :=
  if r.isFailure then .error (.connectivity ("status " ++ WebReply.statusText r.status))
  else match r.document?.bind EndpointDocument.ofDocument? with
    | none => .error (.connectivity "malformed discovery document")
    | some doc =>
      match d.brokerOverride.or doc.brokerUri with
      | none => .error (.connectivity "discovery document has no broker_uri")
      | some brokerUri =>
        match doc.tokenEndpoint with
        | none => .error (.connectivity "discovery document has no token_endpoint")
        | some endpoint => do
          let tokenEndpoint ← match d.internalUri with
            | some internal => endpointThrough endpoint internal
            | none => .ok endpoint
          return { brokerUri, tokenEndpoint }

/-! ## Attempts -/

/-- What a search does. -/
inductive Move where
  /-- It asks for the document; the client follows redirects. -/
  | request (uri : String) (hops : List WebRequest)
  /-- It waits before the next attempt. -/
  | wait (delay : Duration)
deriving DecidableEq, Repr

/-- When a search that is not answered any more is given up. -/
inductive GivenUp where
  /-- Before the next request, at the start or while waiting. -/
  | beforeRequest
  /-- While the answer to the next request is awaited; the client may have followed redirects. -/
  | duringRequest (hops : List WebRequest)
deriving DecidableEq, Repr

/-- The result of a search: the endpoints or an error, what was done, and the answers left over. -/
structure Outcome where
  result : Except Error Endpoints
  moves : List Move
  unused : List WebReply
deriving Repr

/-- Asks for the document at an address until an answer is acceptable.  The delay after the next
failure is `delay`. -/
def attempt (d : Discovery) (uri : String) (ending : GivenUp) : Duration → List WebReply → Outcome
  | _, [] =>
    ⟨.error .cancelled, match ending with
      | .beforeRequest => []
      | .duringRequest hops => [.request uri hops], []⟩
  | delay, r :: rest =>
    match d.ofReply r with
    | .ok e => ⟨.ok e, [.request uri r.hops], rest⟩
    | .error _ =>
      let later := attempt d uri ending (d.backoff.next delay) rest
      ⟨later.result, .request uri r.hops :: .wait delay :: later.moves, later.unused⟩

/-- Searches for the endpoints with the answers to come.  What was found before is given at once.
An address that cannot be requested is tried in vain until the search is given up. -/
def search (d : Discovery) (ending : GivenUp) (replies : List WebReply) : Outcome :=
  match d.endpoints with
  | some e => ⟨.ok e, [], replies⟩
  | none =>
    match Uri.target? d.documentUri with
    | none => ⟨.error .cancelled, [], replies⟩
    | some uri => attempt d uri ending d.backoff.first replies

/-- The search after an outcome: a success is kept. -/
def keep (d : Discovery) (o : Outcome) : Discovery :=
  match o.result with
  | .ok e => { d with endpoints := some e }
  | .error _ => d

/-- What is sent in the course of moves. -/
def requests (moves : List Move) : List WebRequest :=
  moves.flatMap fun
    | .request uri hops => .get uri :: hops
    | .wait _ => []

/-- How many answers moves take. -/
def answered (moves : List Move) : Nat :=
  moves.countP fun
    | .request _ _ => true
    | .wait _ => false

/-- Searches for the endpoints over the web. -/
def locate (d : Discovery) (w : Web) : Except Error Endpoints × Discovery × Web :=
  let outcome :=
    -- what was found before is given even to someone who was asked to give up
    if w.cancelled then d.search .beforeRequest []
    else match w.patience with
      | none => d.search (.duringRequest []) w.gets
      | some n => d.search .beforeRequest (w.getsWithin n)
  let gaveUp := match outcome.result with
    | .ok _ => w.cancelled
    | .error _ => true
  (outcome.result, d.keep outcome,
    { w with
      gets := w.gets.drop (answered outcome.moves)
      sent := w.sent ++ requests outcome.moves
      cancelled := gaveUp })

end Discovery

end Coordination
