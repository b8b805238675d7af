import Coordination.Uri.Basic
import Coordination.Json.Reader
import Coordination.Error
/-!
# Web requests

Requests that the coordination layer sends to web servers, and the answers it gets.  An exchange
holds the answers that are still to come and remembers what was sent.  Once no answer is left, the
next request finds the server unavailable, and the operation that sent it is asked to give up.
-/

namespace Coordination

inductive WebRequest where
  /-- Fetches a document. -/
  | get (uri : String)
  /-- Sends a form, under the name and secret of a client if they are given. -/
  | post (uri : String) (basic : Option String) (body : String)
deriving DecidableEq, Repr

/-- What a request comes to.  The client follows redirects by itself, in a way of its own: the
answer is the one at the end, which may be a redirect that is not followed. -/
structure WebReply where
  status : Nat := 200
  body : String
  /-- What the client sent on the way, as it followed redirects; none if there were none. -/
  hops : List WebRequest := []
deriving DecidableEq, Repr

namespace WebReply

/-- The meaning of the status codes. -/
def reasons : List (Nat × String) :=
  [(100, "Continue"), (101, "Switching Protocols"), (102, "Processing"), (103, "Early Hints"),
   (200, "OK"), (201, "Created"), (202, "Accepted"), (203, "Non Authoritative Information"),
   (204, "No Content"), (205, "Reset Content"), (206, "Partial Content"), (207, "Multi-Status"),
   (208, "Already Reported"), (226, "IM Used"),
   (300, "Multiple Choices"), (301, "Moved Permanently"), (302, "Found"), (303, "See Other"),
   (304, "Not Modified"), (305, "Use Proxy"), (307, "Temporary Redirect"),
   (308, "Permanent Redirect"),
   (400, "Bad Request"), (401, "Unauthorized"), (402, "Payment Required"), (403, "Forbidden"),
   (404, "Not Found"), (405, "Method Not Allowed"), (406, "Not Acceptable"),
   (407, "Proxy Authentication Required"), (408, "Request Timeout"), (409, "Conflict"),
   (410, "Gone"), (411, "Length Required"), (412, "Precondition Failed"),
   (413, "Payload Too Large"), (414, "URI Too Long"), (415, "Unsupported Media Type"),
   (416, "Range Not Satisfiable"), (417, "Expectation Failed"), (418, "I'm a teapot"),
   (421, "Misdirected Request"), (422, "Unprocessable Entity"), (423, "Locked"),
   (424, "Failed Dependency"), (425, "Too Early"), (426, "Upgrade Required"),
   (428, "Precondition Required"), (429, "Too Many Requests"),
   (431, "Request Header Fields Too Large"), (451, "Unavailable For Legal Reasons"),
   (500, "Internal Server Error"), (501, "Not Implemented"), (502, "Bad Gateway"),
   (503, "Service Unavailable"), (504, "Gateway Timeout"), (505, "HTTP Version Not Supported"),
   (506, "Variant Also Negotiates"), (507, "Insufficient Storage"), (508, "Loop Detected"),
   (510, "Not Extended"), (511, "Network Authentication Required")]

def statusText (status : Nat) : String :=
  Nat.repr status ++ " " ++ (reasons.lookup status).getD "<unknown status code>"

/-- Whether the request did what it was to do. -/
def isSuccess (r : WebReply) : Bool := 200 ≤ r.status && r.status < 300

/-- Whether the client or the server failed. -/
def isFailure (r : WebReply) : Bool := 400 ≤ r.status && r.status < 600

/-- Whether an answer of this status has a body at all. -/
def hasBody (r : WebReply) : Bool := 200 ≤ r.status && r.status ≠ 204 && r.status ≠ 304

/-- The body that arrives. -/
def text (r : WebReply) : String := if r.hasBody then r.body else ""

def document? (r : WebReply) : Option Json.Document := Json.Document.read? r.text

/-- What a server answers that cannot serve. -/
def unavailable : WebReply := { status := 503, body := "" }

end WebReply

namespace Uri

/-- The text under which an address is requested; nothing is requested under other schemes. -/
def target? (text : String) : Option String :=
  (parse? text).bind fun u =>
    if u.scheme = "http" ∨ u.scheme = "https" then some u.requestText else none

end Uri

/-- The web as an operation meets it. -/
structure Web where
  /-- The answers to the next requests for documents. -/
  gets : List WebReply := []
  /-- The answers to the next forms. -/
  posts : List WebReply := []
  /-- What was sent, the oldest first. -/
  sent : List WebRequest := []
  /-- Whether the operation is asked to give up. -/
  cancelled : Bool := false
  /-- After how many requests the operation is asked to give up, if it is still at it then: at the
  first moment at which it waits. -/
  patience : Option Nat := none
deriving DecidableEq, Repr

namespace Web

/-- Whether an operation that waits is asked to give up. -/
def givesUp (w : Web) : Bool := w.cancelled || w.patience.any (· ≤ w.sent.length)

def post (w : Web) (uri basic body : String) : WebReply × Web :=
  let request : WebRequest := .post uri (some basic) body
  match w.posts with
  | r :: rest => (r, { w with posts := rest, sent := w.sent ++ request :: r.hops })
  | [] => (.unavailable, { w with
      sent := w.sent ++ [request]
      cancelled := w.cancelled || w.patience.isNone })

/-- The first answers, up to the one with which a number of requests was sent. -/
def repliesTo : Nat → List WebReply → List WebReply
  | _, [] => []
  | n, r :: rest =>
    let sent := 1 + r.hops.length
    if n ≤ sent then [r] else r :: repliesTo (n - sent) rest

/-- The answers to requests for documents that come before the operation is asked to give up after
a number of requests. -/
def getsWithin (w : Web) (n : Nat) : List WebReply :=
  repliesTo (n - w.sent.length) (w.gets ++ List.replicate n WebReply.unavailable)

end Web

end Coordination
