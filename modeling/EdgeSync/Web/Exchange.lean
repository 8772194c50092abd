import EdgeSync.Text.Document
import EdgeSync.Web.Base64
import EdgeSync.Web.Status
import EdgeSync.Web.Url

/-!
# Requests and Replies

A request asks for the document at an address. Who answers is a web of routes: a
route gives a reply for an address, may insist on an account, and may send the client
on to another address. Where no route is, or the web cannot be reached at all, there
is no answer.

## Main definitions

- `Network`: the routes, and the requests that have come in
- `WebFault`: why there is no response
- `Network.follow`: go where the replies send the client
- `Network.get`, `Network.getText`: ask for a document
-/

namespace EdgeSync.Web

open EdgeSync.Text

/-! ## Records -/

/-- What a route replies. `next` is the address that a reply names for the client to go on. -/
structure Reply where
  status : Nat
  body : Document
  needsAccount : Bool
  next : Option Url
  deriving DecidableEq, Repr

/-- A request as it comes in. -/
structure Request where
  url : String
  authorization : Option String
  deriving DecidableEq, Repr

/-- What a request is answered. -/
structure Response where
  status : Nat
  body : Document
  deriving DecidableEq, Repr

/-- An account for a request. -/
structure Account where
  username : String
  password : String
  deriving DecidableEq, Repr

/-- The routes by the texts of their addresses, the requests that have come in, whether
requests come in at all, and the ASCII forms of names. -/
structure Network where
  routes : List (String × Reply)
  requests : List Request
  isReachable : Bool
  names : NameForm

/-- A web without routes, for names in ASCII. -/
def Network.bare (isReachable : Bool) : Network :=
  ⟨[], [], isReachable, asciiOnly⟩

/-- Why there is no response. -/
inductive WebFault where
  | badAddress
  | badScheme (url : String)
  | noAnswer (url : String)
  | tooManyHops (url : String)
  deriving DecidableEq, Repr

/-- The wording of a fault. -/
def WebFault.message : WebFault → String
  | badAddress => "builder error"
  | badScheme url => "builder error for url (" ++ url ++ ")"
  | noAnswer url => "error sending request for url (" ++ url ++ ")"
  | tooManyHops url => "error following redirect for url (" ++ url ++ ")"

/-! ## Accounts -/

/-- The header that an account becomes. -/
def Account.header (a : Account) : String :=
  "Basic " ++ String.ofList (base64 (a.username ++ ":" ++ a.password).toUTF8.toList)

/-- The account in an address, if there is one and it encodes a text. -/
def Url.account? (u : Url) : Option Account :=
  if !u.hasHost then none
  else do
    let username ← unescapeText? u.userInfo.username
    let password := unescapeText? u.userInfo.password
    if username.isEmpty && (u.userInfo.password.isEmpty || password.isNone) then none
    else some ⟨username, password.getD ""⟩

/-- An address without the account that goes into the header instead. -/
def Url.withoutAccount (u : Url) : Url :=
  if u.account?.isSome then u.withoutUserInfo else u

/-! ## Exchanges -/

namespace Network

/-- Add a route, or replace the one that is there. -/
def route (n : Network) (url : String) (reply : Reply) : Network :=
  { n with routes := (url, reply) :: n.routes.filter fun entry => entry.1 != url }

/-- The reply of the route for an address. -/
def reply? (n : Network) (url : String) : Option Reply :=
  (n.routes.find? fun entry => entry.1 == url).map (·.2)

/-- The response to a request that has come in. -/
def respond (n : Network) (r : Request) : Option Response :=
  (n.reply? r.url).map fun reply =>
    ⟨if reply.needsAccount && r.authorization.isNone then 401 else reply.status, reply.body⟩

/-- Where the response to a request sends the client on. -/
def sentOn? (n : Network) (r : Request) : Option Url := do
  let reply ← n.reply? r.url
  let response ← n.respond r
  if isRedirection response.status then reply.next else none

/-- Ask for the document at an address once: the answer, and the request if it comes in. -/
def ask (n : Network) (url : Url) (header : Option String) :
    Except WebFault Response × Option Request :=
  if !(url.isWeb && url.hasHost) then (.error (.badScheme url.text), none)
  else if !n.isReachable then (.error (.noAnswer url.text), none)
  else
    let request : Request := ⟨url.withoutFragment.text, header⟩
    ((n.respond request).elim (.error (.noAnswer url.text)) .ok, some request)

/-- How often a client lets itself be sent on. -/
def maxHops : Nat := 10

/-- Ask for the document at an address and go on where the replies send the client: the
answer at the end, and the requests. Another server does not see the account. -/
def follow (n : Network) : Nat → Url → Option String → Except WebFault Response × List Request
  | 0, url, header =>
    let asked := n.ask url header
    (if (asked.2.bind n.sentOn?).isSome then .error (.tooManyHops url.text) else asked.1,
      asked.2.toList)
  | hops + 1, url, header =>
    let asked := n.ask url header
    match asked.2.bind n.sentOn? with
    | none => (asked.1, asked.2.toList)
    | some next =>
      let onward := n.follow hops next (if url.isSameServer next then header else none)
      (onward.1, asked.2.toList ++ onward.2)

/-- Ask for the document at an address. -/
def get (n : Network) (url : Url) (account : Option Account) :
    Except WebFault Response × Network :=
  let header := (url.account?.or account).map Account.header
  let trail := n.follow maxHops url.withoutAccount header
  (trail.1, { n with requests := n.requests ++ trail.2 })

/-- Ask for the document at the address that a text means. -/
def getText (n : Network) (address : String) : Except WebFault Response × Network :=
  match Url.parse? n.names address with
  | none => (.error .badAddress, n)
  | some url => n.get url none

end Network

end EdgeSync.Web
