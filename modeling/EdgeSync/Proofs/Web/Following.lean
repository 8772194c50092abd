import EdgeSync.Sync.Fetch
import Mathlib.Data.List.Chain

/-!
# Where Requests Go

A client that asks for a document may be sent on from one address to the next. Its first request
goes to the address that was asked for, and each later one to the address that the reply to the
request before names. The answer depends on the routes and on whether requests come in; the
requests that came in before do not matter.

## Main definitions

- `Network.SendsOn`: one request is followed by another one
- `Network.Kept`: what stays of a network when requests come in

## Main results

- `Network.follow_requests`: where the requests go
- `Network.get_eq`: what the answer depends on
-/

namespace EdgeSync

namespace Web.Network

variable {m n : Network}

/-! ## Requests -/

/-- The reply to a request sends the client on, and the next request goes there. -/
def SendsOn (n : Network) (r r' : Request) : Prop :=
  ∃ next, n.sentOn? r = some next ∧ r'.url = next.withoutFragment.text

theorem ask_request {url : Url} {header : Option String} {r : Request}
    (h : (n.ask url header).2 = some r) : r = ⟨url.withoutFragment.text, header⟩ := by
  unfold ask at h
  split at h
  · cases h
  · split at h
    · cases h
    · exact (Option.some.inj h).symm

/-- An address with a host is asked for if requests come in. -/
theorem ask_of_isReachable {url : Url} (hweb : url.isWeb = true) (hhost : url.hasHost = true)
    (hreachable : n.isReachable = true) (header : Option String) :
    (n.ask url header).2 = some ⟨url.withoutFragment.text, header⟩ := by
  simp [ask, hweb, hhost, hreachable]

/-- The first request is the one to the address that is asked for, and each later one goes where
the reply to the one before sends the client. -/
theorem follow_requests (n : Network) (hops : Nat) (url : Url) (header : Option String) :
    (n.follow hops url header).2.head? = (n.ask url header).2 ∧
      List.IsChain n.SendsOn (n.follow hops url header).2 := by
  induction hops generalizing url header with
  | zero =>
    simp only [follow]
    cases (n.ask url header).2 with
    | none => exact ⟨rfl, .nil⟩
    | some r => exact ⟨rfl, .singleton r⟩
  | succ hops ih =>
    simp only [follow]
    cases hasked : (n.ask url header).2 with
    | none => exact ⟨rfl, .nil⟩
    | some r =>
      cases hsent : n.sentOn? r with
      | none =>
        simp only [Option.bind_some, hsent]
        exact ⟨rfl, .singleton r⟩
      | some next =>
        simp only [Option.bind_some, hsent, Option.toList_some, List.singleton_append]
        obtain ⟨hhead, hchain⟩ := ih next (if url.isSameServer next then header else none)
        refine ⟨rfl, List.isChain_cons.mpr ⟨fun r' hr' => ⟨next, hsent, ?_⟩, hchain⟩⟩
        rw [hhead] at hr'
        rw [ask_request hr']

/-! ## Answers -/

/-- Where a client is sent depends on the routes, and on whether requests come in. -/
theorem follow_eq (hroutes : n.routes = m.routes) (hreachable : n.isReachable = m.isReachable)
    (hops : Nat) (url : Url) (header : Option String) :
    n.follow hops url header = m.follow hops url header := by
  have hrespond : ∀ r, n.respond r = m.respond r := by
    intro r
    rw [respond, respond, reply?, reply?, hroutes]
  have hsentOn : n.sentOn? = m.sentOn? := by
    funext r
    rw [sentOn?, sentOn?, hrespond, reply?, reply?, hroutes]
  have hask : ∀ url header, n.ask url header = m.ask url header := by
    intro url header
    simp only [ask, hreachable, hrespond]
  induction hops generalizing url header with
  | zero => simp only [follow, hask, hsentOn]
  | succ hops ih => simp only [follow, hask, hsentOn, ih]

theorem get_eq (hroutes : n.routes = m.routes) (hreachable : n.isReachable = m.isReachable)
    (url : Url) (account : Option Account) : (n.get url account).1 = (m.get url account).1 := by
  rw [get, get, follow_eq hroutes hreachable]

/-- What stays of a network when requests come in. -/
structure Kept (m n : Network) : Prop where
  routes : n.routes = m.routes
  isReachable : n.isReachable = m.isReachable
  names : n.names = m.names

theorem get_kept (n : Network) (url : Url) (account : Option Account) :
    Kept n (n.get url account).2 :=
  ⟨rfl, rfl, rfl⟩

end Web.Network

theorem fetch_kept (files : FileTree) (network : Web.Network) (account : Option Web.Account)
    (source : Locator) : network.Kept (fetch files network account source).2 := by
  cases source with
  | file path => exact ⟨rfl, rfl, rfl⟩
  | web url => exact network.get_kept url account

end EdgeSync
