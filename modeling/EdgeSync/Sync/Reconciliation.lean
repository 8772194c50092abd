import EdgeSync.Event.Follower
import EdgeSync.Sync.Pass
import EdgeSync.Sync.Replica
import EdgeSync.Sync.Site

/-!
# Reconciliation

A pass of the reconciler at a site: locators are resolved and fetched from the
files and the network of the site, the replica notes its calls and acts on its
cues, and snapshots are remembered by the reconciler.

## Main definitions

- `Scene`: the site, the reconciler and the replica
- `Scene.surroundings`: what the steps of a pass do at a scene
- `Scene.execute`: a whole pass
- `Scene.listen`: follow the events that are there
-/

namespace EdgeSync

open EdgeSync.Web

/-- A site with the reconciler and the replica: the calls so far, the cues, and whether
the scope is canceled. -/
structure Scene where
  site : Site
  reconciler : Reconciler
  calls : List ReplicaCall
  cues : List Cue
  isCanceled : Bool

namespace Scene

/-- A scene at the beginning. -/
def new (site : Site) (reconciler : Reconciler) : Scene :=
  ⟨site, reconciler, [], [], false⟩

/-! ## The replica -/

/-- What a cue does to the scene. -/
def act (s : Scene) : CueAction → Scene
  | .fail _ => s
  | .cancel => { s with isCanceled := true }
  | .cancelAndHang => { s with isCanceled := true }
  | .setLocators locators => { s with reconciler := s.reconciler.setLocators locators }

/-- Follow the cues of a call in their order, up to one that ends it. -/
def follow (failure : String → SyncFault) (s : Scene) :
    List Cue → Except SyncFault Unit × Scene
  | [] => (.ok (), s)
  | cue :: rest =>
    match cue.action with
    | .fail reason => (.error (failure reason), s)
    | .cancelAndHang => (.error .canceled, s.act cue.action)
    | action => (s.act action).follow failure rest

/-- Note a call and follow its cues. -/
def call (failure : String → SyncFault) (c : ReplicaCall) (s : Scene) :
    Except SyncFault Unit × Scene :=
  { s with calls := s.calls ++ [c] }.follow failure
    (s.cues.filter fun cue => cue.kind == c.kind)

/-! ## Steps -/

/-- Find the source of a locator. The registry at an address of the web becomes the
one that artifacts come from. -/
def resolve (locator : String) (s : Scene) : Except SyncFault Locator × Scene :=
  match Locator.parse s.site.network.names s.site.files locator with
  | .error fault => (.error (.invalidLocator locator fault), s)
  | .ok (.file path) => (.ok (.file path), s)
  | .ok (.web url) =>
    (.ok (.web url),
      { s with site := { s.site with
        store := s.site.store.setRemoteRegistryUrl (registryAddress url.text) } })

/-- Fetch a snapshot. -/
def fetch (account : Option Account) (source : Locator) (s : Scene) :
    Except SyncFault Snapshot × Scene :=
  let (answer, network) := EdgeSync.fetch s.site.files s.site.network account source
  (answer, { s with site := { s.site with network } })

/-- What the steps of a pass do at a scene. A notice that fails has no effect. -/
def surroundings : Surroundings Scene where
  isCanceled s := s.isCanceled
  resolve := resolve
  fetch := fetch
  delete artifacts := call .replication (.delete artifacts)
  replicate artifacts := call .replication (.replicate artifacts)
  commit locator snapshot s :=
    { s with reconciler := s.reconciler.commit locator snapshot }
  notify s := (s.call .notification .notify).2

/-- A whole pass of the reconciler. -/
def execute (s : Scene) : Outcome × Scene :=
  Pass.complete surroundings s.reconciler s

/-! ## Listening -/

/-- Let the reconciler follow the events that are there. -/
def listen (s : Scene) (listener : Follower) : Follower × Scene :=
  let (deliveries, listener, broker) := listener.drain s.site.broker
  (listener,
    { s with
      site := { s.site with broker }
      reconciler := (deliveries.map Delivery.event).foldl Reconciler.heed s.reconciler })

end Scene

end EdgeSync
