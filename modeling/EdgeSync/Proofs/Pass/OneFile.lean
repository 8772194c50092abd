import EdgeSync.Proofs.Pass.Scenes
import Mathlib

/-!
# Sites With One File

The smallest sites at which a pass finds a snapshot: nothing is there but one file, and the
file holds the document. Passes at such sites can be followed step by step.

## Main definitions

- `Site.holding`: a site with one file
- `oneImage`, `oneImageText`: a snapshot with one artifact, and its document

## Main results

- `Scene.arrival_holding`: the file gives the snapshot of its document
- `Pass.run_compare`: a pass comes to a comparison in three steps
-/

namespace EdgeSync

open EdgeSync.Text

/-! ## The File -/

/-- A site where there is nothing but one file, `a`. -/
def Site.holding (text : String) : Site where
  files := ⟨[(FileTree.workingDirectory ++ ["a"], .file text.toUTF8)]⟩
  network := .bare true
  store := .ofConfig .empty
  broker := .new Broker.defaultCapacity

theorem Site.parse_holding (names : Web.NameForm) (text : String) :
    Locator.parse names (holding text).files "a" = .ok (.file "a") := by
  cbv

theorem Site.read_holding (text : String) : (holding text).files.read "a" = .ok text.toUTF8 := by
  cbv

/-- A document in a file is fetched. -/
theorem fetchFile_of_parse {files : FileTree} {path text : String} {snapshot : Snapshot}
    (hread : files.read path = .ok text.toUTF8)
    (hparse : (Snapshot.parse (Document.ofBytes text.toUTF8)).toOption = some snapshot) :
    fetchFile files path = .ok snapshot := by
  simp only [fetchFile, hread, readSnapshot]
  cases hresult : Snapshot.parse (Document.ofBytes text.toUTF8) with
  | error fault =>
    rw [hresult] at hparse
    cases hparse
  | ok found =>
    rw [hresult] at hparse
    cases hparse
    rfl

/-- A locator of a file gives the snapshot that is fetched. -/
theorem Scene.arrival_file {s : Scene} {locator path : String} {snapshot : Snapshot}
    (hlocator : Locator.parse s.site.network.names s.site.files locator = .ok (.file path))
    (hfetch : fetchFile s.site.files path = .ok snapshot) :
    s.arrival locator = .ok snapshot.prepare := by
  simp only [arrival, hlocator, EdgeSync.fetch, hfetch]
  rfl

/-- The file gives the snapshot of the document that it holds. -/
theorem Scene.arrival_holding {s : Scene} {text : String} {snapshot : Snapshot}
    (hsite : s.site = Site.holding text)
    (hparse : (Snapshot.parse (Document.ofBytes text.toUTF8)).toOption = some snapshot) :
    s.arrival "a" = .ok snapshot.prepare := by
  have hlocator : Locator.parse s.site.network.names s.site.files "a" = .ok (.file "a") := by
    rw [hsite]
    exact Site.parse_holding _ text
  have hread : s.site.files.read "a" = .ok text.toUTF8 := by
    rw [hsite]
    exact Site.read_holding text
  exact arrival_file hlocator (fetchFile_of_parse hread hparse)

/-! ## The First Steps -/

theorem Scene.resolve_file {s : Scene} {locator path : String}
    (h : Locator.parse s.site.network.names s.site.files locator = .ok (.file path)) :
    s.resolve locator = (.ok (.file path), s) := by
  simp only [resolve, h]

theorem Scene.fetch_file {s : Scene} {path : String} {snapshot : Snapshot}
    (h : fetchFile s.site.files path = .ok snapshot) (account : Option Web.Account) :
    s.fetch account (.file path) = (.ok snapshot, s) := by
  simp only [fetch, EdgeSync.fetch, h]

/-- In three steps the next locator is taken up, its source is found and its document is
fetched, if nothing goes wrong. -/
theorem Pass.run_compare {σ : Type} {env : Surroundings σ} {p : Pass} {w : σ} {item : Tracked}
    {rest : List Tracked} (hnext : p.stage = .next) (hwaiting : p.waiting = item :: rest)
    (hlive : env.isCanceled w = false) {source : Locator}
    (hresolve : env.resolve item.locator w = (.ok source, w)) {fetched : Snapshot}
    (hfetch : ∀ account, env.fetch account source w = (.ok fetched, w)) :
    run env 3 p w = (({ p with waiting := rest }).moveTo (compare item fetched), w) := by
  simp only [run, step_next env p item w hnext hwaiting hlive, step_resolve, hresolve, follow,
    step_fetch env _ item w source hlive, hfetch]

/-! ## Documents -/

/-- A snapshot with one artifact. -/
def oneImage (digest : String) : Snapshot :=
  ⟨"", [⟨"", "a", ["1"], [], "", digest, false⟩]⟩

/-- The document that holds such a snapshot. -/
def oneImageText (digest : String) : String :=
  "\x7b\"artifacts\":[\x7b\"name\":\"a\",\"tags\":[\"1\"],\"digest\":\"" ++ digest ++ "\"\x7d]\x7d"

theorem parse_oneImageText :
    (Snapshot.parse (Document.ofBytes (oneImageText "d1").toUTF8)).toOption =
      some (oneImage "d1") := by
  decide +kernel

end EdgeSync
