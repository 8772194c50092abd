import EdgeSync.Proofs.Files.Writing
import EdgeSync.Proofs.Json.RoundTrip
import EdgeSync.Proofs.Store.Repair
import EdgeSync.Store.ConfigStore
import Mathlib

/-!
# Writing the Configuration Back

A store that was loaded from a file writes every new enrollment back to it. The file then holds
what the store holds: the configuration that was loaded and checked, with the new enrollment.
Whoever loads the file again gets this configuration, and of the warnings those again that are
of jobs without a default schedule, as all other jobs have been repaired.

A registry that is replaced for the time being never comes to the file, since the next
enrollment replaces it in the store, too. Between two changes of the store others may do
anything with the files.

## Main definitions

- `Keeping`, `Keeping.Deed`, `Keeping.after`: a store and its files, and what is done with them
- `ConfigStore.Keeps`: what is left of a loaded configuration

## Main results

- `ConfigStore.enroll_cases`: what becomes of an enrollment
- `Keeping.keeps_after`: what is left after any deeds
- `Keeping.reload_after_enroll`: an enrollment that is written back can be loaded again
-/

namespace EdgeSync

/-! ## Stores and Their Files -/

/-- A store and the files around it. -/
structure Keeping where
  store : ConfigStore
  files : FileTree

namespace Keeping

/-- What is done with a store or with the files around it. -/
inductive Deed where
  | setRegistry (url : String)
  | enroll (e : Enrollment)
  | others (files : FileTree)

/-- What comes of a deed. -/
def perform (k : Keeping) : Deed → Keeping
  | .setRegistry url => { k with store := k.store.setRemoteRegistryUrl url }
  | .enroll e =>
    let (store, files, _) := k.store.enroll k.files e
    { store, files }
  | .others files => { k with files }

/-- What comes of some deeds. -/
def after (k : Keeping) (deeds : List Deed) : Keeping :=
  deeds.foldl perform k

end Keeping

/-! ## What Is Left of a Loaded Configuration -/

namespace ConfigStore

/-- A store over a file still has all of a configuration but the enrollment, and its file does
not hold a version that is yet to come. -/
structure Keeps (path : String) (loaded : Config) (s : ConfigStore) : Prop where
  path : s.path = some path
  settings : s.config.settings = loaded.settings
  zotUrl : s.config.zotUrl = loaded.zotUrl
  written : s.written ≤ s.version

variable {path : String} {loaded : Config} {s : ConfigStore}

/-- What a store has when it is loaded. -/
theorem load_eq_ok {files : FileTree} {warnings : List JobWarning}
    (h : load files path = .ok (s, warnings)) :
    ∃ c, Config.load files path = .ok c ∧ s = ⟨c.checkJobs.1, 0, 0, some path⟩ ∧
      warnings = c.checkJobs.2 := by
  unfold load at h
  split at h
  · cases h
  · next c hc =>
    cases h
    exact ⟨c, hc, rfl, rfl⟩

theorem Keeps.setRegistry (h : s.Keeps path loaded) (url : String) :
    (s.setRemoteRegistryUrl url).Keeps path loaded :=
  ⟨h.path, h.settings, h.zotUrl, Nat.le_succ_of_le h.written⟩

theorem Keeps.config_enrolled (h : s.Keeps path loaded) (e : Enrollment) :
    { s.config with enrollment := e } = { loaded with enrollment := e } := by
  simp only [h.settings, h.zotUrl]

/-- An enrollment is stored. Its version is the newest one, so it is written unless the system
refuses to write. -/
theorem enroll_cases (h : s.Keeps path loaded) (files : FileTree) (e : Enrollment) :
    let next : ConfigStore :=
      { s with config := { loaded with enrollment := e }, version := s.version + 1 }
    (∃ fault, files.write path next.config.prettyText.toUTF8 = .error fault ∧
      s.enroll files e = (next, files, some ⟨path, fault⟩)) ∨
    (∃ files', files.write path next.config.prettyText.toUTF8 = .ok files' ∧
      s.enroll files e = ({ next with written := next.version }, files', none)) := by
  intro next
  have hnext : s.update (fun c => { c with enrollment := e }) = next := by
    rw [update, h.config_enrolled e]
  have hnew : ¬ next.version ≤ next.written := Nat.not_le.mpr (Nat.lt_succ_of_le h.written)
  obtain ⟨config, version, written, place⟩ := s
  obtain rfl : place = some path := h.path
  simp only [enroll, hnext, next, writeVersion, writeVersionBy, if_neg hnew]
  cases files.write path (Config.prettyText { loaded with enrollment := e }).toUTF8 with
  | error fault => exact .inl ⟨fault, rfl, rfl⟩
  | ok files' => exact .inr ⟨files', rfl, rfl⟩

theorem Keeps.enroll (h : s.Keeps path loaded) (files : FileTree) (e : Enrollment) :
    (s.enroll files e).1.Keeps path loaded := by
  rcases enroll_cases h files e with ⟨fault, -, heq⟩ | ⟨files', -, heq⟩
  · rw [heq]
    exact ⟨h.path, rfl, rfl, Nat.le_succ_of_le h.written⟩
  · rw [heq]
    exact ⟨h.path, rfl, rfl, Nat.le_refl _⟩

end ConfigStore

namespace Keeping

variable {path : String} {loaded : Config}

theorem keeps_perform {k : Keeping} (h : k.store.Keeps path loaded) (deed : Deed) :
    (k.perform deed).store.Keeps path loaded := by
  cases deed with
  | setRegistry url => exact h.setRegistry url
  | enroll e => exact h.enroll k.files e
  | others files => exact h

/-- Whatever is done, all of a configuration but the enrollment is left. -/
theorem keeps_after {k : Keeping} (h : k.store.Keeps path loaded) (deeds : List Deed) :
    (k.after deeds).store.Keeps path loaded := by
  induction deeds generalizing k with
  | nil => exact h
  | cons deed deeds ih => exact ih (keeps_perform h deed)

/-- A store that was loaded keeps what was loaded and checked. -/
theorem keeps_loaded {files : FileTree} {s : ConfigStore} {warnings : List JobWarning}
    (h : ConfigStore.load files path = .ok (s, warnings)) (deeds : List Deed) :
    ((mk s files).after deeds).store.Keeps path s.config := by
  obtain ⟨c, -, rfl, -⟩ := ConfigStore.load_eq_ok h
  have hloaded : ConfigStore.Keeps path c.checkJobs.1 ⟨c.checkJobs.1, 0, 0, some path⟩ :=
    ⟨rfl, rfl, rfl, Nat.le_refl 0⟩
  exact keeps_after hloaded deeds

/-! ## Loading Again -/

/-- A configuration that is written to a file can be loaded from it. -/
theorem load_of_write {files files' : FileTree} {c : Config}
    (h : files.write path c.prettyText.toUTF8 = .ok files') : Config.load files' path = .ok c := by
  have hparse : Config.parse (Text.Document.ofString c.prettyText) = .ok c :=
    read_pretty (restores_config c)
  simp only [Config.load, FileTree.isFile_of_write h, FileTree.readText_of_write h,
    Config.parseText, hparse]

/-- A store over a file was loaded, and after any deeds it gets an enrollment that is written to
the file. Then the file holds what the store holds, namely the configuration that was loaded and
checked, with this enrollment. When the file is loaded again, a second store has the same
configuration, and the warnings are those of the first time that are of jobs without a default
schedule. -/
theorem reload_after_enroll {files : FileTree} {path : String} {s : ConfigStore}
    {warnings : List JobWarning} (hload : ConfigStore.load files path = .ok (s, warnings))
    (deeds : List Deed) (e : Enrollment) {s' : ConfigStore} {files' : FileTree}
    (henroll : ((mk s files).after deeds).store.enroll ((mk s files).after deeds).files e =
      (s', files', none)) :
    ∃ c, Config.load files path = .ok c ∧
      s'.config = { c.checkJobs.1 with enrollment := e } ∧
      Config.load files' path = .ok s'.config ∧
      ConfigStore.load files' path = .ok (⟨s'.config, 0, 0, some path⟩,
        warnings.filter fun w => (Job.defaultSchedule? w.job.name).isNone) := by
  have hkeeps := keeps_loaded hload deeds
  obtain ⟨c, hc, rfl, rfl⟩ := ConfigStore.load_eq_ok hload
  refine ⟨c, hc, ?_⟩
  rcases ConfigStore.enroll_cases hkeeps ((mk _ files).after deeds).files e with
    ⟨fault, -, heq⟩ | ⟨written, hwrite, heq⟩
  · -- The write has not failed.
    cases heq.symm.trans henroll
  · cases heq.symm.trans henroll
    have hfile : Config.load files' path = .ok { c.checkJobs.1 with enrollment := e } :=
      load_of_write hwrite
    refine ⟨rfl, hfile, ?_⟩
    -- The second check finds the jobs as the first one has left them.
    simp only [ConfigStore.load, hfile, Config.checkJobs_enrolled, Config.checkJobs_checkJobs]

end Keeping

/-! ## A Configuration in a File -/

/-- Files where there is nothing but a configuration, at `a`. -/
def FileTree.ofConfig (c : Config) : FileTree :=
  ⟨[(workingDirectory ++ ["a"], .file c.prettyText.toUTF8)]⟩

/-- The file of the configuration can be replaced by that of another one. -/
theorem FileTree.write_ofConfig (c d : Config) :
    (ofConfig c).write "a" d.prettyText.toUTF8 = .ok (ofConfig d) := by
  unfold ofConfig
  generalize c.prettyText.toUTF8 = old
  generalize d.prettyText.toUTF8 = new
  cbv

namespace ConfigStore

theorem load_ofConfig (c : Config) :
    load (.ofConfig c) "a" =
      .ok (⟨c.checkJobs.1, 0, 0, some "a"⟩, c.checkJobs.2) := by
  have hfile := Keeping.load_of_write (FileTree.write_ofConfig c c)
  simp only [load, hfile]

theorem enroll_ofConfig {loaded : Config} {s : ConfigStore} (h : s.Keeps "a" loaded)
    (c : Config) (e : Enrollment) :
    ∃ s', s.enroll (.ofConfig c) e = (s', .ofConfig { loaded with enrollment := e }, none) := by
  have hwrite := FileTree.write_ofConfig c { loaded with enrollment := e }
  rcases enroll_cases h (.ofConfig c) e with ⟨fault, hfault, -⟩ | ⟨files, hfiles, heq⟩
  · cases hfault.symm.trans hwrite
  · cases hfiles.symm.trans hwrite
    exact ⟨_, heq⟩

end ConfigStore

namespace Keeping

/-- Of three jobs, one has a good schedule, one is well known and has a faulty one, and one is
neither well known nor good. -/
def threeJobs : Config :=
  { Config.empty with
    settings := { Settings.empty with
      jobs := [⟨Job.replicateState, "@every 00h01m00s"⟩, ⟨Job.updateConfig, "nonsense"⟩,
        ⟨"custom", "also nonsense"⟩] } }

/-- The enrollment that comes first. -/
def earlierEnrollment : Enrollment :=
  ⟨⟨"robot$edge", "harbor.example.com", "s3cr3t"⟩, ["state.json"]⟩

/-- The first time there are warnings of two jobs. After an enrollment, another registry for the
time being and the next enrollment, there is a warning of one. -/
theorem reload_after_enroll_threeJobs :
    let s : ConfigStore := ⟨threeJobs.checkJobs.1, 0, 0, some "a"⟩
    let k := (mk s (.ofConfig threeJobs)).after
      [.enroll earlierEnrollment, .setRegistry "mirror.example.com"]
    ConfigStore.load (.ofConfig threeJobs) "a" = .ok (s, threeJobs.checkJobs.2) ∧
      threeJobs.checkJobs.2.map (·.job.name) = [Job.updateConfig, "custom"] ∧
      ∃ s' files', k.store.enroll k.files .empty = (s', files', none) ∧
        ∃ c, Config.load (.ofConfig threeJobs) "a" = .ok c ∧
          s'.config = { c.checkJobs.1 with enrollment := .empty } ∧
          Config.load files' "a" = .ok s'.config ∧
          ConfigStore.load files' "a" = .ok (⟨s'.config, 0, 0, some "a"⟩,
            threeJobs.checkJobs.2.filter fun w => (Job.defaultSchedule? w.job.name).isNone) := by
  intro s k
  have hload := ConfigStore.load_ofConfig threeJobs
  have hkeeps : ∀ deeds, ((mk s (.ofConfig threeJobs)).after deeds).store.Keeps "a" s.config :=
    keeps_loaded hload
  obtain ⟨first, hfirst⟩ := ConfigStore.enroll_ofConfig (hkeeps []) threeJobs earlierEnrollment
  have hk : k.files = .ofConfig { s.config with enrollment := earlierEnrollment } := by
    have hsecond := congrArg (fun answer => answer.2.1) hfirst
    exact hsecond
  obtain ⟨last, hlast⟩ := ConfigStore.enroll_ofConfig
    (hkeeps [.enroll earlierEnrollment, .setRegistry "mirror.example.com"])
    { s.config with enrollment := earlierEnrollment } .empty
  rw [← hk] at hlast
  refine ⟨hload, by decide +kernel, last, _, hlast, ?_⟩
  exact reload_after_enroll hload
    [.enroll earlierEnrollment, .setRegistry "mirror.example.com"] .empty hlast

end Keeping

end EdgeSync
