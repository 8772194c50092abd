import EdgeSync.Model.ConfigFile
import EdgeSync.Model.Snapshot
import EdgeSync.Proofs.Json.Restoring

/-!
# Written Records Are Read Back

What the agent writes of a record it reads as that record again. The members that are left
out when they are empty are no exception: an absent field keeps the empty value it has at the
start.

## Main results

- `restores_artifact`, …, `restores_config`: every spelling of a record is read as that record
- `records_read_back`: the texts that are written are read as what they were written of
-/

namespace EdgeSync

open EdgeSync.Json EdgeSync.Json.Reader EdgeSync.Text

/-! ## Artifacts and Snapshots -/

theorem restores_texts (texts : List String) :
    (list text).Restores (.list (texts.map .text)) texts :=
  restores_list fun s _ => restores_text s

theorem restores_artifact (a : Artifact) : Artifact.reader.Restores a.toJson a := by
  refine Shape.restores_object (by decide) ?_
  refine .optional (restores_text a.repository) ?_
  refine .optional (restores_text a.name) ?_
  refine .optional ((restores_texts a.tags).orNull nofun []) ?_
  refine .optional ((restores_texts a.labels).orNull nofun []) ?_
  refine .optional (restores_text a.kind) ?_
  refine .optional (restores_text a.digest) ?_
  refine .optional (restores_flag a.deleted) ?_
  exact .done a

theorem restores_snapshot (s : Snapshot) : Snapshot.reader.Restores s.toJson s := by
  have hartifacts : (list Artifact.reader).Restores (.list (s.artifacts.map Artifact.toJson))
      s.artifacts := restores_list fun a _ => restores_artifact a
  refine Shape.restores_object (by decide) ?_
  refine .optional (restores_text s.registry) ?_
  refine .optional (hartifacts.orNull nofun []) ?_
  exact .done s

/-! ## Enrollments -/

/-- A text that is left out when it is empty. -/
theorem fills_textMember {σ : Type} {key value : String} {set : String → σ → σ} {a b : σ}
    (hempty : set "" a = a) {fields : List (Json.Field σ)} {members : List (String × Value)}
    (hmembers : Shape.Fills fields members (set value a) b) :
    Shape.Fills (.optional key text set :: fields) (Auth.textMember key value ++ members) a b := by
  by_cases hvalue : value = ""
  · subst hvalue
    rw [hempty] at hmembers
    exact .omitted rfl hmembers
  · rw [Auth.textMember, if_neg (by simpa using hvalue)]
    exact .optional (restores_text value) hmembers

theorem restores_auth (a : Auth) : Auth.reader.Restores a.toJson a := by
  refine Shape.restores_object (by decide) ?_
  rw [List.append_assoc]
  refine fills_textMember rfl ?_
  refine fills_textMember rfl ?_
  rw [← List.append_nil (Auth.textMember "secret" a.secret)]
  refine fills_textMember rfl ?_
  exact .done a

theorem restores_enrollment (e : Enrollment) : Enrollment.reader.Restores e.toJson e := by
  refine Shape.restores_object (by decide) ?_
  refine .optional (restores_auth e.auth) ?_
  obtain ⟨auth, states⟩ := e
  cases states with
  | nil => exact .omitted rfl (.done _)
  | cons url urls => exact .optional ((restores_texts (url :: urls)).orNull nofun []) (.done _)

/-! ## Notices -/

theorem restores_locatorUpdate (u : LocatorUpdate) :
    LocatorUpdate.reader.Restores u.toJson u := by
  refine Shape.restores_object (by decide) ?_
  refine .optional (restores_texts u.states) ?_
  exact .done u

/-- Every number of a task is within the limit of the numbers that are read. -/
theorem restores_taskId (id : TaskId) : TaskId.reader.Restores id.toJson id := by
  have hlimit : id.number.toNat ≤ maxNatural := Nat.le_of_lt_succ id.number.toNat_lt
  have hid : TaskId.mk (UInt64.ofNat id.number.toNat) = id := by
    rw [UInt64.ofNat_toNat]
  have hread := (restores_natural hlimit).map fun n => TaskId.mk (UInt64.ofNat n)
  rw [hid] at hread
  exact hread

theorem restores_stopRequest (r : StopRequest) : StopRequest.reader.Restores r.toJson r := by
  refine Shape.restores_object (by decide) ?_
  refine .needed (restores_text r.name) ?_
  refine .needed (restores_taskId r.id) ?_
  exact .done r

/-! ## Configurations -/

theorem restores_job (j : Job) : Job.reader.Restores j.toJson j := by
  refine Shape.restores_object (by decide) ?_
  refine .needed (restores_text j.name) ?_
  refine .needed (restores_text j.schedule) ?_
  exact .done j

theorem restores_settings (s : Settings) : Settings.reader.Restores s.toJson s := by
  refine Shape.restores_object (by decide) ?_
  refine .optional (restores_flag s.bringOwnRegistry) ?_
  refine .optional (restores_text s.groundControlUrl) ?_
  refine .optional (restores_text s.logLevel) ?_
  refine .optional (restores_text s.ownRegistryAddr) ?_
  refine .optional (restores_text s.ownRegistryPort) ?_
  refine .optional (restores_flag s.useUnsecure) ?_
  refine .optional (restores_text s.zotConfigPath) ?_
  refine .optional (restores_text s.token) ?_
  refine .optional (restores_list fun j _ => restores_job j) ?_
  exact .done s

theorem restores_config (c : Config) : Config.reader.Restores c.toJson c := by
  refine Shape.restores_object (by decide) ?_
  refine .optional (restores_enrollment c.enrollment) ?_
  refine .optional (restores_settings c.settings) ?_
  refine .optional (restores_text c.zotUrl) ?_
  exact .done c

/-! ## Texts -/

theorem read_compact {α : Type} {reader : Reader α} {v : Value} {a : α}
    (h : reader.Restores v a) : reader.readAll (Document.ofString v.compact) = .ok a :=
  readAll_of_restores h (spells_writeCompact v)

theorem read_pretty {α : Type} {reader : Reader α} {v : Value} {a : α}
    (h : reader.Restores v a) : reader.readAll (Document.ofString v.pretty) = .ok a :=
  readAll_of_restores h (spells_writePretty 0 v)

/-- Reading undoes writing: of a configuration written over several lines, and of every record
written compactly, whatever its texts, lists and numbers are. -/
theorem records_read_back :
    (∀ c : Config, Config.parseText c.prettyText = .ok c) ∧
      (∀ a : Artifact, Artifact.reader.readAll (Document.ofString a.toJson.compact) = .ok a) ∧
      (∀ s : Snapshot, Snapshot.reader.readAll (Document.ofString s.toJson.compact) = .ok s) ∧
      (∀ a : Auth, Auth.reader.readAll (Document.ofString a.toJson.compact) = .ok a) ∧
      (∀ e : Enrollment,
        Enrollment.reader.readAll (Document.ofString e.toJson.compact) = .ok e) ∧
      (∀ j : Job, Job.reader.readAll (Document.ofString j.toJson.compact) = .ok j) ∧
      (∀ u : LocatorUpdate,
        LocatorUpdate.reader.readAll (Document.ofString u.toJson.compact) = .ok u) ∧
      ∀ r : StopRequest,
        StopRequest.reader.readAll (Document.ofString r.toJson.compact) = .ok r := by
  refine ⟨?config, fun a => read_compact (restores_artifact a),
    fun s => read_compact (restores_snapshot s), fun a => read_compact (restores_auth a),
    fun e => read_compact (restores_enrollment e), fun j => read_compact (restores_job j),
    fun u => read_compact (restores_locatorUpdate u),
    fun r => read_compact (restores_stopRequest r)⟩
  case config =>
    intro c
    have hparse : Config.parse (Document.ofString c.prettyText) = .ok c :=
      read_pretty (restores_config c)
    rw [Config.parseText, hparse]

end EdgeSync
