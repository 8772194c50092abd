import EdgeSync.Proofs.Json.Edits
import EdgeSync.Proofs.Json.RoundTrip

/-!
# Variants of Documents

A control plane may put members in another order, add members that the agent knows nothing of,
and leave out a list that has no items or put it as null. The agent reads such a document as the
same record. Only the key of a member that is added must be a text: half of a surrogate pair is
no character, and an object with such a key is refused.

## Main definitions

- `Artifact.layout`, …, `Config.layout`: where records and lenient lists are
- `Variants`: documents that differ by edits and by the gaps between lexemes

## Main results

- `follows_artifact`, …, `follows_config`: the readers of records follow edits by their layouts
- `variants_read_alike`: variants are read as the same record, or none of them is
-/

namespace EdgeSync

open EdgeSync.Json EdgeSync.Text

/-! ## Layouts -/

/-- The names in an artifact, and what is read there. -/
def Artifact.entries : List (String × Layout) :=
  [("repository", .plain), ("name", .plain), ("tags", .lenient .plain),
   ("labels", .lenient .plain), ("type", .plain), ("digest", .plain), ("deleted", .plain)]

/-- The layout of an artifact. -/
def Artifact.layout : Layout :=
  .record Artifact.entries

/-- The layout of a snapshot. -/
def Snapshot.layout : Layout :=
  .record [("registry", .plain), ("artifacts", .lenient Artifact.layout)]

/-- The layout of an account. -/
def Auth.layout : Layout :=
  .record [("name", .plain), ("registry", .plain), ("secret", .plain)]

/-- The layout of an enrollment. -/
def Enrollment.layout : Layout :=
  .record [("auth", Auth.layout), ("states", .lenient .plain)]

/-- The layout of a job. -/
def Job.layout : Layout :=
  .record [("name", .plain), ("cron_expression", .plain)]

/-- The layout of settings. -/
def Settings.layout : Layout :=
  .record
    [("bring_own_registry", .plain), ("ground_control_url", .plain), ("log_level", .plain),
     ("own_registry_addr", .plain), ("own_registry_port", .plain), ("use_unsecure", .plain),
     ("zot_config_path", .plain), ("token", .plain), ("jobs", .list Job.layout)]

/-- The layout of a configuration. -/
def Config.layout : Layout :=
  .record
    [("state_config", Enrollment.layout), ("environment_variables", Settings.layout),
     ("zot_url", .plain)]

/-! ## Readers of Records -/

theorem follows_text : Reader.text.Follows .plain :=
  Reader.makes_text.steady.follows_plain

theorem follows_flag : Reader.flag.Follows .plain :=
  Reader.makes_flag.steady.follows_plain

theorem artifact_fields_follow :
    List.Forall₂ (Field.Follows Artifact.empty) Artifact.shape.fields Artifact.entries := by
  refine .cons (Field.follows_map follows_text nofun) ?_
  refine .cons (Field.follows_map follows_text nofun) ?_
  refine .cons (Field.follows_lenient follows_text rfl) ?_
  refine .cons (Field.follows_lenient follows_text rfl) ?_
  refine .cons (Field.follows_map follows_text nofun) ?_
  refine .cons (Field.follows_map follows_text nofun) ?_
  exact .cons (Field.follows_map follows_flag nofun) .nil

theorem follows_artifact : Artifact.reader.Follows Artifact.layout := by
  refine Shape.follows_record artifact_fields_follow (by decide) ?_
  simp [Artifact.shape, Field.optional, Field.commute_map]

theorem follows_snapshot : Snapshot.reader.Follows Snapshot.layout := by
  refine Shape.follows_record ?fields (by decide) ?commute
  case fields =>
    refine .cons (Field.follows_map follows_text nofun) ?_
    exact .cons (Field.follows_lenient follows_artifact rfl) .nil
  case commute => simp [Snapshot.shape, Field.optional, Field.commute_map]

theorem follows_auth : Auth.reader.Follows Auth.layout := by
  refine Shape.follows_record ?fields (by decide) ?commute
  case fields =>
    refine .cons (Field.follows_map follows_text nofun) ?_
    refine .cons (Field.follows_map follows_text nofun) ?_
    exact .cons (Field.follows_map follows_text nofun) .nil
  case commute => simp [Auth.shape, Field.optional, Field.commute_map]

theorem follows_enrollment : Enrollment.reader.Follows Enrollment.layout := by
  refine Shape.follows_record ?fields (by decide) ?commute
  case fields =>
    refine .cons (Field.follows_map follows_auth nofun) ?_
    exact .cons (Field.follows_lenient follows_text rfl) .nil
  case commute => simp [Enrollment.shape, Field.optional, Field.commute_map]

theorem follows_job : Job.reader.Follows Job.layout := by
  refine Shape.follows_record ?fields (by decide) ?commute
  case fields =>
    refine .cons (Field.follows_map follows_text nofun) ?_
    exact .cons (Field.follows_map follows_text nofun) .nil
  case commute => simp [Job.shape, Field.needed, Field.commute_map]

theorem follows_settings : Settings.reader.Follows Settings.layout := by
  refine Shape.follows_record ?fields (by decide) ?commute
  case fields =>
    refine .cons (Field.follows_map follows_flag nofun) ?_
    refine .cons (Field.follows_map follows_text nofun) ?_
    refine .cons (Field.follows_map follows_text nofun) ?_
    refine .cons (Field.follows_map follows_text nofun) ?_
    refine .cons (Field.follows_map follows_text nofun) ?_
    refine .cons (Field.follows_map follows_flag nofun) ?_
    refine .cons (Field.follows_map follows_text nofun) ?_
    refine .cons (Field.follows_map follows_text nofun) ?_
    exact .cons (Field.follows_map (Reader.follows_list follows_job) nofun) .nil
  case commute => simp [Settings.shape, Field.optional, Field.commute_map]

theorem follows_config : Config.reader.Follows Config.layout := by
  refine Shape.follows_record ?fields (by decide) ?commute
  case fields =>
    refine .cons (Field.follows_map follows_enrollment nofun) ?_
    refine .cons (Field.follows_map follows_settings nofun) ?_
    exact .cons (Field.follows_map follows_text nofun) .nil
  case commute => simp [Config.shape, Field.optional, Field.commute_map]

/-! ## Variants -/

/-- Documents of trees between which there are only edits, with any gaps between lexemes. -/
def Variants (layout : Layout) (d d' : Document) : Prop :=
  ∃ t t', t.IsDocument d ∧ t'.IsDocument d' ∧ Relation.EqvGen (Edit layout) t t'

/-- A reader that follows edits takes the same from variants. -/
theorem readAll_variants {α : Type} {reader : Reader α} {layout : Layout}
    (h : reader.Follows layout) {d d' : Document} (hvariants : Variants layout d d') (a : α) :
    reader.readAll d = .ok a ↔ reader.readAll d' = .ok a := by
  obtain ⟨t, t', hd, hd', hedits⟩ := hvariants
  rw [h.steady.readAll_iff hd, h.steady.readAll_iff hd']
  exact h.edits hedits a

/-- Snapshots, artifacts, enrollments and configurations are read alike from variants: whatever
the order of the members of their records is, at any depth, whatever members with other names
there are, whatever stands in the gaps, and whether a list without items that may be missing is
missing, null or there. -/
theorem variants_read_alike {d d' : Document} :
    (Variants Snapshot.layout d d' →
      ∀ s, Snapshot.parse d = .ok s ↔ Snapshot.parse d' = .ok s) ∧
    (Variants Artifact.layout d d' →
      ∀ a, Artifact.reader.readAll d = .ok a ↔ Artifact.reader.readAll d' = .ok a) ∧
    (Variants Enrollment.layout d d' →
      ∀ e, Enrollment.reader.readAll d = .ok e ↔ Enrollment.reader.readAll d' = .ok e) ∧
    (Variants Config.layout d d' →
      ∀ c, Config.parse d = .ok c ↔ Config.parse d' = .ok c) :=
  ⟨readAll_variants follows_snapshot, readAll_variants follows_artifact,
    readAll_variants follows_enrollment, readAll_variants follows_config⟩

/-- A document without members, and one with a member that no field is named after. -/
theorem variants_new {fields : List (String × Layout)} (h : "new" ∉ fields.map Prod.fst) :
    Variants (.record fields) (.ofString "\x7b\x7d") (.ofString "\x7b\"new\": [null]\x7d") := by
  have hnull : (Tree.list [.null]).Writes ['[', 'n', 'u', 'l', 'l', ']'] :=
    .list (.item (.first isGap_nil) .null (.close false isGap_nil))
  have hnew := Tree.Writes.object (.member (Body.ofText "new") (.first isGap_nil) isGap_nil
    isGap_blank hnull (.close false isGap_nil))
  exact ⟨.object [], _, Tree.isDocument_write _, ⟨[], _, [], isGap_nil, hnew, isGap_nil, rfl⟩,
    .rel _ _ (@Edit.insert _ [] [] _ _ _ (Body.says_ofText "new") h)⟩

/-- An enrollment whose account is written in another order, with null for its locators. -/
theorem variants_enrollment :
    Variants Enrollment.layout
      (.ofString "\x7b\"auth\":\x7b\"name\":\"sat\",\"registry\":\"r\"\x7d\x7d")
      (.ofString
        "\x7b\"states\":null,\"auth\":\x7b\"registry\":\"r\",\"name\":\"sat\"\x7d\x7d") := by
  let name := (Body.ofText "name", Tree.text (.ofText "sat"))
  let registry := (Body.ofText "registry", Tree.text (.ofText "r"))
  let auth := (Body.ofText "auth", Tree.object [registry, name])
  refine ⟨.object [(.ofText "auth", .object [name, registry])],
    .object [(.ofText "states", .null), auth],
    Tree.isDocument_write _, Tree.isDocument_write _, ?_⟩
  have hswap : Edit Auth.layout (.object [name, registry]) (.object [registry, name]) :=
    .permute (.swap _ _ _)
  have hauth : Edit Enrollment.layout (.object [(.ofText "auth", .object [name, registry])])
      (.object [auth]) :=
    @Edit.member _ [] [] _ _ _ _ _ (Body.says_ofText "auth") (.head _) hswap
  have habsent : ∀ m ∈ [auth], ¬ m.1.Says "states" := by
    intro m hm hsaid
    obtain rfl := List.mem_singleton.mp hm
    exact absurd (hsaid.unique (Body.says_ofText "auth")) (by decide)
  have hstates : Edit Enrollment.layout (.object [auth])
      (.object [(.ofText "states", .null), auth]) :=
    @Edit.fill _ [] _ _ _ .plain _ (Body.says_ofText "states") (.tail _ (.head _)) habsent
      (Or.inl rfl)
  exact .trans _ _ _ (.rel _ _ hauth) (.rel _ _ hstates)

/-- A member that is new leaves three kinds of records empty; an enrollment that is put in another
way is the same. -/
theorem variants_read_alike_new :
    Snapshot.parse (.ofString "\x7b\"new\": [null]\x7d") = .ok .empty ∧
      Artifact.reader.readAll (.ofString "\x7b\"new\": [null]\x7d") = .ok .empty ∧
      Config.parse (.ofString "\x7b\"new\": [null]\x7d") = .ok .empty ∧
      Enrollment.reader.readAll (.ofString
        "\x7b\"states\":null,\"auth\":\x7b\"registry\":\"r\",\"name\":\"sat\"\x7d\x7d") =
          .ok ⟨⟨"sat", "r", ""⟩, []⟩ := by
  have hempty : (Tree.object []).IsDocument (.ofString "\x7b\x7d") := Tree.isDocument_write _
  have hsnapshot : Snapshot.parse (.ofString "\x7b\x7d") = .ok .empty :=
    (follows_snapshot.steady.readAll_iff hempty).mpr (Shape.takes_object_nil (by decide) _)
  have hartifact : Artifact.reader.readAll (.ofString "\x7b\x7d") = .ok .empty :=
    (follows_artifact.steady.readAll_iff hempty).mpr (Shape.takes_object_nil (by decide) _)
  have hconfig : Config.parse (.ofString "\x7b\x7d") = .ok .empty :=
    (follows_config.steady.readAll_iff hempty).mpr (Shape.takes_object_nil (by decide) _)
  have henrollment := read_compact (restores_enrollment ⟨⟨"sat", "r", ""⟩, []⟩)
  exact ⟨(variants_read_alike.1 (variants_new (by decide)) _).mp hsnapshot,
    (variants_read_alike.2.1 (variants_new (by decide)) _).mp hartifact,
    (variants_read_alike.2.2.2 (variants_new (by decide)) _).mp hconfig,
    (variants_read_alike.2.2.1 variants_enrollment _).mp henrollment⟩

/-! ## Keys That Are No Texts -/

/-- The first half of a surrogate pair, without the other half. -/
def halfPair : Body :=
  ⟨['\\', 'u', 'd', '8', '0', '0'], .code rfl rfl rfl rfl .nil⟩

/-- Zero as it is written. -/
def zeroNumeral : Numeral :=
  ⟨['0'], .positive (.parts .zero .none .none)⟩

/-- An object without members is an artifact, but not if a member with half of a surrogate pair
for its key is added: such a key is no text, and no field is named after it. -/
theorem halfPair_key_refused :
    (∀ name, ¬ halfPair.Says name) ∧ (Tree.object []).IsDocument (.ofString "\x7b\x7d") ∧
      Artifact.reader.readAll (.ofString "\x7b\x7d") = .ok .empty ∧
      (Tree.object [(halfPair, .number zeroNumeral)]).IsDocument
        (.ofString "\x7b\"\\ud800\":0\x7d") ∧
      ∀ a, Artifact.reader.readAll (.ofString "\x7b\"\\ud800\":0\x7d") ≠ .ok a := by
  have hempty : (Tree.object []).IsDocument (.ofString "\x7b\x7d") := Tree.isDocument_write _
  have hkey : (Tree.object [(halfPair, .number zeroNumeral)]).IsDocument
      (.ofString "\x7b\"\\ud800\":0\x7d") :=
    Tree.isDocument_write _
  have hfault : scanEscape (glyphs ['u', 'd', '8', '0', '0', '"']) = .error .halfSurrogatePair :=
    rfl
  have hnone : ∀ name, ¬ halfPair.Says name := fun name hsaid =>
    nomatch (scanText_escape_error hfault).symm.trans (hsaid [])
  refine ⟨hnone, hempty, (follows_artifact.steady.readAll_iff hempty).mpr
    (Shape.takes_object_nil (by decide) _), hkey, ?_⟩
  intro a hread
  have hmakes := Shape.makes_record (Shape.steady_fields artifact_fields_follow) Artifact.empty
  have htakes := hmakes.takes_iff.mp ((follows_artifact.steady.readAll_iff hkey).mp hread)
  obtain ⟨names, hmembers, -⟩ := Shape.takes_object_iff.mp htakes
  obtain ⟨name, hsaid⟩ := hmembers.exists_name _ (.head _)
  exact hnone name hsaid

end EdgeSync
