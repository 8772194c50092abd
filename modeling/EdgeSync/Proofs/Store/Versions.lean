import EdgeSync.Proofs.Store.WriteBack

/-!
# Versions in One File

The versions of a configuration are written to one file, each by a call of its own, and the calls
may come in any order. The system may refuse any of them; then the file stays as it is. As a
version is written only if the file holds no newer one, the file holds the newest version that the
system has taken so far, and the counter beside it is the number of that version. So if the
system takes every write, the greatest version is in the file in the end, in whatever order the
calls have come.

## Main definitions

- `VersionCall`, `VersionCall.perform`: a call that writes a version, as the system takes it
- `Written.after`: what calls leave, the latest call first
- `FileTree.Holds`: a configuration is in a file
- `KeepsNewest`: what holds of the file, the counter and the answers

## Main results

- `VersionCall.perform_cases`: the three ways of a call
- `Accounts.perform`, `accounts_after`: the counter is the version that the file holds
- `keeps_newest_after`: all of it, for every order of the calls
-/

namespace EdgeSync

/-! ## Files That Hold a Configuration -/

/-- A file holds a configuration: its text is the one that was written, and whoever loads the file
gets the configuration. -/
structure FileTree.Holds (files : FileTree) (path : String) (c : Config) : Prop where
  text : files.readText path = .ok c.prettyText
  loads : Config.load files path = .ok c

theorem FileTree.holds_of_write {files files' : FileTree} {path : String} {c : Config}
    (h : files.write path c.prettyText.toUTF8 = .ok files') : files'.Holds path c :=
  ⟨FileTree.readText_of_write h, Keeping.load_of_write h⟩

namespace ConfigStore

/-! ## Calls -/

/-- A configuration that is to be written as a version, and how the system takes its text. -/
structure VersionCall where
  config : Config
  version : Nat
  system : FileTree → ByteArray → Except FileFault FileTree

namespace VersionCall

/-- The system refuses a text or writes it as it is. -/
def IsFaithful (path : String) (call : VersionCall) : Prop :=
  ∀ files content files', call.system files content = .ok files' →
    files.write path content = .ok files'

/-- What a call answers, and what it leaves. -/
def perform (path : String) (w : Written) (call : VersionCall) : Except WriteFault Bool × Written :=
  writeVersionBy call.system path call.config call.version w

/-- A call that is refused only for what the files are. -/
def plain (path : String) (c : Config) (version : Nat) : VersionCall :=
  ⟨c, version, fun files => files.write path⟩

theorem isFaithful_plain (path : String) (c : Config) (version : Nat) :
    (plain path c version).IsFaithful path :=
  fun _ _ _ h => h

theorem perform_plain (path : String) (w : Written) (c : Config) (version : Nat) :
    (plain path c version).perform path w = writeVersion path c version w :=
  rfl

end VersionCall

/-- What calls leave, the latest call first. -/
def Written.after (path : String) (w : Written) : List VersionCall → Written
  | [] => w
  | call :: earlier => (call.perform path (w.after path earlier)).2

variable {path : String} {files : FileTree} {w : Written} {call : VersionCall}
  {calls earlier : List VersionCall}

/-- A version that is not newer is left out. A newer one is refused by the system, and nothing is
different; or it is in the file from then on. -/
theorem VersionCall.perform_cases (hfaithful : call.IsFaithful path) (w : Written) :
    (call.version ≤ w.version ∧ call.perform path w = (.ok false, w)) ∨
      (w.version < call.version ∧ ∃ fault, call.perform path w = (.error fault, w)) ∨
      (w.version < call.version ∧ ∃ files', files'.Holds path call.config ∧
        call.perform path w = (.ok true, ⟨files', call.version⟩)) := by
  unfold perform writeVersionBy
  by_cases hold : call.version ≤ w.version
  · exact .inl ⟨hold, if_pos hold⟩
  · have hnew := Nat.not_le.mp hold
    rw [if_neg hold]
    cases hsystem : call.system w.files call.config.prettyText.toUTF8 with
    | error fault => exact .inr (.inl ⟨hnew, _, rfl⟩)
    | ok files' =>
      have hwrite := hfaithful _ _ _ hsystem
      exact .inr (.inr ⟨hnew, files', FileTree.holds_of_write hwrite, rfl⟩)

/-! ## The Counter -/

/-- The counter tells what is in the file: nothing that was written as long as it is zero, and
then the configuration of the call with its number. -/
structure Accounts (path : String) (files : FileTree) (calls : List VersionCall) (w : Written) :
    Prop where
  untouched : w.version = 0 → w.files = files
  holds : w.version ≠ 0 → ∃ call ∈ calls, call.version = w.version ∧ w.files.Holds path call.config

theorem Accounts.perform (h : Accounts path files calls w) (hfaithful : call.IsFaithful path) :
    Accounts path files (call :: calls) (call.perform path w).2 := by
  -- A call that writes nothing leaves the file to an earlier one.
  have hkeep : Accounts path files (call :: calls) w := by
    refine ⟨h.untouched, fun hwritten => ?_⟩
    obtain ⟨earlier, hmem, hfile⟩ := h.holds hwritten
    exact ⟨earlier, List.mem_cons_of_mem _ hmem, hfile⟩
  rcases call.perform_cases hfaithful w with
    ⟨-, heq⟩ | ⟨-, fault, heq⟩ | ⟨hnew, files', hholds, heq⟩
  · rw [heq]
    exact hkeep
  · rw [heq]
    exact hkeep
  · rw [heq]
    refine ⟨fun hzero => ?_, fun _ => ⟨call, List.mem_cons_self, rfl, hholds⟩⟩
    have hpos : 0 < call.version := Nat.zero_lt_of_lt hnew
    exact absurd hzero hpos.ne'

theorem accounts_after (hfaithful : ∀ call ∈ calls, call.IsFaithful path) :
    Accounts path files calls ((Written.mk files 0).after path calls) := by
  induction calls with
  | nil => exact ⟨fun _ => rfl, fun hne => absurd rfl hne⟩
  | cons call earlier ih =>
    rw [List.forall_mem_cons] at hfaithful
    exact (ih hfaithful.2).perform hfaithful.1

/-- Every call that the system does not refuse leaves at least its own version. -/
theorem version_le_perform (hfaithful : call.IsFaithful path)
    (hok : ∀ fault, (call.perform path w).1 ≠ .error fault) :
    call.version ≤ (call.perform path w).2.version := by
  rcases call.perform_cases hfaithful w with ⟨hold, heq⟩ | ⟨-, fault, heq⟩ | ⟨-, files', -, heq⟩
  · rw [heq]
    exact hold
  · exact absurd (congrArg Prod.fst heq) (hok fault)
  · rw [heq]

theorem version_mono_perform (hfaithful : call.IsFaithful path) (w : Written) :
    w.version ≤ (call.perform path w).2.version := by
  rcases call.perform_cases hfaithful w with ⟨-, heq⟩ | ⟨-, fault, heq⟩ | ⟨hnew, files', -, heq⟩
  · rw [heq]
  · rw [heq]
  · rw [heq]
    exact hnew.le

/-! ## All Calls -/

/-- The answer to the latest of some calls. -/
def answer (path : String) (files : FileTree) (call : VersionCall) (earlier : List VersionCall) :
    Except WriteFault Bool :=
  (call.perform path ((Written.mk files 0).after path earlier)).1

/-- No call is refused by the system. -/
def Succeed (path : String) (files : FileTree) (calls : List VersionCall) : Prop :=
  ∀ call earlier, call :: earlier <:+ calls → ∀ fault, answer path files call earlier ≠ .error fault

theorem succeed_cons : Succeed path files (call :: earlier) ↔
    (∀ fault, answer path files call earlier ≠ .error fault) ∧ Succeed path files earlier := by
  constructor
  · exact fun h => ⟨h call earlier (List.suffix_refl _), fun other before hsuffix =>
      h other before (hsuffix.trans (List.suffix_cons _ _))⟩
  · rintro ⟨hlast, hearlier⟩ other before hsuffix
    rcases List.suffix_cons_iff.mp hsuffix with heq | hsuffix
    · cases heq
      exact hlast
    · exact hearlier other before hsuffix

theorem succeed_nil : Succeed path files [] :=
  fun _ _ hsuffix => absurd (List.suffix_nil.mp hsuffix) (List.cons_ne_nil _ _)

theorem version_le_after (hfaithful : ∀ call ∈ calls, call.IsFaithful path)
    (hok : Succeed path files calls) :
    ∀ call ∈ calls, call.version ≤ ((Written.mk files 0).after path calls).version := by
  induction calls with
  | nil => exact nofun
  | cons last earlier ih =>
    rw [succeed_cons] at hok
    rw [List.forall_mem_cons] at hfaithful ⊢
    refine ⟨version_le_perform hfaithful.1 hok.1, fun call hcall => ?_⟩
    exact (ih hfaithful.2 hok.2 call hcall).trans (version_mono_perform hfaithful.1 _)

/-- What holds of the file, the counter and the answers, when pairs of a configuration and a
version have been written by some calls. -/
structure KeepsNewest (path : String) (files : FileTree) (pairs : List (Config × Nat))
    (calls : List VersionCall) : Prop where
  /-- No call makes the counter smaller. -/
  grows : ∀ call earlier, call :: earlier <:+ calls →
    ((Written.mk files 0).after path earlier).version ≤
      ((Written.mk files 0).after path (call :: earlier)).version
  /-- As long as it is zero, nothing has been written. -/
  untouched : ∀ earlier, earlier <:+ calls →
    ((Written.mk files 0).after path earlier).version = 0 →
    ((Written.mk files 0).after path earlier).files = files
  /-- From then on it is the version whose configuration the file holds. -/
  holds : ∀ earlier, earlier <:+ calls →
    ((Written.mk files 0).after path earlier).version ≠ 0 →
    ∃ c, (c, ((Written.mk files 0).after path earlier).version) ∈ pairs ∧
      ((Written.mk files 0).after path earlier).files.Holds path c
  /-- A version is left out exactly if a newer one is in the file. -/
  stale : ∀ call earlier, call :: earlier <:+ calls →
    (answer path files call earlier = .ok false ↔
      call.version < ((Written.mk files 0).after path earlier).version)
  /-- A call that does not write, be it left out or refused, leaves the counter and the file. -/
  still : ∀ call earlier, call :: earlier <:+ calls → answer path files call earlier ≠ .ok true →
    (Written.mk files 0).after path (call :: earlier) = (Written.mk files 0).after path earlier
  /-- If none was refused, the greatest version is in the file, whatever the order was. -/
  newest : Succeed path files calls → ∀ c version, (c, version) ∈ pairs →
    (∀ pair ∈ pairs, pair.2 ≤ version) →
    ((Written.mk files 0).after path calls).version = version ∧
      ((Written.mk files 0).after path calls).files.Holds path c

/-- Different calls write different versions, none of which is zero. -/
structure Distinct (calls : List VersionCall) : Prop where
  nodup : (calls.map VersionCall.version).Nodup
  pos : ∀ call ∈ calls, 0 < call.version

/-- The counter before a call is not the version that is to be written. -/
theorem Distinct.version_ne (h : Distinct (call :: earlier))
    (haccounts : Accounts path files earlier w) : w.version ≠ call.version := by
  by_cases hzero : w.version = 0
  · rw [hzero]
    exact (h.pos call List.mem_cons_self).ne
  · obtain ⟨other, hother, hversion, -⟩ := haccounts.holds hzero
    intro heq
    have hmem : call.version ∈ earlier.map VersionCall.version :=
      List.mem_map.mpr ⟨other, hother, hversion.trans heq⟩
    exact (List.nodup_cons.mp h.nodup).1 hmem

/-- A call is left out exactly if the counter is beyond its version. -/
theorem Distinct.answer_stale_iff (h : Distinct (call :: earlier))
    (hfaithful : ∀ other ∈ call :: earlier, other.IsFaithful path) :
    answer path files call earlier = .ok false ↔
      call.version < ((Written.mk files 0).after path earlier).version := by
  rw [List.forall_mem_cons] at hfaithful
  have haccounts : Accounts path files earlier ((Written.mk files 0).after path earlier) :=
    accounts_after hfaithful.2
  have hne := h.version_ne haccounts
  unfold answer
  rcases call.perform_cases hfaithful.1 ((Written.mk files 0).after path earlier) with
    ⟨hold, heq⟩ | ⟨hnew, fault, heq⟩ | ⟨hnew, files', -, heq⟩
  · rw [heq]
    exact iff_of_true rfl (Nat.lt_of_le_of_ne hold hne.symm)
  · rw [heq]
    exact iff_of_false nofun hnew.not_gt
  · rw [heq]
    exact iff_of_false nofun hnew.not_gt

/-- The pairs of a configuration and a version may be written in any order, and the system may
refuse what it will. -/
theorem keeps_newest_after (path : String) (files : FileTree) (pairs : List (Config × Nat))
    (hnodup : (pairs.map Prod.snd).Nodup) (hpos : ∀ pair ∈ pairs, 0 < pair.2)
    (calls : List VersionCall)
    (horder : (calls.map fun call => (call.config, call.version)).Perm pairs)
    (hfaithful : ∀ call ∈ calls, call.IsFaithful path) : KeepsNewest path files pairs calls := by
  have hmem : ∀ call ∈ calls, (call.config, call.version) ∈ pairs := fun call hcall =>
    horder.subset (List.mem_map_of_mem hcall)
  have hdistinct : Distinct calls := by
    refine ⟨?_, fun call hcall => hpos _ (hmem call hcall)⟩
    have hversions := (horder.map Prod.snd).nodup_iff.mpr hnodup
    rwa [List.map_map] at hversions
  -- What holds of all calls holds of the first ones.
  have hearlier : ∀ {earlier}, earlier <:+ calls → Distinct earlier ∧
      ∀ call ∈ earlier, call.IsFaithful path := by
    intro earlier hsuffix
    have hsub := hsuffix.subset
    exact ⟨⟨hdistinct.nodup.sublist (hsuffix.sublist.map _),
      fun call hcall => hdistinct.pos call (hsub hcall)⟩,
      fun call hcall => hfaithful call (hsub hcall)⟩
  refine ⟨?_, ?_, ?_, ?_, ?_, ?_⟩
  · intro call earlier hsuffix
    exact version_mono_perform ((hearlier hsuffix).2 call List.mem_cons_self) _
  · intro earlier hsuffix
    exact (accounts_after (hearlier hsuffix).2).untouched
  · intro earlier hsuffix hwritten
    obtain ⟨call, hcall, hversion, hholds⟩ := (accounts_after (hearlier hsuffix).2).holds hwritten
    exact ⟨call.config, hversion ▸ hmem call (hsuffix.subset hcall), hholds⟩
  · intro call earlier hsuffix
    exact (hearlier hsuffix).1.answer_stale_iff (hearlier hsuffix).2
  · intro call earlier hsuffix hanswer
    have hcall := (hearlier hsuffix).2 call List.mem_cons_self
    rcases call.perform_cases hcall ((Written.mk files 0).after path earlier) with
      ⟨-, heq⟩ | ⟨-, fault, heq⟩ | ⟨-, files', -, heq⟩
    · exact congrArg Prod.snd heq
    · exact congrArg Prod.snd heq
    · exact absurd (congrArg Prod.fst heq) hanswer
  · intro hok c version hpair hgreatest
    have hle := version_le_after hfaithful hok
    obtain ⟨call, hcall, hcallPair⟩ := List.mem_map.mp (horder.symm.subset hpair)
    cases hcallPair
    -- The counter is at least the greatest version, so it is one of the versions.
    have hreached := hle call hcall
    have hwritten : ((Written.mk files 0).after path calls).version ≠ 0 :=
      (Nat.lt_of_lt_of_le (hdistinct.pos call hcall) hreached).ne'
    obtain ⟨last, hlast, hversion, hholds⟩ := (accounts_after hfaithful).holds hwritten
    have hsame : last.version = call.version :=
      Nat.le_antisymm (hgreatest _ (hmem last hlast)) (hversion ▸ hreached)
    obtain rfl : last = call := List.inj_on_of_nodup_map hdistinct.nodup hlast hcall hsame
    exact ⟨hversion.symm, hholds⟩

/-! ## Three Versions -/

/-- A configuration that is known by its registry. -/
def mirroring (registry : String) : Config :=
  { Config.empty with enrollment := ⟨⟨"robot$edge", registry, "s3cr3t"⟩, []⟩ }

/-- Three versions of a configuration. -/
def threeVersions : List (Config × Nat) :=
  [(mirroring "first.example.com", 1), (mirroring "second.example.com", 2),
    (mirroring "third.example.com", 3)]

/-- The second version comes first, then the third one as the system takes it, and the first one
last. -/
def delayed (system : FileTree → ByteArray → Except FileFault FileTree) : List VersionCall :=
  [.plain "a" (mirroring "first.example.com") 1, ⟨mirroring "third.example.com", 3, system⟩,
    .plain "a" (mirroring "second.example.com") 2]

/-- In the file of a configuration a newer version can be written. -/
theorem perform_plain_ofConfig (c d : Config) {version written : Nat} (h : written < version) :
    (VersionCall.plain "a" c version).perform "a" ⟨.ofConfig d, written⟩ =
      (.ok true, ⟨.ofConfig c, version⟩) := by
  rw [VersionCall.perform_plain, writeVersion, writeVersionBy, if_neg (Nat.not_le.mpr h)]
  simp only [FileTree.write_ofConfig]

theorem delayed_perm (system : FileTree → ByteArray → Except FileFault FileTree) :
    ((delayed system).map fun call => (call.config, call.version)).Perm threeVersions :=
  (List.Perm.swap _ _ []).cons _

theorem isFaithful_delayed {system : FileTree → ByteArray → Except FileFault FileTree}
    (hsystem : VersionCall.IsFaithful "a" ⟨mirroring "third.example.com", 3, system⟩) :
    ∀ call ∈ delayed system, call.IsFaithful "a" := by
  simp only [delayed, List.forall_mem_cons]
  exact ⟨VersionCall.isFaithful_plain _ _ _, hsystem, VersionCall.isFaithful_plain _ _ _, nofun⟩

/-- If the third version is taken, the file holds it in the end; if it is refused, the file holds
the second one. The first one is left out. -/
theorem keeps_newest_after_delayed :
    let taken := delayed fun files => files.write "a"
    let refused := delayed fun _ _ => .error .isDirectory
    (threeVersions.map Prod.snd).Nodup ∧ (∀ pair ∈ threeVersions, 0 < pair.2) ∧
      (KeepsNewest "a" (.ofConfig .empty) threeVersions taken ∧
        Succeed "a" (.ofConfig .empty) taken ∧
        (Written.mk (.ofConfig .empty) 0).after "a" taken =
          ⟨.ofConfig (mirroring "third.example.com"), 3⟩) ∧
      KeepsNewest "a" (.ofConfig .empty) threeVersions refused ∧
        (Written.mk (.ofConfig .empty) 0).after "a" refused =
          ⟨.ofConfig (mirroring "second.example.com"), 2⟩ := by
  intro taken refused
  have hnodup : (threeVersions.map Prod.snd).Nodup := by decide
  have hpos : ∀ pair ∈ threeVersions, 0 < pair.2 := by simp [threeVersions]
  have hsecond := perform_plain_ofConfig (mirroring "second.example.com") .empty Nat.two_pos
  have hthird : VersionCall.perform "a" ⟨.ofConfig (mirroring "second.example.com"), 2⟩
      ⟨mirroring "third.example.com", 3, fun files => files.write "a"⟩ = _ :=
    perform_plain_ofConfig (mirroring "third.example.com") (mirroring "second.example.com")
      (Nat.lt_succ_self 2)
  refine ⟨hnodup, hpos, ⟨?_, ?_, ?_⟩, ?_, ?_⟩
  · exact keeps_newest_after "a" _ threeVersions hnodup hpos taken (delayed_perm _)
      (isFaithful_delayed fun _ _ _ h => h)
  · simp only [taken, delayed, succeed_cons, answer, Written.after, hsecond, hthird]
    exact ⟨nofun, nofun, nofun, succeed_nil⟩
  · simp only [taken, delayed, Written.after, hsecond, hthird]
    rfl
  · exact keeps_newest_after "a" _ threeVersions hnodup hpos refused (delayed_perm _)
      (isFaithful_delayed nofun)
  · simp only [refused, delayed, Written.after, hsecond]
    rfl

end ConfigStore

end EdgeSync
