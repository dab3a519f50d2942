import FsImage.Rpm.TempRepos
import FsImage.Python.PosixPath

/-! Where `make_repo_steps` leaves the RPMs of a repo, and `Repo.locations`.

A repo that step `i` sets to a `Repo` gets the directory `out_dir/i/<name>`,
whose package directory `<name>-pkgs` holds one entry per RPM: the file
`build_rpm` writes, a copy of the file built for it before, or a symlink
`../../../<path>` to that file. `Repo.locations(name, arch)` gives the paths,
relative to the repo's directory, that the tests read these RPMs from. When
`build_rpm` names its files as `rpmbuild` does for the spec `Rpm.spec`
writes, `createrepo_c` writes only below `repodata`, no two RPMs of one repo
share a file name and the history names only repo names, each location names
a file with its RPM's contents at the end of the run, symlinks followed. The
last two conditions are needed: two RPMs of one repo that differ only in
`override_contents` or `test_post_install` are built to one file, and the
second overwrites the first; and aliases whose names are paths can lead the
step's `dnf.conf` onto an RPM (`overwriteSteps`).
-/

set_option autoImplicit false

namespace FsImage.Rpm.Tests

open FsImage.Python FsImage.Python.PosixPath

/-- `Repo.locations(repo_name, arch)`. -/
def Repo.locations (repo : Repo) (repoName arch : Str) : List Str :=
  repo.rpms.map fun r =>
    repoName ++ "-pkgs/rpm-test-".toList ++ r.name ++ ['-'] ++ r.version ++ ['-'] ++ r.release ++ ['.'] ++ arch ++
      ".rpm".toList

/-- The file `rpmbuild` writes for the spec `Rpm.spec` makes, whose package
is `rpm-test-{name}`: `%{name}-%{version}-%{release}.%{arch}.rpm`. -/
def rpmFileName (arch : Str) (rpm : Rpm) : Str :=
  "rpm-test-".toList ++ rpm.name ++ ['-'] ++ rpm.version ++ ['-'] ++ rpm.release ++ ['.'] ++ arch ++ ".rpm".toList

/-- What a repo the history sets needs for its locations: a clean name, and
RPMs whose files `build_rpm` names as `rpmbuild` does, with no `/` in their
names, versions and releases, and no two of them the same file. -/
def RepoLocatable (builders : Builders) (arch repoName : Str) : RepoChange → Prop
  | .repo repo => Clean repoName ∧ (repo.rpms.map fun rpm => (builders.buildRpm rpm).1).Nodup ∧
      ∀ rpm ∈ repo.rpms, (builders.buildRpm rpm).1 = rpmFileName arch rpm ∧
        '/' ∉ rpm.name ∧ '/' ∉ rpm.version ∧ '/' ∉ rpm.release
  | .alias _ | .delete => True

instance (builders : Builders) (arch repoName : Str) :
    (change : RepoChange) → Decidable (RepoLocatable builders arch repoName change)
  | .repo _ => inferInstanceAs (Decidable (_ ∧ _ ∧ _))
  | .alias _ | .delete => inferInstanceAs (Decidable True)

/-- Every repo a history sets is locatable. -/
def Locatable (builders : Builders) (arch : Str) (steps : List (Dict Str RepoChange)) : Prop :=
  ∀ changes ∈ steps, ∀ entry ∈ changes.items, RepoLocatable builders arch entry.1 entry.2

instance (builders : Builders) (arch : Str) (steps : List (Dict Str RepoChange)) :
    Decidable (Locatable builders arch steps) :=
  inferInstanceAs (Decidable (∀ changes ∈ steps, ∀ entry ∈ changes.items, RepoLocatable builders arch entry.1 entry.2))

/-- Where `make_repo_steps` puts an RPM of the repo `repoName` that step
`stepI` sets: `stepI/repoName/repoName-pkgs/<file>`. -/
def rpmPath (builders : Builders) (stepI : Nat) (repoName : Str) (rpm : Rpm) : List Str :=
  [stepName stepI, repoName, repoName ++ "-pkgs".toList, (builders.buildRpm rpm).1]

/-! ## Names -/

theorem mem_toDigits (n : Nat) (c : Char) (member : c ∈ Nat.toDigits 10 n) : ∃ m < 10, c = Nat.digitChar m := by
  induction n using Nat.strong_induction_on with
  | _ n ih =>
    rcases Nat.lt_or_ge n 10 with small | large
    · rw [toDigits_small n small, List.mem_singleton] at member
      exact ⟨n, small, member⟩
    · rw [toDigits_large n large, List.mem_append, List.mem_singleton] at member
      rcases member with higher | lowest
      exacts [ih (n / 10) (by omega) higher, ⟨n % 10, Nat.mod_lt n (by decide), lowest⟩]

/-- `str(i)` is a clean name. -/
theorem stepName_clean (i : Nat) : Clean (stepName i) := by
  have digits : ∀ c ∈ stepName i, c ≠ '/' ∧ c ≠ '.' := fun c member => by
    obtain ⟨m, small, rfl⟩ := mem_toDigits i c member
    have all : ∀ m : Fin 10, Nat.digitChar m ≠ '/' ∧ Nat.digitChar m ≠ '.' := by decide
    exact all ⟨m, small⟩
  refine ⟨toDigits_ne_nil i, fun dot => ?_, fun dots => ?_, fun slash => (digits '/' slash).1 rfl⟩
  · exact (digits '.' (by rw [dot]; exact List.mem_singleton_self _)).2 rfl
  · exact (digits '.' (by rw [dots]; exact List.mem_cons_self _ _)).2 rfl

theorem rpmFileName_clean (arch : Str) (rpm : Rpm) (archFree : '/' ∉ arch) (nameFree : '/' ∉ rpm.name)
    (versionFree : '/' ∉ rpm.version) (releaseFree : '/' ∉ rpm.release) : Clean (rpmFileName arch rpm) := by
  refine ⟨by simp [rpmFileName], by simp [rpmFileName], by simp [rpmFileName], ?_⟩
  simp [rpmFileName, archFree, nameFree, versionFree, releaseFree]

/-- A location is the package directory and the file, as one relative path. -/
theorem split_location (repoName arch : Str) (rpm : Rpm) (nameFree : '/' ∉ repoName)
    (fileFree : '/' ∉ rpmFileName arch rpm) :
    split '/' (repoName ++ "-pkgs/rpm-test-".toList ++ rpm.name ++ ['-'] ++ rpm.version ++ ['-'] ++ rpm.release ++
        ['.'] ++ arch ++ ".rpm".toList) = [repoName ++ "-pkgs".toList, rpmFileName arch rpm] := by
  have joined : repoName ++ "-pkgs/rpm-test-".toList ++ rpm.name ++ ['-'] ++ rpm.version ++ ['-'] ++ rpm.release ++
      ['.'] ++ arch ++ ".rpm".toList = (repoName ++ "-pkgs".toList) ++ '/' :: rpmFileName arch rpm := by
    simp [rpmFileName]
  rw [joined, split_append _ _ _ (by simpa using nameFree), split_of_not_mem _ _ fileFree]

/-- The target `'../../..' / prev_path` of a link three directories down
names `prev_path`. -/
theorem linkTarget_climb (link dest : List Str) (depth : link.length = 4) (clean : ∀ c ∈ dest, Clean c) :
    FileTree.linkTarget link (join '/' (["..", "..", ".."].map String.toList ++ dest)) = some dest := by
  obtain ⟨a, b, c, d, rfl⟩ : ∃ a b c d, link = [a, b, c, d] := by
    match link, depth with
    | [a, b, c, d], _ => exact ⟨a, b, c, d, rfl⟩
  have down : ∀ (names dir : List Str), (∀ c ∈ names, Clean c) →
      names.foldlM (fun dir comp =>
        if comp = ['.', '.'] then (if dir = [] then none else some dir.dropLast)
        else if comp = [] ∨ comp = ['.'] then some dir
        else some (dir ++ [comp])) dir = some (dir ++ names) := by
    intro names
    induction names with
    | nil => simp
    | cons name rest ih =>
      intro dir clean
      have here := clean name (List.mem_cons_self _ _)
      rw [List.foldlM_cons, if_neg here.2.2.1, if_neg (by rintro (empty | dot); exacts [here.1 empty, here.2.1 dot])]
      simpa using ih (dir ++ [name]) fun c member => clean c (List.mem_cons_of_mem _ member)
  have free : ∀ part ∈ ["..", "..", ".."].map String.toList ++ dest, '/' ∉ part := fun part member => by
    rcases List.mem_append.mp member with climbing | below
    · simp only [List.map_cons, List.map_nil, List.mem_cons, List.not_mem_nil, or_false] at climbing
      rcases climbing with rfl | rfl | rfl <;> decide
    · exact (clean part below).2.2.2
  rw [FileTree.linkTarget, split_join _ _ (by simp) free, List.foldlM_append]
  simpa using down dest [] clean

/-! ## What the run keeps -/

/-- `rpm_to_path` only grows: an RPM keeps the path it was first built at. -/
def Grows (before after : Dict Rpm (List Str)) : Prop :=
  ∀ rpm path, before.get? rpm = some path → after.get? rpm = some path

theorem Grows.trans {first second third : Dict Rpm (List Str)} (early : Grows first second)
    (late : Grows second third) : Grows first third := fun rpm path found => late rpm path (early rpm path found)

section Kept

variable (builders : Builders)

/-- Where `rpm_to_path` says an RPM was built: four clean names ending in the
file `build_rpm` names, no symlink on the way, and a file with the RPM's
contents. -/
def Stored (tree : FileTree) (rpmToPath : Dict Rpm (List Str)) : Prop :=
  ∀ rpm path, rpmToPath.get? rpm = some path →
    path.length = 4 ∧ (∀ c ∈ path, Clean c) ∧ path.getLast? = some (builders.buildRpm rpm).1 ∧
      tree.NoLinkOn path ∧ tree.nodeAt path = some (.file (builders.buildRpm rpm).2)

/-- An RPM's entry in a package directory: no symlink on the way to it, and
there a file with the RPM's contents or a symlink to where it was built. -/
def Placed (tree : FileTree) (rpmToPath : Dict Rpm (List Str)) (path : List Str) (rpm : Rpm) : Prop :=
  tree.NoLinkOn path.dropLast ∧
    (tree.nodeAt path = some (.file (builders.buildRpm rpm).2) ∨
      ∃ prevPath, rpmToPath.get? rpm = some prevPath ∧
        tree.nodeAt path = some (.symlink (join '/' (["..", "..", ".."].map String.toList ++ prevPath))))

variable {builders}

theorem Stored.keep {before after : FileTree} {rpmToPath : Dict Rpm (List Str)}
    (stored : Stored builders before rpmToPath)
    (along : ∀ rpm path, rpmToPath.get? rpm = some path → FileTree.SameAlong before after path) :
    Stored builders after rpmToPath := fun rpm path found => by
  obtain ⟨length, clean, last, plain, file⟩ := stored rpm path found
  have along := along rpm path found
  exact ⟨length, clean, last, along.noLinkOn plain, (along path (List.prefix_refl _)).trans file⟩

/-- Writes below a directory that was fresh keep every RPM where it was built. -/
theorem Stored.within {dir : List Str} {before after : FileTree} {rpmToPath : Dict Rpm (List Str)}
    (stored : Stored builders before rpmToPath) (writes : FileTree.Within dir before after)
    (fresh : FileTree.Fresh dir before) : Stored builders after rpmToPath :=
  stored.keep fun rpm path found => writes.sameAlong fun ⟨rest, below⟩ => by
    have file := (stored rpm path found).2.2.2.2
    rw [← below, fresh rest] at file
    cases file

/-- So does a write to a path of four names that held nothing. -/
theorem Stored.put {tree : FileTree} {rpmToPath : Dict Rpm (List Str)} (stored : Stored builders tree rpmToPath)
    (written : List Str) (node : Node) (absent : tree.nodeAt written = none) (length : written.length = 4) :
    Stored builders (tree.put written node) rpmToPath :=
  stored.keep fun rpm path found => (FileTree.within_put tree written node (List.prefix_refl _)).sameAlong
    fun below => by
      obtain ⟨pathLength, -, -, -, file⟩ := stored rpm path found
      rw [below.eq_of_length (by rw [length, pathLength]), file] at absent
      cases absent

/-- And a write of a node that is no symlink at a path of another length, as
the step's `dnf.conf` and `yum.conf`. -/
theorem Stored.putPlain {tree : FileTree} {rpmToPath : Dict Rpm (List Str)} (stored : Stored builders tree rpmToPath)
    (written : List Str) {node : Node} (notLink : node.isSymlink = false) (length : written.length ≠ 4) :
    Stored builders (tree.put written node) rpmToPath := fun rpm path found => by
  obtain ⟨pathLength, clean, last, plain, file⟩ := stored rpm path found
  refine ⟨pathLength, clean, last, plain.put written notLink, ?_⟩
  rw [FileTree.nodeAt_put_of_ne _ _ _ _ (by rintro rfl; exact length pathLength), file]

theorem Placed.keep {before after : FileTree} {rpmToPath rpmToPath' : Dict Rpm (List Str)} {path : List Str}
    {rpm : Rpm} (placed : Placed builders before rpmToPath path rpm) (along : FileTree.SameAlong before after path)
    (grows : Grows rpmToPath rpmToPath') : Placed builders after rpmToPath' path rpm := by
  obtain ⟨plain, file | ⟨prevPath, found, linked⟩⟩ := placed
  · exact ⟨(along.mono (List.dropLast_prefix path)).noLinkOn plain, .inl ((along path (List.prefix_refl _)).trans file)⟩
  · exact ⟨(along.mono (List.dropLast_prefix path)).noLinkOn plain,
      .inr ⟨prevPath, grows rpm prevPath found, (along path (List.prefix_refl _)).trans linked⟩⟩

theorem Placed.putPlain {tree : FileTree} {rpmToPath : Dict Rpm (List Str)} {path : List Str} {rpm : Rpm}
    (placed : Placed builders tree rpmToPath path rpm) (written : List Str) {node : Node}
    (notLink : node.isSymlink = false) (differ : path ≠ written) : Placed builders (tree.put written node) rpmToPath path rpm := by
  obtain ⟨plain, kept⟩ := placed
  rw [Placed, FileTree.nodeAt_put_of_ne _ _ _ _ differ]
  exact ⟨plain.put written notLink, kept⟩

/-- A placed RPM names, symlinks followed, a file with its contents. -/
theorem Placed.target {tree : FileTree} {rpmToPath : Dict Rpm (List Str)} {path : List Str} {rpm : Rpm}
    (stored : Stored builders tree rpmToPath) (placed : Placed builders tree rpmToPath path rpm)
    (length : path.length = 4) : tree.target path = some (.file (builders.buildRpm rpm).2) := by
  obtain ⟨front, name, rfl⟩ := (List.eq_nil_or_concat path).resolve_left (by rintro rfl; cases length)
  rw [List.concat_eq_append] at length placed ⊢
  obtain ⟨plain, file | ⟨prevPath, found, linked⟩⟩ := placed
  · have whole := plain.snoc fun node lookup => by rw [file] at lookup; cases lookup; rfl
    rw [FileTree.target_plain _ _ whole (by rw [length]; decide), file]
  · obtain ⟨prevLength, clean, -, prevPlain, prevFile⟩ := stored rpm prevPath found
    rw [List.dropLast_concat] at plain
    rw [FileTree.target_link tree front name _ prevPath plain linked (linkTarget_climb _ _ length clean) prevPlain
      (by simp only [List.length_append, List.length_singleton] at length; rw [prevLength, FileTree.resolveFuel]; omega),
      prevFile]

end Kept

/-! ## The repos of a step -/

/-- Entries of a step's dict for other names leave a name's repo alone. -/
theorem applyChanges_other (repos next : Dict Str RepoValue) (changes : Dict Str RepoChange) (repoName : Str)
    (absent : repoName ∉ changes.keys) (ok : applyChanges repos changes = .ok next) :
    next.get? repoName = repos.get? repoName := by
  obtain ⟨items, nodup⟩ := changes
  unfold applyChanges at ok
  simp only [Dict.keys] at absent ok
  clear nodup
  induction items generalizing repos with
  | nil => cases ok; rfl
  | cons head rest ih =>
    rw [List.map_cons, List.mem_cons, not_or] at absent
    rw [List.foldlM_cons] at ok
    obtain ⟨mid, first, later⟩ := (Py.bind_eq_ok _ _ _).1 ok
    rw [ih mid absent.2 later]
    obtain ⟨name, change⟩ := head
    have differ : repoName ≠ name := absent.1
    rcases change with repo | target | _
    · cases first; rw [Dict.get?_set, if_neg differ]
    · cases first; rw [Dict.get?_set, if_neg differ]
    · simp only [Dict.pop] at first
      split at first
      · cases first
        rw [Dict.get?_filterKeys, if_pos (by simpa using differ)]
      · cases first

/-- What an entry of a step's dict leaves for its name: the `Repo` or the
alias it sets, or nothing for `None`. -/
def RepoChange.value : RepoChange → Option RepoValue
  | .repo set => some (.repo set)
  | .alias target => some (.alias target)
  | .delete => none

/-- The loop at the top of a step leaves each name of the step's dict at what
its entry sets. -/
theorem applyChanges_get (repos next : Dict Str RepoValue) (changes : Dict Str RepoChange) (repoName : Str)
    (change : RepoChange) (ok : applyChanges repos changes = .ok next) (member : (repoName, change) ∈ changes.items) :
    next.get? repoName = change.value := by
  obtain ⟨items, nodup⟩ := changes
  induction items generalizing repos with
  | nil => cases member
  | cons head rest ih =>
    have restNodup := (List.nodup_cons.mp nodup).2
    unfold applyChanges at ok
    rw [List.foldlM_cons] at ok
    obtain ⟨mid, first, later⟩ := (Py.bind_eq_ok _ _ _).1 ok
    rcases List.mem_cons.mp member with rfl | inRest
    · rw [applyChanges_other mid next ⟨rest, restNodup⟩ repoName (List.nodup_cons.mp nodup).1 later]
      rcases change with repo | target | _
      · cases first; rw [Dict.get?_set, if_pos rfl]; rfl
      · cases first; rw [Dict.get?_set, if_pos rfl]; rfl
      · simp only [Dict.pop] at first
        split at first
        · cases first
          rw [Dict.get?_filterKeys, if_neg (by simp)]
          rfl
        · cases first
    · exact ih mid restNodup later inRest

/-- An entry of the repos after a step's changes that the step sets to a
`Repo` is one of the step's entries. -/
theorem applyChanges_set_repo (repos next : Dict Str RepoValue) (changes : Dict Str RepoChange)
    (ok : applyChanges repos changes = .ok next) (entry : Str × RepoValue) (member : entry ∈ next.items)
    (changed : changes.contains entry.1 = true) (repo : Repo) (isRepo : entry.2 = .repo repo) :
    (entry.1, .repo repo) ∈ changes.items := by
  obtain ⟨change, inChanges⟩ := (changes.contains_iff_mem entry.1).mp changed
  have value := applyChanges_get repos next changes _ change ok inChanges
  rw [next.get?_of_mem entry.1 entry.2 member, isRepo] at value
  rcases change with set | target | _
  · obtain rfl : repo = set := RepoValue.repo.inj (Option.some.inj value)
    exact inChanges
  · cases value
  · cases value

/-! ## The loops over RPMs and repos -/

section Loops

variable (builders : Builders)

/-- What the loop over a repo's RPMs needs: a clean repo name, and RPMs whose
file names are clean and distinct. -/
def Buildable (repoName : Str) (repo : Repo) : Prop :=
  Clean repoName ∧ (repo.rpms.map fun rpm => (builders.buildRpm rpm).1).Nodup ∧
    ∀ rpm ∈ repo.rpms, Clean (builders.buildRpm rpm).1

/-- One RPM into a package directory where its file name is free: built there,
copied or linked, with every RPM still where it was built. -/
theorem addRpm_placed (avoidSymlinks : Bool) (step repoName : Str) (packageDir : List Str)
    (state result : FileTree × Dict Rpm (List Str)) (rpm : Rpm)
    (shape : packageDir = [step, repoName, repoName ++ "-pkgs".toList]) (clean : ∀ c ∈ packageDir, Clean c)
    (fileClean : Clean (builders.buildRpm rpm).1) (plain : state.1.NoLinkOn packageDir)
    (dirAt : state.1.nodeAt packageDir = some .dir)
    (absent : state.1.nodeAt (packageDir ++ [(builders.buildRpm rpm).1]) = none)
    (stored : Stored builders state.1 state.2)
    (ok : addRpm builders avoidSymlinks step repoName packageDir state rpm = .ok result) :
    Stored builders result.1 result.2 ∧ Placed builders result.1 result.2 (packageDir ++ [(builders.buildRpm rpm).1]) rpm ∧
      (∀ other, other ≠ packageDir ++ [(builders.buildRpm rpm).1] → result.1.nodeAt other = state.1.nodeAt other) ∧
      Grows state.2 result.2 := by
  have length : (packageDir ++ [(builders.buildRpm rpm).1]).length = 4 := by simp [shape]
  have short : (packageDir ++ [(builders.buildRpm rpm).1]).dropLast.length < FileTree.resolveFuel := by
    simp [shape, FileTree.resolveFuel]
  have parentPlain : state.1.NoLinkOn (packageDir ++ [(builders.buildRpm rpm).1]).dropLast := by
    rwa [List.dropLast_concat]
  have parentDir : state.1.nodeAt (packageDir ++ [(builders.buildRpm rpm).1]).dropLast = some .dir := by
    rwa [List.dropLast_concat]
  have dirPlain : ∀ node, (state.1.put (packageDir ++ [(builders.buildRpm rpm).1]) node).NoLinkOn
      (packageDir ++ [(builders.buildRpm rpm).1]).dropLast := fun node => by
    rw [List.dropLast_concat]
    exact plain.within (FileTree.within_put _ _ _ (List.prefix_refl _)) fun below => by simpa using below.length_le
  have frame : ∀ node, ∀ other, other ≠ packageDir ++ [(builders.buildRpm rpm).1] →
      (state.1.put (packageDir ++ [(builders.buildRpm rpm).1]) node).nodeAt other = state.1.nodeAt other :=
    fun node other differ => FileTree.nodeAt_put_of_ne _ _ _ _ differ
  have here : ∀ node, (state.1.put (packageDir ++ [(builders.buildRpm rpm).1]) node).nodeAt
      (packageDir ++ [(builders.buildRpm rpm).1]) = some node := fun node => FileTree.nodeAt_put_self _ _ _ (by simp)
  unfold addRpm at ok
  split at ok
  · next prevPath found =>
    obtain ⟨prevLength, -, last, prevPlain, prevFile⟩ := stored rpm prevPath found
    have prevShort : prevPath.length < FileTree.resolveFuel := by rw [prevLength]; decide
    have elsewhere : state.1.resolve prevPath ≠ some (packageDir ++ [(builders.buildRpm rpm).1]) := fun same => by
      rw [FileTree.resolve_plain _ _ prevPlain prevShort] at same
      rw [Option.some.inj same, absent] at prevFile
      cases prevFile
    rw [last, Option.getD_some] at ok
    split at ok
    · obtain ⟨tree, copied, rfl⟩ := (Py.map_eq_ok _ _ _).1 ok
      rw [FileTree.copy_fresh _ _ _ _ (by rw [FileTree.target_plain _ _ prevPlain prevShort, prevFile])
        (parentPlain.snoc fun node lookup => by rw [absent] at lookup; cases lookup) (by simp [shape, FileTree.resolveFuel])
        parentDir absent elsewhere] at copied
      cases copied
      exact ⟨stored.put _ _ absent length, ⟨dirPlain _, .inl (here _)⟩, frame _, fun _ _ kept => kept⟩
    · obtain ⟨tree, linked, rfl⟩ := (Py.map_eq_ok _ _ _).1 ok
      rw [FileTree.symlink_plain _ _ _ parentPlain short parentDir absent (by simp)] at linked
      cases linked
      exact ⟨stored.put _ _ absent length, ⟨dirPlain _, .inr ⟨prevPath, found, here _⟩⟩, frame _, fun _ _ kept => kept⟩
  · next missing =>
    cases ok
    have recorded : step :: pathParts repoName ++ [packageDir.getLast?.getD [], (builders.buildRpm rpm).1] =
        packageDir ++ [(builders.buildRpm rpm).1] := by
      simp [shape, pathParts_clean _ (clean repoName (by simp [shape]))]
    refine ⟨fun other path found => ?_, ⟨dirPlain _, .inl (here _)⟩, frame _, fun other path found => ?_⟩
    · rw [Dict.get?_set] at found
      split at found
      · next same =>
        subst same
        cases found
        refine ⟨by rw [recorded, length], fun c member => ?_, by rw [recorded]; simp, ?_, by rw [recorded]; exact here _⟩
        · rw [recorded, List.mem_append, List.mem_singleton] at member
          rcases member with inDir | rfl
          exacts [clean c inDir, fileClean]
        · rw [recorded]
          exact (dirPlain _).snoc fun node lookup => by rw [here] at lookup; cases lookup; rfl
      · exact stored.put _ _ absent length other path found
    · rw [Dict.get?_set, if_neg (by rintro rfl; rw [missing] at found; cases found)]
      exact found

/-- The loop over a repo's RPMs, their file names distinct and free in the
package directory: each RPM placed at its file, nothing else touched. -/
theorem addRpms_placed (avoidSymlinks : Bool) (step repoName : Str) (packageDir : List Str) (rpms : List Rpm)
    (state result : FileTree × Dict Rpm (List Str))
    (shape : packageDir = [step, repoName, repoName ++ "-pkgs".toList]) (clean : ∀ c ∈ packageDir, Clean c)
    (distinct : (rpms.map fun rpm => (builders.buildRpm rpm).1).Nodup)
    (filesClean : ∀ rpm ∈ rpms, Clean (builders.buildRpm rpm).1) (plain : state.1.NoLinkOn packageDir)
    (dirAt : state.1.nodeAt packageDir = some .dir) (absent : ∀ rpm ∈ rpms, state.1.nodeAt (packageDir ++ [(builders.buildRpm rpm).1]) = none)
    (stored : Stored builders state.1 state.2)
    (ok : rpms.foldlM (addRpm builders avoidSymlinks step repoName packageDir) state = .ok result) :
    Stored builders result.1 result.2 ∧
      (∀ rpm ∈ rpms, Placed builders result.1 result.2 (packageDir ++ [(builders.buildRpm rpm).1]) rpm) ∧
      (∀ other, (∀ rpm ∈ rpms, other ≠ packageDir ++ [(builders.buildRpm rpm).1]) →
        result.1.nodeAt other = state.1.nodeAt other) ∧
      Grows state.2 result.2 := by
  induction rpms generalizing state with
  | nil => cases ok; exact ⟨stored, fun _ member => (by cases member), fun _ _ => rfl, fun _ _ kept => kept⟩
  | cons rpm rest ih =>
    rw [List.map_cons, List.nodup_cons] at distinct
    rw [List.foldlM_cons] at ok
    obtain ⟨mid, first, later⟩ := (Py.bind_eq_ok _ _ _).1 ok
    obtain ⟨midStored, placed, frame, grows⟩ := addRpm_placed builders avoidSymlinks step repoName packageDir state mid
      rpm shape clean (filesClean rpm (List.mem_cons_self _ _)) plain dirAt (absent rpm (List.mem_cons_self _ _)) stored
      first
    have aside : packageDir ≠ packageDir ++ [(builders.buildRpm rpm).1] := fun same => by
      simpa using congrArg List.length same
    have otherFile : ∀ other ∈ rest, ∀ q, q <+: packageDir ++ [(builders.buildRpm rpm).1] →
        q ≠ packageDir ++ [(builders.buildRpm other).1] := fun other member q below same => by
      subst same
      have names := List.cons_prefix_cons.mp ((List.prefix_append_right_inj packageDir).mp below)
      exact distinct.1 (names.1 ▸ List.mem_map_of_mem _ member)
    obtain ⟨resultStored, resultPlaced, resultFrame, resultGrows⟩ := ih mid distinct.2
      (fun other member => filesClean other (List.mem_cons_of_mem _ member))
      (FileTree.SameAlong.noLinkOn (fun q below => frame q fun same => by subst same; simpa using below.length_le)
        plain) ((frame _ aside).trans dirAt)
      (fun other member => (frame _ (otherFile other member _ (List.prefix_refl _) ∘ Eq.symm)).trans
        (absent other (List.mem_cons_of_mem _ member)))
      midStored later
    refine ⟨resultStored, fun other member => ?_, fun other apart => ?_, grows.trans resultGrows⟩
    · rcases List.mem_cons.mp member with rfl | member
      · exact placed.keep (fun q below => resultFrame q fun other member => otherFile other member q below)
          resultGrows
      · exact resultPlaced other member
    · rw [resultFrame other fun r member => apart r (List.mem_cons_of_mem _ member),
        frame other (apart rpm (List.mem_cons_self _ _))]

theorem pkgs_ne_repodata (repoName : Str) : repoName ++ "-pkgs".toList ≠ "repodata".toList := fun same => by
  have last := congrArg List.getLast? same
  simp at last

/-- One repo of step `stepI`, its directory fresh: a copy or a symlink, or a
package directory whose RPMs are placed and which `createrepo_c` fills below
`repodata`; every RPM stays where it was built. -/
theorem addRepo_placed (avoidSymlinks : Bool) (stepI : Nat) (changes : Dict Str RepoChange) (state result : StepState)
    (entry : Str × RepoValue) (named : RepoName entry.1) (stepDir : state.tree.nodeAt [stepName stepI] = some .dir)
    (fresh : FileTree.Fresh [stepName stepI, entry.1] state.tree) (stored : Stored builders state.tree state.rpmToPath)
    (buildable : ∀ repo, entry.2 = .repo repo → changes.contains entry.1 = true → Buildable builders entry.1 repo)
    (repodata : ∀ listing, ∀ file ∈ builders.createrepo listing, file.1.head? = some "repodata".toList)
    (ok : addRepo builders avoidSymlinks stepI changes state entry = .ok result) :
    Stored builders result.tree result.rpmToPath ∧ Grows state.rpmToPath result.rpmToPath ∧
      FileTree.Within [stepName stepI, entry.1] state.tree result.tree ∧
      ∀ repo, entry.2 = .repo repo → changes.contains entry.1 = true →
        ∀ rpm ∈ repo.rpms, Placed builders result.tree result.rpmToPath (rpmPath builders stepI entry.1 rpm) rpm := by
  have stepPlain := noLinkOn_stepDir state.tree stepI stepDir
  have parents : ∀ rest : List Str, ∀ n < [stepName stepI, entry.1].length,
      (state.tree.nodeAt (([stepName stepI, entry.1] ++ rest).take n)).isSome := fun rest n small => by
    match n, small with
    | 0, _ => rfl
    | 1, _ => simp [stepDir]
  have kept : ∀ tree, FileTree.Within [stepName stepI, entry.1] state.tree tree →
      Stored builders tree state.rpmToPath := fun tree writes => stored.within writes fresh
  have linkedOrCopied : ∀ tree, FileTree.Within [stepName stepI, entry.1] state.tree tree →
      (∀ repo, entry.2 = .repo repo → changes.contains entry.1 = false) →
      Stored builders tree state.rpmToPath ∧ Grows state.rpmToPath state.rpmToPath ∧
        FileTree.Within [stepName stepI, entry.1] state.tree tree ∧
        ∀ repo, entry.2 = .repo repo → changes.contains entry.1 = true →
          ∀ rpm ∈ repo.rpms, Placed builders tree state.rpmToPath (rpmPath builders stepI entry.1 rpm) rpm :=
    fun tree writes notSet => ⟨kept tree writes, fun _ _ found => found, writes, fun repo isRepo changed => by
      rw [notSet repo isRepo] at changed
      cases changed⟩
  have copied : ∀ src, (state.tree.copytree src [stepName stepI, entry.1]).map
      (fun tree => { state with tree }) = .ok result →
      ∃ tree, FileTree.Within [stepName stepI, entry.1] state.tree tree ∧ result = { state with tree } := fun src ok => by
    obtain ⟨tree, made, rfl⟩ := (Py.map_eq_ok _ _ _).1 ok
    exact ⟨tree, FileTree.within_copytree _ _ _ _ (List.prefix_refl _) (by simpa using parents []) made, rfl⟩
  have linked : ∀ target, (state.tree.symlink target [stepName stepI, entry.1]).map
      (fun tree => { state with tree }) = .ok result →
      ∃ tree, FileTree.Within [stepName stepI, entry.1] state.tree tree ∧ result = { state with tree } :=
    fun target ok => by
      obtain ⟨tree, made, rfl⟩ := (Py.map_eq_ok _ _ _).1 ok
      exact ⟨tree, FileTree.within_symlink _ _ _ _ (List.prefix_refl _) stepPlain (by simp [FileTree.resolveFuel]) made,
        rfl⟩
  unfold addRepo at ok
  simp only [pathParts_clean _ named.1, pathParts_clean _ (pkgs_clean _ named.1), List.singleton_append] at ok
  split at ok
  · next unchanged =>
    have notChanged : changes.contains entry.1 = false := by simpa using unchanged
    obtain ⟨tree, writes, rfl⟩ : ∃ tree, FileTree.Within [stepName stepI, entry.1] state.tree tree ∧
        result = { state with tree } := by
      split at ok
      · split at ok
        · cases ok
        · exact copied _ ok
      · exact linked _ ok
    exact linkedOrCopied tree writes fun _ _ => notChanged
  · next changed =>
    split at ok
    · next target value =>
      obtain ⟨tree, writes, rfl⟩ : ∃ tree, FileTree.Within [stepName stepI, entry.1] state.tree tree ∧
          result = { state with tree } := by
        split at ok
        · cases ok
        · split at ok
          · exact copied _ ok
          · exact linked _ ok
      exact linkedOrCopied tree writes fun repo isRepo => by rw [value] at isRepo; cases isRepo
    · next _ repo value =>
      obtain ⟨made, madeOk, ok⟩ := (Py.bind_eq_ok _ _ _).1 ok
      obtain ⟨⟨built, rpmToPath⟩, builtOk, ok⟩ := (Py.bind_eq_ok _ _ _).1 ok
      cases ok
      obtain ⟨nameClean, distinct, filesClean⟩ := buildable repo value (by simpa using changed)
      have madeWithin : FileTree.Within [stepName stepI, entry.1] state.tree made :=
        FileTree.within_makedirs _ _ _ ⟨_, rfl⟩ (parents _) madeOk
      have clean : ∀ c ∈ [stepName stepI, entry.1, entry.1 ++ "-pkgs".toList], Clean c := by
        simp only [List.mem_cons, List.not_mem_nil, or_false]
        rintro c (rfl | rfl | rfl)
        exacts [stepName_clean stepI, nameClean, pkgs_clean _ nameClean]
      obtain ⟨builtStored, placed, builtFrame, grows⟩ := addRpms_placed builders avoidSymlinks (stepName stepI) entry.1
        _ repo.rpms (made, state.rpmToPath) (built, rpmToPath) rfl clean distinct filesClean
        ((stepPlain.below_fresh entry.1 [_] fresh).makedirs madeOk) (FileTree.makedirs_made _ _ _ (by simp) madeOk)
        (fun rpm _ => by
          rw [FileTree.makedirs_nodeAt _ _ _ _ (fun below => by simpa using below.length_le) madeOk]
          exact fresh [_, _])
        (kept made madeWithin) builtOk
      dsimp only at builtStored placed builtFrame grows
      have inPackage : ∀ other, ¬ [stepName stepI, entry.1] <+: other →
          ∀ rpm ∈ repo.rpms, other ≠ [stepName stepI, entry.1, entry.1 ++ "-pkgs".toList, (builders.buildRpm rpm).1] :=
        fun other outside rpm _ same => outside (same ▸ ⟨_, rfl⟩)
      have repodataWithin : FileTree.Within [stepName stepI, entry.1, "repodata".toList] built
          ((builders.createrepo (built.listing FileTree.resolveFuel [stepName stepI, entry.1])).foldl
            (fun tree file => tree.put ([stepName stepI, entry.1] ++ file.1) (.file file.2)) built) := by
        refine FileTree.within_foldl _ _ _ (fun tree file member _ => FileTree.within_put _ _ _ ?_) _
          (FileTree.within_refl _ _)
        obtain ⟨rest, named⟩ := List.head?_eq_some_iff.mp (repodata _ file member)
        rw [named]
        exact ⟨rest, rfl⟩
      have repodataFresh : FileTree.Fresh [stepName stepI, entry.1, "repodata".toList] built := fun rest => by
        have apart : ∀ name : Str, ∀ more : List Str,
            [stepName stepI, entry.1, "repodata".toList] ++ rest ≠ [stepName stepI, entry.1, entry.1 ++ "-pkgs".toList] ++ name :: more :=
          fun name more same => pkgs_ne_repodata entry.1 (List.cons.inj (List.cons.inj (List.cons.inj same).2).2).1.symm
        have outsideDirs : ¬ [stepName stepI, entry.1, "repodata".toList] ++ rest <+:
            [stepName stepI, entry.1] ++ [entry.1 ++ "-pkgs".toList] := fun below =>
          pkgs_ne_repodata entry.1 (List.cons.inj (List.cons.inj (List.cons.inj
            (((List.prefix_append _ rest).trans below).eq_of_length rfl)).2).2).1.symm
        rw [builtFrame _ fun rpm _ => apart _ [], FileTree.makedirs_nodeAt _ _ _ _ outsideDirs madeOk]
        exact fresh (_ :: rest)
      have builtWithin : FileTree.Within [stepName stepI, entry.1] made built := fun other outside =>
        builtFrame other (inPackage other outside)
      refine ⟨builtStored.within repodataWithin repodataFresh, grows,
        madeWithin.trans (builtWithin.trans (repodataWithin.mono ⟨_, rfl⟩)), fun set isRepo _ rpm member => ?_⟩
      obtain rfl : repo = set := RepoValue.repo.inj (value.symm.trans isRepo)
      exact (placed rpm member).keep (repodataWithin.sameAlong fun ⟨_, same⟩ =>
        pkgs_ne_repodata entry.1 (List.cons.inj (List.cons.inj (List.cons.inj same).2).2).1.symm) fun _ _ found => found

/-- The loop over the repos of step `stepI`, their directories fresh: each
repo the step sets to a `Repo` has its RPMs placed, and nothing outside the
repos' directories changes. -/
theorem addRepos_placed (avoidSymlinks : Bool) (stepI : Nat) (changes : Dict Str RepoChange)
    (entries : List (Str × RepoValue)) (state result : StepState) (distinct : (entries.map Prod.fst).Nodup)
    (named : ∀ entry ∈ entries, RepoName entry.1) (stepDir : state.tree.nodeAt [stepName stepI] = some .dir)
    (fresh : ∀ entry ∈ entries, FileTree.Fresh [stepName stepI, entry.1] state.tree)
    (stored : Stored builders state.tree state.rpmToPath)
    (buildable : ∀ entry ∈ entries, ∀ repo, entry.2 = .repo repo → changes.contains entry.1 = true →
      Buildable builders entry.1 repo)
    (repodata : ∀ listing, ∀ file ∈ builders.createrepo listing, file.1.head? = some "repodata".toList)
    (ok : entries.foldlM (addRepo builders avoidSymlinks stepI changes) state = .ok result) :
    Stored builders result.tree result.rpmToPath ∧ Grows state.rpmToPath result.rpmToPath ∧
      (∀ other, (∀ entry ∈ entries, ¬ [stepName stepI, entry.1] <+: other) →
        result.tree.nodeAt other = state.tree.nodeAt other) ∧
      ∀ entry ∈ entries, ∀ repo, entry.2 = .repo repo → changes.contains entry.1 = true →
        ∀ rpm ∈ repo.rpms, Placed builders result.tree result.rpmToPath (rpmPath builders stepI entry.1 rpm) rpm := by
  have sameRepo : ∀ (a b : Str) (q : List Str), [stepName stepI, a] <+: [stepName stepI, b] ++ q → a = b :=
    fun a b q below => (List.cons_prefix_cons.mp (List.cons_prefix_cons.mp below).2).1
  induction entries generalizing state with
  | nil => cases ok; exact ⟨stored, fun _ _ found => found, fun _ _ => rfl, fun _ member => (by cases member)⟩
  | cons entry rest ih =>
    rw [List.map_cons, List.nodup_cons] at distinct
    have differ : ∀ other ∈ rest, other.1 ≠ entry.1 := fun other member same =>
      distinct.1 (same ▸ List.mem_map_of_mem _ member)
    rw [List.foldlM_cons] at ok
    obtain ⟨mid, first, later⟩ := (Py.bind_eq_ok _ _ _).1 ok
    obtain ⟨midStored, grows, within, placed⟩ := addRepo_placed builders avoidSymlinks stepI changes state mid entry
      (named entry (List.mem_cons_self _ _)) stepDir (fresh entry (List.mem_cons_self _ _)) stored
      (buildable entry (List.mem_cons_self _ _)) repodata first
    obtain ⟨resultStored, resultGrows, frame, resultPlaced⟩ := ih mid distinct.2
      (fun other member => named other (List.mem_cons_of_mem _ member)) (by rwa [within _ fun below => by simpa using below.length_le])
      (fun other member => (fresh other (List.mem_cons_of_mem _ member)).within within
        fun more below => differ other member (sameRepo _ _ _ below).symm)
      midStored (fun other member => buildable other (List.mem_cons_of_mem _ member)) later
    refine ⟨resultStored, grows.trans resultGrows, fun other outside => ?_, fun other member => ?_⟩
    · rw [frame other fun e member => outside e (List.mem_cons_of_mem _ member),
        within other (outside entry (List.mem_cons_self _ _))]
    · rcases List.mem_cons.mp member with rfl | member
      · exact fun repo isRepo changed rpm inRepo => (placed repo isRepo changed rpm inRepo).keep
          (fun q below => frame q fun e inRest above => differ e inRest (sameRepo _ _ _ (above.trans below)))
          resultGrows
      · exact resultPlaced other member

/-- A step that starts ready, on repos with repo names and with changes that
name only repo names, places the RPMs of every repo it sets to a `Repo`, and
keeps every RPM where it was built. -/
theorem runStep_placed (outDir : Str) (avoidSymlinks : Bool) (state result : StepState) (i : Nat)
    (changes : Dict Str RepoChange) (ready : Ready avoidSymlinks i state.tree) (reposNamed : RepoNames state.repos)
    (changesNamed : ∀ name ∈ changes.keys, RepoName name) (stored : Stored builders state.tree state.rpmToPath)
    (buildable : ∀ entry ∈ changes.items, ∀ repo, entry.2 = .repo repo → Buildable builders entry.1 repo)
    (repodata : ∀ listing, ∀ file ∈ builders.createrepo listing, file.1.head? = some "repodata".toList)
    (ok : runStep builders outDir avoidSymlinks state (i, changes) = .ok result) :
    Stored builders result.tree result.rpmToPath ∧ Grows state.rpmToPath result.rpmToPath ∧
      ∀ entry ∈ changes.items, ∀ repo, entry.2 = .repo repo →
        ∀ rpm ∈ repo.rpms, Placed builders result.tree result.rpmToPath (rpmPath builders i entry.1 rpm) rpm := by
  obtain ⟨repos, changed, ok'⟩ := (Py.bind_eq_ok _ _ _).1 ok
  obtain ⟨tree, madeDir, ok'⟩ := (Py.bind_eq_ok _ _ _).1 ok'
  obtain ⟨filled, filledAll, -⟩ := (Py.bind_eq_ok _ _ _).1 ok'
  rw [FileTree.makedirs_top _ _ (ready.fresh i le_rfl [])] at madeDir
  cases madeDir
  have named := applyChanges_repoNames _ _ _ reposNamed changesNamed changed
  obtain ⟨filledStored, grows, -, placed⟩ := addRepos_placed builders avoidSymlinks i changes repos.items
    { state with tree := state.tree.put [stepName i] .dir, repos } filled repos.nodup
    (fun entry member => named entry.1 (List.mem_map_of_mem _ member)) (FileTree.nodeAt_put_self _ _ _ (by simp))
    (fun entry _ rest => by
      rw [FileTree.nodeAt_put_of_ne _ _ _ _ (by simp)]
      exact ready.fresh i le_rfl (entry.1 :: rest))
    (stored.putPlain _ rfl (by simp))
    (fun entry member repo isRepo contains => buildable _
      (applyChanges_set_repo state.repos repos changes changed entry member contains repo isRepo) repo rfl)
    repodata filledAll
  rw [runStep_of_repos builders avoidSymlinks outDir state filled (i, changes) repos changed (ready.fresh i le_rfl) named
    ready.copies filledAll] at ok
  cases ok
  have notLink : ∀ content, (Node.file content).isSymlink = false := fun _ => rfl
  refine ⟨(filledStored.putPlain _ (notLink _) (by simp)).putPlain _ (notLink _) (by simp), grows,
    fun ⟨repoName, value⟩ member repo isRepo rpm inRepo => ?_⟩
  dsimp only at isRepo
  subst isRepo
  have inRepos := repos.mem_of_get? _ _ (applyChanges_get state.repos repos changes repoName _ changed member)
  have contains : changes.contains repoName = true := (changes.contains_iff_mem repoName).mpr ⟨_, member⟩
  exact ((placed _ inRepos repo rfl contains rpm inRepo).putPlain _ (notLink _) (by simp [rpmPath])).putPlain _
    (notLink _) (by simp [rpmPath])

/-- Steps from index `first` on, from a ready tree and repos with repo names,
on a history that names only repo names: every RPM of a repo a step sets to a
`Repo` is placed at the end. -/
theorem foldlM_runStep_placed (outDir : Str) (avoidSymlinks : Bool) (first : Nat)
    (steps : List (Dict Str RepoChange)) (state result : StepState) (ready : Ready avoidSymlinks first state.tree)
    (reposNamed : RepoNames state.repos) (history : NamedHistory steps)
    (stored : Stored builders state.tree state.rpmToPath)
    (buildable : ∀ changes ∈ steps, ∀ entry ∈ changes.items, ∀ repo, entry.2 = .repo repo →
      Buildable builders entry.1 repo)
    (repodata : ∀ listing, ∀ file ∈ builders.createrepo listing, file.1.head? = some "repodata".toList)
    (ran : (List.enumFrom first steps).foldlM (runStep builders outDir avoidSymlinks) state = .ok result) :
    Stored builders result.tree result.rpmToPath ∧ Grows state.rpmToPath result.rpmToPath ∧
      ∀ step ∈ List.enumFrom first steps, ∀ entry ∈ step.2.items, ∀ repo, entry.2 = .repo repo →
        ∀ rpm ∈ repo.rpms, Placed builders result.tree result.rpmToPath (rpmPath builders step.1 entry.1 rpm) rpm := by
  induction steps generalizing first state with
  | nil => cases ran; exact ⟨stored, fun _ _ found => found, fun _ member => (by cases member)⟩
  | cons changes rest ih =>
    rw [List.enumFrom_cons, List.foldlM_cons] at ran
    obtain ⟨mid, stepRan, restRan⟩ := (Py.bind_eq_ok _ _ _).1 ran
    have changesNamed := history changes (List.mem_cons_self _ _)
    have restHistory : NamedHistory rest := fun more member => history more (List.mem_cons_of_mem _ member)
    obtain ⟨midStored, grows, placed⟩ := runStep_placed builders outDir avoidSymlinks state mid first changes
      ready reposNamed changesNamed stored (buildable changes (List.mem_cons_self _ _)) repodata stepRan
    obtain ⟨-, -, midReady, midNamed⟩ := runStep_within builders avoidSymlinks outDir state mid (first, changes) ready
      reposNamed changesNamed stepRan
    obtain ⟨resultStored, resultGrows, resultPlaced⟩ := ih (first + 1) mid midReady midNamed restHistory midStored
      (fun changes member => buildable changes (List.mem_cons_of_mem _ member)) restRan
    have frame := (foldlM_runStep_within builders outDir avoidSymlinks (first + 1) rest mid result midReady midNamed
      restHistory restRan).2.2
    refine ⟨resultStored, grows.trans resultGrows, fun step member => ?_⟩
    rcases List.mem_cons.mp member with rfl | member
    · refine fun entry inChanges repo isRepo rpm inRepo => (placed entry inChanges repo isRepo rpm inRepo).keep
        (fun q below => frame q fun j later _ named => ?_) resultGrows
      obtain ⟨tail, whole⟩ := below
      cases q with
      | nil => cases named
      | cons head more =>
        have same := (List.cons.inj whole).1.symm.trans (Option.some.inj named)
        have := stepName_inj _ _ same
        omega
    · exact resultPlaced step member

end Loops

/-- A locatable history sets only repos `make_repo_steps` can build: clean
names, and RPM files that are clean and distinct. -/
theorem Locatable.buildable (builders : Builders) (arch : Str) (steps : List (Dict Str RepoChange))
    (archFree : '/' ∉ arch) (locatable : Locatable builders arch steps) :
    ∀ changes ∈ steps, ∀ entry ∈ changes.items, ∀ repo, entry.2 = .repo repo → Buildable builders entry.1 repo := by
  intro changes member entry inChanges repo isRepo
  have locatable := locatable changes member entry inChanges
  rw [isRepo] at locatable
  obtain ⟨nameClean, distinct, named⟩ := locatable
  refine ⟨nameClean, distinct, fun rpm inRepo => ?_⟩
  obtain ⟨fileName, nameFree, versionFree, releaseFree⟩ := named rpm inRepo
  rw [fileName]
  exact rpmFileName_clean arch rpm archFree nameFree versionFree releaseFree

/-- Each location of a locatable repo, below the directory of step `i`, is
the path where `make_repo_steps` puts the RPM it is paired with. -/
theorem locations_rpmPath (builders : Builders) (arch repoName : Str) (repo : Repo) (i : Nat) (archFree : '/' ∉ arch)
    (locatable : RepoLocatable builders arch repoName (.repo repo)) :
    ∀ location ∈ (repo.locations repoName arch).zip repo.rpms, location.2 ∈ repo.rpms ∧
      [stepName i, repoName] ++ split '/' location.1 = rpmPath builders i repoName location.2 := by
  obtain ⟨nameClean, -, named⟩ := locatable
  have paired : (repo.locations repoName arch).zip repo.rpms = repo.rpms.map fun rpm =>
      (repoName ++ "-pkgs/rpm-test-".toList ++ rpm.name ++ ['-'] ++ rpm.version ++ ['-'] ++ rpm.release ++ ['.'] ++
        arch ++ ".rpm".toList, rpm) := by
    conv_lhs => arg 2; rw [← List.map_id repo.rpms]
    rw [Repo.locations, List.zip_map']
    rfl
  rw [paired]
  intro location member
  obtain ⟨rpm, inRepo, rfl⟩ := List.mem_map.mp member
  obtain ⟨fileName, nameFree, versionFree, releaseFree⟩ := named rpm inRepo
  refine ⟨inRepo, ?_⟩
  rw [split_location _ _ _ nameClean.2.2.2 (rpmFileName_clean arch rpm archFree nameFree versionFree releaseFree).2.2.2,
    rpmPath, fileName]
  rfl

/-- At the end of a completed run, in either mode, of a history that names
only repo names, `Repo.locations(name, arch)` names, for each RPM of a repo
that step `i` sets to a `Repo`, a file below `out_dir/i/<name>` holding what
`build_rpm` built for that RPM, symlinks followed. -/
theorem makeRepoSteps_locations (builders : Builders) (outDir : Str) (steps : List (Dict Str RepoChange))
    (avoidSymlinks : Bool) (arch : Str) (final : FileTree) (archFree : '/' ∉ arch) (named : NamedHistory steps)
    (locatable : Locatable builders arch steps)
    (repodata : ∀ listing, ∀ file ∈ builders.createrepo listing, file.1.head? = some "repodata".toList)
    (ran : makeRepoSteps builders outDir steps avoidSymlinks = .ok final) (i : Nat) (changes : Dict Str RepoChange)
    (atStep : steps[i]? = some changes) (repoName : Str) (repo : Repo) (set : (repoName, .repo repo) ∈ changes.items) :
    ∀ location ∈ (repo.locations repoName arch).zip repo.rpms,
      final.target ([stepName i, repoName] ++ split '/' location.1) = some (.file (builders.buildRpm location.2).2) := by
  obtain ⟨finalState, ranAll, rfl⟩ := (Py.map_eq_ok _ _ _).1 ran
  obtain ⟨stored, -, placed⟩ := foldlM_runStep_placed builders outDir avoidSymlinks 0 steps
    ⟨FileTree.empty, ⟨[], List.nodup_nil⟩, ⟨[], List.nodup_nil⟩⟩ finalState (ready_empty avoidSymlinks) (by decide) named
    (fun _ _ found => by simp [Dict.get?] at found)
    (Locatable.buildable builders arch steps archFree locatable) repodata ranAll
  intro location member
  obtain ⟨inRepo, path⟩ := locations_rpmPath builders arch repoName repo i archFree
    (locatable changes (List.getElem?_mem atStep) _ set) location member
  rw [path]
  exact (placed (i, changes) (List.mk_mem_enum_iff_getElem?.mpr atStep) _ set repo rfl location.2 inRepo).target stored rfl

/-- Builders that name each RPM's file as `rpmbuild` does and whose
`createrepo_c` writes `repodata/repomd.xml`. -/
def namingBuilders (arch : Str) : Builders :=
  ⟨fun rpm => (rpmFileName arch rpm, rpm.name), fun _ => [(["repodata".toList, "repomd.xml".toList], [])]⟩

/-- The repo `a` of `relinkSteps`, which step 1 sets again after step 0 built
its RPM. -/
def relinkRepo : Repo := ⟨[{ name := "x".toList, version := "1".toList, release := "1".toList }]⟩

theorem makeRepoSteps_locations_relink :
    ∃ final, makeRepoSteps (namingBuilders "x86_64".toList) "/o".toList relinkSteps false = .ok final ∧
      ∀ location ∈ (relinkRepo.locations "a".toList "x86_64".toList).zip relinkRepo.rpms,
        final.target ([stepName 1, "a".toList] ++ split '/' location.1) =
          some (.file ((namingBuilders "x86_64".toList).buildRpm location.2).2) := by
  obtain ⟨final, ran⟩ : ∃ final, makeRepoSteps (namingBuilders "x86_64".toList) "/o".toList relinkSteps false =
      .ok final := by
    exact ⟨_, rfl⟩
  exact ⟨final, ran, makeRepoSteps_locations (namingBuilders "x86_64".toList) _ relinkSteps false "x86_64".toList
    final (by decide) (by decide) (by decide) (fun _ file member => by rw [List.mem_singleton.mp member]; rfl) ran 1 _ rfl
    "a".toList relinkRepo (by decide)⟩

/-- `[{'a-pkgs': Repo([]), 'a-pkgs/F': 'a-pkgs', 'a': Repo([x]), 'a/x': 'a-pkgs/F',
'dnf.conf': 'a/x'}]`, with `F` the file `x` is built to: aliases whose names
are paths. With symlinks, `0/a/x` links to `a-pkgs/F` and `0/dnf.conf` to
`a/x`, so writing `dnf.conf` writes over the RPM. -/
def overwriteSteps : List (Dict Str RepoChange) :=
  [⟨[("a-pkgs".toList, .repo ⟨[]⟩), ("a-pkgs/rpm-test-x-1-1.x86_64.rpm".toList, .alias "a-pkgs".toList),
    ("a".toList, .repo relinkRepo), ("a/x".toList, .alias "a-pkgs/rpm-test-x-1-1.x86_64.rpm".toList),
    ("dnf.conf".toList, .alias "a/x".toList)], by decide⟩]

/-- Without repo names the locations can miss: this history is locatable and
runs, and the location of `x` then holds the step's `dnf.conf`. -/
theorem makeRepoSteps_locations_overwritten :
    Locatable (namingBuilders "x86_64".toList) "x86_64".toList overwriteSteps ∧ ¬ NamedHistory overwriteSteps ∧
      ∃ final, makeRepoSteps (namingBuilders "x86_64".toList) "/o".toList overwriteSteps false = .ok final ∧
        ∃ location ∈ (relinkRepo.locations "a".toList "x86_64".toList).zip relinkRepo.rpms,
          final.target ([stepName 0, "a".toList] ++ split '/' location.1) ≠
            some (.file ((namingBuilders "x86_64".toList).buildRpm location.2).2) := by
  refine ⟨by decide, by decide, _, rfl, ?_⟩
  decide

end FsImage.Rpm.Tests
