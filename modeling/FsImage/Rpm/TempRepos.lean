import FsImage.Python.FileTree
import FsImage.Python.PosixPath
import Mathlib.Data.Nat.Digits

/-! `make_repo_steps` of `rpm/tests/temp_repos.py`.

Each step of a repo history changes the dict of repos, then writes the step's
directory: for every repo, in dict order, either a copy or a symlink of what
stood there at the previous step when the step leaves it unchanged, a copy or
a symlink of another repo of the step for an alias, or a fresh package
directory whose RPMs are built once and then copied or linked, followed by
`createrepo_c`; last the step's `dnf.conf` and `yum.conf`. `avoid_symlinks`
chooses copies over symlinks. The RPM build and `createrepo_c` are
deterministic steps given as functions. Paths are relative to `out_dir`; a
repo name is joined to them as text, so the kernel reads it as the names
between its slashes.

A step writes only below its own directory when its repos have clean names
other than `dnf.conf` and `yum.conf`: a name with a slash or a `..` reaches
into other directories, and a repo named `dnf.conf` is where the step writes
its configuration. Over a run from an empty `out_dir` this keeps each step's
directory as the step left it.
-/

set_option autoImplicit false

namespace FsImage.Rpm.Tests

open FsImage.Python FsImage.Python.PosixPath

/-- `Rpm(name, version, release, override_contents, test_post_install)`: all
five fields tell two RPMs apart as keys of `rpm_to_path`. -/
structure Rpm where
  name : Str
  version : Str
  release : Str
  overrideContents : Option Str := none
  testPostInstall : Bool := false
  deriving DecidableEq, Repr

/-- `Repo(rpms)`. -/
structure Repo where
  rpms : List Rpm
  deriving DecidableEq, Repr

/-- A value of a step's dict: a `Repo`, the name of the repo it aliases, or
`None` to delete the repo. -/
inductive RepoChange where
  | repo (repo : Repo)
  | alias (target : Str)
  | delete
  deriving DecidableEq, Repr

/-- What `repos` holds for a name: a `Repo` or the name of a repo. -/
inductive RepoValue where
  | repo (repo : Repo)
  | alias (target : Str)
  deriving DecidableEq, Repr

/-- The deterministic steps the fixture runs outside Python. -/
structure Builders where
  /-- `build_rpm`: the file name of the RPM it builds into the package
  directory, and the file's contents. -/
  buildRpm : Rpm → Str × Str
  /-- `createrepo_c`: the files it writes below a repo directory, from what
  the directory holds; it makes the directories they need. -/
  createrepo : List (List Str × Node) → List (List Str × Str)

/-- What the loop carries from one repo to the next. -/
structure StepState where
  tree : FileTree
  repos : Dict Str RepoValue
  rpmToPath : Dict Rpm (List Str)

/-- The name of step `i`'s directory, `str(i)`. -/
def stepName (i : Int) : Str := (toString i).toList

/-- The names the kernel reads in a relative path joined on as text: the
parts between slashes, without the empty ones and `.`. -/
def pathParts (name : Str) : List Str := (split '/' name).filter fun part => part ≠ [] ∧ part ≠ ['.']

/-- The loop at the top of a step: `None` deletes a repo, raising `KeyError`
for a missing one, any other value is set. -/
def applyChanges (repos : Dict Str RepoValue) (repoChanges : Dict Str RepoChange) : Py (Dict Str RepoValue) :=
  repoChanges.items.foldlM
    (fun repos entry =>
      match entry.2 with
      | .delete => repos.pop entry.1
      | .repo repo => pure (repos.set entry.1 (.repo repo))
      | .alias target => pure (repos.set entry.1 (.alias target)))
    repos

/-- One pass of the loop over a repo's RPMs: an RPM seen before is copied or
linked from where it was built, any other is built, moved into the package
directory with `os.rename`, which replaces what stood there, and
remembered. -/
def addRpm (builders : Builders) (avoidSymlinks : Bool) (step repoName : Str) (packageDir : List Str)
    (state : FileTree × Dict Rpm (List Str)) (rpm : Rpm) : Py (FileTree × Dict Rpm (List Str)) :=
  match state.2.get? rpm with
  | some prevPath =>
    let dest := packageDir ++ [prevPath.getLast?.getD []]
    if avoidSymlinks then (state.1.copy prevPath dest).map (·, state.2)
    else (state.1.symlink (join '/' (["..", "..", ".."].map String.toList ++ prevPath)) dest).map (·, state.2)
  | none =>
    let built := builders.buildRpm rpm
    .ok (state.1.put (packageDir ++ [built.1]) (.file built.2),
      state.2.set rpm (step :: pathParts repoName ++ [packageDir.getLast?.getD [], built.1]))

/-- One pass of the loop over the repos of step `stepI`. -/
def addRepo (builders : Builders) (avoidSymlinks : Bool) (stepI : Nat) (repoChanges : Dict Str RepoChange)
    (state : StepState) (entry : Str × RepoValue) : Py StepState :=
  let stepDir := [stepName stepI]
  let repoDir := stepDir ++ pathParts entry.1
  if !repoChanges.contains entry.1 then
    if avoidSymlinks then
      match entry.2 with
      | .repo _ => .error .typeError
      | .alias target =>
        (state.tree.copytree (stepName (stepI - 1 : Int) :: pathParts target) repoDir).map
          fun tree => { state with tree }
    else
      (state.tree.symlink ("../".toList ++ stepName (stepI - 1 : Int) ++ '/' :: entry.1) repoDir).map
        fun tree => { state with tree }
  else
    match entry.2 with
    | .alias target =>
      if !state.repos.contains target then .error .assertionError
      else if avoidSymlinks then
        (state.tree.copytree (stepDir ++ pathParts target) repoDir).map fun tree => { state with tree }
      else (state.tree.symlink target repoDir).map fun tree => { state with tree }
    | .repo repo => do
      let packageDir := repoDir ++ pathParts (entry.1 ++ "-pkgs".toList)
      let tree ← state.tree.makedirs packageDir
      let (tree, rpmToPath) ←
        repo.rpms.foldlM (addRpm builders avoidSymlinks (stepName stepI) entry.1 packageDir) (tree, state.rpmToPath)
      let tree := (builders.createrepo (tree.listing FileTree.resolveFuel repoDir)).foldl
        (fun tree file => tree.put (repoDir ++ file.1) (.file file.2)) tree
      pure { state with tree, rpmToPath }

/-- The text `ConfigParser.write` gives the step's `dnf.conf` and `yum.conf`;
`file_url()` is taken as `file://` and the absolute path. -/
def confText (outDir : Str) (stepI : Nat) (repoNames : List Str) : Str :=
  "[main]\ngpgcheck = 1\nlocalpkg_gpgcheck = 1\n\n".toList ++
    repoNames.flatMap fun name =>
      ['['] ++ name ++ "]\nbaseurl = file://".toList ++ outDir ++ ['/'] ++ stepName stepI ++ ['/'] ++ name ++
        "\n\n".toList

/-- One step of `make_repo_steps`. -/
def runStep (builders : Builders) (outDir : Str) (avoidSymlinks : Bool) (state : StepState)
    (step : Nat × Dict Str RepoChange) : Py StepState := do
  let repos ← applyChanges state.repos step.2
  let tree ← state.tree.makedirs [stepName step.1]
  let state ← repos.items.foldlM (addRepo builders avoidSymlinks step.1 step.2) { state with tree, repos }
  let conf := confText outDir step.1 repos.keys
  let tree ← state.tree.writeFile [stepName step.1, "dnf.conf".toList] conf
  let tree ← tree.writeFile [stepName step.1, "yum.conf".toList] conf
  pure { state with tree }

/-- `make_repo_steps(out_dir, repo_change_steps, ..., avoid_symlinks)`: the
tree below `out_dir`, which starts empty. -/
def makeRepoSteps (builders : Builders) (outDir : Str) (repoChangeSteps : List (Dict Str RepoChange))
    (avoidSymlinks : Bool) : Py FileTree :=
  (repoChangeSteps.enum.foldlM (runStep builders outDir avoidSymlinks) ⟨FileTree.empty, ⟨[], by decide⟩, ⟨[], by decide⟩⟩).map
    StepState.tree

/-! ## Repo names -/

/-- A name a repo can have for its directory to be one entry of its step's:
one clean path component, other than the names of the step's `dnf.conf` and
`yum.conf`. -/
def RepoName (name : Str) : Prop := Clean name ∧ name ≠ "dnf.conf".toList ∧ name ≠ "yum.conf".toList

instance (name : Str) : Decidable (RepoName name) := inferInstanceAs (Decidable (_ ∧ _ ∧ _))

/-- Every name a history's steps set or delete is a repo name. -/
def NamedHistory (steps : List (Dict Str RepoChange)) : Prop :=
  ∀ changes ∈ steps, ∀ name ∈ changes.keys, RepoName name

instance (steps : List (Dict Str RepoChange)) : Decidable (NamedHistory steps) :=
  inferInstanceAs (Decidable (∀ changes ∈ steps, ∀ name ∈ changes.keys, RepoName name))

/-- Every repo has a repo name. -/
def RepoNames (repos : Dict Str RepoValue) : Prop := ∀ name ∈ repos.keys, RepoName name

instance (repos : Dict Str RepoValue) : Decidable (RepoNames repos) :=
  inferInstanceAs (Decidable (∀ name ∈ repos.keys, RepoName name))

theorem pathParts_clean (name : Str) (clean : Clean name) : pathParts name = [name] := by
  rw [pathParts, split_of_not_mem '/' name clean.2.2.2]
  simp [clean.1, clean.2.1]

theorem pkgs_clean (repoName : Str) (clean : Clean repoName) : Clean (repoName ++ "-pkgs".toList) :=
  ⟨by simp, fun same => by simpa using congrArg List.length same, fun same => by simpa using congrArg List.length same,
    by simpa [List.mem_append] using clean.2.2.2⟩

/-- The changes of a step name each repo after them: it was a repo before, or
the step names it. -/
theorem applyChanges_keys (repos next : Dict Str RepoValue) (changes : Dict Str RepoChange)
    (ok : applyChanges repos changes = .ok next) : ∀ name ∈ next.keys, name ∈ repos.keys ∨ name ∈ changes.keys := by
  obtain ⟨items, nodup⟩ := changes
  unfold applyChanges at ok
  simp only [Dict.keys] at ok ⊢
  clear nodup
  induction items generalizing repos with
  | nil => cases ok; exact fun name member => .inl member
  | cons head rest ih =>
    rw [List.foldlM_cons] at ok
    obtain ⟨mid, first, later⟩ := (Py.bind_eq_ok _ _ _).1 ok
    have earlier : ∀ name ∈ mid.keys, name ∈ repos.keys ∨ name = head.1 := fun name member => by
      obtain ⟨key, change⟩ := head
      rcases change with repo | target | _
      · cases first; exact Dict.mem_keys_set _ _ _ _ member
      · cases first; exact Dict.mem_keys_set _ _ _ _ member
      · simp only [Dict.pop] at first
        split at first
        · cases first
          simp only [Dict.keys_filterKeys, List.mem_filter] at member
          exact .inl member.1
        · cases first
    intro name member
    rcases ih mid later name member with inMid | inRest
    · rcases earlier name inMid with before | rfl
      · exact .inl before
      · exact .inr (List.mem_cons_self _ _)
    · exact .inr (List.mem_cons_of_mem _ inRest)

theorem applyChanges_repoNames (repos next : Dict Str RepoValue) (changes : Dict Str RepoChange)
    (named : RepoNames repos) (changesNamed : ∀ name ∈ changes.keys, RepoName name)
    (ok : applyChanges repos changes = .ok next) : RepoNames next := fun name member => by
  rcases applyChanges_keys repos next changes ok name member with before | changed
  exacts [named name before, changesNamed name changed]

/-! ## Copies leave no symlinks

In copy mode nothing makes a symlink, whatever the names: each pass of each
loop keeps a tree without symlinks without one. -/

section Copies

variable (builders : Builders)

theorem addRpm_copies (step repoName : Str) (packageDir : List Str) (state result : FileTree × Dict Rpm (List Str))
    (rpm : Rpm) (clean : state.1.NoSymlinks) (ok : addRpm builders true step repoName packageDir state rpm = .ok result) :
    result.1.NoSymlinks := by
  unfold addRpm at ok
  split at ok
  · obtain ⟨tree, copied, rfl⟩ := (Py.map_eq_ok _ _ _).1 ok
    exact clean.copy copied
  · cases ok
    exact clean.put _ rfl

theorem addRepo_copies (stepI : Nat) (repoChanges : Dict Str RepoChange) (state result : StepState)
    (entry : Str × RepoValue) (clean : state.tree.NoSymlinks)
    (ok : addRepo builders true stepI repoChanges state entry = .ok result) : result.tree.NoSymlinks := by
  have copied : ∀ src dst, (state.tree.copytree src dst).map (fun tree => { state with tree }) = .ok result →
      result.tree.NoSymlinks := fun src dst ok => by
    obtain ⟨tree, copied, rfl⟩ := (Py.map_eq_ok _ _ _).1 ok
    exact clean.copytree copied
  unfold addRepo at ok
  simp only [↓reduceIte] at ok
  split at ok
  · split at ok
    · cases ok
    · exact copied _ _ ok
  · split at ok
    · split at ok
      · cases ok
      · exact copied _ _ ok
    · obtain ⟨made, madeDirs, ok⟩ := (Py.bind_eq_ok _ _ _).1 ok
      obtain ⟨⟨built, rpmToPath⟩, builtAll, ok⟩ := (Py.bind_eq_ok _ _ _).1 ok
      cases ok
      have rpms := Py.foldlM_invariant (fun state : FileTree × Dict Rpm (List Str) => state.1.NoSymlinks) _
        (fun state rpm after early ok => addRpm_copies builders _ _ _ state after rpm early ok) _ _ _
        (clean.makedirs madeDirs) builtAll
      exact List.foldlRecOn (motive := FileTree.NoSymlinks) _ _ _ rpms fun tree done file _ => done.put _ rfl

theorem runStep_copies (outDir : Str) (state result : StepState) (step : Nat × Dict Str RepoChange)
    (clean : state.tree.NoSymlinks) (ok : runStep builders outDir true state step = .ok result) :
    result.tree.NoSymlinks := by
  obtain ⟨repos, -, ok⟩ := (Py.bind_eq_ok _ _ _).1 ok
  obtain ⟨tree, madeDir, ok⟩ := (Py.bind_eq_ok _ _ _).1 ok
  obtain ⟨filled, filledAll, ok⟩ := (Py.bind_eq_ok _ _ _).1 ok
  obtain ⟨dnf, dnfWritten, ok⟩ := (Py.bind_eq_ok _ _ _).1 ok
  obtain ⟨yum, yumWritten, ok⟩ := (Py.bind_eq_ok _ _ _).1 ok
  cases ok
  have repoDirs := Py.foldlM_invariant (fun state : StepState => state.tree.NoSymlinks) _
    (fun state entry after early ok => addRepo_copies builders _ _ state after entry early ok) _ _ _
    (clean.makedirs madeDir) filledAll
  exact (repoDirs.writeFile dnfWritten).writeFile yumWritten

end Copies

/-! ## Step directories

`str(i)` names step `i`'s directory; no two steps share one. -/

theorem toDigitsCore_append (fuel n : Nat) (ds : List Char) :
    Nat.toDigitsCore 10 fuel n ds = Nat.toDigitsCore 10 fuel n [] ++ ds := by
  induction fuel generalizing n ds with
  | zero => rfl
  | succ fuel ih =>
    simp only [Nat.toDigitsCore]
    split
    · rfl
    · rw [ih _ (_ :: ds), ih _ [_]]
      simp

theorem toDigitsCore_fuel (fuel other n : Nat) (enough : n < fuel) (otherEnough : n < other) :
    Nat.toDigitsCore 10 fuel n [] = Nat.toDigitsCore 10 other n [] := by
  induction fuel generalizing other n with
  | zero => omega
  | succ fuel ih =>
    obtain ⟨other, rfl⟩ : ∃ k, other = k + 1 := ⟨other - 1, by omega⟩
    simp only [Nat.toDigitsCore]
    split
    · rfl
    · rw [toDigitsCore_append fuel _ [_], toDigitsCore_append other _ [_], ih other (n / 10) (by omega) (by omega)]

theorem toDigits_small (n : Nat) (small : n < 10) : Nat.toDigits 10 n = [Nat.digitChar n] := by
  simp [Nat.toDigits, Nat.toDigitsCore, Nat.div_eq_of_lt small, Nat.mod_eq_of_lt small]

theorem toDigits_large (n : Nat) (large : 10 ≤ n) :
    Nat.toDigits 10 n = Nat.toDigits 10 (n / 10) ++ [Nat.digitChar (n % 10)] := by
  have positive : n / 10 ≠ 0 := by omega
  rw [Nat.toDigits, Nat.toDigitsCore, if_neg positive, toDigitsCore_append, Nat.toDigits,
    toDigitsCore_fuel n (n / 10 + 1) (n / 10) (by omega) (by omega)]

theorem toDigits_ne_nil (n : Nat) : Nat.toDigits 10 n ≠ [] := by
  rcases Nat.lt_or_ge n 10 with small | large
  · simp [toDigits_small n small]
  · simp [toDigits_large n large]

/-- One digit is never two or more. -/
theorem toDigits_small_ne_large (a b : Nat) (small : a < 10) (large : 10 ≤ b) :
    Nat.toDigits 10 a ≠ Nat.toDigits 10 b := fun same => by
  have lengths := congrArg List.length same
  rw [toDigits_small a small, toDigits_large b large, List.length_singleton, List.length_append,
    List.length_singleton] at lengths
  exact toDigits_ne_nil (b / 10) (List.length_eq_zero.mp (by omega))

theorem digitChar_inj (a b : Nat) (aSmall : a < 10) (bSmall : b < 10) (same : Nat.digitChar a = Nat.digitChar b) :
    a = b := by
  have all : ∀ x y : Fin 10, Nat.digitChar x = Nat.digitChar y → x = y := by decide
  exact congrArg Fin.val (all ⟨a, aSmall⟩ ⟨b, bSmall⟩ same)

/-- `str(i)` tells the naturals apart. -/
theorem toDigits_inj (a b : Nat) (same : Nat.toDigits 10 a = Nat.toDigits 10 b) : a = b := by
  induction a using Nat.strong_induction_on generalizing b with
  | _ a ih =>
    rcases Nat.lt_or_ge a 10 with aSmall | aLarge <;> rcases Nat.lt_or_ge b 10 with bSmall | bLarge
    · rw [toDigits_small a aSmall, toDigits_small b bSmall, List.cons.injEq] at same
      exact digitChar_inj a b aSmall bSmall same.1
    · exact absurd same (toDigits_small_ne_large a b aSmall bLarge)
    · exact absurd same.symm (toDigits_small_ne_large b a bSmall aLarge)
    · rw [toDigits_large a aLarge, toDigits_large b bLarge] at same
      obtain ⟨front, last⟩ := List.append_inj' same rfl
      have high := ih (a / 10) (by omega) (b / 10) front
      have low := digitChar_inj _ _ (Nat.mod_lt a (by decide)) (Nat.mod_lt b (by decide)) (List.cons.inj last).1
      omega

theorem stepName_inj (a b : Nat) (same : stepName a = stepName b) : a = b := toDigits_inj a b same


/-! ## What a step writes

With repo names, every repo of a step is written below its own entry of the
step's directory, and the step's `dnf.conf` and `yum.conf` next to them. -/

/-- What holds of the tree when step `stepI` starts: its directory and those
of the steps after it are fresh, and in copy mode there is no symlink. -/
structure Ready (avoidSymlinks : Bool) (stepI : Nat) (tree : FileTree) : Prop where
  fresh : ∀ j, stepI ≤ j → FileTree.Fresh [stepName j] tree
  copies : avoidSymlinks = true → tree.NoSymlinks

theorem ready_empty (avoidSymlinks : Bool) : Ready avoidSymlinks 0 FileTree.empty :=
  ⟨fun _ _ => FileTree.fresh_empty _ (List.cons_ne_nil _ _), fun _ => FileTree.noSymlinks_empty⟩

theorem noLinkOn_stepDir (tree : FileTree) (stepI : Nat) (stepDir : tree.nodeAt [stepName stepI] = some .dir) :
    tree.NoLinkOn [stepName stepI] :=
  FileTree.NoLinkOn.snoc (FileTree.noLinkOn_nil _) fun node lookup => by rw [stepDir] at lookup; cases lookup; rfl

section Within

variable (builders : Builders) (avoidSymlinks : Bool)

/-- One RPM into a package directory no symlink lies on: only paths below it
change, and still no symlink lies on it. -/
theorem addRpm_within (step repoName : Str) (packageDir : List Str) (state result : FileTree × Dict Rpm (List Str))
    (rpm : Rpm) (plain : state.1.NoLinkOn packageDir) (short : packageDir.length + 2 < FileTree.resolveFuel)
    (copies : avoidSymlinks = true → state.1.NoSymlinks)
    (ok : addRpm builders avoidSymlinks step repoName packageDir state rpm = .ok result) :
    FileTree.Within packageDir state.1 result.1 ∧ result.1.NoLinkOn packageDir := by
  have below : ∀ name : Str, packageDir <+: packageDir ++ [name] := fun _ => List.prefix_append _ _
  unfold addRpm at ok
  split at ok
  · split at ok
    · next avoid =>
      obtain ⟨tree, copied, rfl⟩ := (Py.map_eq_ok _ _ _).1 ok
      obtain ⟨written, content, under, rfl⟩ :=
        FileTree.copy_eq_ok_noSymlinks (copies avoid) (by simpa using short) copied
      exact ⟨FileTree.within_put _ _ _ ((below _).trans under), plain.put _ rfl⟩
    · obtain ⟨tree, linked, rfl⟩ := (Py.map_eq_ok _ _ _).1 ok
      obtain ⟨-, rfl⟩ := FileTree.symlink_eq_ok_plain (by simpa using plain) (by simp; omega) linked
      refine ⟨FileTree.within_put _ _ _ (below _), plain.within (FileTree.within_put _ _ _ (List.prefix_refl _)) ?_⟩
      exact fun above => by simpa using above.length_le
  · cases ok
    exact ⟨FileTree.within_put _ _ _ (below _), plain.put _ rfl⟩

/-- A repo with a repo name, its entry of the step's directory fresh, is
written below that entry, and the repos stay as they are. -/
theorem addRepo_within (stepI : Nat) (repoChanges : Dict Str RepoChange) (state result : StepState)
    (entry : Str × RepoValue) (named : RepoName entry.1) (stepDir : state.tree.nodeAt [stepName stepI] = some .dir)
    (fresh : FileTree.Fresh [stepName stepI, entry.1] state.tree) (copies : avoidSymlinks = true → state.tree.NoSymlinks)
    (ok : addRepo builders avoidSymlinks stepI repoChanges state entry = .ok result) :
    FileTree.Within [stepName stepI, entry.1] state.tree result.tree ∧ result.repos = state.repos := by
  have stepPlain := noLinkOn_stepDir state.tree stepI stepDir
  have parents : ∀ rest : List Str, ∀ n < [stepName stepI, entry.1].length,
      (state.tree.nodeAt (([stepName stepI, entry.1] ++ rest).take n)).isSome := fun rest n small => by
    match n, small with
    | 0, _ => rfl
    | 1, _ => simp [stepDir]
  have copied : ∀ src, (state.tree.copytree src [stepName stepI, entry.1]).map
      (fun tree => { state with tree }) = .ok result →
      FileTree.Within [stepName stepI, entry.1] state.tree result.tree ∧ result.repos = state.repos := fun src ok => by
    obtain ⟨tree, copied, rfl⟩ := (Py.map_eq_ok _ _ _).1 ok
    exact ⟨FileTree.within_copytree _ _ _ _ (List.prefix_refl _) (by simpa using parents []) copied, rfl⟩
  have linked : ∀ target, (state.tree.symlink target [stepName stepI, entry.1]).map
      (fun tree => { state with tree }) = .ok result →
      FileTree.Within [stepName stepI, entry.1] state.tree result.tree ∧ result.repos = state.repos := fun target ok => by
    obtain ⟨tree, linked, rfl⟩ := (Py.map_eq_ok _ _ _).1 ok
    exact ⟨FileTree.within_symlink _ _ _ _ (List.prefix_refl _) stepPlain (by simp [FileTree.resolveFuel]) linked, rfl⟩
  unfold addRepo at ok
  simp only [pathParts_clean _ named.1, pathParts_clean _ (pkgs_clean _ named.1), List.singleton_append] at ok
  split at ok
  · split at ok
    · split at ok
      · cases ok
      · exact copied _ ok
    · exact linked _ ok
  · split at ok
    · split at ok
      · cases ok
      split at ok
      · exact copied _ ok
      · exact linked _ ok
    · obtain ⟨made, madeDirs, ok⟩ := (Py.bind_eq_ok _ _ _).1 ok
      obtain ⟨⟨built, rpmToPath⟩, builtAll, ok⟩ := (Py.bind_eq_ok _ _ _).1 ok
      cases ok
      have madeWithin := FileTree.within_makedirs _ _ _ ⟨_, rfl⟩ (parents _) madeDirs
      have rpms := Py.foldlM_invariant (fun state : FileTree × Dict Rpm (List Str) =>
          FileTree.Within [stepName stepI, entry.1] made state.1 ∧
            state.1.NoLinkOn [stepName stepI, entry.1, entry.1 ++ "-pkgs".toList] ∧
            (avoidSymlinks = true → state.1.NoSymlinks)) _
        (fun state rpm after early ok => by
          obtain ⟨writes, plain, clean⟩ := early
          obtain ⟨within, plainAfter⟩ := addRpm_within builders avoidSymlinks _ _ _ state after rpm plain
            (by simp [FileTree.resolveFuel]) clean ok
          refine ⟨writes.trans (within.mono ⟨_, rfl⟩), plainAfter, fun avoid => ?_⟩
          subst avoid
          exact addRpm_copies builders _ _ _ state after rpm (clean rfl) ok)
        _ _ _ ⟨FileTree.within_refl _ _, (stepPlain.below_fresh entry.1 [_] fresh).makedirs madeDirs,
          fun avoid => (copies avoid).makedirs madeDirs⟩ builtAll
      refine ⟨madeWithin.trans (rpms.1.trans ?_), rfl⟩
      exact FileTree.within_foldl _ _ _ (fun tree file _ _ => FileTree.within_put _ _ _ ⟨_, rfl⟩) _
        (FileTree.within_refl _ _)

/-- The loop over repos with distinct repo names, their entries fresh, changes
nothing outside their entries. -/
theorem addRepos_within (stepI : Nat) (repoChanges : Dict Str RepoChange) (entries : List (Str × RepoValue))
    (state result : StepState) (distinct : (entries.map Prod.fst).Nodup) (named : ∀ entry ∈ entries, RepoName entry.1)
    (stepDir : state.tree.nodeAt [stepName stepI] = some .dir)
    (fresh : ∀ entry ∈ entries, FileTree.Fresh [stepName stepI, entry.1] state.tree)
    (copies : avoidSymlinks = true → state.tree.NoSymlinks)
    (ok : entries.foldlM (addRepo builders avoidSymlinks stepI repoChanges) state = .ok result) :
    (∀ other, (∀ entry ∈ entries, ¬ [stepName stepI, entry.1] <+: other) →
      result.tree.nodeAt other = state.tree.nodeAt other) ∧ result.repos = state.repos := by
  have sameRepo : ∀ (a b : Str) (q : List Str), [stepName stepI, a] <+: [stepName stepI, b] ++ q → a = b :=
    fun a b q below => (List.cons_prefix_cons.mp (List.cons_prefix_cons.mp below).2).1
  induction entries generalizing state with
  | nil => cases ok; exact ⟨fun _ _ => rfl, rfl⟩
  | cons entry rest ih =>
    rw [List.map_cons, List.nodup_cons] at distinct
    rw [List.foldlM_cons] at ok
    obtain ⟨mid, first, later⟩ := (Py.bind_eq_ok _ _ _).1 ok
    obtain ⟨within, repos⟩ := addRepo_within builders avoidSymlinks stepI repoChanges state mid entry
      (named entry (List.mem_cons_self _ _)) stepDir (fresh entry (List.mem_cons_self _ _)) copies first
    have midCopies : avoidSymlinks = true → mid.tree.NoSymlinks := fun avoid => by
      subst avoid
      exact addRepo_copies builders _ _ state mid entry (copies rfl) first
    obtain ⟨frame, restRepos⟩ := ih mid distinct.2 (fun other member => named other (List.mem_cons_of_mem _ member))
      (by rwa [within _ fun below => by simpa using below.length_le])
      (fun other member => (fresh other (List.mem_cons_of_mem _ member)).within within
        fun more below => distinct.1 (sameRepo _ _ _ below ▸ List.mem_map_of_mem _ member))
      midCopies later
    refine ⟨fun other outside => ?_, restRepos.trans repos⟩
    rw [frame other fun e member => outside e (List.mem_cons_of_mem _ member),
      within other (outside entry (List.mem_cons_self _ _))]

/-- The step's configuration files, written into its directory where
nothing stands at their names. -/
theorem writeFile_conf (tree : FileTree) (stepI : Nat) (name content : Str)
    (stepDir : tree.nodeAt [stepName stepI] = some .dir) (absent : tree.nodeAt [stepName stepI, name] = none) :
    tree.writeFile [stepName stepI, name] content = .ok (tree.put [stepName stepI, name] (.file content)) := by
  have parent : tree.NoLinkOn [stepName stepI, name].dropLast := noLinkOn_stepDir tree stepI stepDir
  refine FileTree.writeFile_plain _ _ _ (parent.snoc fun node lookup => by rw [absent] at lookup; cases lookup)
    (by simp [FileTree.resolveFuel]) stepDir (by rw [absent]; simp)

/-- The loop over a step's repos, from the step's directory just made where
it was fresh, writes below that directory and leaves it there, with nothing
at the names of its `dnf.conf` and `yum.conf`. -/
theorem addRepos_confFree (stepI : Nat) (repoChanges : Dict Str RepoChange) (state filled : StepState)
    (repos : Dict Str RepoValue) (fresh : FileTree.Fresh [stepName stepI] state.tree) (named : RepoNames repos)
    (copies : avoidSymlinks = true → state.tree.NoSymlinks)
    (ok : repos.items.foldlM (addRepo builders avoidSymlinks stepI repoChanges)
      { state with tree := state.tree.put [stepName stepI] .dir, repos } = .ok filled) :
    FileTree.Within [stepName stepI] (state.tree.put [stepName stepI] .dir) filled.tree ∧ filled.repos = repos ∧
      filled.tree.nodeAt [stepName stepI] = some .dir ∧
      ∀ conf ∈ ["dnf.conf".toList, "yum.conf".toList], filled.tree.nodeAt [stepName stepI, conf] = none := by
  obtain ⟨frame, filledRepos⟩ := addRepos_within builders avoidSymlinks stepI repoChanges repos.items
    { state with tree := state.tree.put [stepName stepI] .dir, repos } filled repos.nodup
    (fun entry member => named entry.1 (List.mem_map_of_mem _ member)) (FileTree.nodeAt_put_self _ _ _ (by simp))
    (fun entry _ rest => by
      rw [FileTree.nodeAt_put_of_ne _ _ _ _ (by simp)]
      exact fresh (entry.1 :: rest))
    (fun avoid => (copies avoid).put _ (show Node.dir.isSymlink = false from rfl)) ok
  refine ⟨fun other outside => frame other fun entry _ below => outside ((List.prefix_append _ _).trans below),
    filledRepos, ?_, fun conf isConf => ?_⟩
  · rw [frame _ fun entry _ below => by simpa using below.length_le, FileTree.nodeAt_put_self _ _ _ (by simp)]
  · have other : ∀ entry ∈ repos.items, entry.1 ≠ conf := fun entry member same => by
      have repoName := named entry.1 (List.mem_map_of_mem _ member)
      rw [same] at repoName
      simp only [List.mem_cons, List.mem_singleton, List.not_mem_nil, or_false] at isConf
      rcases isConf with rfl | rfl
      exacts [repoName.2.1 rfl, repoName.2.2 rfl]
    rw [frame _ fun entry member ⟨_, same⟩ => other entry member (List.cons.inj (List.cons.inj same).2).1,
      FileTree.nodeAt_put_of_ne _ _ _ _ (by simp)]
    exact fresh [conf]

/-- A step whose repo loop completes, from a fresh directory and on repos
with repo names, writes its `dnf.conf` and `yum.conf` and completes. -/
theorem runStep_of_repos (outDir : Str) (state filled : StepState) (step : Nat × Dict Str RepoChange)
    (repos : Dict Str RepoValue) (changed : applyChanges state.repos step.2 = .ok repos)
    (fresh : FileTree.Fresh [stepName step.1] state.tree) (named : RepoNames repos)
    (copies : avoidSymlinks = true → state.tree.NoSymlinks)
    (ok : repos.items.foldlM (addRepo builders avoidSymlinks step.1 step.2)
      { state with tree := state.tree.put [stepName step.1] .dir, repos } = .ok filled) :
    runStep builders outDir avoidSymlinks state step = .ok { filled with
      tree := (filled.tree.put [stepName step.1, "dnf.conf".toList] (.file (confText outDir step.1 repos.keys))).put
        [stepName step.1, "yum.conf".toList] (.file (confText outDir step.1 repos.keys)) } := by
  obtain ⟨-, -, stepDir, confs⟩ := addRepos_confFree builders avoidSymlinks step.1 step.2 state filled repos fresh named
    copies ok
  have dnfAbsent := confs "dnf.conf".toList (by simp)
  have yumAbsent : (filled.tree.put [stepName step.1, "dnf.conf".toList]
      (.file (confText outDir step.1 repos.keys))).nodeAt [stepName step.1, "yum.conf".toList] = none := by
    rw [FileTree.nodeAt_put_of_ne _ _ _ _ (by simp)]
    exact confs _ (by simp)
  simp only [runStep, changed, FileTree.makedirs_top _ _ (fresh []), ok, Py.ok_bind,
    writeFile_conf _ _ _ _ stepDir dnfAbsent,
    writeFile_conf _ _ _ _ (by rw [FileTree.nodeAt_put_of_ne _ _ _ _ (by simp)]; exact stepDir) yumAbsent]
  rfl

/-- A step that starts ready, on repos with repo names and with changes that
name only repo names, writes only below its own directory, leaves the repos
its changes give, with repo names, and leaves the next step ready. -/
theorem runStep_within (outDir : Str) (state result : StepState) (step : Nat × Dict Str RepoChange)
    (ready : Ready avoidSymlinks step.1 state.tree) (reposNamed : RepoNames state.repos)
    (changesNamed : ∀ name ∈ step.2.keys, RepoName name)
    (ok : runStep builders outDir avoidSymlinks state step = .ok result) :
    FileTree.Within [stepName step.1] state.tree result.tree ∧ applyChanges state.repos step.2 = .ok result.repos ∧
      Ready avoidSymlinks (step.1 + 1) result.tree ∧ RepoNames result.repos := by
  obtain ⟨repos, changed, ok'⟩ := (Py.bind_eq_ok _ _ _).1 ok
  obtain ⟨tree, madeDir, ok'⟩ := (Py.bind_eq_ok _ _ _).1 ok'
  obtain ⟨filled, filledAll, -⟩ := (Py.bind_eq_ok _ _ _).1 ok'
  rw [FileTree.makedirs_top _ _ (ready.fresh step.1 le_rfl [])] at madeDir
  cases madeDir
  have named := applyChanges_repoNames _ _ _ reposNamed changesNamed changed
  obtain ⟨filledWithin, filledRepos, -⟩ := addRepos_confFree builders avoidSymlinks step.1 step.2 state filled repos
    (ready.fresh step.1 le_rfl) named ready.copies filledAll
  rw [runStep_of_repos builders avoidSymlinks outDir state filled step repos changed (ready.fresh step.1 le_rfl) named
    ready.copies filledAll] at ok
  cases ok
  have within : FileTree.Within [stepName step.1] state.tree
      ((filled.tree.put [stepName step.1, "dnf.conf".toList] (.file (confText outDir step.1 repos.keys))).put
        [stepName step.1, "yum.conf".toList] (.file (confText outDir step.1 repos.keys))) :=
    (FileTree.within_put _ _ _ (List.prefix_refl _)).trans
      (filledWithin.trans ((FileTree.within_put _ _ _ ⟨_, rfl⟩).trans (FileTree.within_put _ _ _ ⟨_, rfl⟩)))
  refine ⟨within, by rw [filledRepos]; exact changed, ⟨fun j later => ?_, fun avoid => ?_⟩, filledRepos ▸ named⟩
  · refine (ready.fresh j (by omega)).within within fun rest ⟨_, same⟩ => ?_
    have := stepName_inj _ _ (List.cons.inj same).1
    omega
  · have repoDirs := Py.foldlM_invariant (fun state : StepState => state.tree.NoSymlinks) _
      (fun state entry after early ok => by
        subst avoid
        exact addRepo_copies builders _ _ state after entry early ok) _ _ _
      ((ready.copies avoid).put _ (show Node.dir.isSymlink = false from rfl)) filledAll
    exact (repoDirs.put _ (show (Node.file _).isSymlink = false from rfl)).put _
      (show (Node.file _).isSymlink = false from rfl)

end Within

/-! ## Runs -/

/-- Steps from index `first` on, from a ready tree and repos with repo names,
on a history that names only repo names: the tree is ready for the step after
them, the repos keep repo names, and every path below none of their
directories is as it was. -/
theorem foldlM_runStep_within (builders : Builders) (outDir : Str) (avoidSymlinks : Bool) (first : Nat)
    (steps : List (Dict Str RepoChange)) (state result : StepState) (ready : Ready avoidSymlinks first state.tree)
    (reposNamed : RepoNames state.repos) (history : NamedHistory steps)
    (ran : (List.enumFrom first steps).foldlM (runStep builders outDir avoidSymlinks) state = .ok result) :
    Ready avoidSymlinks (first + steps.length) result.tree ∧ RepoNames result.repos ∧
      ∀ path, (∀ j, first ≤ j → j < first + steps.length → path.head? ≠ some (stepName j)) →
        result.tree.nodeAt path = state.tree.nodeAt path := by
  induction steps generalizing first state with
  | nil => cases ran; exact ⟨ready, reposNamed, fun _ _ => rfl⟩
  | cons step rest ih =>
    rw [List.enumFrom_cons, List.foldlM_cons] at ran
    obtain ⟨after, stepRan, restRan⟩ := (Py.bind_eq_ok _ _ _).1 ran
    obtain ⟨within, -, afterReady, afterNamed⟩ := runStep_within builders avoidSymlinks outDir state after
      (first, step) ready reposNamed (history step (List.mem_cons_self _ _)) stepRan
    obtain ⟨resultReady, resultNamed, frame⟩ := ih (first + 1) after afterReady afterNamed
      (fun changes member => history changes (List.mem_cons_of_mem _ member)) restRan
    refine ⟨by rw [show first + (step :: rest).length = first + 1 + rest.length by simp; omega]; exact resultReady,
      resultNamed, fun path outside => ?_⟩
    rw [frame path fun j later bound => outside j (by omega) (by simp at bound ⊢; omega),
      within path fun ⟨_, named⟩ => outside first le_rfl (by simp) (by rw [← named]; rfl)]

/-- With repo names, the directory `out_dir/i` holds at the end of a run what
it held when step `i` was done: no later step changes it. -/
theorem makeRepoSteps_stepDir_frozen (builders : Builders) (outDir : Str) (steps : List (Dict Str RepoChange))
    (avoidSymlinks : Bool) (named : NamedHistory steps) (final : FileTree)
    (ran : makeRepoSteps builders outDir steps avoidSymlinks = .ok final) (i : Nat) :
    ∃ written, makeRepoSteps builders outDir (steps.take (i + 1)) avoidSymlinks = .ok written ∧
      ∀ path, path.head? = some (stepName i) → final.nodeAt path = written.nodeAt path := by
  obtain ⟨finalState, ranAll, rfl⟩ := (Py.map_eq_ok _ _ _).1 ran
  rw [← List.take_append_drop (i + 1) steps, List.enum, List.enumFrom_append, List.foldlM_append] at ranAll
  obtain ⟨written, prefixRan, restRan⟩ := (Py.bind_eq_ok _ _ _).1 ranAll
  obtain ⟨ready, reposNamed, -⟩ := foldlM_runStep_within builders outDir avoidSymlinks 0 _ _ written
    (ready_empty avoidSymlinks) (fun _ member => by simp [Dict.keys] at member)
    (fun changes member => named changes (List.mem_of_mem_take member)) prefixRan
  refine ⟨written.tree, by rw [makeRepoSteps, List.enum, prefixRan]; rfl, fun path head => ?_⟩
  refine (foldlM_runStep_within builders outDir avoidSymlinks _ _ _ _ ready reposNamed
    (fun changes member => named changes (List.mem_of_mem_drop member)) restRan).2.2 path fun j later bound => ?_
  rw [head]
  intro same
  have := stepName_inj _ _ (Option.some.inj same)
  simp only [List.length_take, List.length_drop, Nat.zero_add] at later bound
  omega

/-- Builders that write empty files. -/
def emptyBuilders : Builders := ⟨fun rpm => (rpm.name, []), fun _ => []⟩

/-- `[{'a': Repo([x])}, {'a': Repo([x]), 'b': 'a'}]`: `x` is built at step 0
and linked at step 1, where `b` aliases `a`. -/
def relinkSteps : List (Dict Str RepoChange) :=
  [⟨[("a".toList, .repo ⟨[{ name := "x".toList, version := "1".toList, release := "1".toList }]⟩)], by decide⟩,
    ⟨[("a".toList, .repo ⟨[{ name := "x".toList, version := "1".toList, release := "1".toList }]⟩),
      ("b".toList, .alias "a".toList)], by decide⟩]

theorem makeRepoSteps_stepDir_frozen_relink :
    NamedHistory relinkSteps ∧ ∃ final, makeRepoSteps emptyBuilders "/o".toList relinkSteps false = .ok final ∧
      ∃ written, makeRepoSteps emptyBuilders "/o".toList (relinkSteps.take 1) false = .ok written ∧
        ∀ path, path.head? = some (stepName 0) → final.nodeAt path = written.nodeAt path := by
  obtain ⟨final, ran⟩ : ∃ final, makeRepoSteps emptyBuilders "/o".toList relinkSteps false = .ok final :=
    by exact ⟨_, rfl⟩
  exact ⟨by decide, final, ran, makeRepoSteps_stepDir_frozen emptyBuilders _ _ false (by decide) final ran 0⟩

end FsImage.Rpm.Tests
