import FsImage.Rpm.TempRepos

/-! The two modes of `make_repo_steps`, over whole runs.

`avoid_symlinks=True` is there to give a tree without symlinks: a run in that
mode that completes leaves none anywhere below `out_dir`. With symlinks, the
fixture runs every history that names only repo names, whose deletions name
existing repos, whose aliases name repos of their step and whose repos build
their RPMs into distinct file names. Both results come from what one pass of
each loop (over the RPMs of a repo, the repos of a step, the steps) keeps.
-/

set_option autoImplicit false

namespace FsImage.Rpm.Tests

open FsImage.Python

/-! ## Copies leave no symlinks -/

/-- With `avoid_symlinks=True`, a run that completes leaves no symlink
anywhere below `out_dir`: unchanged repos and aliases are copied trees, and
RPMs built before are copied files. -/
theorem makeRepoSteps_copies_noSymlinks (builders : Builders) (outDir : Str) (steps : List (Dict Str RepoChange)) (final : FileTree)
    (ran : makeRepoSteps builders outDir steps true = .ok final) : final.NoSymlinks := by
  obtain ⟨finalState, ranAll, rfl⟩ := (Py.map_eq_ok _ _ _).1 ran
  exact Py.foldlM_invariant (fun state : StepState => state.tree.NoSymlinks) _
    (fun state step after early ok => runStep_copies builders outDir state after step early ok) _ _ _
    FileTree.noSymlinks_empty ranAll

theorem makeRepoSteps_copies_noSymlinks_relink :
    ∃ final, makeRepoSteps emptyBuilders "/o".toList relinkSteps true = .ok final ∧ final.NoSymlinks := by
  obtain ⟨final, ran⟩ : ∃ final, makeRepoSteps emptyBuilders "/o".toList relinkSteps true = .ok final :=
    by exact ⟨_, rfl⟩
  exact ⟨final, ran, makeRepoSteps_copies_noSymlinks emptyBuilders _ _ final ran⟩

/-! ## With symlinks every well-formed history runs -/

/-- `rpm_to_path` maps each RPM to a path ending in the file name `build_rpm`
gives it. -/
def RpmPaths (builders : Builders) (rpmToPath : Dict Rpm (List Str)) : Prop :=
  ∀ rpm path, rpmToPath.get? rpm = some path → path.getLast? = some (builders.buildRpm rpm).1

/-- What the loop over the repos of a step needs of a repo the step sets: an
alias names a repo of the step (the `assert`), and a `Repo` builds its RPMs
into distinct file names, so that no link lands on a file already in its
package directory. -/
def SetRunnable (builders : Builders) (repos : Dict Str RepoValue) : RepoValue → Prop
  | .alias target => repos.contains target = true
  | .repo repo => (repo.rpms.map fun rpm => (builders.buildRpm rpm).1).Nodup

instance (builders : Builders) (repos : Dict Str RepoValue) :
    (value : RepoValue) → Decidable (SetRunnable builders repos value)
  | .alias target => inferInstanceAs (Decidable (repos.contains target = true))
  | .repo repo => inferInstanceAs (Decidable (repo.rpms.map fun rpm => (builders.buildRpm rpm).1).Nodup)

/-- A history `make_repo_steps` runs with symlinks, from the repos `repos`:
each step's deletions name existing repos (no `KeyError`), and every repo the
step sets is runnable. -/
def LinkRunnable (builders : Builders) : Dict Str RepoValue → List (Dict Str RepoChange) → Prop
  | _, [] => True
  | repos, changes :: rest => ∃ next, applyChanges repos changes = .ok next ∧
      (∀ entry ∈ next.items, changes.contains entry.1 = true → SetRunnable builders next entry.2) ∧
      LinkRunnable builders next rest

section Links

variable (builders : Builders)

theorem rpmPaths_empty : RpmPaths builders ⟨[], List.nodup_nil⟩ := fun _ _ found => by cases found

/-- One RPM, linked or built into a package directory no symlink lies on:
only its file there changes. -/
theorem addRpm_links (step repoName : Str) (packageDir : List Str) (state : FileTree × Dict Rpm (List Str))
    (rpm : Rpm) (plain : state.1.NoLinkOn packageDir) (short : packageDir.length < FileTree.resolveFuel)
    (dirAt : state.1.nodeAt packageDir = some .dir)
    (fresh : state.1.nodeAt (packageDir ++ [(builders.buildRpm rpm).1]) = none)
    (recorded : RpmPaths builders state.2) :
    ∃ result, addRpm builders false step repoName packageDir state rpm = .ok result ∧ RpmPaths builders result.2 ∧
      FileTree.Within (packageDir ++ [(builders.buildRpm rpm).1]) state.1 result.1 := by
  unfold addRpm
  split
  · next prevPath found =>
    simp only [recorded rpm prevPath found, Option.getD_some, Bool.false_eq_true, ↓reduceIte]
    rw [FileTree.symlink_plain state.1 _ (packageDir ++ [(builders.buildRpm rpm).1]) (by simpa using plain)
      (by simpa using short) (by simpa using dirAt) fresh (by simp)]
    exact ⟨_, rfl, recorded, FileTree.within_put _ _ _ (List.prefix_refl _)⟩
  · refine ⟨_, rfl, fun other path found => ?_, FileTree.within_put _ _ _ (List.prefix_refl _)⟩
    rw [Dict.get?_set] at found
    split at found
    · next same =>
      subst same
      cases found
      rw [List.getLast?_append]
      rfl
    · exact recorded other path found

/-- The loop over a repo's RPMs completes when their file names are distinct
and free in the package directory. -/
theorem addRpms_links (step repoName : Str) (packageDir : List Str) (rpms : List Rpm)
    (state : FileTree × Dict Rpm (List Str)) (distinct : (rpms.map fun rpm => (builders.buildRpm rpm).1).Nodup)
    (plain : state.1.NoLinkOn packageDir) (short : packageDir.length < FileTree.resolveFuel)
    (dirAt : state.1.nodeAt packageDir = some .dir)
    (fresh : ∀ rpm ∈ rpms, state.1.nodeAt (packageDir ++ [(builders.buildRpm rpm).1]) = none)
    (recorded : RpmPaths builders state.2) :
    ∃ result, rpms.foldlM (addRpm builders false step repoName packageDir) state = .ok result ∧
      RpmPaths builders result.2 ∧ FileTree.Within packageDir state.1 result.1 := by
  induction rpms generalizing state with
  | nil => exact ⟨state, rfl, recorded, FileTree.within_refl _ _⟩
  | cons rpm rest ih =>
    rw [List.map_cons, List.nodup_cons] at distinct
    obtain ⟨mid, added, midRecorded, within⟩ := addRpm_links builders step repoName packageDir state rpm plain short
      dirAt (fresh rpm (List.mem_cons_self _ _)) recorded
    have above : ¬ packageDir ++ [(builders.buildRpm rpm).1] <+: packageDir := fun below => by
      simpa using below.length_le
    have restFresh : ∀ other ∈ rest, mid.1.nodeAt (packageDir ++ [(builders.buildRpm other).1]) = none :=
      fun other member => by
        refine (within _ fun below => distinct.1 ?_).trans (fresh other (List.mem_cons_of_mem _ member))
        rw [(List.cons_prefix_cons.mp ((List.prefix_append_right_inj _).mp below)).1]
        exact List.mem_map_of_mem _ member
    obtain ⟨result, ran, resultRecorded, resultWithin⟩ :=
      ih mid distinct.2 (plain.within within above) (by rwa [within _ above]) restFresh midRecorded
    exact ⟨result, by rw [List.foldlM_cons, added]; exact ran, resultRecorded,
      (within.mono (List.prefix_append _ _)).trans resultWithin⟩

/-- One repo with a repo name, its entry of the step's directory fresh: a
symlink, or a package directory, its RPMs and the `createrepo_c` output, all
below the repo's entry. -/
theorem addRepo_links (stepI : Nat) (repoChanges : Dict Str RepoChange) (state : StepState) (entry : Str × RepoValue)
    (named : RepoName entry.1) (stepDir : state.tree.nodeAt [stepName stepI] = some .dir)
    (fresh : FileTree.Fresh [stepName stepI, entry.1] state.tree)
    (runnable : repoChanges.contains entry.1 = true → SetRunnable builders state.repos entry.2)
    (recorded : RpmPaths builders state.rpmToPath) :
    ∃ result, addRepo builders false stepI repoChanges state entry = .ok result ∧ RpmPaths builders result.rpmToPath ∧
      FileTree.Within [stepName stepI, entry.1] state.tree result.tree ∧ result.repos = state.repos := by
  have stepPlain := noLinkOn_stepDir state.tree stepI stepDir
  have linked : ∀ target, ∃ result, (state.tree.symlink target [stepName stepI, entry.1]).map
      (fun tree => { state with tree }) = .ok result ∧ RpmPaths builders result.rpmToPath ∧
      FileTree.Within [stepName stepI, entry.1] state.tree result.tree ∧ result.repos = state.repos := fun target =>
    ⟨{ state with tree := state.tree.put [stepName stepI, entry.1] (.symlink target) },
      by rw [FileTree.symlink_plain _ _ [stepName stepI, entry.1] stepPlain (by simp [FileTree.resolveFuel]) stepDir (by simpa using fresh [])
        (by simp)]; rfl,
      recorded, FileTree.within_put _ _ _ (List.prefix_refl _), rfl⟩
  unfold addRepo
  simp only [pathParts_clean _ named.1, pathParts_clean _ (pkgs_clean _ named.1), List.singleton_append,
    Bool.false_eq_true, ↓reduceIte]
  split
  · exact linked _
  · next changed =>
    have runnable := runnable (by simpa using changed)
    split
    · next target value =>
      rw [value] at runnable
      rw [if_neg (by simpa [SetRunnable] using runnable)]
      exact linked _
    · next repo value =>
      rw [value] at runnable
      have parents : ∀ n < [stepName stepI, entry.1].length,
          (state.tree.nodeAt ([stepName stepI, entry.1, entry.1 ++ "-pkgs".toList].take n)).isSome := by
        intro n small
        match n, small with
        | 0, _ => rfl
        | 1, _ => simp [stepDir]
      obtain ⟨made, madeOk⟩ := FileTree.makedirs_of_fresh state.tree
        ([stepName stepI, entry.1] ++ [entry.1 ++ "-pkgs".toList]) (fresh [_])
      have rpmsFresh : ∀ rpm ∈ repo.rpms, made.nodeAt
          ([stepName stepI, entry.1] ++ [entry.1 ++ "-pkgs".toList] ++ [(builders.buildRpm rpm).1]) = none :=
        fun rpm _ => by
          rw [FileTree.makedirs_nodeAt _ _ _ _ (fun below => by simpa using below.length_le) madeOk]
          exact fresh [_, _]
      obtain ⟨⟨built, rpmToPath⟩, builtOk, builtRecorded, builtWithin⟩ :=
        addRpms_links builders (stepName stepI) entry.1
          ([stepName stepI, entry.1] ++ [entry.1 ++ "-pkgs".toList]) repo.rpms (made, state.rpmToPath) runnable
          ((stepPlain.below_fresh entry.1 [_] fresh).makedirs madeOk) (by simp [FileTree.resolveFuel])
          (FileTree.makedirs_made _ _ _ (by simp) madeOk) rpmsFresh recorded
      rw [madeOk, Py.ok_bind, builtOk, Py.ok_bind]
      refine ⟨_, rfl, builtRecorded, ?_, rfl⟩
      refine (FileTree.within_makedirs _ _ _ ⟨_, rfl⟩ parents madeOk).trans ((builtWithin.mono ⟨_, rfl⟩).trans ?_)
      exact FileTree.within_foldl _ _ _ (fun tree file _ _ => FileTree.within_put _ _ _ ⟨_, rfl⟩) _
        (FileTree.within_refl _ _)

/-- The loop over the repos of a step completes when they have distinct repo
names, their entries are fresh, the step's directory exists, and every repo
the step sets is runnable. -/
theorem addRepos_links (stepI : Nat) (repoChanges : Dict Str RepoChange) (entries : List (Str × RepoValue))
    (state : StepState) (distinct : (entries.map Prod.fst).Nodup) (named : ∀ entry ∈ entries, RepoName entry.1)
    (stepDir : state.tree.nodeAt [stepName stepI] = some .dir)
    (fresh : ∀ entry ∈ entries, FileTree.Fresh [stepName stepI, entry.1] state.tree)
    (runnable : ∀ entry ∈ entries, repoChanges.contains entry.1 = true → SetRunnable builders state.repos entry.2)
    (recorded : RpmPaths builders state.rpmToPath) :
    ∃ result, entries.foldlM (addRepo builders false stepI repoChanges) state = .ok result ∧
      RpmPaths builders result.rpmToPath := by
  induction entries generalizing state with
  | nil => exact ⟨state, rfl, recorded⟩
  | cons entry rest ih =>
    rw [List.map_cons, List.nodup_cons] at distinct
    obtain ⟨mid, added, midRecorded, within, repos⟩ := addRepo_links builders stepI repoChanges state entry
      (named entry (List.mem_cons_self _ _)) stepDir (fresh entry (List.mem_cons_self _ _))
      (runnable entry (List.mem_cons_self _ _)) recorded
    have apart : ∀ other ∈ rest, ∀ tail, ¬ [stepName stepI, entry.1] <+: [stepName stepI, other.1] ++ tail :=
      fun other member tail below => distinct.1 (by
        rw [(List.cons_prefix_cons.mp (List.cons_prefix_cons.mp below).2).1]
        exact List.mem_map_of_mem _ member)
    obtain ⟨result, ran, resultRecorded⟩ := ih mid distinct.2
      (fun other member => named other (List.mem_cons_of_mem _ member))
      (by rwa [within _ fun below => by simpa using below.length_le])
      (fun other member => (fresh other (List.mem_cons_of_mem _ member)).within within (apart other member))
      (fun other member => repos ▸ runnable other (List.mem_cons_of_mem _ member)) midRecorded
    exact ⟨result, by rw [List.foldlM_cons, added]; exact ran, resultRecorded⟩

/-- A step whose directory is fresh and whose changes apply and set runnable
repos with repo names completes. -/
theorem runStep_links (outDir : Str) (state : StepState) (i : Nat) (changes : Dict Str RepoChange)
    (next : Dict Str RepoValue) (changed : applyChanges state.repos changes = .ok next) (named : RepoNames next)
    (runnable : ∀ entry ∈ next.items, changes.contains entry.1 = true → SetRunnable builders next entry.2)
    (fresh : FileTree.Fresh [stepName i] state.tree) (recorded : RpmPaths builders state.rpmToPath) :
    ∃ result, runStep builders outDir false state (i, changes) = .ok result ∧ RpmPaths builders result.rpmToPath := by
  obtain ⟨filled, filledOk, filledRecorded⟩ := addRepos_links builders i changes next.items
    { state with tree := state.tree.put [stepName i] .dir, repos := next } next.nodup
    (fun entry member => named entry.1 (List.mem_map_of_mem _ member)) (FileTree.nodeAt_put_self _ _ _ (by simp))
    (fun entry _ rest => by
      rw [FileTree.nodeAt_put_of_ne _ _ _ _ (by simp)]
      exact fresh (entry.1 :: rest))
    runnable recorded
  exact ⟨_, runStep_of_repos builders false outDir state filled (i, changes) next changed fresh named
    (fun linked => by cases linked) filledOk, filledRecorded⟩

/-- Steps from index `first` on complete when the tree is ready for them, the
repos have repo names and the history from there names only repo names and is
runnable. -/
theorem foldlM_runStep_links (outDir : Str) (first : Nat) (steps : List (Dict Str RepoChange)) (state : StepState)
    (history : NamedHistory steps) (runnable : LinkRunnable builders state.repos steps)
    (ready : Ready false first state.tree) (reposNamed : RepoNames state.repos)
    (recorded : RpmPaths builders state.rpmToPath) :
    ∃ result, (List.enumFrom first steps).foldlM (runStep builders outDir false) state = .ok result := by
  induction steps generalizing first state with
  | nil => exact ⟨state, rfl⟩
  | cons changes rest ih =>
    obtain ⟨next, changed, setsRunnable, restRunnable⟩ := runnable
    have changesNamed := history changes (List.mem_cons_self _ _)
    obtain ⟨mid, stepRan, midRecorded⟩ := runStep_links builders outDir state first changes next changed
      (applyChanges_repoNames _ _ _ reposNamed changesNamed changed) setsRunnable (ready.fresh first le_rfl) recorded
    obtain ⟨-, repos, midReady, midNamed⟩ :=
      runStep_within builders false outDir state mid (first, changes) ready reposNamed changesNamed stepRan
    obtain ⟨result, ran⟩ := ih (first + 1) mid (fun more member => history more (List.mem_cons_of_mem _ member))
      (Except.ok.inj (changed.symm.trans repos) ▸ restRunnable) midReady midNamed midRecorded
    exact ⟨result, by rw [List.enumFrom_cons, List.foldlM_cons, stepRan]; exact ran⟩

end Links

/-- `[{'a': Repo([])}, {}]`: a repo made at step 0 and left unchanged at step 1. -/
def unchangedRepoSteps : List (Dict Str RepoChange) :=
  [⟨[("a".toList, .repo ⟨[]⟩)], by decide⟩, ⟨[], List.nodup_nil⟩]

/-- Step 0 of `unchangedRepoSteps` completes, leaves `a` in the repos and
nothing below `out_dir/1`. -/
theorem runStep_first_repo (builders : Builders) (outDir : Str) (avoidSymlinks : Bool) :
    ∃ state : StepState, state.tree.nodeAt [stepName 1] = none ∧ state.repos.items = [("a".toList, .repo ⟨[]⟩)] ∧
      runStep builders outDir avoidSymlinks ⟨FileTree.empty, ⟨[], List.nodup_nil⟩, ⟨[], List.nodup_nil⟩⟩
        (0, ⟨[("a".toList, .repo ⟨[]⟩)], by decide⟩) = .ok state := by
  obtain ⟨filled, filledOk⟩ : ∃ filled, [("a".toList, RepoValue.repo ⟨[]⟩)].foldlM
      (addRepo builders avoidSymlinks 0 ⟨[("a".toList, .repo ⟨[]⟩)], by decide⟩)
      ⟨FileTree.empty.put [stepName 0] .dir, ⟨[("a".toList, .repo ⟨[]⟩)], by decide⟩, ⟨[], List.nodup_nil⟩⟩ =
        .ok filled := by exact ⟨_, rfl⟩
  have ran := runStep_of_repos builders avoidSymlinks outDir
    ⟨FileTree.empty, ⟨[], List.nodup_nil⟩, ⟨[], List.nodup_nil⟩⟩ filled (0, ⟨[("a".toList, .repo ⟨[]⟩)], by decide⟩)
    ⟨[("a".toList, .repo ⟨[]⟩)], by decide⟩ rfl
    (FileTree.fresh_empty _ (List.cons_ne_nil _ _)) (by decide) (fun _ => FileTree.noSymlinks_empty) filledOk
  obtain ⟨-, changed, ready, -⟩ := runStep_within builders avoidSymlinks outDir _ _ _ (ready_empty avoidSymlinks)
    (by decide) (by decide) ran
  exact ⟨_, ready.fresh 1 le_rfl [], by rw [← Except.ok.inj changed]; rfl, ran⟩

/-- Step 1 of `unchangedRepoSteps` in copy mode: a `TypeError` from joining a
path with the `Repo` itself. -/
theorem runStep_unchanged_repo (builders : Builders) (outDir : Str) (state : StepState)
    (repos : state.repos.items = [("a".toList, .repo ⟨[]⟩)]) (fresh : state.tree.nodeAt [stepName 1] = none) :
    runStep builders outDir true state (1, ⟨[], List.nodup_nil⟩) = .error .typeError := by
  simp [runStep, applyChanges, FileTree.makedirs_top _ _ fresh, repos, addRepo, Dict.contains, Dict.keys]

theorem makeRepoSteps_unchanged_repo (builders : Builders) (outDir : Str) :
    (∃ tree, makeRepoSteps builders outDir unchangedRepoSteps false = .ok tree) ∧
      makeRepoSteps builders outDir unchangedRepoSteps true = .error .typeError := by
  obtain ⟨linked, ran⟩ := foldlM_runStep_links builders outDir 0 unchangedRepoSteps
    ⟨FileTree.empty, ⟨[], List.nodup_nil⟩, ⟨[], List.nodup_nil⟩⟩ (by decide)
    ⟨_, rfl, fun entry member _ => by
      obtain rfl := List.mem_singleton.mp (show entry ∈ [("a".toList, RepoValue.repo ⟨[]⟩)] from member)
      exact List.nodup_nil, _, rfl, (fun _ _ contains => nomatch contains), trivial⟩
    (ready_empty false) (by decide) (rpmPaths_empty builders)
  obtain ⟨copied, copiedFresh, copiedRepos, copiedRan⟩ := runStep_first_repo builders outDir true
  refine ⟨⟨linked.tree, by rw [makeRepoSteps, List.enum, ran]; rfl⟩, ?_⟩
  simp only [makeRepoSteps, unchangedRepoSteps, List.enum, List.enumFrom, List.foldlM_cons, List.foldlM_nil]
  rw [copiedRan, Py.ok_bind, runStep_unchanged_repo builders outDir copied copiedRepos copiedFresh]
  rfl

/-- `[{'b': 'a', 'a': Repo([])}]`: an alias listed before the repo it names. -/
def aliasFirstSteps : List (Dict Str RepoChange) :=
  [⟨[("b".toList, .alias "a".toList), ("a".toList, .repo ⟨[]⟩)], by decide⟩]

/-- The symlink to `a` may dangle until `a` is made; the copy of `0/a` finds
nothing yet. -/
theorem makeRepoSteps_alias_first (builders : Builders) (outDir : Str) :
    (∃ tree, makeRepoSteps builders outDir aliasFirstSteps false = .ok tree) ∧
      makeRepoSteps builders outDir aliasFirstSteps true = .error .fileNotFoundError := by
  obtain ⟨linked, ran⟩ := foldlM_runStep_links builders outDir 0 aliasFirstSteps
    ⟨FileTree.empty, ⟨[], List.nodup_nil⟩, ⟨[], List.nodup_nil⟩⟩ (by decide)
    ⟨_, rfl, fun entry member _ => by
      rcases List.mem_pair.mp (show entry ∈ [("b".toList, RepoValue.alias "a".toList), ("a".toList, .repo ⟨[]⟩)]
        from member) with rfl | rfl
      exacts [rfl, List.nodup_nil], trivial⟩
    (ready_empty false) (by decide) (rpmPaths_empty builders)
  exact ⟨⟨linked.tree, by rw [makeRepoSteps, List.enum, ran]; rfl⟩, rfl⟩

end FsImage.Rpm.Tests
