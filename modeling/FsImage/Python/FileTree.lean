import FsImage.Python.Dict

/-! The files below one directory, as `os` and `shutil` change them.

Paths are lists of names relative to that directory, which is the empty
path and always a directory. A symlink holds the text of its target, read
relative to the directory holding the link. Resolution follows symlinks at
every component, with a bound on how many it follows, as the kernel's loop
limit does. `open(path, 'w')` writes where the path resolves to, and
`os.symlink` makes its link in the directory its parent path resolves to.
Simplifications: modes, owners and times are not modelled; `makedirs` and
`copytree` act at the path as written, without following symlinks on it, and
`makedirs` does not check that an existing parent is a directory; a `..` in a
path given to an operation is a name, where the kernel would climb; a path
that climbs above the top directory is outside the tree, and an operation on
it raises.
-/

set_option autoImplicit false

namespace FsImage.Python

/-- A directory, a regular file with its contents, or a symlink with its
target's text. -/
inductive Node where
  | dir
  | file (content : Str)
  | symlink (target : Str)
  deriving DecidableEq, Repr

/-- Whether a node is a symlink. -/
def Node.isSymlink : Node → Bool
  | .symlink _ => true
  | _ => false

instance {κ ν : Type} [DecidableEq κ] [DecidableEq ν] : DecidableEq (Dict κ ν) := fun a b =>
  decidable_of_iff (a.items = b.items) (by cases a; cases b; simp)

/-- The entries below the top directory, by relative path. -/
structure FileTree where
  entries : Dict (List Str) Node
  deriving DecidableEq

namespace FileTree

/-- The tree of an empty directory. -/
def empty : FileTree := ⟨⟨[], List.nodup_nil⟩⟩

/-- The node at a path, without following symlinks. -/
def nodeAt (tree : FileTree) (path : List Str) : Option Node :=
  if path = [] then some .dir else tree.entries.get? path

/-- Makes or replaces the node at a path. -/
def put (tree : FileTree) (path : List Str) (node : Node) : FileTree := ⟨tree.entries.set path node⟩

theorem nodeAt_put_of_ne (tree : FileTree) (path other : List Str) (node : Node) (differ : other ≠ path) :
    (tree.put path node).nodeAt other = tree.nodeAt other := by
  simp [nodeAt, put, Dict.get?_set, differ]

theorem nodeAt_put_self (tree : FileTree) (path : List Str) (node : Node) (nonempty : path ≠ []) :
    (tree.put path node).nodeAt path = some node := by
  simp [nodeAt, put, Dict.get?_set, nonempty]

/-- Writing files below `dir` leaves every path outside `dir` as it was. -/
theorem nodeAt_writeFiles (tree : FileTree) (dir other : List Str) (files : List (List Str × Str))
    (outside : ¬ dir <+: other) :
    (files.foldl (fun tree file => tree.put (dir ++ file.1) (.file file.2)) tree).nodeAt other =
      tree.nodeAt other := by
  induction files generalizing tree with
  | nil => rfl
  | cons file rest ih =>
    rw [List.foldl_cons, ih, nodeAt_put_of_ne]
    rintro rfl
    exact outside (List.prefix_append _ _)

/-- The directory a relative symlink target names, from the directory that
holds the link; `none` when it climbs above the top directory. -/
def linkTarget (link : List Str) (target : Str) : Option (List Str) :=
  (split '/' target).foldlM
    (fun dir comp =>
      if comp = ['.', '.'] then (if dir = [] then none else some dir.dropLast)
      else if comp = [] ∨ comp = ['.'] then some dir
      else some (dir ++ [comp]))
    link.dropLast

/-- The path with every symlink among its components replaced by what it
points to, following at most `fuel` components and links. -/
def resolveFrom (tree : FileTree) : Nat → List Str → List Str → Option (List Str)
  | 0, _, _ => none
  | _ + 1, done, [] => some done
  | fuel + 1, done, comp :: rest =>
    match tree.nodeAt (done ++ [comp]) with
    | some (.symlink target) =>
      (linkTarget (done ++ [comp]) target).bind fun dest => resolveFrom tree fuel [] (dest ++ rest)
    | _ => resolveFrom tree fuel (done ++ [comp]) rest

/-- How many links resolution follows, with every component counted too. -/
def resolveFuel : Nat := 64

/-- `os.path.realpath`, inside the tree. -/
def resolve (tree : FileTree) (path : List Str) : Option (List Str) :=
  tree.resolveFrom resolveFuel [] path

/-- The node a path names once symlinks are followed. -/
def target (tree : FileTree) (path : List Str) : Option Node :=
  (tree.resolve path).bind tree.nodeAt

/-- The names in a directory, in the order they were made. -/
def children (tree : FileTree) (dir : List Str) : List Str :=
  tree.entries.keys.filterMap fun path => if path.dropLast = dir ∧ path ≠ [] then path.getLast? else none

/-- What lies below a directory once symlinks are followed: each directory
and file by its path relative to the directory, parents first. -/
def listing (tree : FileTree) : Nat → List Str → List (List Str × Node)
  | 0, _ => []
  | fuel + 1, dir =>
    (tree.children dir).flatMap fun name =>
      match tree.target (dir ++ [name]) with
      | some .dir =>
        ([name], .dir) :: ((tree.resolve (dir ++ [name])).map (tree.listing fuel) |>.getD []).map
          fun entry => (name :: entry.1, entry.2)
      | some (.file content) => [([name], .file content)]
      | _ => []

/-- `os.makedirs(path)`: the path and its missing parents become directories;
`FileExistsError` when the path exists. -/
def makedirs (tree : FileTree) (path : List Str) : Py FileTree :=
  if (tree.nodeAt path).isSome then .error .fileExistsError
  else .ok ((List.range path.length).foldl
    (fun tree n => if (tree.nodeAt (path.take (n + 1))).isSome then tree else tree.put (path.take (n + 1)) .dir)
    tree)

/-- `os.makedirs` of a missing top-level name makes just that directory. -/
theorem makedirs_top (tree : FileTree) (name : Str) (fresh : tree.nodeAt [name] = none) :
    tree.makedirs [name] = .ok (tree.put [name] .dir) := by
  simp [FileTree.makedirs, fresh, List.range_succ]

/-- `os.symlink(target, link)`: the link is made in the directory the rest of
its path names, symlinks followed; `FileExistsError` when something, a
dangling symlink included, is there already, and `FileNotFoundError` when
that parent is not a directory. -/
def symlink (tree : FileTree) (target : Str) (link : List Str) : Py FileTree :=
  match tree.resolve link.dropLast, link.getLast? with
  | some parent, some name =>
    if tree.nodeAt parent ≠ some .dir then .error .fileNotFoundError
    else if (tree.nodeAt (parent ++ [name])).isSome then .error .fileExistsError
    else .ok (tree.put (parent ++ [name]) (.symlink target))
  | some _, none => .error .fileExistsError
  | none, _ => .error .osError

/-- `open(path, 'w')` and a write: the file the path names once its symlinks
are followed is made, or emptied, and filled. `IsADirectoryError` when that
is a directory, `FileNotFoundError` when its parent is not one, and `OSError`
when the path does not resolve. -/
def writeFile (tree : FileTree) (path : List Str) (content : Str) : Py FileTree :=
  match tree.resolve path with
  | none => .error .osError
  | some real =>
    if tree.nodeAt real = some .dir then .error .isADirectoryError
    else if tree.nodeAt real.dropLast = some .dir then .ok (tree.put real (.file content))
    else .error .fileNotFoundError

/-- `shutil.copy(src, dst)`: the contents of the file `src` names go to
`dst`, or into `dst` under the last name of `src` when `dst` names a
directory; `FileNotFoundError` without such a file, `SameFileError` when the
destination is that file, and what `open(dst, 'wb')` raises. -/
def copy (tree : FileTree) (src dst : List Str) : Py FileTree :=
  match tree.target src with
  | some (.file content) =>
    let dst := if tree.target dst = some .dir then dst ++ [src.getLast?.getD []] else dst
    if tree.resolve dst = tree.resolve src then .error .sameFileError else tree.writeFile dst content
  | _ => .error .fileNotFoundError

/-- `shutil.copytree(src, dst)`: `dst` and its parents are made, then every
directory and file below `src`, symlinks followed; `FileNotFoundError`
without a directory at `src`, `FileExistsError` when `dst` exists. -/
def copytree (tree : FileTree) (src dst : List Str) : Py FileTree :=
  match tree.target src, tree.resolve src with
  | some .dir, some source => do
    let made ← tree.makedirs dst
    pure ((tree.listing resolveFuel source).foldl (fun tree entry => tree.put (dst ++ entry.1) entry.2) made)
  | _, _ => .error .fileNotFoundError

/-! ## Writes below one directory -/

/-- `after` differs from `before` only at or below `dir`. -/
def Within (dir : List Str) (before after : FileTree) : Prop :=
  ∀ path, ¬ dir <+: path → after.nodeAt path = before.nodeAt path

theorem within_refl (dir : List Str) (tree : FileTree) : Within dir tree tree := fun _ _ => rfl

theorem Within.trans {dir : List Str} {first second third : FileTree} (early : Within dir first second)
    (late : Within dir second third) : Within dir first third := fun path outside => by
  rw [late path outside, early path outside]

/-- Writes below a directory are writes below each of its parents. -/
theorem Within.mono {dir outer : List Str} {before after : FileTree} (inner : Within dir before after)
    (parent : outer <+: dir) : Within outer before after := fun path outside =>
  inner path fun below => outside (parent.trans below)

theorem within_put (tree : FileTree) (path : List Str) (node : Node) {dir : List Str} (named : dir <+: path) :
    Within dir tree (tree.put path node) := fun other outside =>
  nodeAt_put_of_ne _ _ _ _ (by rintro rfl; exact outside named)

/-- A loop each of whose passes writes below `dir` writes below `dir`; a pass
may rely on the loop having written only below `dir` so far. -/
theorem within_foldl {β : Type} {dir : List Str} (f : FileTree → β → FileTree) (origin : FileTree) (xs : List β)
    (pass : ∀ tree, ∀ b ∈ xs, Within dir origin tree → Within dir tree (f tree b)) :
    ∀ tree, Within dir origin tree → Within dir origin (xs.foldl f tree) := fun tree start =>
  List.foldlRecOn (motive := Within dir origin) xs f tree start fun tree done b member =>
    done.trans (pass tree b member done)

theorem prefix_take_long {dir path : List Str} (named : dir <+: path) (n : Nat) (long : dir.length ≤ n) :
    dir <+: path.take n := by
  obtain ⟨rest, rfl⟩ := named
  rw [List.take_append_eq_append_take, List.take_of_length_le long]
  exact List.prefix_append _ _

/-- `os.makedirs` makes directories at the prefixes of its path; below `dir`
only, when the parents of `dir` exist. -/
theorem within_makedirs (tree made : FileTree) (path : List Str) {dir : List Str} (named : dir <+: path)
    (parents : ∀ n < dir.length, (tree.nodeAt (path.take n)).isSome)
    (ok : tree.makedirs path = .ok made) : Within dir tree made := by
  unfold FileTree.makedirs at ok
  split at ok
  · cases ok
  cases ok
  refine within_foldl _ tree _ (fun current n _ done => ?_) tree (within_refl dir tree)
  dsimp only
  split
  · exact within_refl dir current
  · next missing =>
    by_cases long : dir.length ≤ n + 1
    · exact within_put _ _ _ (prefix_take_long named _ long)
    · have short : ¬ dir <+: path.take (n + 1) := fun below => by
        have := below.length_le
        simp only [List.length_take] at this
        omega
      rw [done _ short, parents (n + 1) (by omega)] at missing
      exact absurd rfl missing

/-- The one parent of a top-level name, the top directory, always exists. -/
theorem parents_singleton (tree : FileTree) (top : Str) (path : List Str) :
    ∀ n < [top].length, (tree.nodeAt (path.take n)).isSome := fun n small => by
  obtain rfl : n = 0 := by simpa using small
  rfl

/-- `os.makedirs` changes only the prefixes of its path. -/
theorem makedirs_nodeAt (tree made : FileTree) (path other : List Str) (outside : ¬ other <+: path)
    (ok : tree.makedirs path = .ok made) : made.nodeAt other = tree.nodeAt other := by
  unfold FileTree.makedirs at ok
  split at ok
  · cases ok
  next absent =>
    cases ok
    clear absent
    induction List.range path.length generalizing tree with
    | nil => rfl
    | cons n rest ih =>
      rw [List.foldl_cons, ih]
      split
      · rfl
      · exact nodeAt_put_of_ne _ _ _ _ (by rintro rfl; exact outside (List.take_prefix _ _))

/-- `os.makedirs` leaves a directory at its path. -/
theorem makedirs_made (tree made : FileTree) (path : List Str) (nonempty : path ≠ [])
    (ok : tree.makedirs path = .ok made) : made.nodeAt path = some .dir := by
  unfold FileTree.makedirs at ok
  split at ok
  · cases ok
  next absent =>
    cases ok
    obtain ⟨m, whole⟩ : ∃ m, path.length = m + 1 := ⟨path.length - 1, by
      cases path with
      | nil => exact absurd rfl nonempty
      | cons _ _ => simp⟩
    have untouched := List.foldlRecOn (motive := fun t : FileTree => t.nodeAt path = tree.nodeAt path) (List.range m)
      (fun tree n => if (tree.nodeAt (path.take (n + 1))).isSome then tree else tree.put (path.take (n + 1)) .dir)
      tree rfl fun t same n member => by
        dsimp only
        split
        · exact same
        · rw [nodeAt_put_of_ne _ _ _ _ fun equal => by
            have lengths := congrArg List.length equal
            have small := List.mem_range.mp member
            rw [List.length_take] at lengths
            omega]
          exact same
    rw [whole, List.range_succ, List.foldl_append, List.foldl_cons, List.foldl_nil, ← whole, List.take_length]
    rw [if_neg (by rw [untouched]; exact absent)]
    exact nodeAt_put_self _ _ _ nonempty

theorem within_copytree (tree made : FileTree) (src dst : List Str) {dir : List Str} (named : dir <+: dst)
    (parents : ∀ n < dir.length, (tree.nodeAt (dst.take n)).isSome)
    (ok : tree.copytree src dst = .ok made) : Within dir tree made := by
  unfold FileTree.copytree at ok
  split at ok
  · obtain ⟨dirs, madeDirs, filled⟩ := (Py.bind_eq_ok _ _ _).1 ok
    cases filled
    refine (within_makedirs _ _ _ named parents madeDirs).trans
      (within_foldl _ dirs _ (fun tree entry _ _ => ?_) _ (within_refl _ _))
    exact within_put _ _ _ (named.trans (List.prefix_append _ _))
  · cases ok

/-! ## Paths nothing has been made at -/

/-- Nothing lies at or below `dir`. -/
def Fresh (dir : List Str) (tree : FileTree) : Prop := ∀ rest, tree.nodeAt (dir ++ rest) = none

theorem fresh_empty (dir : List Str) (nonempty : dir ≠ []) : Fresh dir empty := fun rest => by
  simp [nodeAt, nonempty, empty, Dict.get?]

/-- Writes below another directory, one that is no prefix of any path below
`dir`, leave `dir` fresh. -/
theorem Fresh.within {dir other : List Str} {before after : FileTree} (fresh : Fresh dir before)
    (writes : Within other before after) (apart : ∀ rest, ¬ other <+: dir ++ rest) : Fresh dir after :=
  fun rest => by rw [writes _ (apart rest), fresh rest]

theorem makedirs_of_fresh (tree : FileTree) (path : List Str) (fresh : tree.nodeAt path = none) :
    ∃ made, tree.makedirs path = .ok made := by
  simp [FileTree.makedirs, fresh]

/-! ## Trees without symlinks -/

/-- No path of the tree holds a symlink. -/
def NoSymlinks (tree : FileTree) : Prop := ∀ path node, tree.nodeAt path = some node → node.isSymlink = false

theorem noSymlinks_empty : empty.NoSymlinks := fun path node found => by
  by_cases root : path = []
  · simp [nodeAt, root] at found
    rw [← found]
    rfl
  · simp [nodeAt, root, empty, Dict.get?] at found

theorem NoSymlinks.put {tree : FileTree} (clean : tree.NoSymlinks) (path : List Str) {node : Node}
    (notLink : node.isSymlink = false) : (tree.put path node).NoSymlinks := fun other found lookup => by
  by_cases same : other = path
  · subst same
    by_cases root : other = []
    · exact clean other found (by rwa [root] at lookup ⊢)
    · rw [nodeAt_put_self _ _ _ root, Option.some.injEq] at lookup
      rwa [← lookup]
  · rw [nodeAt_put_of_ne _ _ _ _ same] at lookup
    exact clean other found lookup

theorem NoSymlinks.makedirs {tree made : FileTree} (clean : tree.NoSymlinks) {path : List Str}
    (ok : tree.makedirs path = .ok made) : made.NoSymlinks := by
  unfold FileTree.makedirs at ok
  split at ok
  · cases ok
  · cases ok
    refine List.foldlRecOn (motive := NoSymlinks) _ _ tree clean fun tree done n _ => ?_
    dsimp only
    split
    · exact done
    · exact done.put _ rfl

/-- Every entry of a listing is a directory or a file: symlinks are followed. -/
theorem listing_isSymlink (tree : FileTree) (fuel : Nat) (dir : List Str) :
    ∀ entry ∈ tree.listing fuel dir, entry.2.isSymlink = false := by
  induction fuel generalizing dir with
  | zero => simp [listing]
  | succ fuel ih =>
    intro entry member
    simp only [listing, List.mem_flatMap] at member
    obtain ⟨name, -, member⟩ := member
    split at member
    · rcases List.mem_cons.mp member with rfl | member
      · rfl
      · obtain ⟨sub, subMember, rfl⟩ := List.mem_map.mp member
        cases resolved : tree.resolve (dir ++ [name]) with
        | none => simp [resolved] at subMember
        | some found =>
          simp only [resolved, Option.map_some', Option.getD_some] at subMember
          exact ih found sub subMember
    · rw [List.mem_singleton.mp member]
      rfl
    · cases member

theorem NoSymlinks.copytree {tree made : FileTree} (clean : tree.NoSymlinks) {src dst : List Str}
    (ok : tree.copytree src dst = .ok made) : made.NoSymlinks := by
  unfold FileTree.copytree at ok
  split at ok
  · obtain ⟨dirs, madeDirs, filled⟩ := (Py.bind_eq_ok _ _ _).1 ok
    cases filled
    exact List.foldlRecOn (motive := NoSymlinks) _ _ dirs (clean.makedirs madeDirs) fun tree done entry member =>
      done.put _ (listing_isSymlink _ _ _ entry member)
  · cases ok

/-! ## Paths resolution leaves as they are -/

/-- A write changes one node: what a path holds after it, it held before or
was written. -/
theorem nodeAt_put_cases (tree : FileTree) (path other : List Str) (node found : Node)
    (lookup : (tree.put path node).nodeAt other = some found) : tree.nodeAt other = some found ∨ found = node := by
  by_cases same : other = path
  · subst same
    by_cases root : other = []
    · subst root
      exact .inl (by simpa [nodeAt] using lookup)
    · rw [nodeAt_put_self _ _ _ root] at lookup
      exact .inr (Option.some.inj lookup).symm
  · rw [nodeAt_put_of_ne _ _ _ _ same] at lookup
    exact .inl lookup

/-- No prefix of `path`, the path included, holds a symlink. -/
def NoLinkOn (tree : FileTree) (path : List Str) : Prop :=
  ∀ q, q <+: path → ∀ node, tree.nodeAt q = some node → node.isSymlink = false

theorem NoLinkOn.mono {tree : FileTree} {path shorter : List Str} (plain : tree.NoLinkOn path)
    (below : shorter <+: path) : tree.NoLinkOn shorter := fun q under => plain q (under.trans below)

theorem NoLinkOn.within {dir path : List Str} {before after : FileTree} (plain : before.NoLinkOn path)
    (writes : Within dir before after) (outside : ¬ dir <+: path) : after.NoLinkOn path := fun q below node found =>
  plain q below node (by rwa [writes q fun inside => outside (inside.trans below)] at found)

theorem NoLinkOn.put {tree : FileTree} {path : List Str} (plain : tree.NoLinkOn path) (written : List Str)
    {node : Node} (notLink : node.isSymlink = false) : (tree.put written node).NoLinkOn path :=
  fun q below found lookup => by
    rcases nodeAt_put_cases tree written q node found lookup with before | rfl
    exacts [plain q below found before, notLink]

theorem noLinkOn_nil (tree : FileTree) : tree.NoLinkOn [] := fun q below node found => by
  rw [List.prefix_nil.mp below] at found
  cases found
  rfl

/-- A path below a fresh directory has no symlink on it where its parent has
none. -/
theorem NoLinkOn.below_fresh {tree : FileTree} {dir : List Str} (plain : tree.NoLinkOn dir) (name : Str)
    (rest : List Str) (fresh : Fresh (dir ++ [name]) tree) : tree.NoLinkOn (dir ++ name :: rest) := by
  intro q below node found
  by_cases short : q.length ≤ dir.length
  · exact plain q (List.prefix_of_prefix_length_le below (List.prefix_append _ _) short) node found
  · have long : (dir ++ [name]).length ≤ q.length := by
      rw [List.length_append, List.length_singleton]
      omega
    obtain ⟨more, rfl⟩ := List.prefix_of_prefix_length_le ⟨rest, by simp⟩ below long
    rw [fresh more] at found
    cases found

/-- A path no symlink lies on up to its last component, which holds none. -/
theorem NoLinkOn.snoc {tree : FileTree} {path : List Str} (plain : tree.NoLinkOn path.dropLast)
    (last : ∀ node, tree.nodeAt path = some node → node.isSymlink = false) : tree.NoLinkOn path := by
  intro q below
  rcases List.eq_nil_or_concat path with rfl | ⟨front, name, rfl⟩
  · exact plain q below
  · rw [List.concat_eq_append] at plain last below
    rw [List.dropLast_concat] at plain
    rcases List.prefix_concat_iff.mp below with rfl | shorter
    exacts [last, plain q shorter]

/-- `after` holds what `before` held at every prefix of `path`. -/
def SameAlong (before after : FileTree) (path : List Str) : Prop :=
  ∀ q, q <+: path → after.nodeAt q = before.nodeAt q

theorem Within.sameAlong {dir path : List Str} {before after : FileTree} (writes : Within dir before after)
    (outside : ¬ dir <+: path) : SameAlong before after path := fun q below =>
  writes q fun inside => outside (inside.trans below)

theorem SameAlong.mono {path shorter : List Str} {before after : FileTree} (along : SameAlong before after path)
    (below : shorter <+: path) : SameAlong before after shorter := fun q under => along q (under.trans below)

theorem SameAlong.trans {path : List Str} {first second third : FileTree} (early : SameAlong first second path)
    (late : SameAlong second third path) : SameAlong first third path := fun q below => by
  rw [late q below, early q below]

theorem SameAlong.noLinkOn {path : List Str} {before after : FileTree} (along : SameAlong before after path)
    (plain : before.NoLinkOn path) : after.NoLinkOn path := fun q below node found =>
  plain q below node (by rwa [along q below] at found)

/-- `os.makedirs` makes directories only. -/
theorem NoLinkOn.makedirs {tree made : FileTree} {path dirs : List Str} (plain : tree.NoLinkOn path)
    (ok : tree.makedirs dirs = .ok made) : made.NoLinkOn path := by
  unfold FileTree.makedirs at ok
  split at ok
  · cases ok
  · cases ok
    refine List.foldlRecOn (motive := fun tree : FileTree => tree.NoLinkOn path) _ _ tree plain
      fun tree done n _ => ?_
    dsimp only
    split
    · exact done
    · exact done.put _ rfl

/-- Resolution walks through components that hold no symlink, one unit of
fuel each. -/
theorem resolveFrom_plain (tree : FileTree) (done front rest : List Str) (fuel : Nat)
    (plain : tree.NoLinkOn (done ++ front)) (enough : front.length ≤ fuel) :
    tree.resolveFrom fuel done (front ++ rest) = tree.resolveFrom (fuel - front.length) (done ++ front) rest := by
  induction front generalizing done fuel with
  | nil => simp
  | cons comp front ih =>
    obtain ⟨fuel, rfl⟩ : ∃ k, fuel = k + 1 := ⟨fuel - 1, by simp at enough; omega⟩
    have notLink : ∀ node, tree.nodeAt (done ++ [comp]) = some node → node.isSymlink = false :=
      plain _ ⟨front, by simp⟩
    rw [List.cons_append, resolveFrom]
    split
    · next target found => exact Bool.noConfusion (notLink _ found)
    · rw [ih (done ++ [comp]) fuel (by simpa using plain) (by simp at enough; omega)]
      simp

/-- A path no symlink lies on resolves to itself. -/
theorem resolve_plain (tree : FileTree) (path : List Str) (plain : tree.NoLinkOn path)
    (short : path.length < resolveFuel) : tree.resolve path = some path := by
  have walked := resolveFrom_plain tree [] path [] resolveFuel (by simpa using plain) short.le
  obtain ⟨k, left⟩ : ∃ k, resolveFuel - path.length = k + 1 := ⟨resolveFuel - path.length - 1, by omega⟩
  rw [List.append_nil, left] at walked
  rw [resolve, walked]
  rfl

theorem target_plain (tree : FileTree) (path : List Str) (plain : tree.NoLinkOn path)
    (short : path.length < resolveFuel) : tree.target path = tree.nodeAt path := by
  rw [target, resolve_plain tree path plain short]
  rfl

/-- A path whose last component is a symlink to a path no symlink lies on
names what lies there. -/
theorem target_link (tree : FileTree) (front : List Str) (name text : Str) (dest : List Str)
    (plainFront : tree.NoLinkOn front) (linked : tree.nodeAt (front ++ [name]) = some (.symlink text))
    (points : linkTarget (front ++ [name]) text = some dest) (plainDest : tree.NoLinkOn dest)
    (short : front.length + dest.length + 1 < resolveFuel) : tree.target (front ++ [name]) = tree.nodeAt dest := by
  have walked := resolveFrom_plain tree [] front [name] resolveFuel (by simpa using plainFront) (by omega)
  obtain ⟨k, left⟩ : ∃ k, resolveFuel - front.length = k + 1 := ⟨resolveFuel - front.length - 1, by omega⟩
  have arrived := resolveFrom_plain tree [] dest [] k (by simpa using plainDest) (by omega)
  obtain ⟨m, rest⟩ : ∃ m, k - dest.length = m + 1 := ⟨k - dest.length - 1, by omega⟩
  rw [List.append_nil, rest, List.nil_append] at arrived
  rw [List.nil_append, left] at walked
  rw [target, resolve, walked, resolveFrom, linked]
  simp only [points, Option.some_bind, List.append_nil, arrived]
  rfl

/-! ## Operations that resolve their paths

What a successful `open(path, 'w')`, `shutil.copy` or `os.symlink` changes,
and when they succeed on paths no symlink lies on. -/

theorem NoSymlinks.noLinkOn {tree : FileTree} (clean : tree.NoSymlinks) (path : List Str) : tree.NoLinkOn path :=
  fun q _ node found => clean q node found

/-- A write puts one file, wherever its path resolves to. -/
theorem writeFile_eq_ok {tree made : FileTree} {path : List Str} {content : Str}
    (ok : tree.writeFile path content = .ok made) : ∃ real, made = tree.put real (.file content) := by
  unfold writeFile at ok
  split at ok
  · cases ok
  · split at ok
    · cases ok
    · split at ok
      · cases ok
        exact ⟨_, rfl⟩
      · cases ok

/-- A write at a path no symlink lies on, whose parent is a directory and which
is none itself, puts the file there. -/
theorem writeFile_plain (tree : FileTree) (path : List Str) (content : Str) (plain : tree.NoLinkOn path)
    (short : path.length < resolveFuel) (parent : tree.nodeAt path.dropLast = some .dir)
    (notDir : tree.nodeAt path ≠ some .dir) : tree.writeFile path content = .ok (tree.put path (.file content)) := by
  simp only [writeFile, resolve_plain tree path plain short, if_neg notDir, parent, if_true]

theorem writeFile_eq_ok_plain {tree made : FileTree} {path : List Str} {content : Str} (plain : tree.NoLinkOn path)
    (short : path.length < resolveFuel) (ok : tree.writeFile path content = .ok made) :
    made = tree.put path (.file content) := by
  rw [writeFile, resolve_plain tree path plain short] at ok
  dsimp only at ok
  split at ok
  · cases ok
  · split at ok
    · cases ok
      rfl
    · cases ok

/-- A copy ends in a write, at its destination or inside it. -/
theorem copy_eq_ok_cases {tree made : FileTree} {src dst : List Str} (ok : tree.copy src dst = .ok made) :
    ∃ written content, (written = dst ∨ written = dst ++ [src.getLast?.getD []]) ∧
      tree.writeFile written content = .ok made := by
  unfold copy at ok
  split at ok
  · rename_i content _
    have either : (if tree.target dst = some .dir then dst ++ [src.getLast?.getD []] else dst) = dst ∨
        (if tree.target dst = some .dir then dst ++ [src.getLast?.getD []] else dst) = dst ++ [src.getLast?.getD []] := by
      split
      exacts [.inr rfl, .inl rfl]
    generalize (if tree.target dst = some .dir then dst ++ [src.getLast?.getD []] else dst) = written at ok either
    dsimp only at ok
    split at ok
    · cases ok
    · exact ⟨written, content, either, ok⟩
  · cases ok

theorem copy_eq_ok {tree made : FileTree} {src dst : List Str} (ok : tree.copy src dst = .ok made) :
    ∃ real content, made = tree.put real (.file content) := by
  obtain ⟨written, content, -, wrote⟩ := copy_eq_ok_cases ok
  obtain ⟨real, rfl⟩ := writeFile_eq_ok wrote
  exact ⟨real, content, rfl⟩

/-- A copy of a file to a fresh path no symlink lies on, in a directory,
writes the file's contents there. -/
theorem copy_fresh (tree : FileTree) (src dst : List Str) (content : Str) (file : tree.target src = some (.file content))
    (plain : tree.NoLinkOn dst) (short : dst.length < resolveFuel) (parent : tree.nodeAt dst.dropLast = some .dir)
    (fresh : tree.nodeAt dst = none) (other : tree.resolve src ≠ some dst) :
    tree.copy src dst = .ok (tree.put dst (.file content)) := by
  have resolved := resolve_plain tree dst plain short
  have notDir : tree.target dst ≠ some .dir := by rw [target_plain tree dst plain short, fresh]; simp
  simp only [copy, file, if_neg notDir, resolved]
  rw [if_neg (Ne.symm other), writeFile_plain tree dst content plain short parent (by rw [fresh]; simp)]

/-- Without symlinks, a copy writes a file at its destination or inside it. -/
theorem copy_eq_ok_noSymlinks {tree made : FileTree} {src dst : List Str} (clean : tree.NoSymlinks)
    (short : dst.length + 1 < resolveFuel) (ok : tree.copy src dst = .ok made) :
    ∃ written content, dst <+: written ∧ made = tree.put written (.file content) := by
  obtain ⟨written, content, either, wrote⟩ := copy_eq_ok_cases ok
  have below : dst <+: written := by rcases either with rfl | rfl <;> simp
  have bounded : written.length < resolveFuel := by
    rcases either with rfl | rfl
    · omega
    · rwa [List.length_append, List.length_singleton]
  exact ⟨written, content, below, writeFile_eq_ok_plain (clean.noLinkOn _) bounded wrote⟩

theorem NoSymlinks.writeFile {tree made : FileTree} (clean : tree.NoSymlinks) {path : List Str} {content : Str}
    (ok : tree.writeFile path content = .ok made) : made.NoSymlinks := by
  obtain ⟨real, rfl⟩ := writeFile_eq_ok ok
  exact clean.put real rfl

theorem NoSymlinks.copy {tree made : FileTree} (clean : tree.NoSymlinks) {src dst : List Str}
    (ok : tree.copy src dst = .ok made) : made.NoSymlinks := by
  obtain ⟨real, content, rfl⟩ := copy_eq_ok ok
  exact clean.put real rfl

theorem NoLinkOn.writeFile {tree made : FileTree} {path : List Str} (plain : tree.NoLinkOn path) {written : List Str}
    {content : Str} (ok : tree.writeFile written content = .ok made) : made.NoLinkOn path := by
  obtain ⟨real, rfl⟩ := writeFile_eq_ok ok
  exact plain.put real rfl

/-- A link is made in the directory its parent path resolves to, where nothing was. -/
theorem symlink_eq_ok {tree made : FileTree} {target : Str} {link : List Str}
    (ok : tree.symlink target link = .ok made) :
    ∃ parent name, tree.resolve link.dropLast = some parent ∧ link.getLast? = some name ∧
      tree.nodeAt (parent ++ [name]) = none ∧ made = tree.put (parent ++ [name]) (.symlink target) := by
  unfold symlink at ok
  split at ok
  · rename_i parent name resolved named
    split at ok
    · cases ok
    · split at ok
      · cases ok
      · rename_i absent
        cases ok
        exact ⟨parent, name, resolved, named, Option.not_isSome_iff_eq_none.mp absent, rfl⟩
  · cases ok
  · cases ok

/-- Where no symlink lies on its parent path, a link is made at its own path. -/
theorem symlink_eq_ok_plain {tree made : FileTree} {target : Str} {link : List Str}
    (plain : tree.NoLinkOn link.dropLast) (short : link.dropLast.length < resolveFuel)
    (ok : tree.symlink target link = .ok made) :
    tree.nodeAt link = none ∧ made = tree.put link (.symlink target) := by
  obtain ⟨parent, name, resolved, named, absent, rfl⟩ := symlink_eq_ok ok
  rw [resolve_plain tree _ plain short, Option.some.injEq] at resolved
  subst resolved
  rw [List.dropLast_append_getLast? _ named] at absent ⊢
  exact ⟨absent, rfl⟩

/-- A link at a fresh path, in a directory no symlink lies on, is made. -/
theorem symlink_plain (tree : FileTree) (target : Str) (link : List Str) (plain : tree.NoLinkOn link.dropLast)
    (short : link.dropLast.length < resolveFuel) (parent : tree.nodeAt link.dropLast = some .dir)
    (fresh : tree.nodeAt link = none) (nonempty : link ≠ []) :
    tree.symlink target link = .ok (tree.put link (.symlink target)) := by
  obtain ⟨front, name, rfl⟩ := (List.eq_nil_or_concat link).resolve_left nonempty
  simp only [List.concat_eq_append, List.dropLast_concat] at plain short parent fresh ⊢
  simp [symlink, resolve_plain tree front plain short, parent, fresh]

theorem within_symlink (tree made : FileTree) (target : Str) (link : List Str) {dir : List Str}
    (named : dir <+: link) (plain : tree.NoLinkOn link.dropLast) (short : link.dropLast.length < resolveFuel)
    (ok : tree.symlink target link = .ok made) : Within dir tree made := by
  rw [(symlink_eq_ok_plain plain short ok).2]
  exact within_put _ _ _ named

theorem within_copy_noSymlinks (tree made : FileTree) (src dst : List Str) {dir : List Str} (named : dir <+: dst)
    (clean : tree.NoSymlinks) (short : dst.length + 1 < resolveFuel) (ok : tree.copy src dst = .ok made) :
    Within dir tree made := by
  obtain ⟨written, content, below, rfl⟩ := copy_eq_ok_noSymlinks clean short ok
  exact within_put _ _ _ (named.trans below)

end FileTree

end FsImage.Python
