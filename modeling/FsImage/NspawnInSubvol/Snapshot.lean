import FsImage.NspawnInSubvol.Environment

/-! Where `_nspawn_setup` runs the container.

Without `--snapshot` the container runs in the layer itself, with
`--snapshot-into` in a snapshot at that path, and otherwise in a snapshot that
`_snapshot_subvol` names after its source: after the layer's parent directory,
or after the layer itself when it sits at the top level. For a layer at an
absolute path below `/` that name is one clean component of the layer's own
path, so the snapshot is a direct child of the temporary-subvolumes directory.
-/

set_option autoImplicit false

namespace FsImage.NspawnInSubvol

open FsImage.Python FsImage.Python.PosixPath

/-- The name an ephemeral snapshot of `c1/.../ck` is meant to get: the
parent's name `c(k-1)`, or `ck` at the top level. -/
def resemblingName (comps : List Str) : Str := comps.dropLast.getLast?.getD (comps.getLast?.getD [])

theorem resemblingName_mem (comps : List Str) (nonempty : comps ≠ []) : resemblingName comps ∈ comps := by
  obtain ⟨init, name, rfl⟩ := List.eq_nil_or_concat comps |>.resolve_left nonempty
  rcases List.eq_nil_or_concat init with rfl | ⟨front, parent, rfl⟩ <;> simp [resemblingName]

/-- `tmp_name` of `_snapshot_subvol` is the resembling name of the source's
normalised path, for every path. -/
theorem tmpName_eq_resemblingName (srcPath : Str) :
    tmpName srcPath = resemblingName (components (normpath srcPath)) := by
  obtain ⟨slashes, comps, parts, -, shape⟩ := normpath_shape srcPath
  have slashesOnly : basename (List.replicate slashes '/') = [] := by
    simpa using basename_slashes_append (List.replicate slashes '/') [] (fun c => List.eq_of_mem_replicate) (by simp)
  have topLevel : ∀ name : Str, '/' ∉ name → basename (dirname (List.replicate slashes '/' ++ name)) = [] :=
    fun name noSlash => by rw [dirname_slashes_append _ _ noSlash, slashesOnly]
  simp only [tmpName, shape, components_slashes_join slashes comps parts]
  rcases List.eq_nil_or_concat comps with rfl | ⟨init, name, rfl⟩
  · have noParent := topLevel [] (by simp)
    rw [List.append_nil] at noParent
    simp [resemblingName, noParent, slashesOnly]
  · have nameComponent : Component name := parts name (by simp)
    rcases List.eq_nil_or_concat init with rfl | ⟨front, parent, rfl⟩
    · have named := basename_slashes_join_snoc slashes [] name (by simp) nameComponent.2
      simp only [List.concat_eq_append, List.nil_append, join_singleton] at named ⊢
      simp [topLevel name nameComponent.2, named, resemblingName]
    · simp only [List.concat_eq_append] at parts ⊢
      have parentComponent : Component parent := parts parent (by simp)
      have frontComponents : ∀ p ∈ front, Component p := fun p member => parts p (by simp [member])
      rw [dirname_slashes_join_snoc _ _ _ (fun p member => parts p (List.mem_append_left _ member)) (by simp)
          nameComponent.2,
        basename_slashes_join_snoc _ _ _ frontComponents parentComponent.2]
      obtain ⟨x, rest, named⟩ := List.exists_cons_of_ne_nil parentComponent.1
      simp [named, resemblingName]

/-- Where `_nspawn_setup` means the container to run: the layer itself
without `--snapshot`, a snapshot at `--snapshot-into` when one is given, and
otherwise a snapshot in the temporary-subvolumes directory under the
resembling name of the layer. -/
def intendedSubvol (opts : NspawnOpts) (host : Host) : Subvol :=
  if !opts.snapshot then opts.layer
  else if truthy opts.debugOnlyOpts.snapshotInto then
    { opts.layer with path := opts.debugOnlyOpts.snapshotInto.getD [] }
  else
    { opts.layer with path := osJoin host.tempSubvolumesDir (resemblingName (components (normpath opts.layer.path))) }

/-- `_nspawn_setup` runs the container where it means to; an ephemeral
snapshot of a layer at an absolute path below `/` is named by one clean
component of the layer's path, so it lies directly in the
temporary-subvolumes directory. -/
theorem nspawnSetup_subvol (opts : NspawnOpts) (host : Host) (machine : Str) (setup : NspawnSetup)
    (built : nspawnSetup opts host machine = .ok setup) :
    setup.subvol = intendedSubvol opts host ∧
      (opts.layer.path.head? = some '/' → components (normpath opts.layer.path) ≠ [] →
        Clean (resemblingName (components (normpath opts.layer.path))) ∧
          resemblingName (components (normpath opts.layer.path)) ∈ components (normpath opts.layer.path)) := by
  refine ⟨?placed, fun rooted nonempty => ?clean⟩
  case placed =>
    simp only [nspawnSetup, nspawnSanitizeEnv_eq, Py.ok_bind, Py.pure_eq, Except.ok.injEq] at built
    subst built
    unfold intendedSubvol snapshotSubvol
    cases opts.snapshot <;> cases truthy opts.debugOnlyOpts.snapshotInto <;> simp [tmpName_eq_resemblingName]
  case clean =>
    obtain ⟨slashes, comps, -, clean, shape⟩ := normpath_shape opts.layer.path
    have member := resemblingName_mem _ nonempty
    rw [shape, components_slashes_join slashes comps fun c inComps => (clean rooted c inComps).component] at member ⊢
    exact ⟨clean rooted _ member, member⟩

/-- A layer two levels below `/`, snapshotted into the temporary directory. -/
def nestedLayerOpts : NspawnOpts :=
  { cmd := ["/bin/bash".toList], layer := ⟨"/layers/foo".toList, [], 0⟩,
    user := ⟨"nobody".toList, 65534, 65534⟩ }

/-- A host with an empty environment and `/tmp/subvols` for temporary subvolumes. -/
def scratchHost : Host := ⟨.empty, false, "/repo".toList, "/tmp/subvols".toList⟩

theorem nspawnSetup_subvol_nested :
    ∃ setup, nspawnSetup nestedLayerOpts scratchHost "m".toList = .ok setup ∧
      setup.subvol = intendedSubvol nestedLayerOpts scratchHost ∧
      (intendedSubvol nestedLayerOpts scratchHost).path = "/tmp/subvols/layers".toList ∧
      Clean (resemblingName (components (normpath nestedLayerOpts.layer.path))) := by
  obtain ⟨setup, built⟩ : ∃ setup, nspawnSetup nestedLayerOpts scratchHost "m".toList = .ok setup := ⟨_, rfl⟩
  obtain ⟨placed, named⟩ := nspawnSetup_subvol _ _ _ setup built
  exact ⟨setup, built, placed, by decide, (named (by decide) (by decide)).1⟩

end FsImage.NspawnInSubvol
