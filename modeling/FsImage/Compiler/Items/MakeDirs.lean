import FsImage.Python.PosixPath
import Mathlib.Data.List.Infix

/-! `MakeDirsItem` of `compiler/items/make_dirs.py`.

The item makes `path_to_make` under `into_dir`. `provides` walks up from the
full path with `os.path.dirname` until the text equals `into_dir`, yielding
each directory on the way, and `build` applies the stat options to the
outermost directory it made. The stat option fields (`mode`, `user_group`)
are left out: nothing modelled here reads them.
-/

set_option autoImplicit false

namespace FsImage.Compiler.Items

open FsImage.Python FsImage.Python.PosixPath

/-- Modelled from the spec: `make_path_normal_relative`, behind
`coerce_path_field_normal_relative` of `compiler/items/common.py`, which is not
among the sources. The path is normalised, its leading slashes are stripped,
and a path that climbs out with a leading `..` is refused. -/
def makePathNormalRelative (origD : Str) : Py Str :=
  let d := lstrip '/' (normpath origD)
  if d = ['.', '.'] ∨ startswith d "../".toList then .error .assertionError else .ok d

/-- The fields of `MakeDirsItem` that `provides` and `build` read. -/
structure MakeDirsItem where
  intoDir : Str
  pathToMake : Str
  deriving DecidableEq, Repr

/-- What `build` asks of the subvolume, as paths inside the image: `mkdir -p`
of one path, then `build_stat_options` on another. With a build appliance the
`mkdir` runs there, on the same path below the work directory where the
subvolume is mounted. -/
structure BuildRequest where
  mkdirPath : Str
  statPath : Str
  deriving DecidableEq, Repr

namespace MakeDirsItem

/-- `customize_fields`, on the two path fields. -/
def customizeFields (intoDir pathToMake : Str) : Py MakeDirsItem := do
  let intoDir ← makePathNormalRelative intoDir
  let pathToMake ← makePathNormalRelative pathToMake
  pure ⟨intoDir, pathToMake⟩

/-- The `while` loop of `provides` from `inner_dir`, allowed `fuel` passes;
`none` when the fuel runs out first. -/
def providesFrom (intoDir : Str) (fuel : Nat) (innerDir : Str) : Option (List Str) :=
  if innerDir = intoDir then some []
  else match fuel with
    | 0 => none
    | fuel + 1 => (providesFrom intoDir fuel (dirname innerDir)).map (innerDir :: ·)

/-- `provides`: the paths of the `ProvidesDirectory` values it yields, in order. -/
def provides (item : MakeDirsItem) (fuel : Nat) : Option (List Str) :=
  providesFrom item.intoDir fuel (osJoin item.intoDir item.pathToMake)

/-- `build`: the full path is made, and the stat options go to
`into_dir` joined with the part of `path_to_make` before its first slash. -/
def build (item : MakeDirsItem) : BuildRequest :=
  { mkdirPath := osJoin item.intoDir item.pathToMake,
    statPath := osJoin item.intoDir ((split '/' item.pathToMake).headD []) }

/-- The directories `into_dir/c1/…/cj` for `j` from `k` down to `1`, which the
item makes for `path_to_make = c1/…/ck`. -/
def expectedProvides (intoDir : Str) (comps : List Str) : List Str :=
  comps.inits.tail.reverse.map fun head => osJoin intoDir (join '/' head)

/-! ## The normalised fields -/

/-- A field `customize_fields` accepts is `.` or clean components. -/
theorem makePathNormalRelative_shape (origD d : Str) (accepted : makePathNormalRelative origD = .ok d) :
    d = ['.'] ∨ ∃ comps, d = join '/' comps ∧ ∀ c ∈ comps, Clean c := by
  simp only [makePathNormalRelative] at accepted
  split at accepted
  · cases accepted
  next allowed =>
  cases accepted
  rcases lstrip_normpath origD with dot | ⟨top, dots, shape, clean, allDots⟩
  · exact .inl dot
  cases dots with
  | nil => exact .inr ⟨top, shape, clean⟩
  | cons first rest =>
    rw [allDots first (by simp)] at shape
    refine absurd ?_ allowed
    cases h : rest ++ top with
    | nil => simp [shape, h]
    | cons next tail => simp [shape, h, join_cons_cons, startswith]

/-- A normalised field is a join of components: `.` is one of them. -/
theorem makePathNormalRelative_components (origD d : Str)
    (accepted : makePathNormalRelative origD = .ok d) :
    ∃ comps, d = join '/' comps ∧ ∀ c ∈ comps, Component c := by
  rcases makePathNormalRelative_shape origD d accepted with rfl | ⟨comps, rfl, clean⟩
  · exact ⟨[['.']], rfl, by simp [Component]⟩
  · exact ⟨comps, rfl, fun c member => (clean c member).component⟩

theorem customizeFields_eq_ok (intoDir pathToMake : Str) (item : MakeDirsItem)
    (made : customizeFields intoDir pathToMake = .ok item) :
    makePathNormalRelative intoDir = .ok item.intoDir ∧
      makePathNormalRelative pathToMake = .ok item.pathToMake := by
  simp only [customizeFields, Py.bind_eq_ok, Py.pure_eq, Except.ok.injEq] at made
  obtain ⟨into, intoOk, toMake, toMakeOk, rfl⟩ := made
  exact ⟨intoOk, toMakeOk⟩

/-! ## The loop of `provides` -/

/-- `join '/'` tells apart lists of components. -/
theorem providesFrom_self (intoDir : Str) (fuel : Nat) : providesFrom intoDir fuel intoDir = some [] := by
  rw [providesFrom.eq_def, if_pos rfl]

theorem providesFrom_succ (intoDir : Str) (fuel : Nat) (innerDir : Str) (differ : innerDir ≠ intoDir) :
    providesFrom intoDir (fuel + 1) innerDir =
      (providesFrom intoDir fuel (dirname innerDir)).map (innerDir :: ·) := by
  rw [providesFrom.eq_def, if_neg differ]

theorem mem_inits_tail (head parts : List Str) (member : head ∈ parts.inits.tail) :
    head ≠ [] ∧ head <+: parts := by
  cases parts with
  | nil => simp at member
  | cons first rest =>
    simp only [List.inits_cons, List.tail_cons, List.mem_map, List.mem_inits] at member
    obtain ⟨front, isPrefix, rfl⟩ := member
    exact ⟨by simp, (List.prefix_cons_inj first).mpr isPrefix⟩

/-- Walking up from `base/d1/…/dk` stops at `base` after yielding
`base/d1/…/dj` for `j` from `k` down to `1`. -/
theorem providesFrom_join (base parts : List Str) (baseComponents : ∀ p ∈ base, Component p)
    (components : ∀ p ∈ parts, Component p) (fuel : Nat) (enough : parts.length ≤ fuel) :
    providesFrom (join '/' base) fuel (join '/' (base ++ parts)) =
      some (parts.inits.tail.reverse.map fun head => join '/' (base ++ head)) := by
  induction parts using List.reverseRecOn generalizing fuel with
  | nil => simp [providesFrom_self]
  | append_singleton parts last ih =>
    have allComponents : ∀ p ∈ base ++ parts ++ [last], Component p := by
      simp only [List.mem_append, List.mem_singleton]
      rintro p ((member | member) | rfl)
      · exact baseComponents p member
      · exact components p (by simp [member])
      · exact components p (by simp)
    have deeper : join '/' (base ++ (parts ++ [last])) ≠ join '/' base := fun same => by
      have := congrArg List.length (join_inj _ _ (by simpa using allComponents) baseComponents same)
      simp at this
    obtain ⟨fuel, rfl⟩ : ∃ rest, fuel = rest + 1 := ⟨fuel - 1, by simp at enough; omega⟩
    rw [providesFrom_succ _ _ _ deeper, ← List.append_assoc,
      dirname_join_append _ _ (fun p member => allComponents p (List.mem_append_left _ member))
        (components last (by simp)).2,
      ih (fun p member => components p (by simp [member])) fuel (by simp at enough; omega)]
    have started : parts.inits ≠ [] := by cases parts <;> simp
    simp [List.inits_append, started]

/-- `provides` of an item whose path to make is clean components yields
exactly `into_dir/c1/…/cj` for `j` from `k` down to `1`. -/
theorem provides_eq_expectedProvides (item : MakeDirsItem) (base comps : List Str)
    (baseComponents : ∀ p ∈ base, Component p) (clean : ∀ c ∈ comps, Clean c) (nonempty : comps ≠ [])
    (into : item.intoDir = join '/' base) (toMake : item.pathToMake = join '/' comps)
    (fuel : Nat) (enough : comps.length ≤ fuel) :
    item.provides fuel = some (expectedProvides item.intoDir comps) := by
  have components : ∀ c ∈ comps, Component c := fun c member => (clean c member).component
  have relative : ∀ head : List Str, head ≠ [] → (∀ c ∈ head, Component c) →
      osJoin (join '/' base) (join '/' head) = join '/' (base ++ head) := by
    intro head headNonempty headComponents
    obtain ⟨first, rest, rfl⟩ := List.exists_cons_of_ne_nil headNonempty
    obtain ⟨x, tail, rfl⟩ := List.exists_cons_of_ne_nil (headComponents first (by simp)).1
    have other : x ≠ '/' := fun same =>
      (headComponents (x :: tail) (by simp)).2 (same ▸ List.mem_cons_self x tail)
    refine osJoin_join_join base _ baseComponents (by simp) ?_
    cases rest <;> simp [join_cons_cons, other]
  rw [provides, into, toMake, relative comps nonempty components,
    providesFrom_join base comps baseComponents components fuel enough, expectedProvides]
  refine congrArg some (List.map_congr_left fun head member => ?_)
  obtain ⟨headNonempty, isPrefix⟩ := mem_inits_tail head comps (List.mem_reverse.mp member)
  exact (relative head headNonempty fun c inHead => components c (isPrefix.subset inHead)).symm

/-- A path to make of one component free of slashes, `.` or empty, is done
in at most one pass. -/
theorem providesFrom_join_single (base : List Str) (name : Str) (baseComponents : ∀ p ∈ base, Component p)
    (noSlash : '/' ∉ name) (fuel : Nat) :
    ∃ yielded, providesFrom (join '/' base) (fuel + 1) (join '/' (base ++ [name])) = some yielded := by
  by_cases same : join '/' (base ++ [name]) = join '/' base
  · exact ⟨[], by rw [same, providesFrom_self]⟩
  · refine ⟨[join '/' (base ++ [name])], ?_⟩
    rw [providesFrom_succ _ _ _ same, dirname_join_append _ _ baseComponents noSlash, providesFrom_self]
    rfl

theorem osJoin_join_single (base : List Str) (name : Str) (baseComponents : ∀ p ∈ base, Component p)
    (noSlash : '/' ∉ name) : osJoin (join '/' base) name = join '/' (base ++ [name]) :=
  osJoin_join_join base [name] baseComponents (by simp) fun first => noSlash (List.mem_of_mem_head? first)

/-- For every item `customize_fields` accepts, the loop of `provides` ends
within one pass more than the length of `path_to_make`. -/
theorem provides_terminates (intoDir pathToMake : Str) (item : MakeDirsItem)
    (made : customizeFields intoDir pathToMake = .ok item) :
    ∃ yielded, item.provides (item.pathToMake.length + 1) = some yielded := by
  obtain ⟨intoOk, toMakeOk⟩ := customizeFields_eq_ok intoDir pathToMake item made
  obtain ⟨base, into, baseComponents⟩ := makePathNormalRelative_components intoDir _ intoOk
  rw [provides, into]
  rcases makePathNormalRelative_shape pathToMake _ toMakeOk with dot | ⟨comps, toMake, clean⟩
  · rw [dot, osJoin_join_single base _ baseComponents (by decide)]
    exact providesFrom_join_single base _ baseComponents (by decide) 1
  rcases eq_or_ne comps [] with rfl | nonempty
  · rw [toMake, join_nil, osJoin_join_single base [] baseComponents (List.not_mem_nil _)]
    exact providesFrom_join_single base [] baseComponents (List.not_mem_nil _) 0
  · refine ⟨_, provides_eq_expectedProvides ⟨join '/' base, item.pathToMake⟩ base comps baseComponents
      clean nonempty rfl toMake _ ?_⟩
    simpa [toMake] using length_le_length_join '/' comps

theorem provides_terminates_etc :
    customizeFields "/etc/".toList "a/b".toList = .ok ⟨"etc".toList, "a/b".toList⟩ ∧
      ∃ yielded, (⟨"etc".toList, "a/b".toList⟩ : MakeDirsItem).provides ("a/b".toList.length + 1) =
        some yielded :=
  ⟨by decide, provides_terminates "/etc/".toList "a/b".toList ⟨"etc".toList, "a/b".toList⟩ (by decide)⟩

/-- For an item whose `path_to_make` is neither `.` nor empty, `provides`
yields exactly `into_dir/c1/…/cj` for `j` from `k` down to `1` over the clean
components of `path_to_make`, and `build` applies the stat options to the last
of them, `into_dir/c1`. -/
theorem provides_chain (intoDir pathToMake : Str) (item : MakeDirsItem)
    (made : customizeFields intoDir pathToMake = .ok item)
    (proper : item.pathToMake ≠ [] ∧ item.pathToMake ≠ ['.']) :
    ∃ comps, comps ≠ [] ∧ (∀ c ∈ comps, Clean c) ∧ item.pathToMake = join '/' comps ∧
      (∀ fuel, comps.length ≤ fuel → item.provides fuel = some (expectedProvides item.intoDir comps)) ∧
      (expectedProvides item.intoDir comps).getLast? = some item.build.statPath := by
  obtain ⟨intoOk, toMakeOk⟩ := customizeFields_eq_ok intoDir pathToMake item made
  obtain ⟨base, into, baseComponents⟩ := makePathNormalRelative_components intoDir _ intoOk
  rcases makePathNormalRelative_shape pathToMake _ toMakeOk with dot | ⟨comps, toMake, clean⟩
  · exact absurd dot proper.2
  obtain ⟨first, rest, rfl⟩ := List.exists_cons_of_ne_nil fun empty : comps = [] =>
    proper.1 (by simp [toMake, empty])
  refine ⟨first :: rest, by simp, clean, toMake,
    provides_eq_expectedProvides item base _ baseComponents clean (by simp) into toMake, ?_⟩
  rw [build, toMake, split_join _ _ (by simp) fun c member => (clean c member).2.2.2]
  cases rest <;> simp [expectedProvides]

theorem provides_chain_etc :
    customizeFields "/etc/".toList "a/b".toList = .ok ⟨"etc".toList, "a/b".toList⟩ ∧
      ("a/b".toList ≠ [] ∧ "a/b".toList ≠ ['.']) ∧
      ∃ comps, comps ≠ [] ∧ (∀ c ∈ comps, Clean c) ∧ "a/b".toList = join '/' comps ∧
        (∀ fuel, comps.length ≤ fuel → (⟨"etc".toList, "a/b".toList⟩ : MakeDirsItem).provides fuel =
          some (expectedProvides "etc".toList comps)) ∧
        (expectedProvides "etc".toList comps).getLast? =
          some (⟨"etc".toList, "a/b".toList⟩ : MakeDirsItem).build.statPath :=
  ⟨by decide, by decide,
    provides_chain "/etc/".toList "a/b".toList ⟨"etc".toList, "a/b".toList⟩ (by decide) (by decide)⟩

/-- `path_to_make = "."` is accepted; `provides` then yields `x/.`, which is
`into_dir` itself once normalised, and `build` applies the stat options to it. -/
theorem provides_dot_yields_intoDir :
    customizeFields "x".toList ".".toList = .ok ⟨"x".toList, ".".toList⟩ ∧
      (⟨"x".toList, ".".toList⟩ : MakeDirsItem).provides 1 = some ["x/.".toList] ∧
      normpath "x/.".toList = "x".toList ∧
      (⟨"x".toList, ".".toList⟩ : MakeDirsItem).build.statPath = "x/.".toList := by
  decide

end MakeDirsItem

end FsImage.Compiler.Items
