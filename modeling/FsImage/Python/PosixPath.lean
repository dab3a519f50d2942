import FsImage.Python.Text

/-! The functions of Python's `posixpath` that the modelled code calls.

They work on the text of a path, as CPython's do. Lemmas at the end relate
them to paths built from clean components, which is how the traversal and
the items describe the entries they name.
-/

set_option autoImplicit false

namespace FsImage.Python.PosixPath

/-- `os.path.join(a, b)`. -/
def osJoin (a b : Str) : Str :=
  if b.head? = some '/' then b
  else if a = [] ∨ a.getLast? = some '/' then a ++ b
  else a ++ '/' :: b

/-- `os.path.join(first, *rest)`. -/
def osJoinAll (first : Str) (rest : List Str) : Str := rest.foldl osJoin first

/-- One component of `normpath`'s loop; the stack holds `new_comps`, last first. -/
def normStep (absolute : Bool) (stack : List Str) (comp : Str) : List Str :=
  if comp = [] ∨ comp = ['.'] then stack
  else if comp ≠ ['.', '.'] ∨ (!absolute && stack.isEmpty) ∨ stack.head? = some ['.', '.'] then
    comp :: stack
  else stack.tail

/-- How many slashes `normpath` keeps at the front: POSIX gives two leading
slashes a meaning of their own, three or more count as one. -/
def initialSlashes (path : Str) : Nat :=
  if startswith path ['/'] then
    if startswith path ['/', '/'] && !startswith path ['/', '/', '/'] then 2 else 1
  else 0

/-- `os.path.normpath`. -/
def normpath (path : Str) : Str :=
  if path = [] then ['.']
  else
    let slashes := initialSlashes path
    let comps := ((split '/' path).foldl (normStep (slashes != 0)) []).reverse
    let result := List.replicate slashes '/' ++ join '/' comps
    if result = [] then ['.'] else result

/-- `os.path.dirname`. -/
def dirname (p : Str) : Str :=
  let head := (p.reverse.dropWhile (· ≠ '/')).reverse
  if head ≠ [] ∧ ¬ head.all (· == '/') then rstrip '/' head else head

/-- `os.path.basename`. -/
def basename (p : Str) : Str := (p.reverse.takeWhile (· ≠ '/')).reverse

/-- The length of `os.path.commonprefix` of two component lists. -/
def commonPrefixLength : List Str → List Str → Nat
  | a :: as, b :: bs => if a = b then commonPrefixLength as bs + 1 else 0
  | _, _ => 0

/-- The non-empty components of a path, `[x for x in p.split('/') if x]`. -/
def components (p : Str) : List Str := (split '/' p).filter (· ≠ [])

/-- `os.path.relpath(path, start)`. Every call in the modelled code passes two
absolute paths, for which `abspath` is `normpath`. -/
def relpath (path start : Str) : Str :=
  let startList := components (normpath start)
  let pathList := components (normpath path)
  let common := commonPrefixLength startList pathList
  let relList := List.replicate (startList.length - common) ['.', '.'] ++ pathList.drop common
  match relList with
  | [] => ['.']
  | first :: rest => osJoinAll first rest

/-! ## Paths made of clean components -/

/-- A component `normpath` keeps as it is. -/
def Clean (name : Str) : Prop := name ≠ [] ∧ name ≠ ['.'] ∧ name ≠ ['.', '.'] ∧ '/' ∉ name

instance (name : Str) : Decidable (Clean name) := inferInstanceAs (Decidable (_ ∧ _))

/-- A name `join '/'` glues and `split '/'` takes back apart: non-empty and
without a slash. -/
def Component (name : Str) : Prop := name ≠ [] ∧ '/' ∉ name

theorem Clean.component {name : Str} (clean : Clean name) : Component name := ⟨clean.1, clean.2.2.2⟩

/-- The absolute path `/c1/.../ck`; the root for no components. -/
def absPath (comps : List Str) : Str := '/' :: join '/' comps

/-- The stack `normpath` builds: clean components above a run of `..`, and
no `..` at all in an absolute path. -/
def NormStack (absolute : Bool) (stack : List Str) : Prop :=
  ∃ top dots, stack = top ++ dots ∧ (∀ c ∈ top, Clean c) ∧ (∀ c ∈ dots, c = ['.', '.']) ∧
    (absolute = true → dots = [])

theorem normStep_normStack (absolute : Bool) (stack : List Str) (comp : Str)
    (shaped : NormStack absolute stack) (noSlash : '/' ∉ comp) :
    NormStack absolute (normStep absolute stack comp) := by
  obtain ⟨top, dots, rfl, clean, allDots, rooted⟩ := shaped
  unfold normStep
  split
  · exact ⟨top, dots, rfl, clean, allDots, rooted⟩
  · next skip =>
    split
    · next push =>
      by_cases parent : comp = ['.', '.']
      · subst parent
        cases top with
        | nil =>
          refine ⟨[], ['.', '.'] :: dots, rfl, by simp, ?_, ?_⟩
          · simpa using allDots
          · intro isAbsolute
            subst isAbsolute
            cases rooted rfl
            simp at push
        | cons first rest =>
          have : first = ['.', '.'] := by simpa using push
          exact absurd this (clean first (by simp)).2.2.1
      · refine ⟨comp :: top, dots, rfl, ?_, allDots, rooted⟩
        intro c member
        rcases List.mem_cons.mp member with rfl | member
        · exact ⟨fun empty => skip (.inl empty), fun dot => skip (.inr dot), parent, noSlash⟩
        · exact clean c member
    · next pop =>
      cases top with
      | nil =>
        cases dots with
        | nil => exact ⟨[], [], rfl, by simp, by simp, fun _ => rfl⟩
        | cons first rest =>
          have : first = ['.', '.'] := allDots first (by simp)
          subst this
          simp at pop
      | cons first rest =>
        exact ⟨rest, dots, rfl, fun c member => clean c (List.mem_cons_of_mem _ member), allDots, rooted⟩

theorem foldl_normStep_normStack (absolute : Bool) (parts : List Str) (stack : List Str)
    (shaped : NormStack absolute stack) (noSlash : ∀ part ∈ parts, '/' ∉ part) :
    NormStack absolute (parts.foldl (normStep absolute) stack) := by
  induction parts generalizing stack with
  | nil => exact shaped
  | cons part rest ih =>
    exact ih _ (normStep_normStack absolute stack part shaped (noSlash part (by simp)))
      (fun other member => noSlash other (List.mem_cons_of_mem _ member))

theorem osJoin_of_clean (a b : Str) (nonempty : a ≠ []) (noTrailing : a.getLast? ≠ some '/')
    (relative : b.head? ≠ some '/') : osJoin a b = a ++ '/' :: b := by
  simp [osJoin, nonempty, noTrailing, relative]

/-- What `normpath(p).lstrip('/')` can be: `.`, or clean components below a
run of `..`. -/
theorem lstrip_normpath (path : Str) :
    lstrip '/' (normpath path) = ['.'] ∨
    ∃ top dots, lstrip '/' (normpath path) = join '/' (dots ++ top) ∧ (∀ c ∈ top, Clean c) ∧
      ∀ c ∈ dots, c = ['.', '.'] := by
  obtain ⟨top, dots, stack, clean, allDots, -⟩ :=
    foldl_normStep_normStack (initialSlashes path != 0) (split '/' path) []
      ⟨[], [], rfl, by simp, by simp, fun _ => rfl⟩ (fun part => not_mem_of_mem_split '/' path part)
  simp only [normpath, stack, List.reverse_append]
  split
  · exact .inl rfl
  split
  · exact .inl rfl
  refine .inr ⟨top.reverse, dots.reverse, ?_, by simpa using clean, by simpa using allDots⟩
  rw [lstrip_replicate_append]
  cases h : dots.reverse ++ top.reverse with
  | nil => rfl
  | cons first rest =>
    have firstComponent : Component first := by
      have member : first ∈ dots.reverse ++ top.reverse := h ▸ List.mem_cons_self first rest
      rcases List.mem_append.mp member with member | member
      · simp [allDots first (List.mem_reverse.mp member), Component]
      · exact (clean first (List.mem_reverse.mp member)).component
    obtain ⟨x, tail, rfl⟩ := List.exists_cons_of_ne_nil firstComponent.1
    have other : x ≠ '/' := fun same => firstComponent.2 (same ▸ List.mem_cons_self x tail)
    cases rest <;> simp only [join_singleton, join_cons_cons, List.cons_append, lstrip_of_head_ne _ _ _ other]

/-- A join of components ends in a character other than a slash. -/
theorem join_snoc_last (parts : List Str) (last : Str) (component : Component last) :
    ∃ front y, join '/' (parts ++ [last]) = front ++ [y] ∧ y ≠ '/' := by
  obtain ⟨body, y, rfl⟩ : ∃ body y, last = body ++ [y] := by
    simpa using (List.eq_nil_or_concat last).resolve_left component.1
  have other : y ≠ '/' := fun same => component.2 (by simp [same])
  rcases eq_or_ne parts [] with rfl | nonempty
  · exact ⟨body, y, rfl, other⟩
  · exact ⟨join '/' parts ++ '/' :: body, y, by simp [join_append_singleton _ _ _ nonempty], other⟩

theorem dirname_of_not_mem (name : Str) (noSlash : '/' ∉ name) : dirname name = [] := by
  have gone : name.reverse.dropWhile (fun c => !decide (c = '/')) = [] :=
    List.dropWhile_eq_nil_iff.mpr fun c member => by
      simpa using fun same : c = '/' => noSlash (same ▸ List.mem_reverse.mp member)
  simp [dirname, gone]

theorem dirname_append_sep (front : Str) (y : Char) (name : Str) (other : y ≠ '/') (noSlash : '/' ∉ name) :
    dirname (front ++ [y] ++ '/' :: name) = front ++ [y] := by
  have kept : ∀ c ∈ name.reverse, decide (c ≠ '/') = true := fun c member =>
    decide_eq_true fun same => noSlash (same ▸ List.mem_reverse.mp member)
  have notAllSlashes : ¬ (front ++ [y, '/']).all (· == '/') := by simp [other]
  simp only [dirname, List.reverse_append, List.reverse_cons, List.append_assoc, List.singleton_append,
    List.dropWhile_append_of_pos kept]
  simp [notAllSlashes, rstrip, other]

/-- `dirname` of `c1/.../ck/name` is `c1/.../ck`. -/
theorem dirname_join_append (parts : List Str) (name : Str) (components : ∀ p ∈ parts, Component p)
    (noSlash : '/' ∉ name) : dirname (join '/' (parts ++ [name])) = join '/' parts := by
  rcases List.eq_nil_or_concat parts with rfl | ⟨init, last, rfl⟩
  · exact dirname_of_not_mem name noSlash
  · obtain ⟨front, y, joined, other⟩ := join_snoc_last init last (components last (by simp))
    rw [List.concat_eq_append, join_append_singleton _ _ _ (by simp), joined]
    exact dirname_append_sep front y name other noSlash

/-- `os.path.join` of two joins of components is the join of all of them. -/
theorem osJoin_join_join (base parts : List Str) (components : ∀ p ∈ base, Component p)
    (nonempty : parts ≠ []) (relative : (join '/' parts).head? ≠ some '/') :
    osJoin (join '/' base) (join '/' parts) = join '/' (base ++ parts) := by
  rcases List.eq_nil_or_concat base with rfl | ⟨init, last, rfl⟩
  · simp [osJoin]
  · obtain ⟨front, y, joined, other⟩ := join_snoc_last init last (components last (by simp))
    rw [List.concat_eq_append, osJoin_of_clean _ _ (by simp [joined]) (by simp [joined, other]) relative,
      join_append _ _ _ (by simp) nonempty]

/-! ## Normalised paths of clean components -/

/-- A `/` at the end of a directory's path, or nothing. -/
def trailingSlash (dir : Bool) : Str := if dir then ['/'] else []

theorem join_inj (xs ys : List Str) (xsComponents : ∀ p ∈ xs, Component p)
    (ysComponents : ∀ p ∈ ys, Component p) (same : join '/' xs = join '/' ys) : xs = ys := by
  rcases eq_or_ne xs [] with rfl | xsNonempty <;> rcases eq_or_ne ys [] with rfl | ysNonempty
  · rfl
  · obtain ⟨init, last, rfl⟩ := List.eq_nil_or_concat ys |>.resolve_left ysNonempty
    obtain ⟨front, y, joined, -⟩ := join_snoc_last init last (ysComponents last (by simp))
    rw [List.concat_eq_append, joined] at same
    simp at same
  · obtain ⟨init, last, rfl⟩ := List.eq_nil_or_concat xs |>.resolve_left xsNonempty
    obtain ⟨front, y, joined, -⟩ := join_snoc_last init last (xsComponents last (by simp))
    rw [List.concat_eq_append, joined] at same
    simp at same
  · have splitBoth := congrArg (split '/') same
    rwa [split_join _ _ xsNonempty (fun p member => (xsComponents p member).2),
      split_join _ _ ysNonempty (fun p member => (ysComponents p member).2)] at splitBoth

/-- A join of components starts with its first component. -/
theorem join_cons_eq_append (first : Str) (rest : List Str) : ∃ more, join '/' (first :: rest) = first ++ more := by
  cases rest with
  | nil => exact ⟨[], by simp⟩
  | cons next tail => exact ⟨_, join_cons_cons _ _ _ _⟩

@[simp] theorem normStep_nil (absolute : Bool) (stack : List Str) : normStep absolute stack [] = stack := by
  simp [normStep]

theorem normStep_clean (absolute : Bool) (stack : List Str) (comp : Str) (clean : Clean comp) :
    normStep absolute stack comp = comp :: stack := by
  simp [normStep, clean.1, clean.2.1, clean.2.2.1]

theorem foldl_normStep_clean (absolute : Bool) (comps stack : List Str) (clean : ∀ c ∈ comps, Clean c) :
    comps.foldl (normStep absolute) stack = comps.reverse ++ stack := by
  induction comps generalizing stack with
  | nil => rfl
  | cons comp rest ih =>
    rw [List.foldl_cons, normStep_clean _ _ _ (clean comp (by simp)),
      ih _ fun c member => clean c (List.mem_cons_of_mem comp member)]
    simp

theorem split_join_trailingSlash (comps : List Str) (components : ∀ c ∈ comps, Component c) (nonempty : comps ≠ [])
    (dir : Bool) : split '/' (join '/' comps ++ trailingSlash dir) = comps ++ if dir then [[]] else [] := by
  have shape : join '/' comps ++ trailingSlash dir = join '/' (comps ++ if dir then [[]] else []) := by
    cases dir
    · simp [trailingSlash]
    · simp [trailingSlash, join_append_singleton _ _ _ nonempty]
  rw [shape, split_join _ _ (by simp [nonempty])]
  intro part member
  rcases List.mem_append.mp member with member | member
  · exact (components part member).2
  · cases dir <;> simp_all

/-- `normpath` of a path of clean components, with or without a slash at
its end, is the path without it. -/
theorem normpath_join (comps : List Str) (clean : ∀ c ∈ comps, Clean c) (nonempty : comps ≠ []) (dir : Bool) :
    normpath (join '/' comps ++ trailingSlash dir) = join '/' comps := by
  obtain ⟨first, rest, rfl⟩ := List.exists_cons_of_ne_nil nonempty
  obtain ⟨x, tail, rfl⟩ := List.exists_cons_of_ne_nil (clean first (by simp)).1
  have other : x ≠ '/' := fun same => (clean _ (List.mem_cons_self _ rest)).2.2.2 (by simp [same])
  obtain ⟨more, joined⟩ := join_cons_eq_append (x :: tail) rest
  have slashes : initialSlashes (join '/' ((x :: tail) :: rest) ++ trailingSlash dir) = 0 := by
    simp [initialSlashes, startswith, joined, other.symm]
  have text : join '/' ((x :: tail) :: rest) ++ trailingSlash dir ≠ [] := by simp [joined]
  simp only [normpath, if_neg text, slashes, split_join_trailingSlash _ (fun c member => (clean c member).component)
    nonempty dir, List.foldl_append, foldl_normStep_clean _ _ _ clean]
  cases dir <;> simp [joined]

/-- `normpath` of an absolute path of clean components, with or without a
slash at its end, is the path without it. -/
theorem normpath_absPath (comps : List Str) (clean : ∀ c ∈ comps, Clean c) (nonempty : comps ≠ []) (dir : Bool) :
    normpath (absPath comps ++ trailingSlash dir) = absPath comps := by
  obtain ⟨first, rest, rfl⟩ := List.exists_cons_of_ne_nil nonempty
  obtain ⟨x, tail, rfl⟩ := List.exists_cons_of_ne_nil (clean first (by simp)).1
  have other : x ≠ '/' := fun same => (clean _ (List.mem_cons_self _ rest)).2.2.2 (by simp [same])
  obtain ⟨more, joined⟩ := join_cons_eq_append (x :: tail) rest
  have slashes : initialSlashes (absPath ((x :: tail) :: rest) ++ trailingSlash dir) = 1 := by
    simp [initialSlashes, startswith, absPath, joined, other.symm]
  have parts : split '/' (absPath ((x :: tail) :: rest) ++ trailingSlash dir) =
      [] :: (((x :: tail) :: rest) ++ if dir then [[]] else []) := by
    rw [absPath, List.cons_append, split_cons_self,
      split_join_trailingSlash _ (fun c member => (clean c member).component) nonempty dir]
  have text : absPath ((x :: tail) :: rest) ++ trailingSlash dir ≠ [] := by simp [absPath]
  simp only [normpath, if_neg text, slashes, parts, List.foldl_cons, normStep_nil, List.foldl_append,
    foldl_normStep_clean _ _ _ clean]
  cases dir <;> simp [absPath]

theorem components_absPath (comps : List Str) (components : ∀ c ∈ comps, Component c) :
    PosixPath.components (absPath comps) = comps := by
  rcases eq_or_ne comps [] with rfl | nonempty
  · rfl
  · have parts : split '/' (absPath comps) = [] :: comps := by
      rw [absPath, split_cons_self, split_join _ _ nonempty fun p member => (components p member).2]
    rw [PosixPath.components, parts, List.filter_cons_of_neg (by simp), List.filter_eq_self]
    intro c member
    simpa using (components c member).1

theorem commonPrefixLength_append (xs ys : List Str) : commonPrefixLength xs (xs ++ ys) = xs.length := by
  induction xs with
  | nil => cases ys <;> rfl
  | cons x xs ih => simp [commonPrefixLength, ih]

/-- `os.path.join(*parts)` of components is their join. -/
theorem osJoinAll_join (first : Str) (rest : List Str) (components : ∀ c ∈ first :: rest, Component c) :
    osJoinAll first rest = join '/' (first :: rest) := by
  have grow : ∀ (more base : List Str), base ≠ [] → (∀ c ∈ base ++ more, Component c) →
      more.foldl osJoin (join '/' base) = join '/' (base ++ more) := by
    intro more
    induction more with
    | nil => simp
    | cons next more ih =>
      intro base nonempty components
      have nextComponent := components next (by simp)
      have relative : (join '/' [next]).head? ≠ some '/' := by
        obtain ⟨x, tail, rfl⟩ := List.exists_cons_of_ne_nil nextComponent.1
        simp only [join_singleton, List.head?_cons, ne_eq, Option.some.injEq]
        rintro rfl
        exact nextComponent.2 (List.mem_cons_self _ _)
      rw [List.foldl_cons, ← join_singleton '/' next,
        osJoin_join_join base [next] (fun c member => components c (by simp [member])) (by simp) relative,
        ih _ (by simp) (by simpa using components)]
      simp
  simpa using grow rest [first] (by simp) (by simpa using components)

/-- The path of an entry below a clean root, relative to the root. -/
theorem relpath_absPath_append (root here : List Str) (rootClean : ∀ c ∈ root, Clean c)
    (hereClean : ∀ c ∈ here, Clean c) (rootNonempty : root ≠ []) :
    relpath (absPath (root ++ here)) (absPath root) = if here = [] then ['.'] else join '/' here := by
  have allClean : ∀ c ∈ root ++ here, Clean c := fun c member => by
    rcases List.mem_append.mp member with member | member
    exacts [rootClean c member, hereClean c member]
  have normal : ∀ comps : List Str, (∀ c ∈ comps, Clean c) → comps ≠ [] → normpath (absPath comps) = absPath comps :=
    fun comps clean nonempty => by simpa [trailingSlash] using normpath_absPath comps clean nonempty false
  simp only [relpath, normal root rootClean rootNonempty, normal _ allClean (by simp [rootNonempty]),
    components_absPath _ fun c member => (rootClean c member).component,
    components_absPath _ fun c member => (allClean c member).component, commonPrefixLength_append,
    Nat.sub_self, List.replicate_zero, List.nil_append, List.drop_left]
  cases here with
  | nil => rfl
  | cons first rest => exact osJoinAll_join first rest fun c member => (hereClean c member).component

/-- A trailing `/` on an absolute path of clean components changes nothing
`relpath` sees. -/
theorem relpath_absPath_trailingSlash (comps : List Str) (clean : ∀ c ∈ comps, Clean c) (nonempty : comps ≠ [])
    (dir : Bool) (start : Str) : relpath (absPath comps ++ trailingSlash dir) start = relpath (absPath comps) start := by
  have plain := normpath_absPath comps clean nonempty false
  rw [trailingSlash, if_neg Bool.false_ne_true, List.append_nil] at plain
  simp only [relpath, normpath_absPath comps clean nonempty dir, plain]

theorem commonPrefixLength_le (xs ys : List Str) : commonPrefixLength xs ys ≤ xs.length := by
  induction xs generalizing ys with
  | nil => cases ys <;> simp [commonPrefixLength]
  | cons x xs ih =>
    cases ys with
    | nil => simp [commonPrefixLength]
    | cons y ys =>
      simp only [commonPrefixLength, List.length_cons]
      split
      · exact Nat.succ_le_succ (ih ys)
      · omega

theorem prefix_of_commonPrefixLength (xs ys : List Str) (full : commonPrefixLength xs ys = xs.length) : xs <+: ys := by
  induction xs generalizing ys with
  | nil => exact List.nil_prefix
  | cons x xs ih =>
    cases ys with
    | nil => simp [commonPrefixLength] at full
    | cons y ys =>
      simp only [commonPrefixLength, List.length_cons] at full
      split at full
      · next same => exact List.cons_prefix_cons.mpr ⟨same, ih ys (by omega)⟩
      · omega

/-- From a start whose components are not the first components of the path,
`relpath` climbs: it is `..` joined with parts that are not absolute. -/
theorem relpath_absPath_outside (start path : List Str) (startClean : ∀ c ∈ start, Clean c)
    (pathClean : ∀ c ∈ path, Clean c) (startNonempty : start ≠ []) (pathNonempty : path ≠ [])
    (outside : ¬ start <+: path) :
    ∃ rest : List Str, (∀ part ∈ rest, part.head? ≠ some '/') ∧
      relpath (absPath path) (absPath start) = osJoinAll ['.', '.'] rest := by
  have normal : ∀ comps : List Str, (∀ c ∈ comps, Clean c) → comps ≠ [] → normpath (absPath comps) = absPath comps :=
    fun comps clean nonempty => by simpa [trailingSlash] using normpath_absPath comps clean nonempty false
  have climbs : commonPrefixLength start path < start.length :=
    lt_of_le_of_ne (commonPrefixLength_le _ _) fun full => outside (prefix_of_commonPrefixLength _ _ full)
  obtain ⟨k, up⟩ : ∃ k, start.length - commonPrefixLength start path = k + 1 := ⟨_, (Nat.succ_pred_eq_of_pos
    (Nat.sub_pos_of_lt climbs)).symm⟩
  refine ⟨List.replicate k ['.', '.'] ++ path.drop (commonPrefixLength start path), fun part member => ?_, ?_⟩
  · rcases List.mem_append.mp member with member | member
    · rw [List.eq_of_mem_replicate member]
      decide
    · obtain ⟨first, rest, split⟩ := List.exists_cons_of_ne_nil (pathClean part (List.mem_of_mem_drop member)).1
      have noSlash := (pathClean part (List.mem_of_mem_drop member)).2.2.2
      rw [split] at noSlash ⊢
      exact fun same => noSlash (by simp [Option.some.inj same])
  · simp only [relpath, normal start startClean startNonempty, normal path pathClean pathNonempty,
      components_absPath _ fun c member => (startClean c member).component,
      components_absPath _ fun c member => (pathClean c member).component, up, List.replicate_succ,
      List.cons_append]

/-! ## Any normalised path -/

theorem initialSlashes_ne_zero (path : Str) (rooted : path.head? = some '/') : initialSlashes path ≠ 0 := by
  obtain ⟨rest, rfl⟩ : ∃ rest, path = '/' :: rest := by
    cases path with
    | nil => cases rooted
    | cons c rest => exact ⟨rest, by simpa using rooted⟩
  unfold initialSlashes
  split
  · split <;> simp
  · simp_all [startswith]

/-- Every `normpath` is a run of slashes before components joined by `/`;
in an absolute path every component is clean. -/
theorem normpath_shape (path : Str) :
    ∃ slashes comps, (∀ c ∈ comps, Component c) ∧ (path.head? = some '/' → ∀ c ∈ comps, Clean c) ∧
      normpath path = List.replicate slashes '/' ++ join '/' comps := by
  have dot : ∀ c ∈ [['.']], Component c := by simp [Component]
  by_cases empty : path = []
  · exact ⟨0, [['.']], dot, by simp [empty], by simp [normpath, empty]⟩
  obtain ⟨top, dots, stack, clean, allDots, rooted⟩ :=
    foldl_normStep_normStack (initialSlashes path != 0) (split '/' path) []
      ⟨[], [], rfl, by simp, by simp, fun _ => rfl⟩ (fun part => not_mem_of_mem_split '/' path part)
  have parts : ∀ c ∈ (top ++ dots).reverse, Component c := by
    intro c member
    rcases List.mem_append.mp (List.mem_reverse.mp member) with member | member
    · exact (clean c member).component
    · simp [allDots c member, Component]
  by_cases blank : List.replicate (initialSlashes path) '/' ++ join '/' (top ++ dots).reverse = []
  · refine ⟨0, [['.']], dot, fun absolute => absurd blank ?_,
      by simp only [normpath, if_neg empty, stack, if_pos blank]; rfl⟩
    simp [initialSlashes_ne_zero path absolute]
  · refine ⟨initialSlashes path, (top ++ dots).reverse, parts, fun absolute c member => ?_,
      by simp only [normpath, if_neg empty, stack, if_neg blank]⟩
    have noDots : dots = [] := rooted (by simp [initialSlashes_ne_zero path absolute])
    subst noDots
    exact clean c (by simpa using member)

theorem components_slashes_join (slashes : Nat) (comps : List Str) (parts : ∀ c ∈ comps, Component c) :
    components (List.replicate slashes '/' ++ join '/' comps) = comps := by
  induction slashes with
  | zero =>
    rcases eq_or_ne comps [] with rfl | nonempty
    · rfl
    · rw [List.replicate_zero, List.nil_append, components, split_join _ _ nonempty fun p member => (parts p member).2,
        List.filter_eq_self]
      intro c member
      simpa using (parts c member).1
  | succ slashes ih =>
    rw [List.replicate_succ, List.cons_append, components, split_cons_self, List.filter_cons_of_neg (by simp)]
    exact ih

/-- `basename` of slashes before a name without one is the name. -/
theorem basename_slashes_append (front name : Str) (slashes : ∀ c ∈ front, c = '/') (noSlash : '/' ∉ name) :
    basename (front ++ name) = name := by
  have kept : ∀ c ∈ name.reverse, decide (c ≠ '/') = true := fun c member =>
    decide_eq_true fun same => noSlash (same ▸ List.mem_reverse.mp member)
  have stops : front.reverse.takeWhile (fun c => decide (c ≠ '/')) = [] := by
    cases reversed : front.reverse with
    | nil => rfl
    | cons c rest =>
      have slash : c = '/' := slashes c (List.mem_reverse.mp (reversed ▸ List.mem_cons_self c rest))
      simp [slash]
  simp only [basename, List.reverse_append, List.takeWhile_append_of_pos kept, stops, List.append_nil,
    List.reverse_reverse]

/-- `basename` of a path ending in `/name` is `name`. -/
theorem basename_append_sep (front name : Str) (noSlash : '/' ∉ name) : basename (front ++ '/' :: name) = name := by
  have kept : ∀ c ∈ name.reverse, decide (c ≠ '/') = true := fun c member =>
    decide_eq_true fun same => noSlash (same ▸ List.mem_reverse.mp member)
  simp only [basename, List.reverse_append, List.reverse_cons, List.append_assoc, List.singleton_append,
    List.takeWhile_append_of_pos kept]
  simp

/-- `basename` of `c1/.../ck/name` after a run of slashes is `name`. -/
theorem basename_slashes_join_snoc (slashes : Nat) (parts : List Str) (name : Str)
    (components : ∀ p ∈ parts, Component p) (noSlash : '/' ∉ name) :
    basename (List.replicate slashes '/' ++ join '/' (parts ++ [name])) = name := by
  rcases eq_or_ne parts [] with rfl | nonempty
  · exact basename_slashes_append _ name (fun c member => List.eq_of_mem_replicate member) noSlash
  · rw [join_append_singleton _ _ _ nonempty, ← List.append_assoc, basename_append_sep _ _ noSlash]

/-- `dirname` of slashes before a name without one is the slashes. -/
theorem dirname_slashes_append (slashes : Nat) (name : Str) (noSlash : '/' ∉ name) :
    dirname (List.replicate slashes '/' ++ name) = List.replicate slashes '/' := by
  have dropped : ∀ c ∈ name.reverse, decide (c ≠ '/') = true := fun c member =>
    decide_eq_true fun same => noSlash (same ▸ List.mem_reverse.mp member)
  have kept : (List.replicate slashes '/').dropWhile (fun c => decide (c ≠ '/')) = List.replicate slashes '/' := by
    cases slashes <;> simp [List.replicate_succ]
  have head : ((List.replicate slashes '/' ++ name).reverse.dropWhile (· ≠ '/')).reverse =
      List.replicate slashes '/' := by
    rw [List.reverse_append, List.dropWhile_append_of_pos dropped, List.reverse_replicate, kept, List.reverse_replicate]
  simp only [dirname, head]
  exact if_neg (by simp)

/-- `dirname` of `c1/.../ck/name` after a run of slashes is the path without `/name`. -/
theorem dirname_slashes_join_snoc (slashes : Nat) (parts : List Str) (name : Str)
    (components : ∀ p ∈ parts, Component p) (nonempty : parts ≠ []) (noSlash : '/' ∉ name) :
    dirname (List.replicate slashes '/' ++ join '/' (parts ++ [name])) = List.replicate slashes '/' ++ join '/' parts := by
  obtain ⟨init, last, rfl⟩ := List.eq_nil_or_concat parts |>.resolve_left nonempty
  obtain ⟨front, y, joined, other⟩ := join_snoc_last init last (components last (by simp))
  rw [List.concat_eq_append, join_append_singleton _ _ _ (by simp), joined, ← List.append_assoc,
    ← List.append_assoc, dirname_append_sep _ y name other noSlash, List.append_assoc]

end FsImage.Python.PosixPath
