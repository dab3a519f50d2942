import FsImage.Compiler.Items.PhasesProvide

/-! What `PhasesProvideItem.provides`, that is
`gen_subvolume_subtree_provides(subvol, '/')`, yields for a subvolume whose
names are text.

The subvolume's path and its protected paths are made of clean components
without `*`, `?`, `[`, backslash or NUL, so that `find -path` reads each
protected path as itself; a protected directory is written with a trailing
`/`. The entries have clean names without NUL. Then the generator yields a
`ProvidesDoNotAccess` for each protected path, `ProvidesDirectory('.')`, and
one provide per entry that is neither protected nor below a protected path,
parents first, and it raises nothing.
-/

set_option autoImplicit false

namespace FsImage.Compiler.Items

open FsImage.Python FsImage.Python.PosixPath FsImage.Find

/-- A path of clean components that `fnmatch` reads as itself. -/
structure PlainPath where
  comps : List Str
  nonempty : comps ≠ []
  clean : ∀ c ∈ comps, Clean c
  plain : ∀ c ∈ comps, ∀ ch ∈ c, ch ∉ ['*', '?', '[', '\\']
  noNul : ∀ c ∈ comps, '\x00' ∉ c

/-- A protected path, relative to the subvolume; a directory when `dir`. -/
structure ProtectedPath where
  path : PlainPath
  dir : Bool

/-- The text `protected_path_set` holds for a protected path. -/
def ProtectedPath.text (prot : ProtectedPath) : Str := join '/' prot.path.comps ++ trailingSlash prot.dir

/-- An entry of a subvolume whose name is text. -/
inductive TextEntry where
  | dir (name : Str) (children : List TextEntry)
  | leaf (name : Str) (type : LeafType)

def TextEntry.name : TextEntry → Str
  | .dir name _ | .leaf name _ => name

mutual

/-- The entry with its name encoded, as the file system holds it. -/
def TextEntry.encode : TextEntry → Entry
  | .dir name children => .dir (utf8Encode name) (TextEntry.encodeAll children)
  | .leaf name type => .leaf (utf8Encode name) type

def TextEntry.encodeAll : List TextEntry → List Entry
  | [] => []
  | entry :: rest => entry.encode :: TextEntry.encodeAll rest

end

mutual

/-- Every name at and below the entry is clean and free of NUL. -/
def TextEntry.WellNamed : TextEntry → Prop
  | .dir name children => Clean name ∧ '\x00' ∉ name ∧ TextEntry.AllWellNamed children
  | .leaf name _ => Clean name ∧ '\x00' ∉ name

def TextEntry.AllWellNamed : List TextEntry → Prop
  | [] => True
  | entry :: rest => entry.WellNamed ∧ TextEntry.AllWellNamed rest

end

mutual

/-- The entries at and below `entry`, in the directory `dir`, that are
neither protected nor below a protected path, parents first, each with its
`%y` letter and its path. -/
def TextEntry.unprotected (protComps : List (List Str)) (dir : List Str) : TextEntry → List (Char × List Str)
  | .dir name children =>
    if dir ++ [name] ∈ protComps then []
    else ('d', dir ++ [name]) :: TextEntry.unprotectedAll protComps (dir ++ [name]) children
  | .leaf name type => if dir ++ [name] ∈ protComps then [] else [(type.letter, dir ++ [name])]

def TextEntry.unprotectedAll (protComps : List (List Str)) (dir : List Str) :
    List TextEntry → List (Char × List Str)
  | [] => []
  | entry :: rest => entry.unprotected protComps dir ++ TextEntry.unprotectedAll protComps dir rest

end

/-- What the generator is for: the protected paths, not to be accessed, then
the root of the subvolume and every entry that is not protected, parents
first, directories as directories and anything else as a file. -/
def rootProvides (prots : List ProtectedPath) (entries : List TextEntry) : List Provides :=
  prots.map (fun prot => .doNotAccess (join '/' prot.path.comps)) ++
    .directory ['.'] :: (TextEntry.unprotectedAll (prots.map (·.path.comps)) [] entries).map
      fun r => if r.1 = 'd' then .directory (join '/' r.2) else .file (join '/' r.2)

/-! ## Paths -/

theorem PlainPath.components (path : PlainPath) : ∀ c ∈ path.comps, Component c :=
  fun c member => (path.clean c member).component

/-- A path of clean components neither is `..` nor starts with `../`. -/
theorem hasLeadingDotDot_join (comps : List Str) (clean : ∀ c ∈ comps, Clean c) (nonempty : comps ≠ []) :
    hasLeadingDotDot (join '/' comps) = false := by
  have components : ∀ c ∈ comps, Component c := fun c member => (clean c member).component
  have dotDot : Component ['.', '.'] := ⟨by simp, by simp⟩
  obtain ⟨first, rest, rfl⟩ := List.exists_cons_of_ne_nil nonempty
  have firstClean := clean first (List.mem_cons_self first rest)
  have notDots : join '/' (first :: rest) ≠ ['.', '.'] := fun same => by
    have := join_inj _ [['.', '.']] components (by simpa using dotDot) same
    exact firstClean.2.2.1 (List.cons.inj this).1
  have notUnder : ¬ ['.', '.', '/'] <+: join '/' (first :: rest) := fun under => by
    have below : join '/' [['.', '.']] ++ ['/'] <+: join '/' (first :: rest) ++ ['/'] :=
      under.trans (List.prefix_append _ _)
    rw [join_sep_prefix_iff '/' _ _ (by simp) (by simp) (by simp)
      fun p member => (components p member).2] at below
    exact firstClean.2.2.1 (List.cons_prefix_cons.mp below).1.symm
  rw [hasLeadingDotDot, Bool.or_eq_false_iff, Bool.eq_false_iff, Bool.eq_false_iff, ne_eq, ne_eq, startswith_iff]
  exact ⟨by simpa using notDots, by simpa using notUnder⟩

theorem join_getLast (comps : List Str) (components : ∀ c ∈ comps, Component c) (nonempty : comps ≠ []) :
    ∃ front y, join '/' comps = front ++ [y] ∧ y ≠ '/' := by
  obtain ⟨init, last, rfl⟩ := List.eq_nil_or_concat comps |>.resolve_left nonempty
  rw [List.concat_eq_append]
  exact join_snoc_last init last (components last (by simp))

theorem absPath_getLast (comps : List Str) (components : ∀ c ∈ comps, Component c) (nonempty : comps ≠ []) :
    (absPath comps).getLast? ≠ some '/' := by
  obtain ⟨front, y, joined, other⟩ := join_getLast comps components nonempty
  rw [absPath, joined, ← List.cons_append, List.getLast?_concat]
  simpa using other

/-- `os.path.join` below an absolute path of components. -/
theorem osJoin_absPath (comps : List Str) (components : ∀ c ∈ comps, Component c) (nonempty : comps ≠ [])
    (rest : Str) (relative : rest.head? ≠ some '/') : osJoin (absPath comps) rest = absPath comps ++ '/' :: rest :=
  osJoin_of_clean _ _ (List.cons_ne_nil _ _) (absPath_getLast comps components nonempty) relative

theorem absPath_append (front back : List Str) (frontNonempty : front ≠ []) (backNonempty : back ≠ []) :
    absPath (front ++ back) = absPath front ++ '/' :: join '/' back := by
  rw [absPath, absPath, join_append _ _ _ frontNonempty backNonempty, List.cons_append]

theorem join_head (comps : List Str) (components : ∀ c ∈ comps, Component c) (nonempty : comps ≠ []) :
    ∃ x more, join '/' comps = x :: more ∧ x ≠ '/' := by
  obtain ⟨first, rest, rfl⟩ := List.exists_cons_of_ne_nil nonempty
  obtain ⟨more, joined⟩ := join_cons_eq_append first rest
  have firstComponent := components first (List.mem_cons_self first rest)
  obtain ⟨x, tail, rfl⟩ := List.exists_cons_of_ne_nil firstComponent.1
  exact ⟨x, tail ++ more, by simp [joined], fun same => firstComponent.2 (same ▸ List.mem_cons_self x tail)⟩

/-- The subtree `/` of the subvolume is the subvolume's own path. -/
theorem subvolPath_root (root : PlainPath) (entries : List Entry) :
    subvolPath ⟨absPath root.comps, entries⟩ (osJoin ['/'] ['/']) = absPath root.comps := by
  have joined : osJoin (absPath root.comps) [] = absPath root.comps ++ trailingSlash true :=
    osJoin_absPath _ root.components root.nonempty [] (by simp)
  rw [subvolPath, show osJoin ['/'] ['/'] = ['/'] from rfl, show lstrip '/' ['/'] = [] from rfl, joined,
    normpath_absPath _ root.clean root.nonempty]

/-- The `-path` argument for a protected path is its absolute path in the
subvolume. -/
theorem prunePattern_plain (root : PlainPath) (entries : List Entry) (prot : ProtectedPath) :
    prunePattern ⟨absPath root.comps, entries⟩ prot.text = utf8Encode (absPath (root.comps ++ prot.path.comps)) := by
  obtain ⟨x, more, joined, other⟩ := join_head _ prot.path.components prot.path.nonempty
  have allClean : ∀ c ∈ root.comps ++ prot.path.comps, Clean c := fun c member => by
    rcases List.mem_append.mp member with member | member
    exacts [root.clean c member, prot.path.clean c member]
  rw [prunePattern, ProtectedPath.text, normpath_join _ prot.path.clean prot.path.nonempty, subvolPath, joined,
    lstrip_of_head_ne '/' x more other, ← joined,
    osJoin_absPath _ root.components root.nonempty _ (by simp [joined, other]),
    ← absPath_append _ _ root.nonempty prot.path.nonempty]
  simpa [trailingSlash] using
    congrArg utf8Encode (normpath_absPath _ allClean (by simp [root.nonempty]) false)

theorem absPath_inj (xs ys : List Str) (xsComponents : ∀ c ∈ xs, Component c) (ysComponents : ∀ c ∈ ys, Component c)
    (same : absPath xs = absPath ys) : xs = ys :=
  join_inj xs ys xsComponents ysComponents (List.cons.inj same).2

/-- The bytes of an absolute path of plain components mean nothing to `fnmatch`. -/
theorem absPath_plain (comps : List Str) (plain : ∀ c ∈ comps, ∀ ch ∈ c, ch ∉ ['*', '?', '[', '\\']) :
    ∀ b ∈ utf8Encode (absPath comps), isMeta b = false := by
  refine isMeta_utf8Encode _ fun ch member => ?_
  rcases List.mem_cons.mp member with rfl | member
  · decide
  rcases mem_join '/' ch comps member with rfl | ⟨part, partMember, inPart⟩
  · decide
  · exact plain part partMember ch inPart

/-- `find` builds a child's path from its parent's with a `/` and the name. -/
theorem utf8Encode_absPath_child (comps : List Str) (nonempty : comps ≠ []) (name : Str) :
    utf8Encode (absPath comps) ++ ascii '/' :: utf8Encode name = utf8Encode (absPath (comps ++ [name])) := by
  simp [absPath, join_append_singleton _ _ _ nonempty, ← ascii_eq_utf8EncodeChar '/' (by decide)]

/-- `os.path.relpath` of a protected path, made absolute, from the root `/`. -/
theorem relpath_protected_root (prot : ProtectedPath) :
    relpath (osJoin ['/'] prot.text) ['/'] = join '/' prot.path.comps := by
  obtain ⟨x, more, joined, other⟩ := join_head _ prot.path.components prot.path.nonempty
  have absolute : osJoin ['/'] prot.text = absPath prot.path.comps ++ trailingSlash prot.dir := by
    simp [osJoin, ProtectedPath.text, absPath, joined, other]
  simp only [relpath, absolute, normpath_absPath _ prot.path.clean prot.path.nonempty,
    components_absPath _ prot.path.components, show PosixPath.components (normpath ['/']) = [] from rfl,
    commonPrefixLength, List.length_nil, Nat.zero_sub, List.replicate_zero, List.drop_zero, List.nil_append]
  obtain ⟨first, rest, split⟩ := List.exists_cons_of_ne_nil prot.path.nonempty
  have components := prot.path.components
  rw [split] at components ⊢
  exact osJoinAll_join first rest components

/-! ## The walk of `find` -/

section Walk

variable (root : PlainPath) (prots : List ProtectedPath)

theorem relpath_root : relpath (absPath root.comps) (absPath root.comps) = ['.'] := by
  simpa using relpath_absPath_append root.comps [] root.clean (by simp) root.nonempty

/-- The `-path` patterns of the protected paths, as `prunePattern` makes them. -/
def rootPatterns : List Bytes := prots.map fun prot => utf8Encode (absPath (root.comps ++ prot.path.comps))

/-- A record of the walk, with the entry's path in the subvolume. -/
def hostRecord (r : Char × List Str) : Char × Str := (r.1, absPath (root.comps ++ r.2))

theorem pathMatches_absPath (here : List Str) (hereClean : ∀ c ∈ here, Clean c) :
    pathMatches (rootPatterns root prots) (utf8Encode (absPath (root.comps ++ here))) =
      decide (here ∈ prots.map (·.path.comps)) := by
  have components : ∀ more : List Str, (∀ c ∈ more, Clean c) → ∀ c ∈ root.comps ++ more, Component c :=
    fun more clean c member => by
      rcases List.mem_append.mp member with member | member
      exacts [root.components c member, (clean c member).component]
  have matching : ∀ prot : ProtectedPath, fnmatch (utf8Encode (absPath (root.comps ++ prot.path.comps)))
      (utf8Encode (absPath (root.comps ++ here))) = decide (prot.path.comps = here) := fun prot => by
    have plain : ∀ c ∈ root.comps ++ prot.path.comps, ∀ ch ∈ c, ch ∉ ['*', '?', '[', '\\'] := fun c member => by
      rcases List.mem_append.mp member with member | member
      exacts [root.plain c member, prot.path.plain c member]
    rw [Bool.eq_iff_iff, fnmatch_iff_eq_of_plain _ _ (absPath_plain _ plain), decide_eq_true_iff]
    constructor
    · intro same
      exact (List.append_cancel_left (absPath_inj _ _ (components _ prot.path.clean) (components _ hereClean)
        (utf8Encode_injective _ _ same).symm))
    · rintro rfl
      rfl
  simp [pathMatches, rootPatterns, List.any_map, Function.comp_def, matching, List.any_eq]

theorem TextEntry.encode_name (entry : TextEntry) : entry.encode.name = utf8Encode entry.name := by
  cases entry <;> rfl

mutual

/-- `find` below an entry with a text name visits the entries that are not
protected, each at its path in the subvolume. -/
theorem visitEntry_text (dir : List Str) (dirClean : ∀ c ∈ dir, Clean c) :
    (entry : TextEntry) → entry.WellNamed →
    visitEntry (rootPatterns root prots) (utf8Encode (absPath (root.comps ++ (dir ++ [entry.name])))) entry.encode =
      (entry.unprotected (prots.map (·.path.comps)) dir).map fun r => (r.1, utf8Encode (hostRecord root r).2)
  | .dir name children, ⟨clean, _, childrenNamed⟩ => by
    have hereClean : ∀ c ∈ dir ++ [name], Clean c := by
      simpa [or_imp, forall_and] using And.intro dirClean clean
    rw [TextEntry.encode, visitEntry, TextEntry.unprotected, TextEntry.name, pathMatches_absPath root prots _ hereClean]
    by_cases isProtected : dir ++ [name] ∈ prots.map (·.path.comps)
    · simp [isProtected]
    · simp only [isProtected, decide_False, if_false, Bool.false_eq_true, List.map_cons,
        visitChildren_text (dir ++ [name]) hereClean children childrenNamed]
      rfl
  | .leaf name type, ⟨clean, _⟩ => by
    have hereClean : ∀ c ∈ dir ++ [name], Clean c := by
      simpa [or_imp, forall_and] using And.intro dirClean clean
    rw [TextEntry.encode, visitEntry, TextEntry.unprotected, TextEntry.name, pathMatches_absPath root prots _ hereClean]
    by_cases isProtected : dir ++ [name] ∈ prots.map (·.path.comps)
    · simp [isProtected]
    · simp only [isProtected, decide_False, if_false, Bool.false_eq_true, List.map_cons, List.map_nil]
      rfl

theorem visitChildren_text (dir : List Str) (dirClean : ∀ c ∈ dir, Clean c) :
    (entries : List TextEntry) → TextEntry.AllWellNamed entries →
    visitChildren (rootPatterns root prots) (utf8Encode (absPath (root.comps ++ dir))) (TextEntry.encodeAll entries) =
      (TextEntry.unprotectedAll (prots.map (·.path.comps)) dir entries).map
        fun r => (r.1, utf8Encode (hostRecord root r).2)
  | [], _ => rfl
  | entry :: rest, ⟨named, restNamed⟩ => by
    rw [TextEntry.encodeAll, visitChildren, TextEntry.encode_name,
      utf8Encode_absPath_child _ (by simp [root.nonempty]), List.append_assoc,
      visitEntry_text dir dirClean entry named, visitChildren_text dir dirClean rest restNamed,
      TextEntry.unprotectedAll, List.map_append]

end

/-- The records `find` prints from the root of the subvolume: the root, then
the entries that are not protected. -/
def rootRecords (entries : List TextEntry) : List (Char × Str) :=
  ('d', absPath root.comps) :: (TextEntry.unprotectedAll (prots.map (·.path.comps)) [] entries).map (hostRecord root)

/-- The `find` of the generator prints the records of the entries that are not protected. -/
theorem runFind_root (entries : List TextEntry) (named : TextEntry.AllWellNamed entries) (someProtected : prots ≠ []) :
    runFind ⟨absPath root.comps, TextEntry.encodeAll entries⟩ (absPath root.comps)
        ((prots.map ProtectedPath.text).map (prunePattern ⟨absPath root.comps, TextEntry.encodeAll entries⟩)) =
      .ok ((rootRecords root prots entries).map fun r => printfRecord r.1 (utf8Encode r.2)).flatten := by
  have patterns : (prots.map ProtectedPath.text).map (prunePattern ⟨absPath root.comps, TextEntry.encodeAll entries⟩) =
      rootPatterns root prots := by
    simp [Function.comp_def, prunePattern_plain, rootPatterns]
  have found : SubvolTree.entryAt ⟨absPath root.comps, TextEntry.encodeAll entries⟩ (absPath root.comps) =
      .found (.dir [] (TextEntry.encodeAll entries)) := by
    simp only [SubvolTree.entryAt, relpath_root]
    rfl
  have rootUnmatched : pathMatches (rootPatterns root prots) (utf8Encode (absPath root.comps)) = false := by
    have matching := pathMatches_absPath root prots [] (by simp)
    rw [List.append_nil] at matching
    rw [matching, decide_eq_false_iff_not, List.mem_map, not_exists]
    exact fun prot unprotected => prot.path.nonempty unprotected.2
  have children := visitChildren_text root prots [] (by simp) entries named
  rw [List.append_nil] at children
  rw [runFind, patterns, if_neg (by simpa [rootPatterns] using someProtected), found]
  dsimp only
  rw [findEntry_eq_records, visitEntry, rootUnmatched, if_neg Bool.false_ne_true, children]
  simp [rootRecords, hostRecord, Function.comp_def]

end Walk

/-! ## The records -/

/-- What a record of the walk satisfies: a `%y` letter, a path of clean
names without NUL, and no protected path at or above it. -/
def UnprotectedRecord (protComps : List (List Str)) (r : Char × List Str) : Prop :=
  r.1 ∈ typeLetters ∧ r.2 ≠ [] ∧ (∀ c ∈ r.2, Clean c ∧ '\x00' ∉ c) ∧ ∀ pc ∈ protComps, ¬ pc <+: r.2

theorem unprotectedRecord_child (protComps : List (List Str)) (dir : List Str)
    (dirOk : ∀ c ∈ dir, Clean c ∧ '\x00' ∉ c) (above : ∀ pc ∈ protComps, ¬ pc <+: dir) (letter : Char)
    (typed : letter ∈ typeLetters) (name : Str) (clean : Clean name) (noNul : '\x00' ∉ name)
    (unprotected : dir ++ [name] ∉ protComps) : UnprotectedRecord protComps (letter, dir ++ [name]) := by
  refine ⟨typed, by simp, fun c member => ?_, fun pc member under => ?_⟩
  · rcases List.mem_append.mp member with member | member
    · exact dirOk c member
    · rw [List.mem_singleton.mp member]
      exact ⟨clean, noNul⟩
  · rcases List.prefix_concat_iff.mp under with rfl | under
    exacts [unprotected member, above pc member under]

mutual

theorem unprotected_records (protComps : List (List Str)) (dir : List Str)
    (dirOk : ∀ c ∈ dir, Clean c ∧ '\x00' ∉ c) (above : ∀ pc ∈ protComps, ¬ pc <+: dir) :
    (entry : TextEntry) → entry.WellNamed → ∀ r ∈ entry.unprotected protComps dir, UnprotectedRecord protComps r
  | .dir name children, ⟨clean, noNul, childrenNamed⟩ => fun r member => by
    rw [TextEntry.unprotected] at member
    split_ifs at member with isProtected
    · cases member
    have here := unprotectedRecord_child protComps dir dirOk above 'd' (by decide) name clean noNul isProtected
    rcases List.mem_cons.mp member with rfl | member
    · exact here
    · exact unprotectedAll_records protComps (dir ++ [name]) here.2.2.1 here.2.2.2 children childrenNamed r member
  | .leaf name type, ⟨clean, noNul⟩ => fun r member => by
    rw [TextEntry.unprotected] at member
    split_ifs at member with isProtected
    · cases member
    rw [List.mem_singleton.mp member]
    exact unprotectedRecord_child protComps dir dirOk above _ (typeLetters_letter type) name clean noNul isProtected

theorem unprotectedAll_records (protComps : List (List Str)) (dir : List Str)
    (dirOk : ∀ c ∈ dir, Clean c ∧ '\x00' ∉ c) (above : ∀ pc ∈ protComps, ¬ pc <+: dir) :
    (entries : List TextEntry) → TextEntry.AllWellNamed entries →
    ∀ r ∈ TextEntry.unprotectedAll protComps dir entries, UnprotectedRecord protComps r
  | [], _ => fun r member => by cases member
  | entry :: rest, ⟨named, restNamed⟩ => fun r member => by
    rw [TextEntry.unprotectedAll] at member
    rcases List.mem_append.mp member with member | member
    exacts [unprotected_records protComps dir dirOk above entry named r member,
      unprotectedAll_records protComps dir dirOk above rest restNamed r member]

end

/-- `is_path_protected` of a path of components: some protected path is made
of its first components. -/
theorem isPathProtected_join (prots : List ProtectedPath) (here : List Str) (components : ∀ c ∈ here, Component c)
    (nonempty : here ≠ []) :
    isPathProtected (join '/' here) (prots.map ProtectedPath.text) = prots.any fun prot => decide (prot.path.comps <+: here) := by
  have single : ∀ prot : ProtectedPath, startswith (join '/' here ++ ['/'])
      (if prot.text.getLast? = some '/' then prot.text else prot.text ++ ['/']) = decide (prot.path.comps <+: here) := by
    intro prot
    have ended : (if prot.text.getLast? = some '/' then prot.text else prot.text ++ ['/']) =
        join '/' prot.path.comps ++ ['/'] := by
      obtain ⟨front, y, joined, other⟩ := join_getLast _ prot.path.components prot.path.nonempty
      obtain ⟨path, dir⟩ := prot
      cases dir <;> simp_all [ProtectedPath.text, trailingSlash]
    rw [ended, Bool.eq_iff_iff, startswith_iff, decide_eq_true_iff,
      join_sep_prefix_iff '/' _ _ prot.path.nonempty nonempty (fun p member => (prot.path.components p member).2)
        fun p member => (components p member).2]
  rw [isPathProtected]
  induction prots with
  | nil => rfl
  | cons prot rest ih => rw [List.map_cons, List.any_cons, List.any_cons, ih, single]

theorem absPath_noNul (comps : List Str) (noNul : ∀ c ∈ comps, '\x00' ∉ c) : '\x00' ∉ absPath comps := by
  intro member
  rcases List.mem_cons.mp member with isSlash | member
  · exact absurd isSlash (by decide)
  rcases mem_join '/' _ comps member with isSlash | ⟨part, partMember, inPart⟩
  · exact absurd isSlash (by decide)
  · exact noNul part partMember inPart

/-! ## The generator at the root -/

section Records

variable (root : PlainPath) (prots : List ProtectedPath)

/-- The records of the walk from the root satisfy `UnprotectedRecord`. -/
theorem unprotectedAll_root_records (entries : List TextEntry) (named : TextEntry.AllWellNamed entries) :
    ∀ r ∈ TextEntry.unprotectedAll (prots.map (·.path.comps)) [] entries,
      UnprotectedRecord (prots.map (·.path.comps)) r :=
  unprotectedAll_records _ [] (by simp) (fun pc member under => by
    obtain ⟨prot, -, rfl⟩ := List.mem_map.mp member
    exact prot.path.nonempty (List.prefix_nil.mp under)) entries named

/-- The subtree itself, `.`, is not protected. -/
theorem isPathProtected_dot : isPathProtected ['.'] (prots.map ProtectedPath.text) = false := by
  rw [show ['.'] = join '/' [['.']] from rfl, isPathProtected_join _ _ (by simp [Component]) (by simp),
    List.any_eq_false]
  intro prot _ under
  obtain ⟨first, rest, split⟩ := List.exists_cons_of_ne_nil prot.path.nonempty
  have clean := prot.path.clean first (by simp [split])
  rw [split, decide_eq_true_eq, List.cons_prefix_cons] at under
  exact clean.2.1 under.1

theorem relpath_hostRecord (r : Char × List Str) (record : UnprotectedRecord (prots.map (·.path.comps)) r) :
    relpath (hostRecord root r).2 (absPath root.comps) = join '/' r.2 := by
  rw [hostRecord, relpath_absPath_append _ _ root.clean (fun c inPath => (record.2.2.1 c inPath).1)
    root.nonempty, if_neg record.2.1]

/-- The loop's body gives each record of an unprotected entry its provide. -/
theorem provideRecord_hostRecord (r : Char × List Str) (record : UnprotectedRecord (prots.map (·.path.comps)) r) :
    provideRecord (prots.map ProtectedPath.text) (absPath root.comps)
        (ascii r.1 :: ascii ' ' :: utf8Encode (hostRecord root r).2) =
      .ok (some (provideFor r.1 (relpath (hostRecord root r).2 (absPath root.comps)))) := by
  have components : ∀ c ∈ r.2, Component c := fun c inPath => (record.2.2.1 c inPath).1.component
  refine provideRecord_printf _ _ _ _ record.1 ?_ ?_ <;> rw [relpath_hostRecord root prots r record]
  · exact hasLeadingDotDot_join _ (fun c inPath => (record.2.2.1 c inPath).1) record.2.1
  · rw [isPathProtected_join _ _ components record.2.1, List.any_eq_false]
    intro prot protMember under
    exact record.2.2.2 _ (List.mem_map_of_mem _ protMember) (of_decide_eq_true under)

/-- Every record `find` prints has a `%y` letter and a path without NUL. -/
theorem rootRecords_printable (entries : List TextEntry) (named : TextEntry.AllWellNamed entries) :
    ∀ r ∈ rootRecords root prots entries, r.1 ∈ typeLetters ∧ (0 : UInt8) ∉ utf8Encode r.2 := by
  simp only [rootRecords, List.mem_cons, List.mem_map, hostRecord]
  rintro r (rfl | ⟨r, member, rfl⟩)
  · exact ⟨(by decide : 'd' ∈ typeLetters), zero_not_mem_utf8Encode _ (absPath_noNul _ root.noNul)⟩
  · have record := unprotectedAll_root_records prots entries named r member
    refine ⟨record.1, zero_not_mem_utf8Encode _ (absPath_noNul _ fun c inPath => ?_)⟩
    rcases List.mem_append.mp inPath with inRoot | inRecord
    exacts [root.noNul c inRoot, (record.2.2.1 c inRecord).2]

/-- The record loop turns the records of the walk into the provides, and sees
the root. -/
theorem recordLoop_root (entries : List TextEntry) (named : TextEntry.AllWellNamed entries) :
    recordLoop (prots.map ProtectedPath.text) (absPath root.comps)
        (split 0 ((rootRecords root prots entries).map fun r => printfRecord r.1 (utf8Encode r.2)).flatten) =
      (.directory ['.'] :: (TextEntry.unprotectedAll (prots.map (·.path.comps)) [] entries).map
        (fun r => provideFor r.1 (join '/' r.2)), .ok true) := by
  have walked := unprotectedAll_root_records prots entries named
  have each : ∀ r ∈ rootRecords root prots entries,
      provideRecord (prots.map ProtectedPath.text) (absPath root.comps) (ascii r.1 :: ascii ' ' :: utf8Encode r.2) =
        .ok (some (provideFor r.1 (relpath r.2 (absPath root.comps)))) := by
    simp only [rootRecords, List.mem_cons, List.mem_map]
    rintro r (rfl | ⟨r, member, rfl⟩)
    · exact provideRecord_printf _ _ 'd' (absPath root.comps) (by decide) (by rw [relpath_root]; rfl)
        (by rw [relpath_root, isPathProtected_dot])
    · exact provideRecord_hostRecord root prots r (walked r member)
  have printable := rootRecords_printable root prots entries named
  rw [split_printfRecords _ (fun r member => (printable r member).1) (fun r member => (printable r member).2),
    recordLoop_provided _ _ _ _ _ each]
  simp only [rootRecords, List.map_cons, List.any_cons, provideFor_path, relpath_root, List.map_map]
  refine Prod.ext ?_ (by simp)
  simp only [List.cons.injEq, true_and]
  refine ⟨rfl, List.map_congr_left fun r member => ?_⟩
  simp only [Function.comp_apply, relpath_hostRecord root prots r (walked r member)]
  rfl

end Records

/-- `gen_subvolume_subtree_provides(subvol, '/')` yields what it is for, and
raises nothing, when at least one path is protected. -/
theorem genSubvolumeSubtreeProvides_root (root : PlainPath) (prots : List ProtectedPath) (entries : List TextEntry)
    (named : TextEntry.AllWellNamed entries) (someProtected : prots ≠ []) :
    genSubvolumeSubtreeProvides ⟨absPath root.comps, TextEntry.encodeAll entries⟩ (prots.map ProtectedPath.text)
      ['/'] = ⟨rootProvides prots entries, none⟩ := by
  have rootJoin : osJoin ['/'] ['/'] = ['/'] := rfl
  have inside : ∀ prot : ProtectedPath, hasLeadingDotDot (join '/' prot.path.comps) = false :=
    fun prot => hasLeadingDotDot_join _ prot.path.clean prot.path.nonempty
  simp only [genSubvolumeSubtreeProvides, rootJoin, List.filterMap_map, Function.comp_def, relpath_protected_root,
    inside, if_false, Bool.false_eq_true]
  rw [← rootJoin, subvolPath_root, runFind_root root prots entries named someProtected]
  dsimp only
  rw [recordLoop_root root prots entries named]
  dsimp only
  rw [if_pos rfl, rootProvides,
    show (fun prot : ProtectedPath => some (Provides.doNotAccess (join '/' prot.path.comps))) =
      some ∘ fun prot => .doNotAccess (join '/' prot.path.comps) from rfl, List.filterMap_eq_map]
  rfl

/-- The subvolume `/s`. -/
def sRoot : PlainPath := ⟨["s".toList], by simp, by decide, by decide, by decide⟩

/-- The protected directory `meta/`. -/
def metaDir : ProtectedPath := ⟨⟨["meta".toList], by simp, by decide, by decide, by decide⟩, true⟩

theorem genSubvolumeSubtreeProvides_root_meta :
    TextEntry.AllWellNamed [.dir "a".toList [.leaf "f".toList .regular], .dir "meta".toList [.leaf "x".toList .regular]] ∧
    [metaDir] ≠ [] ∧
    genSubvolumeSubtreeProvides ⟨absPath sRoot.comps, TextEntry.encodeAll
        [.dir "a".toList [.leaf "f".toList .regular], .dir "meta".toList [.leaf "x".toList .regular]]⟩
        ([metaDir].map ProtectedPath.text) ['/'] =
      ⟨rootProvides [metaDir] [.dir "a".toList [.leaf "f".toList .regular], .dir "meta".toList [.leaf "x".toList .regular]],
        none⟩ :=
  have named : TextEntry.AllWellNamed [.dir "a".toList [.leaf "f".toList .regular],
      .dir "meta".toList [.leaf "x".toList .regular]] := by
    simp only [TextEntry.AllWellNamed, TextEntry.WellNamed]
    decide
  ⟨named, by simp, genSubvolumeSubtreeProvides_root sRoot [metaDir] _ named (by simp)⟩

example : rootProvides [metaDir] [.dir "a".toList [.leaf "f".toList .regular],
    .dir "meta".toList [.leaf "x".toList .regular]] =
      [.doNotAccess "meta".toList, .directory ['.'], .directory "a".toList, .file "a/f".toList] := by
  decide

end FsImage.Compiler.Items
