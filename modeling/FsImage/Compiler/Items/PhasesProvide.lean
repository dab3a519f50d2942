import FsImage.Find.Traversal
import FsImage.Python.PosixPath

/-! `gen_subvolume_subtree_provides` of `compiler/items/phases_provide.py`.

It yields a `ProvidesDoNotAccess` for every protected path inside the
subtree, then walks the subtree with `find`, pruning the protected paths at
traversal time, and turns each NUL-terminated `%y %p` record into a
`ProvidesDirectory` or a `ProvidesFile`, after asserting that the path is
inside the subtree and not protected. A last assertion checks that the
subtree itself was seen. `protected_path_set(subvol)`, which reads the
subvolume's mounts, is an argument here: the set, in the order the loops
walk it.
-/

set_option autoImplicit false

namespace FsImage.Compiler.Items

open FsImage.Python FsImage.Python.PosixPath FsImage.Find

/-- `has_leading_dot_dot`. -/
def hasLeadingDotDot (p : Str) : Bool := p == ['.', '.'] || startswith p "../".toList

/-- Modelled from the spec: `is_path_protected` of `compiler/items/common.py`,
which is not among the sources. A path is protected when it is at or below one
of the protected paths, a trailing `/` marking a protected directory and any
other path a protected file. -/
def isPathProtected (path : Str) (protectedPaths : List Str) : Bool :=
  protectedPaths.any fun prot =>
    startswith (path ++ ['/']) (if prot.getLast? = some '/' then prot else prot ++ ['/'])

/-- The provides of this module, by path. -/
inductive Provides where
  | doNotAccess (path : Str)
  | directory (path : Str)
  | file (path : Str)
  deriving DecidableEq, Repr

def Provides.path : Provides → Str
  | .doNotAccess path | .directory path | .file path => path

/-- A subvolume: its path on the host and the entries of its root directory. -/
structure SubvolTree where
  path : Str
  entries : List Entry
  deriving Repr

/-- Modelled from the spec: `Subvol.path` of `subvol_utils.py`, which is not
among the sources. The path inside the subvolume loses its leading slashes, is
joined below the subvolume's path and is normalised. Its checks against
symlinks and against paths that leave the subvolume are left out. -/
def subvolPath (subvol : SubvolTree) (pathInSubvol : Str) : Str :=
  normpath (osJoin subvol.path (lstrip '/' pathInSubvol))

/-- Where the kernel's walk of a host path ends, from the subvolume's top when
the path is in the subvolume. -/
def SubvolTree.entryAt (subvol : SubvolTree) (hostPath : Str) : Walk Entry :=
  let rel := relpath hostPath subvol.path
  if hasLeadingDotDot rel then .outside
  else startAt subvol.entries (if rel = ['.'] then [] else (split '/' rel).map utf8Encode)

/-- The `find` that `subvol.run_as_root` runs: its output, or
`CalledProcessError` when `find` fails, on an empty `( )` or a starting point
the walk does not reach. A starting point outside the subvolume, which is not
modelled, is taken to be missing too. -/
def runFind (subvol : SubvolTree) (start : Str) (patterns : List Bytes) : Py Bytes :=
  if patterns = [] then .error .calledProcessError
  else
    match subvol.entryAt start with
    | .found entry => .ok (findEntry patterns (utf8Encode start) entry)
    | .missing | .outside => .error .calledProcessError

/-- The `-path` argument for a protected path; `normpath` drops the trailing
`/` of a protected directory. -/
def prunePattern (subvol : SubvolTree) (prot : Str) : Bytes := utf8Encode (subvolPath subvol (normpath prot))

/-- The type letters provided as files. -/
def fileTypes : List Str := ["b", "c", "p", "f", "l", "s"].map String.toList

/-- The body of the record loop: the provide for one record, `none` for the
empty piece after the last NUL. -/
def provideRecord (protectedPaths : List Str) (subtreeFullPath : Str) (typeAndPath : Bytes) :
    Py (Option Provides) :=
  if typeAndPath = [] then .ok none
  else
    match utf8Decode typeAndPath with
    | none => .error .unicodeDecodeError
    | some text =>
      match splitOnce ' ' text with
      | none => .error .valueError
      | some (filetype, abspath) =>
        let rel := relpath abspath subtreeFullPath
        if hasLeadingDotDot rel then .error .assertionError
        else if isPathProtected rel protectedPaths then .error .assertionError
        else if filetype ∈ fileTypes then .ok (some (.file rel))
        else if filetype = ['d'] then .ok (some (.directory rel))
        else .error .assertionError

/-- The record loop: what it yields, and how it ends, with an exception or
with whether some record was the subtree itself. -/
def recordLoop (protectedPaths : List Str) (subtreeFullPath : Str) :
    List Bytes → List Provides × Except PyExc Bool
  | [] => ([], .ok false)
  | record :: rest =>
    match provideRecord protectedPaths subtreeFullPath record with
    | .error e => ([], .error e)
    | .ok none => recordLoop protectedPaths subtreeFullPath rest
    | .ok (some provide) =>
      let (more, outcome) := recordLoop protectedPaths subtreeFullPath rest
      (provide :: more, outcome.map (provide.path = ['.'] || ·))

/-- `gen_subvolume_subtree_provides(subvol, subtree)`. -/
def genSubvolumeSubtreeProvides (subvol : SubvolTree) (protectedPaths : List Str) (subtree : Str) :
    GenRun Provides :=
  let subtree := osJoin ['/'] subtree
  let doNotAccess := protectedPaths.filterMap fun prot =>
    let relToSubtree := relpath (osJoin ['/'] prot) subtree
    if hasLeadingDotDot relToSubtree then none else some (Provides.doNotAccess relToSubtree)
  let subtreeFullPath := subvolPath subvol subtree
  match runFind subvol subtreeFullPath (protectedPaths.map (prunePattern subvol)) with
  | .error e => ⟨doNotAccess, some e⟩
  | .ok output =>
    match recordLoop protectedPaths subtreeFullPath (split 0 output) with
    | (provides, .error e) => ⟨doNotAccess ++ provides, some e⟩
    | (provides, .ok subtreeExists) =>
      ⟨doNotAccess ++ provides, if subtreeExists then none else some .assertionError⟩

/-! ## The record loop -/

/-- The letters `%y` prints. -/
def typeLetters : Str := ['b', 'c', 'd', 'p', 'f', 'l', 's']

theorem typeLetters_letter (type : LeafType) : type.letter ∈ typeLetters := by
  cases type <;> simp only [LeafType.letter] <;> decide

/-- The provide for a record of type letter `letter`. -/
def provideFor (letter : Char) (rel : Str) : Provides :=
  if letter = 'd' then .directory rel else .file rel

@[simp] theorem provideFor_path (letter : Char) (rel : Str) : (provideFor letter rel).path = rel := by
  unfold provideFor; split <;> rfl

theorem ascii_eq_utf8EncodeChar (c : Char) (small : c.toNat < 0x80) : [ascii c] = utf8EncodeChar c := by
  simp [utf8EncodeChar, small, ascii]

/-- The letters `%y` prints are ASCII. -/
theorem typeLetters_small (letter : Char) (typed : letter ∈ typeLetters) : letter.toNat < 0x80 := by
  simp only [typeLetters, List.mem_cons, List.not_mem_nil, or_false] at typed
  rcases typed with rfl | rfl | rfl | rfl | rfl | rfl | rfl <;> decide

/-- A record before its NUL holds no NUL when its path holds none. -/
theorem printfHead_free (letter : Char) (typed : letter ∈ typeLetters) (path : Bytes) (noNul : (0 : UInt8) ∉ path) :
    (0 : UInt8) ∉ ascii letter :: ascii ' ' :: path := by
  have letterByte : ascii letter ≠ 0 := by
    simp only [typeLetters, List.mem_cons, List.not_mem_nil, or_false] at typed
    rcases typed with rfl | rfl | rfl | rfl | rfl | rfl | rfl <;> decide
  intro member
  rcases List.mem_cons.mp member with same | member
  · exact letterByte same.symm
  rcases List.mem_cons.mp member with same | member
  · exact absurd same (by decide)
  · exact noNul member

/-- The record loop's body on a record `%y %p` whose path is text: the two
assertions on the path relative to the subtree, then the provide its type
letter calls for. -/
theorem provideRecord_printf_decoded (protectedPaths : List Str) (subtreeFullPath : Str) (letter : Char) (path : Str)
    (typed : letter ∈ typeLetters) :
    provideRecord protectedPaths subtreeFullPath (ascii letter :: ascii ' ' :: utf8Encode path) =
      if hasLeadingDotDot (relpath path subtreeFullPath) then .error .assertionError
      else if isPathProtected (relpath path subtreeFullPath) protectedPaths then .error .assertionError
      else .ok (some (provideFor letter (relpath path subtreeFullPath))) := by
  have small := typeLetters_small letter typed
  have encoded : ascii letter :: ascii ' ' :: utf8Encode path = utf8Encode (letter :: ' ' :: path) := by
    rw [utf8Encode_cons, utf8Encode_cons, ← ascii_eq_utf8EncodeChar letter small,
      ← ascii_eq_utf8EncodeChar ' ' (by decide)]
    rfl
  have notSpace : letter ≠ ' ' := fun same => by subst same; simp [typeLetters] at typed
  rw [provideRecord, if_neg (List.cons_ne_nil _ _), encoded, utf8Decode_encode]
  simp only [splitOnce, if_neg notSpace, if_true, Option.map_some']
  refine if_congr Iff.rfl rfl (if_congr Iff.rfl rfl ?_)
  simp only [typeLetters, List.mem_cons, List.not_mem_nil, or_false] at typed
  rcases typed with rfl | rfl | rfl | rfl | rfl | rfl | rfl <;> rfl

/-- A record `find` printed for a path inside the subtree that is not
protected gives the provide its type letter calls for. -/
theorem provideRecord_printf (protectedPaths : List Str) (subtreeFullPath : Str) (letter : Char) (path : Str)
    (typed : letter ∈ typeLetters) (inside : hasLeadingDotDot (relpath path subtreeFullPath) = false)
    (unprotected : isPathProtected (relpath path subtreeFullPath) protectedPaths = false) :
    provideRecord protectedPaths subtreeFullPath (ascii letter :: ascii ' ' :: utf8Encode path) =
      .ok (some (provideFor letter (relpath path subtreeFullPath))) := by
  rw [provideRecord_printf_decoded _ _ _ _ typed, inside, unprotected]
  rfl

/-- A record whose path is not UTF-8 makes the body raise `UnicodeDecodeError`. -/
theorem provideRecord_undecodable (protectedPaths : List Str) (subtreeFullPath : Str) (letter : Char) (path : Bytes)
    (typed : letter ∈ typeLetters) (undecodable : utf8Decode path = none) :
    provideRecord protectedPaths subtreeFullPath (ascii letter :: ascii ' ' :: path) = .error .unicodeDecodeError := by
  have undecoded : utf8Decode (ascii letter :: ascii ' ' :: path) = none := by
    rw [← List.singleton_append, ascii_eq_utf8EncodeChar letter (typeLetters_small letter typed),
      utf8Decode_encodeChar_append, ← List.singleton_append, ascii_eq_utf8EncodeChar ' ' (by decide),
      utf8Decode_encodeChar_append, undecodable]
    rfl
  rw [provideRecord, if_neg (List.cons_ne_nil _ _), undecoded]

/-- The loop over records that each give a provide, then over more pieces,
yields those provides and then does what it does with the rest. -/
theorem recordLoop_provided_append {ρ : Type} (protectedPaths : List Str) (subtreeFullPath : Str) (records : List ρ)
    (bytesOf : ρ → Bytes) (provides : ρ → Provides) (rest : List Bytes)
    (each : ∀ r ∈ records, provideRecord protectedPaths subtreeFullPath (bytesOf r) = .ok (some (provides r))) :
    recordLoop protectedPaths subtreeFullPath (records.map bytesOf ++ rest) =
      (records.map provides ++ (recordLoop protectedPaths subtreeFullPath rest).1,
        (recordLoop protectedPaths subtreeFullPath rest).2.map
          ((records.any fun r => (provides r).path = ['.']) || ·)) := by
  induction records with
  | nil =>
    simp only [List.map_nil, List.nil_append]
    cases recordLoop protectedPaths subtreeFullPath rest with
    | mk more outcome => cases outcome <;> rfl
  | cons record more ih =>
    rw [List.map_cons, List.cons_append, recordLoop, each record (by simp),
      ih fun r member => each r (List.mem_cons_of_mem _ member)]
    cases (recordLoop protectedPaths subtreeFullPath rest).2 <;> simp [Except.map, Bool.or_assoc]

/-- The loop over records that each give a provide, and the empty piece after
the last NUL, yields those provides and raises nothing. -/
theorem recordLoop_provided {ρ : Type} (protectedPaths : List Str) (subtreeFullPath : Str) (records : List ρ)
    (bytesOf : ρ → Bytes) (provides : ρ → Provides)
    (each : ∀ r ∈ records, provideRecord protectedPaths subtreeFullPath (bytesOf r) = .ok (some (provides r))) :
    recordLoop protectedPaths subtreeFullPath (records.map bytesOf ++ [[]]) =
      (records.map provides, .ok (records.any fun r => (provides r).path = ['.'])) := by
  have ended : recordLoop protectedPaths subtreeFullPath [[]] = ([], .ok false) := rfl
  simp [recordLoop_provided_append _ _ records _ _ _ each, ended, Except.map]

/-- The loop over records each of which either gives a provide or, when it is
`bad`, fails an assertion: it yields the provides up to the first bad record
and raises there; with no bad record it raises nothing. -/
theorem recordLoop_takeWhile {ρ : Type} (protectedPaths : List Str) (subtreeFullPath : Str) (records : List ρ)
    (bytesOf : ρ → Bytes) (provides : ρ → Provides) (bad : ρ → Bool)
    (good : ∀ r ∈ records, bad r = false →
      provideRecord protectedPaths subtreeFullPath (bytesOf r) = .ok (some (provides r)))
    (failing : ∀ r ∈ records, bad r = true →
      provideRecord protectedPaths subtreeFullPath (bytesOf r) = .error .assertionError) :
    recordLoop protectedPaths subtreeFullPath (records.map bytesOf ++ [[]]) =
      ((records.takeWhile fun r => !bad r).map provides,
        if records.any bad then .error .assertionError else .ok (records.any fun r => (provides r).path = ['.'])) := by
  induction records with
  | nil => rfl
  | cons record rest ih =>
    rw [List.map_cons, List.cons_append, recordLoop]
    cases isBad : bad record
    · rw [good record (List.mem_cons_self _ _) isBad, ih (fun r member => good r (List.mem_cons_of_mem _ member))
        fun r member => failing r (List.mem_cons_of_mem _ member)]
      simp only [List.takeWhile_cons, isBad, Bool.not_false, List.map_cons, List.any_cons, Bool.false_or]
      split <;> rfl
    · rw [failing record (List.mem_cons_self _ _) isBad]
      simp [List.takeWhile_cons, isBad]

/-- Splitting the stream `-printf '%y %p\0'` makes at its NULs, then more,
gives back each record without its NUL, then the split of what follows. -/
theorem split_printfRecords_append (records : List (Char × Str)) (rest : Bytes)
    (typed : ∀ r ∈ records, r.1 ∈ typeLetters) (noNul : ∀ r ∈ records, (0 : UInt8) ∉ utf8Encode r.2) :
    split 0 ((records.map fun r => printfRecord r.1 (utf8Encode r.2)).flatten ++ rest) =
      records.map (fun r => ascii r.1 :: ascii ' ' :: utf8Encode r.2) ++ split 0 rest := by
  have terminated : (records.map fun r => printfRecord r.1 (utf8Encode r.2)) =
      ((records.map fun r => ascii r.1 :: ascii ' ' :: utf8Encode r.2).map (· ++ [0])) := by
    simp [printfRecord]
  rw [terminated, split_flatten_terminated_append]
  simp only [List.mem_map]
  rintro _ ⟨r, member, rfl⟩
  exact printfHead_free r.1 (typed r member) _ (noNul r member)

/-- Splitting the stream `-printf '%y %p\0'` makes at its NULs gives back
each record without its NUL, and an empty piece after the last. -/
theorem split_printfRecords (records : List (Char × Str)) (typed : ∀ r ∈ records, r.1 ∈ typeLetters)
    (noNul : ∀ r ∈ records, (0 : UInt8) ∉ utf8Encode r.2) :
    split 0 (records.map fun r => printfRecord r.1 (utf8Encode r.2)).flatten =
      records.map (fun r => ascii r.1 :: ascii ' ' :: utf8Encode r.2) ++ [[]] := by
  simpa using split_printfRecords_append records [] typed noNul

/-- The record loop parses the stream `-printf '%y %p\0'` makes of records
whose paths are text without NUL, inside the subtree and not protected: one
provide per record, in order, a directory exactly for `d`, and no exception;
the subtree counts as seen when some record is the subtree itself. When such
records are followed by one whose path is not UTF-8, the loop yields their
provides and raises `UnicodeDecodeError` there. -/
theorem recordLoop_printf_records (protectedPaths : List Str) (subtreeFullPath : Str)
    (records : List (Char × Str))
    (typed : ∀ r ∈ records, r.1 ∈ typeLetters)
    (noNul : ∀ r ∈ records, (0 : UInt8) ∉ utf8Encode r.2)
    (inside : ∀ r ∈ records, hasLeadingDotDot (relpath r.2 subtreeFullPath) = false)
    (unprotected : ∀ r ∈ records, isPathProtected (relpath r.2 subtreeFullPath) protectedPaths = false) :
    recordLoop protectedPaths subtreeFullPath
        (split 0 (records.map fun r => printfRecord r.1 (utf8Encode r.2)).flatten) =
      (records.map fun r => provideFor r.1 (relpath r.2 subtreeFullPath),
        .ok (records.any fun r => relpath r.2 subtreeFullPath = ['.'])) ∧
    ∀ letter ∈ typeLetters, ∀ path more : Bytes, (0 : UInt8) ∉ path → utf8Decode path = none →
      recordLoop protectedPaths subtreeFullPath
          (split 0 ((records.map fun r => printfRecord r.1 (utf8Encode r.2)).flatten ++
            printfRecord letter path ++ more)) =
        (records.map fun r => provideFor r.1 (relpath r.2 subtreeFullPath), .error .unicodeDecodeError) := by
  have each : ∀ r ∈ records, provideRecord protectedPaths subtreeFullPath (ascii r.1 :: ascii ' ' :: utf8Encode r.2) =
      .ok (some (provideFor r.1 (relpath r.2 subtreeFullPath))) := fun r member =>
    provideRecord_printf protectedPaths subtreeFullPath r.1 r.2 (typed r member) (inside r member) (unprotected r member)
  refine ⟨?parsed, fun letter letterTyped path more pathNoNul undecodable => ?raised⟩
  case parsed =>
    rw [split_printfRecords records typed noNul, recordLoop_provided _ _ records _ _ each]
    simp only [provideFor_path]
  case raised =>
    have terminated : printfRecord letter path ++ more = (ascii letter :: ascii ' ' :: path) ++ 0 :: more := by
      simp [printfRecord]
    rw [List.append_assoc, split_printfRecords_append records _ typed noNul, terminated,
      split_append _ _ _ (printfHead_free letter letterTyped path pathNoNul), recordLoop_provided_append _ _ records _ _ _ each,
      recordLoop, provideRecord_undecodable _ _ letter path letterTyped undecodable]
    simp [Except.map]

/-- Two records, the second with a space and a newline in its name. -/
def spacedRecords : List (Char × Str) := [('d', "/s".toList), ('f', "/s/a b\nc".toList)]

theorem recordLoop_printf_records_spaces :
    (∀ r ∈ spacedRecords, r.1 ∈ typeLetters) ∧
    (∀ r ∈ spacedRecords, (0 : UInt8) ∉ utf8Encode r.2) ∧
    (∀ r ∈ spacedRecords, hasLeadingDotDot (relpath r.2 "/s".toList) = false) ∧
    (∀ r ∈ spacedRecords, isPathProtected (relpath r.2 "/s".toList) ["meta/".toList] = false) ∧
    (recordLoop ["meta/".toList] "/s".toList
        (split 0 (spacedRecords.map fun r => printfRecord r.1 (utf8Encode r.2)).flatten) =
      (spacedRecords.map fun r => provideFor r.1 (relpath r.2 "/s".toList),
        .ok (spacedRecords.any fun r => relpath r.2 "/s".toList = ['.'])) ∧
    ∀ letter ∈ typeLetters, ∀ path more : Bytes, (0 : UInt8) ∉ path → utf8Decode path = none →
      recordLoop ["meta/".toList] "/s".toList
          (split 0 ((spacedRecords.map fun r => printfRecord r.1 (utf8Encode r.2)).flatten ++
            printfRecord letter path ++ more)) =
        (spacedRecords.map fun r => provideFor r.1 (relpath r.2 "/s".toList), .error .unicodeDecodeError)) :=
  ⟨by decide, by decide, by decide, by decide,
    recordLoop_printf_records ["meta/".toList] "/s".toList spacedRecords (by decide) (by decide) (by decide) (by decide)⟩

/-- A record whose path is not UTF-8 stops the loop with `UnicodeDecodeError`. -/
theorem recordLoop_undecodable_path :
    recordLoop ["meta/".toList] "/s".toList (split 0 (printfRecord 'f' (utf8Encode "/s/x".toList ++ [0xFF]))) =
      ([], .error .unicodeDecodeError) := by
  decide

/-! ## Pruning and the protected paths -/

/-- A subvolume at `/s` with a directory `a*` and a directory `ab` that holds a
file `f`. -/
def starSubvol : SubvolTree :=
  ⟨"/s".toList, [.dir (utf8Encode "a*".toList) [],
    .dir (utf8Encode "ab".toList) [.leaf (utf8Encode "f".toList) .regular]]⟩

/-- The pattern for the protected directory `a*/` is `/s/a*`, which `-path`
also finds true of `/s/ab`: `find` prunes `ab`, and neither `ab` nor `ab/f`
is provided. -/
theorem prunePattern_matches_sibling :
    prunePattern starSubvol "a*/".toList = utf8Encode "/s/a*".toList ∧
      pathMatches [prunePattern starSubvol "a*/".toList] (utf8Encode "/s/ab".toList) = true ∧
      genSubvolumeSubtreeProvides starSubvol ["a*/".toList] "/".toList =
        ⟨[.doNotAccess "a*".toList, .directory ['.']], none⟩ := by
  decide

/-- A subvolume at `/r` holding the directory `a/b`. -/
def nestedSubvol : SubvolTree :=
  ⟨"/r".toList, [.dir (utf8Encode "a".toList) [.dir (utf8Encode "b".toList) []]]⟩

theorem genSubvolumeSubtreeProvides_protected_elsewhere :
    genSubvolumeSubtreeProvides nestedSubvol ["b/".toList] "/a".toList =
      ⟨[.directory ['.']], some .assertionError⟩ := by
  decide

end FsImage.Compiler.Items
