import FsImage.Compiler.Items.ProvidesAtRoot

/-! `gen_subvolume_subtree_provides(subvol, subtree)` for a subtree `S` below
the root of the subvolume.

`find` starts at `S` and prunes at the protected paths, which are relative to
the subvolume. The record loop then reads each path relative to `S` and
asserts that it is not protected, against the same subvolume-relative
protected paths. So the generator yields the `ProvidesDoNotAccess` of the
protected paths at or below `S`, then the provides of `S` and of the entries
below it that `find` does not prune, parents first, up to the first entry
whose path relative to `S` is at or below a protected path: there it raises
`AssertionError`. It raises one too when `S` is itself protected, for then
nothing is printed and the subtree is never seen, and `find` fails with
`CalledProcessError` when the kernel's walk to `S`, which follows the links
on the way, finds nothing. At the root both readings of the protected paths
agree (`ProvidesAtRoot`).
-/

set_option autoImplicit false

namespace FsImage.Compiler.Items

open FsImage.Python FsImage.Python.PosixPath FsImage.Find

/-- The entries of a directory with text names; none for another file. -/
def TextEntry.children : TextEntry → List TextEntry
  | .dir _ children => children
  | .leaf _ _ => []

/-- `enterEntry` on entries with text names. -/
def TextEntry.enterEntry (descend : TextEntry → Walk TextEntry) (follow : List Bytes → Walk TextEntry) :
    TextEntry → Walk TextEntry
  | .dir dirName children => descend (.dir dirName children)
  | .leaf _ type =>
    match type with
    | .symlink target =>
      if target = [] then .missing else if target.head? = some 47 then .outside else follow (split 47 target)
    | _ => .missing

/-- `walkNames` on entries with text names, which it reads encoded. -/
def TextEntry.walkNames (root : List TextEntry) (follow : List TextEntry → List Bytes → Walk TextEntry) :
    List TextEntry → List Bytes → Walk TextEntry
  | up, [] => .found (up.head?.getD (.dir [] root))
  | up, name :: rest =>
    if name = [] ∨ name = [46] then TextEntry.walkNames root follow up rest
    else if name = [46, 46] then (if up.isEmpty then .outside else TextEntry.walkNames root follow up.tail rest)
    else
      match ((up.head?.map TextEntry.children).getD root).find? (utf8Encode ·.name == name) with
      | none => .missing
      | some entry =>
        if rest = [] then .found entry
        else TextEntry.enterEntry (fun dir => TextEntry.walkNames root follow (dir :: up) rest)
          (fun target => follow up (target ++ rest)) entry

/-- `walkLinks` on entries with text names. -/
def TextEntry.walkLinks (root : List TextEntry) : Nat → List TextEntry → List Bytes → Walk TextEntry
  | 0 => TextEntry.walkNames root fun _ _ => .missing
  | links + 1 => TextEntry.walkNames root (TextEntry.walkLinks root links)

/-- `startAt` on entries with text names, for a path of text names. -/
def TextEntry.startAt (root : List TextEntry) (path : List Str) : Walk TextEntry :=
  TextEntry.walkLinks root maxSymlinks [] (path.map utf8Encode)

/-- A path relative to the subtree as `relpath` writes it: `.` for the
subtree itself. -/
def relText (rel : List Str) : Str := if rel = [] then ['.'] else join '/' rel

/-- A path relative to the subtree that the record loop takes for protected:
it reads the protected paths, which are relative to the subvolume, as if they
were relative to the subtree. -/
def misreadProtected (protComps : List (List Str)) (rel : List Str) : Bool :=
  rel != [] && protComps.any (· <+: rel)

/-- What the generator does with the subtree `S` and the entry found there:
the protected paths at or below `S`, relative to it, then the walk of `find`
read relative to `S`, cut at the first path that the loop takes for
protected. -/
def subtreeRun (prots : List ProtectedPath) (subtree : List Str) (found : Option TextEntry) : GenRun Provides :=
  let protComps := prots.map (·.path.comps)
  let doNotAccess := prots.filterMap fun prot =>
    if subtree <+: prot.path.comps then some (Provides.doNotAccess (relText (prot.path.comps.drop subtree.length)))
    else none
  match found with
  | none => ⟨doNotAccess, some .calledProcessError⟩
  | some entry =>
    let walk := (entry.unprotected protComps subtree.dropLast).map fun r => (r.1, r.2.drop subtree.length)
    ⟨doNotAccess ++ (walk.takeWhile fun r => !misreadProtected protComps r.2).map fun r => provideFor r.1 (relText r.2),
      if walk = [] ∨ walk.any (misreadProtected protComps ·.2) then some .assertionError else none⟩

/-! ## Looking the subtree up -/

theorem TextEntry.encodeAll_eq_map (entries : List TextEntry) :
    TextEntry.encodeAll entries = entries.map TextEntry.encode := by
  induction entries with
  | nil => rfl
  | cons entry rest ih => rw [TextEntry.encodeAll, ih, List.map_cons]

theorem TextEntry.find?_encodeAll (entries : List TextEntry) (name : Str) :
    (TextEntry.encodeAll entries).find? (·.name == utf8Encode name) =
      (entries.find? (·.name == name)).map TextEntry.encode := by
  rw [TextEntry.encodeAll_eq_map, List.find?_map]
  congr 2
  funext entry
  rw [Function.comp_apply, TextEntry.encode_name, Bool.eq_iff_iff, beq_iff_eq, beq_iff_eq]
  exact ⟨utf8Encode_injective _ _, congrArg utf8Encode⟩

theorem TextEntry.children_encode (up : List TextEntry) (root : List TextEntry) :
    ((up.map TextEntry.encode).head?.map Entry.children).getD (TextEntry.encodeAll root) =
      ((up.head?.map TextEntry.children).getD root).map TextEntry.encode := by
  rcases up with _ | ⟨_ | _, _⟩ <;> simp [TextEntry.encode, TextEntry.children, Entry.children,
    TextEntry.encodeAll_eq_map]

theorem enterEntry_encode (descend : Entry → Walk Entry) (descendText : TextEntry → Walk TextEntry)
    (follow : List Bytes → Walk Entry) (followText : List Bytes → Walk TextEntry)
    (descends : ∀ dir, descend dir.encode = (descendText dir).map TextEntry.encode)
    (follows : ∀ path, follow path = (followText path).map TextEntry.encode) (entry : TextEntry) :
    enterEntry descend follow entry.encode = (TextEntry.enterEntry descendText followText entry).map TextEntry.encode := by
  cases entry with
  | dir dirName children => exact descends (.dir dirName children)
  | leaf leafName type =>
    cases type <;> try rfl
    dsimp only [TextEntry.encode, enterEntry, TextEntry.enterEntry]
    split_ifs <;> first | rfl | exact follows _

/-- The walk through the encoded entries is the walk through the entries,
encoded, when the links are followed alike. -/
theorem walkNames_encodeAll (root : List TextEntry) (follow : List Entry → List Bytes → Walk Entry)
    (followText : List TextEntry → List Bytes → Walk TextEntry)
    (follows : ∀ up path, follow (up.map TextEntry.encode) path = (followText up path).map TextEntry.encode)
    (up : List TextEntry) (path : List Bytes) :
    walkNames (TextEntry.encodeAll root) follow (up.map TextEntry.encode) path =
      (TextEntry.walkNames root followText up path).map TextEntry.encode := by
  induction path generalizing up with
  | nil => cases up <;> rfl
  | cons name rest ih =>
    have named : ((·.name == name) ∘ TextEntry.encode) = (utf8Encode ·.name == name) :=
      funext fun entry => by rw [Function.comp_apply, TextEntry.encode_name]
    rw [walkNames, TextEntry.walkNames, TextEntry.children_encode, List.find?_map, named]
    by_cases here : name = [] ∨ name = [46]
    · simp only [if_pos here]
      exact ih up
    simp only [if_neg here]
    by_cases dots : name = [46, 46]
    · simp only [if_pos dots]
      cases up with
      | nil => rfl
      | cons first above => exact ih above
    simp only [if_neg dots]
    cases ((up.head?.map TextEntry.children).getD root).find? (utf8Encode ·.name == name) with
      | none => rfl
      | some entry =>
        dsimp only [Option.map_some']
        split_ifs
        · rfl
        · exact enterEntry_encode _ _ _ _ (fun dir => ih (dir :: up)) (fun target => follows up _) entry

theorem walkLinks_encodeAll (root : List TextEntry) (links : Nat) (up : List TextEntry) (path : List Bytes) :
    walkLinks (TextEntry.encodeAll root) links (up.map TextEntry.encode) path =
      (TextEntry.walkLinks root links up path).map TextEntry.encode := by
  induction links generalizing up path with
  | zero => exact walkNames_encodeAll root _ _ (fun _ _ => rfl) up path
  | succ links ih => exact walkNames_encodeAll root _ _ ih up path

/-- The kernel's walk of the encoded names through the encoded entries ends
at the encoded entry. -/
theorem startAt_encodeAll (root : List TextEntry) (path : List Str) :
    startAt (TextEntry.encodeAll root) (path.map utf8Encode) = (TextEntry.startAt root path).map TextEntry.encode :=
  walkLinks_encodeAll root maxSymlinks [] _

theorem TextEntry.AllWellNamed.mem {entries : List TextEntry} (named : TextEntry.AllWellNamed entries)
    (entry : TextEntry) (member : entry ∈ entries) : entry.WellNamed := by
  induction entries with
  | nil => cases member
  | cons first rest ih =>
    rcases List.mem_cons.mp member with rfl | member
    exacts [named.1, ih named.2 member]

theorem TextEntry.WellNamed.name {entry : TextEntry} (named : entry.WellNamed) :
    Clean entry.name ∧ '\x00' ∉ entry.name := by
  cases entry with
  | dir name children => exact ⟨named.1, named.2.1⟩
  | leaf name type => exact named

theorem utf8Encode_clean (x : Str) (clean : Clean x) :
    utf8Encode x ≠ [] ∧ utf8Encode x ≠ [46] ∧ utf8Encode x ≠ [46, 46] :=
  ⟨fun same => clean.1 (utf8Encode_injective x [] same), fun same => clean.2.1 (utf8Encode_injective x ['.'] same),
    fun same => clean.2.2.1 (utf8Encode_injective x ['.', '.'] same)⟩

/-- What a walk that ends at an entry has read of its path: each name is
empty, `.`, `..` or the encoded name of a well-named entry, and when the last
name is a clean one the entry is well named and bears it. -/
def TextEntry.WalkedTo (path : List Bytes) (entry : TextEntry) : Prop :=
  (∀ c ∈ path, c = [] ∨ c = [46] ∨ c = [46, 46] ∨ ∃ x, Clean x ∧ '\x00' ∉ x ∧ utf8Encode x = c) ∧
    ∀ x, Clean x → path.getLast? = some (utf8Encode x) → entry.WellNamed ∧ entry.name = x

/-- A name read before more names leaves the last one to them. -/
theorem TextEntry.WalkedTo.cons {name : Bytes} {rest : List Bytes} {entry : TextEntry}
    (read : name = [] ∨ name = [46] ∨ name = [46, 46] ∨ ∃ x, Clean x ∧ '\x00' ∉ x ∧ utf8Encode x = name)
    (nonempty : rest ≠ []) (walked : TextEntry.WalkedTo rest entry) : TextEntry.WalkedTo (name :: rest) entry :=
  ⟨fun c member => (List.mem_cons.mp member).elim (· ▸ read) (walked.1 c),
    fun x clean last => walked.2 x clean (by
      obtain ⟨next, more, rfl⟩ := List.exists_cons_of_ne_nil nonempty
      rwa [List.getLast?_cons_cons] at last)⟩

/-- A special name cannot be the last one of a path ending in a clean name. -/
theorem TextEntry.WalkedTo.special {name : Bytes} {rest : List Bytes} {entry : TextEntry}
    (special : name = [] ∨ name = [46] ∨ name = [46, 46]) (walked : rest ≠ [] → TextEntry.WalkedTo rest entry) :
    TextEntry.WalkedTo (name :: rest) entry := by
  rcases rest.eq_nil_or_concat with rfl | ⟨front, last, rfl⟩
  · refine ⟨fun c member => ?_, fun x clean same => ?_⟩
    · rw [List.mem_singleton.mp member]
      rcases special with h | h | h <;> simp [h]
    · obtain ⟨notNil, notDot, notDots⟩ := utf8Encode_clean x clean
      rw [List.getLast?_singleton, Option.some.injEq] at same
      rcases special with h | h | h <;> subst h
      exacts [(notNil same.symm).elim, (notDot same.symm).elim, (notDots same.symm).elim]
  · exact .cons (by rcases special with h | h | h <;> simp [h]) (by simp) (walked (by simp))

/-- Every walk that ends at an entry has read its path so, when its links are
followed so. -/
theorem TextEntry.walkNames_walkedTo (root : List TextEntry) (named : TextEntry.AllWellNamed root)
    (follow : List TextEntry → List Bytes → Walk TextEntry)
    (follows : ∀ up path entry, (∀ e ∈ up, TextEntry.AllWellNamed e.children) → follow up path = .found entry →
      TextEntry.WalkedTo path entry)
    (up : List TextEntry) (upNamed : ∀ e ∈ up, TextEntry.AllWellNamed e.children) (path : List Bytes)
    (entry : TextEntry) (found : TextEntry.walkNames root follow up path = .found entry) :
    TextEntry.WalkedTo path entry := by
  induction path generalizing up with
  | nil => exact ⟨fun _ member => (by cases member), fun _ _ last => (by cases last)⟩
  | cons name rest ih =>
    rw [TextEntry.walkNames] at found
    by_cases here : name = [] ∨ name = [46]
    · rw [if_pos here] at found
      exact .special (by tauto) fun _ => ih up upNamed found
    rw [if_neg here] at found
    by_cases dots : name = [46, 46]
    · rw [if_pos dots] at found
      cases up with
      | nil => cases found
      | cons first above =>
        exact .special (.inr (.inr dots)) fun _ =>
          ih above (fun e member => upNamed e (List.mem_cons_of_mem _ member)) found
    rw [if_neg dots] at found
    · have childrenNamed : TextEntry.AllWellNamed ((up.head?.map TextEntry.children).getD root) := by
        rcases up with _ | ⟨first, _⟩
        exacts [named, upNamed first (List.mem_cons_self _ _)]
      cases picked : ((up.head?.map TextEntry.children).getD root).find? (utf8Encode ·.name == name) with
      | none => rw [picked] at found; cases found
      | some first =>
        have firstNamed := childrenNamed.mem first (List.mem_of_find?_eq_some picked)
        have sameName : utf8Encode first.name = name := by simpa using List.find?_some picked
        have read : ∃ x, Clean x ∧ '\x00' ∉ x ∧ utf8Encode x = name :=
          ⟨first.name, firstNamed.name.1, firstNamed.name.2, sameName⟩
        rw [picked] at found
        dsimp only at found
        split_ifs at found with ended
        · subst ended
          cases found
          refine ⟨fun c member => by rw [List.mem_singleton.mp member]; exact .inr (.inr (.inr read)), ?_⟩
          intro x _ last
          rw [List.getLast?_singleton, ← sameName, Option.some.injEq] at last
          exact ⟨firstNamed, utf8Encode_injective _ _ last⟩
        · refine .cons (.inr (.inr (.inr read))) ended ?_
          cases first with
          | dir dirName children =>
            refine ih (.dir dirName children :: up) (fun e member => ?_) found
            rcases List.mem_cons.mp member with rfl | member
            exacts [firstNamed.2.2, upNamed e member]
          | leaf leafName type =>
            cases type <;> try cases found
            dsimp only [TextEntry.enterEntry] at found
            split_ifs at found
            have walked := follows up _ entry upNamed found
            exact ⟨fun c member => walked.1 c (List.mem_append_right _ member), fun x clean last =>
              walked.2 x clean (by rwa [List.getLast?_append_of_ne_nil _ ended])⟩

theorem TextEntry.walkLinks_walkedTo (root : List TextEntry) (named : TextEntry.AllWellNamed root) (links : Nat)
    (up : List TextEntry) (path : List Bytes) (entry : TextEntry) (upNamed : ∀ e ∈ up, TextEntry.AllWellNamed e.children)
    (found : TextEntry.walkLinks root links up path = .found entry) : TextEntry.WalkedTo path entry := by
  induction links generalizing up path entry with
  | zero =>
    exact TextEntry.walkNames_walkedTo root named (fun _ _ => .missing) (fun _ _ _ _ missing => (by cases missing))
      up upNamed path entry found
  | succ links ih => exact TextEntry.walkNames_walkedTo root named _ ih up upNamed path entry found

/-- The entry the walk of a path of clean names ends at is well named, it
bears the path's last name, and no name on the path holds NUL. -/
theorem TextEntry.startAt_named (root : List TextEntry) (named : TextEntry.AllWellNamed root) (path : List Str)
    (clean : ∀ c ∈ path, Clean c) (nonempty : path ≠ [])
    (entry : TextEntry) (found : TextEntry.startAt root path = .found entry) :
    entry.WellNamed ∧ path.getLast? = some entry.name ∧ ∀ c ∈ path, Clean c ∧ '\x00' ∉ c := by
  have walked := TextEntry.walkLinks_walkedTo root named maxSymlinks [] _ entry (fun _ member => (by cases member))
    found
  obtain ⟨last, lastIn⟩ : ∃ last, path.getLast? = some last := Option.ne_none_iff_exists'.mp (by simpa using nonempty)
  obtain ⟨entryNamed, sameName⟩ := walked.2 last (clean last (List.mem_of_getLast?_eq_some lastIn))
    (by rw [List.getLast?_map, lastIn]; rfl)
  refine ⟨entryNamed, by rw [lastIn, sameName], fun c member => ⟨clean c member, ?_⟩⟩
  obtain ⟨notNil, notDot, notDots⟩ := utf8Encode_clean c (clean c member)
  rcases walked.1 _ (List.mem_map_of_mem _ member) with h | h | h | ⟨x, -, noNul, same⟩
  exacts [absurd h notNil, absurd h notDot, absurd h notDots, utf8Encode_injective _ _ same ▸ noNul]

/-! ## The walk below the subtree -/

mutual

/-- Each record below an entry has a `%y` letter and a path that starts with
the entry's own path and is made of clean names without NUL. -/
theorem TextEntry.unprotected_walk (protComps : List (List Str)) (dir : List Str)
    (dirOk : ∀ c ∈ dir, Clean c ∧ '\x00' ∉ c) :
    (entry : TextEntry) → entry.WellNamed → ∀ r ∈ entry.unprotected protComps dir,
      r.1 ∈ typeLetters ∧ dir ++ [entry.name] <+: r.2 ∧ ∀ c ∈ r.2, Clean c ∧ '\x00' ∉ c
  | .dir name children, ⟨clean, noNul, childrenNamed⟩ => fun r member => by
    have hereOk : ∀ c ∈ dir ++ [name], Clean c ∧ '\x00' ∉ c := fun c inPath => by
      rcases List.mem_append.mp inPath with inDir | isName
      exacts [dirOk c inDir, List.mem_singleton.mp isName ▸ ⟨clean, noNul⟩]
    rw [TextEntry.unprotected] at member
    split_ifs at member
    · cases member
    rcases List.mem_cons.mp member with rfl | member
    · exact ⟨show 'd' ∈ typeLetters by decide, List.prefix_refl _, hereOk⟩
    · exact TextEntry.unprotectedAll_walk protComps (dir ++ [name]) hereOk children childrenNamed r member
  | .leaf name type, ⟨clean, noNul⟩ => fun r member => by
    have hereOk : ∀ c ∈ dir ++ [name], Clean c ∧ '\x00' ∉ c := fun c inPath => by
      rcases List.mem_append.mp inPath with inDir | isName
      exacts [dirOk c inDir, List.mem_singleton.mp isName ▸ ⟨clean, noNul⟩]
    rw [TextEntry.unprotected] at member
    split_ifs at member
    · cases member
    rw [List.mem_singleton.mp member]
    exact ⟨typeLetters_letter type, List.prefix_refl _, hereOk⟩

theorem TextEntry.unprotectedAll_walk (protComps : List (List Str)) (dir : List Str)
    (dirOk : ∀ c ∈ dir, Clean c ∧ '\x00' ∉ c) :
    (entries : List TextEntry) → TextEntry.AllWellNamed entries → ∀ r ∈ TextEntry.unprotectedAll protComps dir entries,
      r.1 ∈ typeLetters ∧ dir <+: r.2 ∧ ∀ c ∈ r.2, Clean c ∧ '\x00' ∉ c
  | [], _ => fun r member => by cases member
  | entry :: rest, ⟨named, restNamed⟩ => fun r member => by
    rw [TextEntry.unprotectedAll] at member
    rcases List.mem_append.mp member with member | member
    · obtain ⟨typed, below, comps⟩ := TextEntry.unprotected_walk protComps dir dirOk entry named r member
      exact ⟨typed, (List.prefix_append _ _).trans below, comps⟩
    · exact TextEntry.unprotectedAll_walk protComps dir dirOk rest restNamed r member

end

/-- The first record below an entry, if any, is the entry itself. -/
theorem TextEntry.unprotected_head? (protComps : List (List Str)) (dir : List Str) (entry : TextEntry) :
    ∀ r ∈ (entry.unprotected protComps dir).head?, r.2 = dir ++ [entry.name] := by
  cases entry <;> simp only [TextEntry.unprotected] <;> split_ifs <;> simp [TextEntry.name]

/-! ## Paths of the subtree -/

theorem osJoin_root_absPath (comps : List Str) : osJoin ['/'] (absPath comps) = absPath comps := by
  simp [osJoin, absPath]

/-- `subvol.path(subtree)` of a subtree of clean components. -/
theorem subvolPath_subtree (root : PlainPath) (entries : List Entry) (subtree : List Str)
    (clean : ∀ c ∈ subtree, Clean c) (nonempty : subtree ≠ []) :
    subvolPath ⟨absPath root.comps, entries⟩ (absPath subtree) = absPath (root.comps ++ subtree) := by
  obtain ⟨x, more, joined, other⟩ := join_head subtree (fun c member => (clean c member).component) nonempty
  have allClean : ∀ c ∈ root.comps ++ subtree, Clean c := fun c member => by
    rcases List.mem_append.mp member with member | member
    exacts [root.clean c member, clean c member]
  rw [subvolPath, show absPath subtree = List.replicate 1 '/' ++ join '/' subtree from rfl,
    lstrip_replicate_append, joined, lstrip_of_head_ne '/' x more other, ← joined,
    osJoin_absPath _ root.components root.nonempty _ (by simp [joined, other]),
    ← absPath_append _ _ root.nonempty nonempty]
  simpa [trailingSlash] using normpath_absPath _ allClean (by simp [root.nonempty]) false

/-- The entry `find` starts from is the one the walk of the subtree ends at. -/
theorem entryAt_subtree (root : PlainPath) (entries : List TextEntry) (subtree : List Str)
    (clean : ∀ c ∈ subtree, Clean c) (nonempty : subtree ≠ []) :
    SubvolTree.entryAt ⟨absPath root.comps, TextEntry.encodeAll entries⟩ (absPath (root.comps ++ subtree)) =
      (TextEntry.startAt entries subtree).map TextEntry.encode := by
  have components : ∀ c ∈ subtree, Component c := fun c member => (clean c member).component
  have notDot : join '/' subtree ≠ ['.'] := fun same => by
    obtain ⟨first, rest, rfl⟩ := List.exists_cons_of_ne_nil nonempty
    have single := join_inj _ [['.']] components (by simp [Component]) (same.trans (join_singleton _ _).symm)
    exact (clean first (List.mem_cons_self _ _)).2.1 (List.cons.inj single).1
  simp only [SubvolTree.entryAt, relpath_absPath_append _ _ root.clean clean root.nonempty, if_neg nonempty,
    hasLeadingDotDot_join _ clean nonempty, if_neg notDot, Bool.false_eq_true, if_false,
    split_join _ _ nonempty fun p member => (components p member).2]
  exact startAt_encodeAll entries subtree

/-- `os.path.join('/', prot_path)` of a protected path. -/
theorem osJoin_root_text (prot : ProtectedPath) :
    osJoin ['/'] prot.text = absPath prot.path.comps ++ trailingSlash prot.dir := by
  obtain ⟨x, more, joined, other⟩ := join_head _ prot.path.components prot.path.nonempty
  simp [osJoin, ProtectedPath.text, absPath, joined, other]

/-- A path that climbs out of the start with `..` has a leading `..`. -/
theorem hasLeadingDotDot_osJoinAll (rest : List Str) (relative : ∀ part ∈ rest, part.head? ≠ some '/') :
    hasLeadingDotDot (osJoinAll ['.', '.'] rest) = true := by
  have climbing : ∀ (parts : List Str) (acc : Str), (∀ part ∈ parts, part.head? ≠ some '/') →
      acc = ['.', '.'] ∨ ['.', '.', '/'] <+: acc →
      parts.foldl osJoin acc = ['.', '.'] ∨ ['.', '.', '/'] <+: parts.foldl osJoin acc := by
    intro parts
    induction parts with
    | nil => exact fun acc _ climbed => climbed
    | cons part parts ih =>
      intro acc relative climbed
      refine ih _ (fun p member => relative p (List.mem_cons_of_mem _ member)) (.inr ?_)
      rw [osJoin, if_neg (relative part (List.mem_cons_self _ _))]
      rcases climbed with rfl | below
      · rw [if_neg (by decide)]
        exact ⟨part, rfl⟩
      · split
        · exact below.trans (List.prefix_append _ _)
        · exact below.trans (List.prefix_append _ _)
  rcases climbing rest ['.', '.'] relative (.inl rfl) with same | below
  · rw [osJoinAll, same]
    rfl
  · rw [hasLeadingDotDot, Bool.or_eq_true, startswith_iff]
    exact .inr below

theorem hasLeadingDotDot_relText (rel : List Str) (clean : ∀ c ∈ rel, Clean c) : hasLeadingDotDot (relText rel) = false := by
  rw [relText]
  split
  · rfl
  · exact hasLeadingDotDot_join rel clean ‹_›

/-- A protected path at or below the subtree, relative to it. -/
theorem relpath_protected_subtree (prot : ProtectedPath) (subtree : List Str) (clean : ∀ c ∈ subtree, Clean c)
    (nonempty : subtree ≠ []) (inside : subtree <+: prot.path.comps) :
    relpath (osJoin ['/'] prot.text) (absPath subtree) = relText (prot.path.comps.drop subtree.length) := by
  obtain ⟨here, split⟩ := inside
  have hereClean : ∀ c ∈ here, Clean c := fun c member => prot.path.clean c (split ▸ List.mem_append_right _ member)
  rw [osJoin_root_text, relpath_absPath_trailingSlash _ prot.path.clean prot.path.nonempty, ← split,
    relpath_absPath_append _ _ clean hereClean nonempty, List.drop_left, relText]

/-- A protected path elsewhere climbs out of the subtree. -/
theorem relpath_protected_outside (prot : ProtectedPath) (subtree : List Str) (clean : ∀ c ∈ subtree, Clean c)
    (nonempty : subtree ≠ []) (outside : ¬ subtree <+: prot.path.comps) :
    hasLeadingDotDot (relpath (osJoin ['/'] prot.text) (absPath subtree)) = true := by
  obtain ⟨rest, relative, climbs⟩ := relpath_absPath_outside subtree prot.path.comps clean prot.path.clean
    nonempty prot.path.nonempty outside
  rw [osJoin_root_text, relpath_absPath_trailingSlash _ prot.path.clean prot.path.nonempty, climbs]
  exact hasLeadingDotDot_osJoinAll rest relative

/-- What the generator keeps of a protected path: its path relative to the
subtree when it is at or below it. -/
theorem doNotAccess_subtree (prot : ProtectedPath) (subtree : List Str) (clean : ∀ c ∈ subtree, Clean c)
    (nonempty : subtree ≠ []) :
    (if hasLeadingDotDot (relpath (osJoin ['/'] prot.text) (absPath subtree)) = true then none
      else some (Provides.doNotAccess (relpath (osJoin ['/'] prot.text) (absPath subtree)))) =
    if subtree <+: prot.path.comps then some (Provides.doNotAccess (relText (prot.path.comps.drop subtree.length)))
    else none := by
  by_cases inside : subtree <+: prot.path.comps
  · have restClean : ∀ c ∈ prot.path.comps.drop subtree.length, Clean c :=
      fun c member => prot.path.clean c (List.mem_of_mem_drop member)
    rw [if_pos inside, relpath_protected_subtree prot subtree clean nonempty inside,
      hasLeadingDotDot_relText _ restClean, if_neg Bool.false_ne_true]
  · rw [if_neg inside, relpath_protected_outside prot subtree clean nonempty inside, if_pos rfl]

/-! ## The records below the subtree -/

section Records

variable (root : PlainPath) (prots : List ProtectedPath)

/-- `find` started at the subtree prints the records of the walk from the
entry found there. -/
theorem findEntry_subtree (subtree : List Str) (entry : TextEntry) (named : entry.WellNamed)
    (last : subtree.getLast? = some entry.name) (clean : ∀ c ∈ subtree, Clean c) :
    findEntry (rootPatterns root prots) (utf8Encode (absPath (root.comps ++ subtree))) entry.encode =
      (((entry.unprotected (prots.map (·.path.comps)) subtree.dropLast).map (hostRecord root)).map
        fun r => printfRecord r.1 (utf8Encode r.2)).flatten := by
  have parentClean : ∀ c ∈ subtree.dropLast, Clean c := fun c member => clean c (List.dropLast_subset _ member)
  have visited := visitEntry_text root prots _ parentClean entry named
  rw [List.dropLast_append_getLast? _ last] at visited
  rw [findEntry_eq_records, visited, List.map_map, List.map_map]
  rfl

/-- The loop's body on a record at `q` below the subtree: the provide for `q`,
unless the loop takes `q` for protected. -/
theorem provideRecord_subtree (base : List Str) (baseClean : ∀ c ∈ base, Clean c) (baseNonempty : base ≠ [])
    (letter : Char) (typed : letter ∈ typeLetters) (rel : List Str) (relClean : ∀ c ∈ rel, Clean c) :
    provideRecord (prots.map ProtectedPath.text) (absPath base)
        (ascii letter :: ascii ' ' :: utf8Encode (absPath (base ++ rel))) =
      if misreadProtected (prots.map (·.path.comps)) rel then .error .assertionError
      else .ok (some (provideFor letter (relText rel))) := by
  have relpathText : relpath (absPath (base ++ rel)) (absPath base) = relText rel :=
    relpath_absPath_append base rel baseClean relClean baseNonempty
  rw [provideRecord_printf_decoded _ _ _ _ typed, relpathText, hasLeadingDotDot_relText rel relClean,
    if_neg Bool.false_ne_true]
  by_cases here : rel = []
  · subst here
    rw [relText, if_pos rfl, isPathProtected_dot]
    rfl
  · rw [relText, if_neg here, isPathProtected_join _ _ (fun c member => (relClean c member).component) here]
    simp [misreadProtected, here, Function.comp_def]

/-- The record loop over the walk below the subtree, which starts at the
subtree itself: the provides up to the first record the loop takes for
protected, `AssertionError` there, and the subtree seen when the walk is not
empty. -/
theorem recordLoop_below (subtree : List Str) (subtreeClean : ∀ c ∈ subtree, Clean c)
    (records : List (Char × List Str))
    (walked : ∀ r ∈ records, r.1 ∈ typeLetters ∧ subtree <+: r.2 ∧ ∀ c ∈ r.2, Clean c ∧ '\x00' ∉ c)
    (first : ∀ r ∈ records.head?, r.2 = subtree) :
    recordLoop (prots.map ProtectedPath.text) (absPath (root.comps ++ subtree))
        (split 0 ((records.map (hostRecord root)).map fun r => printfRecord r.1 (utf8Encode r.2)).flatten) =
      let walk := records.map fun r => (r.1, r.2.drop subtree.length)
      ((walk.takeWhile fun r => !misreadProtected (prots.map (·.path.comps)) r.2).map
          (fun r => provideFor r.1 (relText r.2)),
        if walk.any (misreadProtected (prots.map (·.path.comps)) ·.2) then .error .assertionError
        else .ok (decide (walk ≠ []))) := by
  have baseClean : ∀ c ∈ root.comps ++ subtree, Clean c := fun c member => by
    rcases List.mem_append.mp member with member | member
    exacts [root.clean c member, subtreeClean c member]
  have each : ∀ r ∈ records,
      provideRecord (prots.map ProtectedPath.text) (absPath (root.comps ++ subtree))
          (((fun r => ascii r.1 :: ascii ' ' :: utf8Encode r.2) ∘ hostRecord root) r) =
        if misreadProtected (prots.map (·.path.comps)) (r.2.drop subtree.length) then .error .assertionError
        else .ok (some (provideFor r.1 (relText (r.2.drop subtree.length)))) := by
    rintro ⟨letter, path⟩ member
    obtain ⟨typed, ⟨rel, split⟩, comps⟩ := walked _ member
    dsimp only at typed split comps ⊢
    subst split
    rw [Function.comp_apply, List.drop_left, hostRecord, ← List.append_assoc]
    exact provideRecord_subtree prots _ baseClean (by simp [root.nonempty]) letter typed rel
      fun c inRel => (comps c (List.mem_append_right _ inRel)).1
  have printable : ∀ r ∈ records.map (hostRecord root), r.1 ∈ typeLetters ∧ (0 : UInt8) ∉ utf8Encode r.2 := by
    simp only [List.mem_map, hostRecord]
    rintro _ ⟨r, member, rfl⟩
    obtain ⟨typed, -, comps⟩ := walked r member
    refine ⟨typed, zero_not_mem_utf8Encode _ (absPath_noNul _ fun c inPath => ?_)⟩
    rcases List.mem_append.mp inPath with inRoot | inRecord
    exacts [root.noNul c inRoot, (comps c inRecord).2]
  have seen : (records.any fun r => decide ((provideFor r.1 (relText (r.2.drop subtree.length))).path = ['.'])) =
      decide (records ≠ []) := by
    cases records with
    | nil => rfl
    | cons head rest =>
      have atSubtree := first head rfl
      simp [atSubtree, relText]
  rw [split_printfRecords _ (fun r member => (printable r member).1) (fun r member => (printable r member).2),
    List.map_map, recordLoop_takeWhile _ _ records _ (fun r => provideFor r.1 (relText (r.2.drop subtree.length)))
      (fun r => misreadProtected (prots.map (·.path.comps)) (r.2.drop subtree.length))
      (fun r member bad => by rw [each r member, if_neg (ne_true_of_eq_false bad)])
      (fun r member bad => by rw [each r member, if_pos bad]), seen]
  simp only [List.takeWhile_map, List.map_map, Function.comp_def, List.any_eq, List.mem_map, exists_exists_and_eq_and,
    ne_eq, List.map_eq_nil_iff]

end Records

/-- `gen_subvolume_subtree_provides(subvol, S)` for a subtree `S` below the
root of the subvolume, when at least one path is protected and the walk to
`S` stays in the subvolume. -/
theorem genSubvolumeSubtreeProvides_subtree (root : PlainPath) (prots : List ProtectedPath) (entries : List TextEntry)
    (named : TextEntry.AllWellNamed entries) (someProtected : prots ≠ []) (subtree : List Str)
    (clean : ∀ c ∈ subtree, Clean c) (nonempty : subtree ≠ []) (inside : TextEntry.startAt entries subtree ≠ .outside) :
    genSubvolumeSubtreeProvides ⟨absPath root.comps, TextEntry.encodeAll entries⟩ (prots.map ProtectedPath.text)
      (absPath subtree) = subtreeRun prots subtree (TextEntry.startAt entries subtree).entry? := by
  have patterns : (prots.map ProtectedPath.text).map (prunePattern ⟨absPath root.comps, TextEntry.encodeAll entries⟩) =
      rootPatterns root prots := by
    simp [Function.comp_def, prunePattern_plain, rootPatterns]
  simp only [genSubvolumeSubtreeProvides, osJoin_root_absPath, List.filterMap_map, Function.comp_def,
    doNotAccess_subtree _ _ clean nonempty]
  rw [subvolPath_subtree root _ subtree clean nonempty, runFind, patterns,
    if_neg (by simpa [rootPatterns] using someProtected), entryAt_subtree root entries subtree clean nonempty]
  cases found : TextEntry.startAt entries subtree with
  | missing => rfl
  | outside => exact absurd found inside
  | found entry =>
    obtain ⟨entryNamed, last, ok⟩ := TextEntry.startAt_named entries named subtree clean nonempty entry found
    have whole : subtree.dropLast ++ [entry.name] = subtree := List.dropLast_append_getLast? _ last
    have walked := TextEntry.unprotected_walk (prots.map (·.path.comps)) subtree.dropLast
      (fun c member => ok c (List.dropLast_subset _ member)) entry entryNamed
    have first := TextEntry.unprotected_head? (prots.map (·.path.comps)) subtree.dropLast entry
    rw [whole] at walked first
    dsimp only [Walk.map, Walk.entry?]
    rw [findEntry_subtree root prots subtree entry entryNamed last clean, recordLoop_below root prots subtree clean _ walked first]
    dsimp only [subtreeRun]
    generalize (entry.unprotected (prots.map (·.path.comps)) subtree.dropLast).map
      (fun r => (r.1, r.2.drop subtree.length)) = walk
    cases walk.any (misreadProtected (prots.map (·.path.comps)) ·.2) <;> cases walk <;> rfl

/-- The subvolume `/r`. -/
def rRoot : PlainPath := ⟨["r".toList], by simp, by decide, by decide, by decide⟩

/-- The protected file `a/c` and the protected directory `b/`. -/
def acFile : ProtectedPath := ⟨⟨["a".toList, "c".toList], by simp, by decide, by decide, by decide⟩, false⟩
def bDir : ProtectedPath := ⟨⟨["b".toList], by simp, by decide, by decide, by decide⟩, true⟩

/-- A subvolume holding `d/b/`, `d/c` and a link `a` to `d`. -/
def linkedEntries : List TextEntry :=
  [.dir "d".toList [.dir "b".toList [], .leaf "c".toList .regular], .leaf "a".toList (.symlink (utf8Encode "d".toList))]

/-- The subtree `a/c`, reached through the link `a`, with `b/` protected. -/
theorem genSubvolumeSubtreeProvides_subtree_nested :
    TextEntry.AllWellNamed linkedEntries ∧ [bDir] ≠ [] ∧ (∀ c ∈ ["a".toList, "c".toList], Clean c) ∧
    ["a".toList, "c".toList] ≠ [] ∧ TextEntry.startAt linkedEntries ["a".toList, "c".toList] ≠ .outside ∧
    genSubvolumeSubtreeProvides ⟨absPath rRoot.comps, TextEntry.encodeAll linkedEntries⟩
        ([bDir].map ProtectedPath.text) (absPath ["a".toList, "c".toList]) =
      subtreeRun [bDir] ["a".toList, "c".toList] (TextEntry.startAt linkedEntries ["a".toList, "c".toList]).entry? :=
  have named : TextEntry.AllWellNamed linkedEntries := by
    simp only [linkedEntries, TextEntry.AllWellNamed, TextEntry.WellNamed]
    decide
  have reached : TextEntry.startAt linkedEntries ["a".toList, "c".toList] = .found (.leaf "c".toList .regular) := rfl
  have inside : TextEntry.startAt linkedEntries ["a".toList, "c".toList] ≠ .outside := fun outside => by
    cases outside.symm.trans reached
  ⟨named, by simp, by decide, by simp, inside,
    genSubvolumeSubtreeProvides_subtree rRoot [bDir] _ named (by simp) ["a".toList, "c".toList] (by decide) (by simp)
      inside⟩

/-- The walk reads `a` as `d` and ends at the file `d/c`; `find` prints the
starting point `/r/a/c`, which is provided as `.`. -/
example : subtreeRun [bDir] ["a".toList, "c".toList] (TextEntry.startAt linkedEntries ["a".toList, "c".toList]).entry? =
    ⟨[.file ['.']], none⟩ := by
  decide

end FsImage.Compiler.Items
