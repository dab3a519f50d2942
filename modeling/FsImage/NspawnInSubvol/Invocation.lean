import FsImage.NspawnInSubvol.BindMounts
import FsImage.NspawnInSubvol.Environment
import Mathlib.Data.String.Basic

/-! What `systemd-nspawn` is asked to do by the command `_nspawn_setup` builds.

`systemd-nspawn` reads its options with `getopt_long`: a long option that
takes a value has it after `=` or as the next argument, and option reading
stops at the first argument that is no option. Only the long options the
builder writes are known here; any other option is refused. The settings an
option list asks for are read from it as `systemd-nspawn` keeps them: the
last value of a single-valued option, every value of a repeatable one, and
whether a flag was given.

Read so, the builder's arguments ask for exactly what the options and the
host call for: registration off, the snapshot as the directory, the
`os-release` placeholder when the image has none, the bind mounts, the
`/logs` tmpfs, `CAP_MKNOD` dropped unless allowed, and the conditional
network, capability and hostname settings.
-/

set_option autoImplicit false

namespace FsImage.NspawnInSubvol

open FsImage.Python

/-- The long options the builder writes, with whether each takes a value. -/
def longOptionTakesValue (name : Str) : Option Bool :=
  if name ∈ ["register", "machine", "directory", "bind", "bind-ro", "link-journal", "settings", "timezone", "tmpfs",
      "capability", "drop-capability", "hostname"].map String.toList then some true
  else if name ∈ ["keep-unit", "quiet", "private-network"].map String.toList then some false
  else none

/-- How `getopt_long` takes one argument. -/
inductive ArgKind where
  /-- An option, with its value if it takes one. -/
  | option (name : Str) (value : Option Str)
  /-- An option whose value is the next argument. -/
  | valueNext (name : Str)
  /-- The first argument that is no option: reading stops. -/
  | stop
  /-- An option `getopt_long` refuses, or one the builder never writes. -/
  | refused
  deriving DecidableEq, Repr

/-- How `getopt_long` takes the argument `--body`; `--` alone ends the options. -/
def longArgKind (body : Str) : ArgKind :=
  if body = [] then .stop else
  match splitOnce '=' body with
  | some (name, value) => if longOptionTakesValue name = some true then .option name (some value) else .refused
  | none =>
    match longOptionTakesValue body with
    | some true => .valueNext body
    | some false => .option body none
    | none => .refused

/-- How `getopt_long` takes one argument; the builder writes no short option. -/
def argKind : Str → ArgKind
  | '-' :: '-' :: body => longArgKind body
  | ['-'] => .stop
  | '-' :: _ => .refused
  | _ => .stop

/-- The options `systemd-nspawn` reads from its arguments, in order, up to the
first argument that is no option; `none` when `getopt_long` refuses one. -/
def readOptions : List Str → Option (List (Str × Option Str))
  | [] => some []
  | [arg] =>
    match argKind arg with
    | .option name value => some [(name, value)]
    | .stop => some []
    | .valueNext _ | .refused => none
  | arg :: next :: rest =>
    match argKind arg with
    | .option name value => ((name, value) :: ·) <$> readOptions (next :: rest)
    | .valueNext name => ((name, some next) :: ·) <$> readOptions rest
    | .stop => some []
    | .refused => none

/-- What `systemd-nspawn` is asked for by the options the builder writes. -/
structure NspawnSettings where
  register : Option Str
  keepUnit : Bool
  machine : Option Str
  directory : Option Str
  binds : List (Option BindMount)
  linkJournal : Option Str
  settings : Option Str
  timezone : Option Str
  quiet : Bool
  privateNetwork : Bool
  tmpfs : List Str
  capabilities : List Str
  dropCapabilities : List Str
  hostname : Option Str
  deriving DecidableEq, Repr

/-- Every value given to the option `name`, in order. -/
def optionValues (options : List (Str × Option Str)) (name : String) : List Str :=
  options.filterMap fun option => if option.1 = name.toList then option.2 else none

/-- Whether the flag `name` was given. -/
def flagGiven (options : List (Str × Option Str)) (name : String) : Bool :=
  options.any fun option => option.1 = name.toList

/-- The bind mounts of `--bind` and `--bind-ro`, in order; `none` marks a
value `systemd-nspawn` refuses. -/
def bindsOf (options : List (Str × Option Str)) : List (Option BindMount) :=
  options.filterMap fun option =>
    if option.1 = "bind".toList then some (option.2.bind (parseBindValue false))
    else if option.1 = "bind-ro".toList then some (option.2.bind (parseBindValue true))
    else none

section Reading

variable (wanted : String) (name : Str) (value : Option Str) (options more : List (Str × Option Str))

@[simp] theorem optionValues_nil : optionValues [] wanted = [] := rfl

@[simp] theorem optionValues_cons :
    optionValues ((name, value) :: options) wanted =
      (if name = wanted.toList then value.toList else []) ++ optionValues options wanted := by
  rw [optionValues, List.filterMap_cons]
  by_cases same : name = wanted.toList
  · cases value <;> simp [same, optionValues]
  · simp only [if_neg same, List.nil_append]
    rfl

@[simp] theorem optionValues_append :
    optionValues (options ++ more) wanted = optionValues options wanted ++ optionValues more wanted :=
  List.filterMap_append _ _ _

@[simp] theorem optionValues_ite (present : Prop) [Decidable present] :
    optionValues (if present then options else more) wanted =
      if present then optionValues options wanted else optionValues more wanted := by
  split <;> rfl

@[simp] theorem optionValues_flatMap {α : Type} (xs : List α) (each : α → List (Str × Option Str)) :
    optionValues (xs.flatMap each) wanted = xs.flatMap fun x => optionValues (each x) wanted :=
  List.filterMap_flatMap _ _ _

@[simp] theorem flagGiven_nil : flagGiven [] wanted = false := rfl

@[simp] theorem flagGiven_cons :
    flagGiven ((name, value) :: options) wanted = (name = wanted.toList || flagGiven options wanted) := by
  simp [flagGiven]

@[simp] theorem flagGiven_append :
    flagGiven (options ++ more) wanted = (flagGiven options wanted || flagGiven more wanted) :=
  List.any_append

@[simp] theorem flagGiven_flatMap {α : Type} (xs : List α) (each : α → List (Str × Option Str)) :
    flagGiven (xs.flatMap each) wanted = xs.any fun x => flagGiven (each x) wanted :=
  List.any_flatMap

@[simp] theorem flagGiven_ite (present : Prop) [Decidable present] :
    flagGiven (if present then options else more) wanted =
      if present then flagGiven options wanted else flagGiven more wanted := by
  split <;> rfl

@[simp] theorem bindsOf_nil : bindsOf [] = [] := rfl

@[simp] theorem bindsOf_cons :
    bindsOf ((name, value) :: options) =
      (if name = "bind".toList then [value.bind (parseBindValue false)]
        else if name = "bind-ro".toList then [value.bind (parseBindValue true)] else []) ++ bindsOf options := by
  rw [bindsOf, List.filterMap_cons]
  split <;> split <;> simp_all [bindsOf]

@[simp] theorem bindsOf_append : bindsOf (options ++ more) = bindsOf options ++ bindsOf more :=
  List.filterMap_append _ _ _

@[simp] theorem bindsOf_ite (present : Prop) [Decidable present] :
    bindsOf (if present then options else more) = if present then bindsOf options else bindsOf more := by
  split <;> rfl

@[simp] theorem bindsOf_flatMap {α : Type} (xs : List α) (each : α → List (Str × Option Str)) :
    bindsOf (xs.flatMap each) = xs.flatMap fun x => bindsOf (each x) :=
  List.filterMap_flatMap _ _ _

/-- One element for each element is a map. -/
theorem flatMap_singleton_eq_map {α β : Type} (xs : List α) (f : α → β) :
    xs.flatMap (fun x => [f x]) = xs.map f :=
  List.flatMap_pure_eq_map f xs

/-- A list of nothing for every element is nothing. -/
@[simp] theorem flatMap_const_nil {α β : Type} (xs : List α) : xs.flatMap (fun _ => ([] : List β)) = [] := by
  induction xs <;> simp [*]

/-- No element passes a test that nothing passes. -/
@[simp] theorem any_const_false {α : Type} (xs : List α) : xs.any (fun _ => false) = false := by
  induction xs <;> simp [*]

end Reading

/-- The settings an option list asks for: the last value of a single-valued
option, every value of a repeatable one. -/
def NspawnSettings.of (options : List (Str × Option Str)) : NspawnSettings where
  register := (optionValues options "register").getLast?
  keepUnit := flagGiven options "keep-unit"
  machine := (optionValues options "machine").getLast?
  directory := (optionValues options "directory").getLast?
  binds := bindsOf options
  linkJournal := (optionValues options "link-journal").getLast?
  settings := (optionValues options "settings").getLast?
  timezone := (optionValues options "timezone").getLast?
  quiet := flagGiven options "quiet"
  privateNetwork := flagGiven options "private-network"
  tmpfs := optionValues options "tmpfs"
  capabilities := optionValues options "capability"
  dropCapabilities := optionValues options "drop-capability"
  hostname := (optionValues options "hostname").getLast?

/-! ## Reading the builder's arguments -/

/-- `args` reads as `options`, whatever arguments follow. -/
def ReadsAs (args : List Str) (options : List (Str × Option Str)) : Prop :=
  ∀ rest, readOptions (args ++ rest) = (options ++ ·) <$> readOptions rest

theorem readsAs_nil : ReadsAs [] [] := fun rest => by simp

theorem ReadsAs.append {args more : List Str} {options moreOptions : List (Str × Option Str)}
    (first : ReadsAs args options) (second : ReadsAs more moreOptions) :
    ReadsAs (args ++ more) (options ++ moreOptions) := fun rest => by
  rw [List.append_assoc, first, second]
  cases readOptions rest <;> simp

theorem readsAs_option (arg name : Str) (value : Option Str) (kind : argKind arg = .option name value) :
    ReadsAs [arg] [(name, value)] := fun rest => by
  cases rest with
  | nil => simp [readOptions, kind]
  | cons next rest => simp [readOptions, kind]

theorem readsAs_valueNext (arg value name : Str) (kind : argKind arg = .valueNext name) :
    ReadsAs [arg, value] [(name, some value)] := fun rest => by
  simp [readOptions, kind]

theorem ReadsAs.ite {args : List Str} {options : List (Str × Option Str)} (present : Bool)
    (reads : ReadsAs args options) :
    ReadsAs (if present then args else []) (if present then options else []) := by
  cases present
  · exact readsAs_nil
  · exact reads

theorem readsAs_flatMap {α : Type} (xs : List α) (args : α → List Str) (options : α → List (Str × Option Str))
    (each : ∀ x ∈ xs, ReadsAs (args x) (options x)) : ReadsAs (xs.flatMap args) (xs.flatMap options) := by
  induction xs with
  | nil => exact readsAs_nil
  | cons x xs ih =>
    simp only [List.flatMap_cons]
    exact (each x (List.mem_cons_self _ _)).append (ih fun other member => each other (List.mem_cons_of_mem _ member))

/-- `--name=value` for an option that takes a value. -/
theorem argKind_inline (name value : Str) (noEquals : '=' ∉ name) (takes : longOptionTakesValue name = some true) :
    argKind ('-' :: '-' :: (name ++ '=' :: value)) = .option name (some value) := by
  simp [argKind, longArgKind, splitOnce_append _ _ _ noEquals, takes]

theorem readsAs_bindArgs (src : Str) (dest : Option Str) (readonly : Bool) :
    ReadsAs (bindArgs src dest readonly) [(if readonly then "bind-ro".toList else "bind".toList,
      some (colonQuotePath src ++ ':' :: colonQuotePath (dest.getD src)))] := by
  cases readonly <;> exact readsAs_valueNext _ _ _ (by decide)

theorem readsAs_injectOsReleaseArgs (subvol : Subvol) :
    ReadsAs (injectOsReleaseArgs subvol) (if osReleasePaths.any (existsInImage subvol) then [] else
      [("bind-ro".toList,
        some (colonQuotePath "/dev/null".toList ++ ':' :: colonQuotePath "/usr/lib/os-release".toList))]) := by
  unfold injectOsReleaseArgs
  split
  · exact readsAs_nil
  · exact readsAs_bindArgs _ _ true

/-- The options `_nspawn_cmd` writes after `systemd-nspawn`. -/
theorem readsAs_nspawnCmd (subvol : Subvol) (machine : Str) :
    ReadsAs ((nspawnCmd subvol machine).drop 3)
      ([("register".toList, some "no".toList), ("keep-unit".toList, none), ("machine".toList, some machine),
        ("directory".toList, some subvol.path)] ++
      (if osReleasePaths.any (existsInImage subvol) then [] else
        [("bind-ro".toList,
          some (colonQuotePath "/dev/null".toList ++ ':' :: colonQuotePath "/usr/lib/os-release".toList))]) ++
      [("link-journal".toList, some "no".toList), ("settings".toList, some "no".toList),
        ("timezone".toList, some "off".toList)]) :=
  ((readsAs_option _ _ _ (by decide)).append ((readsAs_option _ _ _ (by decide)).append
    ((readsAs_valueNext _ _ _ (by decide)).append (readsAs_valueNext _ _ _ (by decide))))).append
    ((readsAs_injectOsReleaseArgs subvol).append ((readsAs_option _ _ _ (by decide)).append
      ((readsAs_option _ _ _ (by decide)).append (readsAs_option _ _ _ (by decide)))))

/-- The options of `_extra_nspawn_args_and_env`, in the order it writes them. -/
theorem readsAs_extraNspawnArgs (opts : NspawnOpts) (host : Host) :
    ReadsAs (extraNspawnArgsAndEnv opts host).1
      ((if opts.quiet then [("quiet".toList, none)] else []) ++
        (if opts.debugOnlyOpts.privateNetwork then [("private-network".toList, none)] else []) ++
        (opts.bindmountRw.flatMap fun mount =>
          [("bind".toList, some (colonQuotePath mount.1 ++ ':' :: colonQuotePath mount.2))]) ++
        (opts.bindmountRo.flatMap fun mount =>
          [("bind-ro".toList, some (colonQuotePath mount.1 ++ ':' :: colonQuotePath mount.2))]) ++
        (if opts.bindRepoRo || artifactsMayRequireRepo opts.layer then
          [("bind-ro".toList, some (colonQuotePath host.repoRoot ++ ':' :: colonQuotePath host.repoRoot))] else []) ++
        (if opts.debugOnlyOpts.logsTmpfs then [("tmpfs".toList, some ("/logs:".toList ++ join ','
          ["uid=".toList ++ (Nat.repr opts.user.pwUid).toList, "gid=".toList ++ (Nat.repr opts.user.pwGid).toList,
            "mode=0755".toList, "nodev".toList, "nosuid".toList, "noexec".toList]))] else []) ++
        (if host.devFuseExists then [("bind-ro".toList, some "/dev/fuse".toList)] else []) ++
        (if opts.debugOnlyOpts.capNetAdmin then [("capability".toList, some "CAP_NET_ADMIN".toList)] else []) ++
        (if truthy opts.hostname then [("hostname".toList, some (opts.hostname.getD []))] else []) ++
        (if !opts.allowMknod then [("drop-capability".toList, some "CAP_MKNOD".toList)] else [])) := by
  have tmpfs := argKind_inline "tmpfs".toList ("/logs:".toList ++ join ','
    ["uid=".toList ++ (Nat.repr opts.user.pwUid).toList, "gid=".toList ++ (Nat.repr opts.user.pwGid).toList,
      "mode=0755".toList, "nodev".toList, "nosuid".toList, "noexec".toList]) (by decide) (by decide)
  have hostname := argKind_inline "hostname".toList (opts.hostname.getD []) (by decide) (by decide)
  simp only [extraNspawnArgsAndEnv, extraBindArgs, List.append_assoc]
  exact (ReadsAs.ite _ (readsAs_option _ _ _ (by decide))).append <|
    (ReadsAs.ite _ (readsAs_option _ _ _ (by decide))).append <|
    (readsAs_flatMap _ _ _ fun mount _ => readsAs_bindArgs _ _ false).append <|
    (readsAs_flatMap _ _ _ fun mount _ => readsAs_bindArgs _ _ true).append <|
    (ReadsAs.ite _ (readsAs_bindArgs _ _ true)).append <|
    (ReadsAs.ite _ (readsAs_option _ _ _ tmpfs)).append <|
    (ReadsAs.ite _ (readsAs_option _ _ _ (by decide))).append <|
    (ReadsAs.ite _ (readsAs_option _ _ _ (by decide))).append <|
    (ReadsAs.ite _ (readsAs_option _ _ _ hostname)).append <|
    ReadsAs.ite _ (readsAs_option _ _ _ (by decide))

/-! ## What the builder asks for -/

/-- What `_nspawn_cmd` and `_extra_nspawn_args_and_env` mean to ask for. -/
def expectedSettings (subvol : Subvol) (machine : Str) (opts : NspawnOpts) (host : Host) : NspawnSettings where
  register := some "no".toList
  keepUnit := true
  machine := some machine
  directory := some subvol.path
  binds := (if osReleasePaths.any (existsInImage subvol) then [] else
      [some ⟨"/dev/null".toList, "/usr/lib/os-release".toList, none, true⟩]) ++
    opts.bindmountRw.map (fun mount => some ⟨mount.1, mount.2, none, false⟩) ++
    opts.bindmountRo.map (fun mount => some ⟨mount.1, mount.2, none, true⟩) ++
    (if opts.bindRepoRo || artifactsMayRequireRepo opts.layer then
      [some ⟨host.repoRoot, host.repoRoot, none, true⟩] else []) ++
    (if host.devFuseExists then [some ⟨"/dev/fuse".toList, "/dev/fuse".toList, none, true⟩] else [])
  linkJournal := some "no".toList
  settings := some "no".toList
  timezone := some "off".toList
  quiet := opts.quiet
  privateNetwork := opts.debugOnlyOpts.privateNetwork
  tmpfs := if opts.debugOnlyOpts.logsTmpfs then ["/logs:".toList ++ join ','
      ["uid=".toList ++ (Nat.repr opts.user.pwUid).toList, "gid=".toList ++ (Nat.repr opts.user.pwGid).toList,
        "mode=0755".toList, "nodev".toList, "nosuid".toList, "noexec".toList]] else []
  capabilities := if opts.debugOnlyOpts.capNetAdmin then ["CAP_NET_ADMIN".toList] else []
  dropCapabilities := if opts.allowMknod then [] else ["CAP_MKNOD".toList]
  hostname := if truthy opts.hostname then opts.hostname else none

/-- The command line `_nspawn_setup` assembles asks `systemd-nspawn` (the
arguments after `env UNIFIED_CGROUP_HIERARCHY=yes systemd-nspawn`) for exactly
the expected settings, whatever the options and the host. -/
theorem nspawnCmd_settings (subvol : Subvol) (machine : Str) (opts : NspawnOpts) (host : Host) :
    (readOptions ((nspawnCmd subvol machine ++ (extraNspawnArgsAndEnv opts host).1).drop 3)).map NspawnSettings.of =
      some (expectedSettings subvol machine opts host) := by
  have reads := (readsAs_nspawnCmd subvol machine).append (readsAs_extraNspawnArgs opts host) []
  rw [List.append_nil] at reads
  rw [List.drop_append_of_le_length (by simp [nspawnCmd]), reads]
  clear reads
  simp only [readOptions, Option.map_eq_map, Option.map_some', List.append_nil, Option.some.injEq]
  simp only [NspawnSettings.of, expectedSettings, NspawnSettings.mk.injEq]
  -- Option names are compared as strings, never unfolded to characters.
  simp only [optionValues_append, optionValues_cons, optionValues_nil, optionValues_ite, optionValues_flatMap,
    flagGiven_append, flagGiven_cons, flagGiven_nil, flagGiven_ite, flagGiven_flatMap,
    bindsOf_append, bindsOf_cons, bindsOf_nil, bindsOf_ite, bindsOf_flatMap, String.toList_inj, String.reduceEq,
    if_false, if_true, ite_self, List.nil_append, List.append_nil, flatMap_const_nil, any_const_false,
    decide_False, decide_True, Bool.false_or, Bool.or_false]
  refine ⟨?register, ?keepUnit, ?machine, ?directory, ?binds, ?linkJournal, ?settings, ?timezone, ?quiet, ?network,
    ?tmpfs, ?capabilities, ?dropCapabilities, ?hostname⟩
  case binds =>
    simp only [Option.some_bind, parseBindValue_quoted, flatMap_singleton_eq_map]
    simp [parseBindValue_plain]
  case quiet => simp
  case network => simp
  case dropCapabilities => cases opts.allowMknod <;> rfl
  case hostname =>
    cases opts.hostname with
    | none => rfl
    | some name => by_cases empty : name = [] <;> simp [truthy, empty]
  all_goals trivial

/-- `_nspawn_setup` succeeds on every option record and host, and the
`nspawn_cmd` it yields asks `systemd-nspawn` for exactly the expected settings
of the subvolume it runs in. -/
theorem nspawnSetup_settings (opts : NspawnOpts) (host : Host) (machine : Str) :
    ∃ setup, nspawnSetup opts host machine = .ok setup ∧
      (readOptions (setup.nspawnCmd.drop 3)).map NspawnSettings.of =
        some (expectedSettings setup.subvol machine opts host) := by
  let subvol := if opts.snapshot then snapshotSubvol opts.layer opts.debugOnlyOpts.snapshotInto host else opts.layer
  refine ⟨⟨subvol, nspawnCmd subvol machine ++ (extraNspawnArgsAndEnv opts host).1,
    host.environ.filterKeys (fun k => !startswith k reservedNspawnVar), opts, (extraNspawnArgsAndEnv opts host).2⟩,
    ?_, nspawnCmd_settings subvol machine opts host⟩
  rw [nspawnSetup, nspawnSanitizeEnv_eq]
  rfl

end FsImage.NspawnInSubvol
