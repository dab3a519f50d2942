import FsImage.NspawnInSubvol.Cmd

/-! The command-line front end of `nspawn_in_subvol/args.py`.

`_parse_cli_args` lets `argparse` store a value under every destination its
parsers declare. `_extract_opts_from_dict` then pops each option structure's
fields out of the namespace's `__dict__` and hands them, with the structure
built before, to that structure's constructor: first the debug-only options,
then `_NspawnOpts` through `new_nspawn_opts`, then `_NspawnCLIArgs`.

Every field a constructor asks for is a destination or is passed in, so the
three extractions never fail, and `_parse_cli_args` builds what the typed
pipeline below describes. A destination that no structure names stays behind
unread: without the debug-only options this is `private_network`, so
`--no-private-network` is accepted there and changes nothing.
-/

set_option autoImplicit false

namespace FsImage.NspawnInSubvol

open FsImage.Python

/-- The names the front end moves between the namespace and the option
structures. Each is at once a destination, a field and a keyword argument,
the snake_case Python name written in camelCase. -/
inductive Field where
  | boot | appendBootConsole | serveRpmSnapshots | snapshotToVersionlock
  | layer | bindRepoRo | bindmountRo | bindmountRw | cmd | forwardFd | hostname | quiet | setenv
  | snapshot | user | privateNetwork | allowMknod
  | debug | forwardTlsEnv | logsTmpfs | snapshotInto | capNetAdmin
  | debugOnlyOpts | opts
  deriving DecidableEq, Repr

/-- A value in the namespace or among keyword arguments: what `argparse`
stores for a destination, or an option structure built from such values.
Lists and tuples are not told apart. -/
inductive CliValue where
  | bool (value : Bool)
  | text (value : Option Str)
  | texts (values : List Str)
  | pairs (values : List (Str × Str))
  | fds (values : List Nat)
  | layer (value : Subvol)
  | user (value : Passwd)
  | debugOnlyOpts (value : NspawnDebugOnlyNotForProdOpts)
  | opts (value : NspawnOpts)
  deriving DecidableEq, Repr

namespace CliValue

def bool? : CliValue → Option Bool | .bool value => some value | _ => none
def text? : CliValue → Option (Option Str) | .text value => some value | _ => none
def texts? : CliValue → Option (List Str) | .texts values => some values | _ => none
def pairs? : CliValue → Option (List (Str × Str)) | .pairs values => some values | _ => none
def fds? : CliValue → Option (List Nat) | .fds values => some values | _ => none
def layer? : CliValue → Option Subvol | .layer value => some value | _ => none
def user? : CliValue → Option Passwd | .user value => some value | _ => none
def debugOnlyOpts? : CliValue → Option NspawnDebugOnlyNotForProdOpts | .debugOnlyOpts value => some value | _ => none
def opts? : CliValue → Option NspawnOpts | .opts value => some value | _ => none

end CliValue

/-! ## Named tuples built from keyword arguments -/

/-- A `dict` from names, as the front end uses one: the namespace's
`__dict__` and keyword arguments are only ever read, set and popped by key,
so their order plays no part. -/
def Kwargs := Field → Option CliValue

namespace Kwargs

/-- `{}`. -/
def empty : Kwargs := fun _ => none

/-- `d[k] = v`. -/
def set (d : Kwargs) (k : Field) (v : CliValue) : Kwargs := fun k' => if k' = k then some v else d k'

/-- `d.pop(k)`, once its value has been read. -/
def erase (d : Kwargs) (k : Field) : Kwargs := fun k' => if k' = k then none else d k'

/-- `d` once every field of `fields` has been popped. -/
def eraseAll (d : Kwargs) (fields : List Field) : Kwargs := fun k => if k ∈ fields then none else d k

/-- The keyword arguments `extra` with each field of `fields` that `extra`
lacks taken from `dct`. -/
def fill (extra dct : Kwargs) (fields : List Field) : Kwargs :=
  fun k => if k ∈ fields then (extra k).or (dct k) else extra k

@[simp] theorem empty_apply (k : Field) : empty k = none := rfl

@[simp] theorem set_apply (d : Kwargs) (k k' : Field) (v : CliValue) :
    d.set k v k' = if k' = k then some v else d k' := rfl

@[simp] theorem erase_apply (d : Kwargs) (k k' : Field) : d.erase k k' = if k' = k then none else d k' := rfl

end Kwargs

/-- Every name. -/
def Field.all : List Field :=
  [.boot, .appendBootConsole, .serveRpmSnapshots, .snapshotToVersionlock, .layer, .bindRepoRo, .bindmountRo,
    .bindmountRw, .cmd, .forwardFd, .hostname, .quiet, .setenv, .snapshot, .user, .privateNetwork, .allowMknod,
    .debug, .forwardTlsEnv, .logsTmpfs, .snapshotInto, .capNetAdmin, .debugOnlyOpts, .opts]

/-- A named tuple's constructor refuses a keyword argument that is not one of
its fields. -/
def checkKwargs (fields : List Field) (kwargs : Kwargs) : Py Unit :=
  if Field.all.all fun k => (kwargs k).isNone || k ∈ fields then pure () else .error .typeError

/-- The value a named tuple's constructor stores in a field: the keyword
argument, else the field's default, and `TypeError` when there is neither.
`read` takes the value apart; a value of another kind, which the front end
never passes, is a `TypeError` too. -/
def kwarg {β : Type} (kwargs : Kwargs) (field : Field) (read : CliValue → Option β) (default : Option β) : Py β :=
  match kwargs field with
  | some value => (read value).elim (.error .typeError) .ok
  | none => default.elim (.error .typeError) .ok

/-- `_NspawnDebugOnlyNotForProdOpts._fields`. -/
def debugOnlyFields : List Field := [.forwardTlsEnv, .logsTmpfs, .snapshotInto, .capNetAdmin, .privateNetwork, .debug]

/-- `_new_nspawn_debug_only_not_for_prod_opts(**kwargs)`, the named tuple
with the defaults its class declares. -/
def newNspawnDebugOnlyNotForProdOpts (kwargs : Kwargs) : Py NspawnDebugOnlyNotForProdOpts := do
  checkKwargs debugOnlyFields kwargs
  let defaults : NspawnDebugOnlyNotForProdOpts := {}
  pure {
    forwardTlsEnv := ← kwarg kwargs .forwardTlsEnv CliValue.bool? (some defaults.forwardTlsEnv)
    logsTmpfs := ← kwarg kwargs .logsTmpfs CliValue.bool? (some defaults.logsTmpfs)
    snapshotInto := ← kwarg kwargs .snapshotInto CliValue.text? (some defaults.snapshotInto)
    capNetAdmin := ← kwarg kwargs .capNetAdmin CliValue.bool? (some defaults.capNetAdmin)
    privateNetwork := ← kwarg kwargs .privateNetwork CliValue.bool? (some defaults.privateNetwork)
    debug := ← kwarg kwargs .debug CliValue.bool? (some defaults.debug) }

/-- `_DEBUG_OPTS_FOR_PROD` is the constructor called with no arguments. -/
theorem newNspawnDebugOnlyNotForProdOpts_empty : newNspawnDebugOnlyNotForProdOpts Kwargs.empty = .ok debugOptsForProd :=
  rfl

/-- `_NspawnOpts._fields`. -/
def nspawnOptsFields : List Field :=
  [.cmd, .layer, .bindRepoRo, .bindmountRo, .bindmountRw, .forwardFd, .hostname, .quiet, .setenv, .snapshot,
    .user, .debugOnlyOpts, .allowMknod]

/-- `_NspawnOpts(**kwargs)`: `cmd` and `layer` are required, the default
user `nobody` is `_NOBODY_USER`, and the other defaults are the class's. -/
def NspawnOpts.ofKwargs (nobody : Passwd) (kwargs : Kwargs) : Py NspawnOpts := do
  checkKwargs nspawnOptsFields kwargs
  let cmd ← kwarg kwargs .cmd CliValue.texts? none
  let layer ← kwarg kwargs .layer CliValue.layer? none
  let defaults : NspawnOpts := { cmd, layer, user := nobody }
  pure {
    cmd := cmd
    layer := layer
    bindRepoRo := ← kwarg kwargs .bindRepoRo CliValue.bool? (some defaults.bindRepoRo)
    bindmountRo := ← kwarg kwargs .bindmountRo CliValue.pairs? (some defaults.bindmountRo)
    bindmountRw := ← kwarg kwargs .bindmountRw CliValue.pairs? (some defaults.bindmountRw)
    forwardFd := ← kwarg kwargs .forwardFd CliValue.fds? (some defaults.forwardFd)
    hostname := ← kwarg kwargs .hostname CliValue.text? (some defaults.hostname)
    quiet := ← kwarg kwargs .quiet CliValue.bool? (some defaults.quiet)
    setenv := ← kwarg kwargs .setenv CliValue.texts? (some defaults.setenv)
    snapshot := ← kwarg kwargs .snapshot CliValue.bool? (some defaults.snapshot)
    user := ← kwarg kwargs .user CliValue.user? (some defaults.user)
    debugOnlyOpts := ← kwarg kwargs .debugOnlyOpts CliValue.debugOnlyOpts? (some defaults.debugOnlyOpts)
    allowMknod := ← kwarg kwargs .allowMknod CliValue.bool? (some defaults.allowMknod) }

/-- `_NspawnCLIArgs`; the versionlock mapping is its items in order. -/
structure NspawnCliArgs where
  boot : Bool
  appendBootConsole : Option Str
  opts : NspawnOpts
  serveRpmSnapshots : List Str := []
  snapshotToVersionlock : List (Str × Str) := []
  deriving DecidableEq, Repr

/-- `_NspawnCLIArgs._fields`. -/
def nspawnCliArgsFields : List Field := [.boot, .appendBootConsole, .opts, .serveRpmSnapshots, .snapshotToVersionlock]

/-- `_NspawnCLIArgs(**kwargs)`. -/
def NspawnCliArgs.ofKwargs (kwargs : Kwargs) : Py NspawnCliArgs := do
  checkKwargs nspawnCliArgsFields kwargs
  let boot ← kwarg kwargs .boot CliValue.bool? none
  let appendBootConsole ← kwarg kwargs .appendBootConsole CliValue.text? none
  let opts ← kwarg kwargs .opts CliValue.opts? none
  let defaults : NspawnCliArgs := { boot, appendBootConsole, opts }
  pure {
    boot := boot
    appendBootConsole := appendBootConsole
    opts := opts
    serveRpmSnapshots := ← kwarg kwargs .serveRpmSnapshots CliValue.texts? (some defaults.serveRpmSnapshots)
    snapshotToVersionlock :=
      ← kwarg kwargs .snapshotToVersionlock CliValue.pairs? (some defaults.snapshotToVersionlock) }

/-- `_new_nspawn_cli_args(**kwargs)`: neither `yum` nor `dnf` works without
root, so serving RPM snapshots needs `--user=root`. -/
def newNspawnCliArgs (kwargs : Kwargs) : Py NspawnCliArgs := do
  let args ← NspawnCliArgs.ofKwargs kwargs
  if !args.serveRpmSnapshots.isEmpty && args.opts.user.pwName != "root".toList then .error .assertionError
  else pure args

/-! ## The namespace and the extraction -/

/-- The namespace `Path.parse_args` returns to `_parse_cli_args`: a value for
every destination its parsers declare, parsed or defaulted. -/
structure CliNamespace where
  boot : Bool
  appendBootConsole : Option Str
  serveRpmSnapshots : List Str
  snapshotToVersionlock : List (Str × Str)
  layer : Subvol
  bindRepoRo : Bool
  bindmountRo : List (Str × Str)
  bindmountRw : List (Str × Str)
  cmd : List Str
  forwardFd : List Nat
  hostname : Option Str
  quiet : Bool
  setenv : List Str
  snapshot : Bool
  user : Passwd
  privateNetwork : Bool
  allowMknod : Bool
  debug : Bool
  forwardTlsEnv : Bool
  logsTmpfs : Bool
  snapshotInto : Option Str
  capNetAdmin : Bool
  deriving DecidableEq, Repr

/-- `args.__dict__`: every destination the parsers declare, with its value.
`--no-private-network` of `_parser_add_nspawn_opts` declares `private_network`
in any case; the other debug-only destinations exist only when
`_parser_add_debug_only_not_for_prod_opts` ran. -/
def CliNamespace.dict (ns : CliNamespace) (allowDebugOnlyOpts : Bool) : Kwargs
  | .boot => some (.bool ns.boot)
  | .appendBootConsole => some (.text ns.appendBootConsole)
  | .serveRpmSnapshots => some (.texts ns.serveRpmSnapshots)
  | .snapshotToVersionlock => some (.pairs ns.snapshotToVersionlock)
  | .layer => some (.layer ns.layer)
  | .bindRepoRo => some (.bool ns.bindRepoRo)
  | .bindmountRo => some (.pairs ns.bindmountRo)
  | .bindmountRw => some (.pairs ns.bindmountRw)
  | .cmd => some (.texts ns.cmd)
  | .forwardFd => some (.fds ns.forwardFd)
  | .hostname => some (.text ns.hostname)
  | .quiet => some (.bool ns.quiet)
  | .setenv => some (.texts ns.setenv)
  | .snapshot => some (.bool ns.snapshot)
  | .user => some (.user ns.user)
  | .privateNetwork => some (.bool ns.privateNetwork)
  | .allowMknod => some (.bool ns.allowMknod)
  | .debug => if allowDebugOnlyOpts then some (.bool ns.debug) else none
  | .forwardTlsEnv => if allowDebugOnlyOpts then some (.bool ns.forwardTlsEnv) else none
  | .logsTmpfs => if allowDebugOnlyOpts then some (.bool ns.logsTmpfs) else none
  | .snapshotInto => if allowDebugOnlyOpts then some (.text ns.snapshotInto) else none
  | .capNetAdmin => if allowDebugOnlyOpts then some (.bool ns.capNetAdmin) else none
  | .debugOnlyOpts | .opts => none

/-- One pass of the loop of `_extract_opts_from_dict`: a field passed in must
not be in the namespace; any other is popped from it into the keyword
arguments, `KeyError` when it is missing. -/
def extractField (acc : Kwargs × Kwargs) (k : Field) : Py (Kwargs × Kwargs) :=
  if (acc.1 k).isSome then
    if (acc.2 k).isSome then .error .assertionError else .ok acc
  else match acc.2 k with
    | some value => .ok (acc.1.set k value, acc.2.erase k)
    | none => .error .keyError

/-- `_extract_opts_from_dict(ctor, fields, dct, **extra_fields)`: what `ctor`
builds from the keyword arguments, and `dct` with the popped fields gone. -/
def extractOptsFromDict {α : Type} (ctor : Kwargs → Py α) (fields : List Field)
    (dct extraFields : Kwargs) : Py (α × Kwargs) := do
  let (kwargs, dct) ← fields.foldlM extractField (extraFields, dct)
  let built ← ctor kwargs
  pure (built, dct)

/-- Every field is either passed in or found in the namespace, never both:
what `_extract_opts_from_dict` needs to run through. -/
def Extractable (fields : List Field) (dct extraFields : Kwargs) : Prop :=
  fields.all (fun k => (extraFields k).isSome != (dct k).isSome) = true

/-- The loop of `_extract_opts_from_dict` moves every field that is not
passed in from the namespace into the keyword arguments. -/
theorem foldlM_extractField (fields : List Field) (dct extraFields : Kwargs) (nodup : fields.Nodup)
    (extractable : Extractable fields dct extraFields) :
    fields.foldlM extractField (extraFields, dct) =
      .ok (extraFields.fill dct fields, dct.eraseAll fields) := by
  induction fields generalizing dct extraFields with
  | nil => rfl
  | cons field rest ih =>
    obtain ⟨fresh, restNodup⟩ := List.nodup_cons.mp nodup
    simp only [Extractable, List.all_cons, Bool.and_eq_true] at extractable
    obtain ⟨apart, restExtractable⟩ := extractable
    rw [List.foldlM_cons]
    cases passed : extraFields field with
    | some value =>
      have absent : dct field = none := by simpa [passed] using apart
      rw [extractField, if_pos (by simp [passed]), if_neg (by simp [absent]), Py.ok_bind,
        ih dct extraFields restNodup restExtractable]
      congr 2 <;> funext k <;> by_cases same : k = field <;> simp_all [Kwargs.fill, Kwargs.eraseAll]
    | none =>
      obtain ⟨value, found⟩ := Option.isSome_iff_exists.mp (by simpa [passed] using apart)
      have others : Extractable rest (dct.erase field) (extraFields.set field value) := by
        simp only [Extractable, List.all_eq_true] at restExtractable ⊢
        intro k member
        have differ : k ≠ field := fun same => fresh (same ▸ member)
        simpa [differ] using restExtractable k member
      simp only [extractField, passed, Option.isSome_none, Bool.false_eq_true, if_false, found, Py.ok_bind]
      rw [ih _ _ restNodup others]
      congr 2 <;> funext k <;> by_cases same : k = field <;> simp_all [Kwargs.fill, Kwargs.eraseAll]

/-- `_extract_opts_from_dict` hands `ctor` the fields passed in and those
popped from the namespace, and leaves the namespace without the fields. -/
theorem extractOptsFromDict_eq {α : Type} (ctor : Kwargs → Py α) (fields : List Field) (dct extraFields : Kwargs)
    (nodup : fields.Nodup) (extractable : Extractable fields dct extraFields) :
    extractOptsFromDict ctor fields dct extraFields =
      ctor (extraFields.fill dct fields) >>= fun built => pure (built, dct.eraseAll fields) := by
  simp only [extractOptsFromDict, foldlM_extractField fields dct extraFields nodup extractable, Py.ok_bind]

/-- Modelled from the spec: `set_new_key(d, k, v)` of `fs_image.common`, which
is not among the sources. A new key is added; a key already set to the same
value is left as it is, and one set to another value is refused. -/
def setNewKey (d : Dict Str Str) (k v : Str) : Py (Dict Str Str) :=
  match d.get? k with
  | none => .ok (d.set k v)
  | some old => if old = v then .ok d else .error .keyError

/-- One pass of the loop of `_normalize_snapshot_to_versionlock`: only a
served snapshot may get a versionlock. -/
def versionlockStep (snapshots : List Str) (sToVl : Dict Str Str) (pair : Str × Str) : Py (Dict Str Str) :=
  if pair.1 ∈ snapshots then setNewKey sToVl pair.1 pair.2 else .error .assertionError

/-- `_normalize_snapshot_to_versionlock`. -/
def normalizeSnapshotToVersionlock (snapshotToVl : List (Str × Str)) (snapshots : List Str) : Py (Dict Str Str) :=
  snapshotToVl.foldlM (versionlockStep snapshots) .empty

/-- Served snapshots that no earlier pair named are added in order. -/
theorem foldlM_versionlockStep (snapshots : List Str) (rest : List (Str × Str)) (sToVl : Dict Str Str)
    (served : ∀ pair ∈ rest, pair.1 ∈ snapshots) (distinct : ((sToVl.items ++ rest).map Prod.fst).Nodup) :
    rest.foldlM (versionlockStep snapshots) sToVl = .ok ⟨sToVl.items ++ rest, distinct⟩ := by
  induction rest generalizing sToVl with
  | nil => simp
  | cons pair rest ih =>
    have fresh : pair.1 ∉ sToVl.keys := by
      simp only [List.map_append, List.map_cons, List.nodup_append, List.nodup_cons] at distinct
      exact fun inKeys => distinct.2.2 inKeys (List.mem_cons_self _ _)
    have added : (sToVl.set pair.1 pair.2).items = sToVl.items ++ [pair] := sToVl.set_items_of_not_mem _ _ fresh
    have step : versionlockStep snapshots sToVl pair = .ok (sToVl.set pair.1 pair.2) := by
      simp [versionlockStep, served pair (List.mem_cons_self _ _), setNewKey, sToVl.get?_eq_none _ fresh]
    rw [List.foldlM_cons, step, Py.ok_bind,
      ih _ (fun other member => served other (List.mem_cons_of_mem _ member)) (by simpa [added] using distinct)]
    simp [added]

/-- A snapshot that is not served is refused, whatever comes before it. -/
theorem foldlM_versionlockStep_unserved (snapshots : List Str) (rest : List (Str × Str)) (sToVl : Dict Str Str)
    (unserved : ∃ pair ∈ rest, pair.1 ∉ snapshots) :
    ∃ failure, rest.foldlM (versionlockStep snapshots) sToVl = .error failure := by
  induction rest generalizing sToVl with
  | nil => simp at unserved
  | cons pair rest ih =>
    rw [List.foldlM_cons]
    by_cases here : pair.1 ∈ snapshots
    · have later : ∃ other ∈ rest, other.1 ∉ snapshots := by
        obtain ⟨other, member, outside⟩ := unserved
        rcases List.mem_cons.mp member with rfl | inRest
        exacts [absurd here outside, ⟨other, inRest, outside⟩]
      cases versionlockStep snapshots sToVl pair with
      | error failure => exact ⟨failure, rfl⟩
      | ok next => exact ih next later
    · exact ⟨.assertionError, by simp [versionlockStep, here]⟩

/-- `_normalize_snapshot_to_versionlock` returns the pairs as a mapping, in
order, when every snapshot is served and none is named twice; it raises when
some snapshot is not served. -/
theorem normalizeSnapshotToVersionlock_spec (snapshotToVl : List (Str × Str)) (snapshots : List Str) :
    ((∀ pair ∈ snapshotToVl, pair.1 ∈ snapshots) → (distinct : (snapshotToVl.map Prod.fst).Nodup) →
      normalizeSnapshotToVersionlock snapshotToVl snapshots = .ok ⟨snapshotToVl, distinct⟩) ∧
    ((∃ pair ∈ snapshotToVl, pair.1 ∉ snapshots) →
      ∃ failure, normalizeSnapshotToVersionlock snapshotToVl snapshots = .error failure) :=
  ⟨fun served distinct => foldlM_versionlockStep snapshots snapshotToVl .empty served distinct,
    foldlM_versionlockStep_unserved snapshots snapshotToVl .empty⟩

theorem normalizeSnapshotToVersionlock_spec_single :
    normalizeSnapshotToVersionlock [("/s".toList, "/v".toList)] ["/s".toList] =
        .ok ⟨[("/s".toList, "/v".toList)], by decide⟩ ∧
      ∃ failure, normalizeSnapshotToVersionlock [("/t".toList, "/v".toList)] ["/s".toList] = .error failure :=
  ⟨(normalizeSnapshotToVersionlock_spec _ _).1 (by decide) _,
    (normalizeSnapshotToVersionlock_spec _ _).2 ⟨_, List.mem_singleton_self _, by decide⟩⟩

/-- `_parse_cli_args` once `Path.parse_args` has returned the namespace `args`;
`nobody` is `_NOBODY_USER`. -/
def parseCliArgs (nobody : Passwd) (allowDebugOnlyOpts : Bool) (args : CliNamespace) : Py NspawnCliArgs := do
  if !(args.boot || !truthy args.appendBootConsole) then throw .assertionError
  let snapshotToVersionlock ← normalizeSnapshotToVersionlock args.snapshotToVersionlock args.serveRpmSnapshots
  let dict := (args.dict allowDebugOnlyOpts).set .snapshotToVersionlock (.pairs snapshotToVersionlock.items)
  let (debugOnlyOpts, dict) ← extractOptsFromDict newNspawnDebugOnlyNotForProdOpts
    (if allowDebugOnlyOpts then debugOnlyFields else []) dict Kwargs.empty
  let (opts, dict) ← extractOptsFromDict (fun kwargs => NspawnOpts.ofKwargs nobody kwargs >>= newNspawnOpts)
    nspawnOptsFields dict (Kwargs.empty.set .debugOnlyOpts (.debugOnlyOpts debugOnlyOpts))
  let (cliArgs, _) ← extractOptsFromDict newNspawnCliArgs nspawnCliArgsFields dict
    (Kwargs.empty.set .opts (.opts opts))
  pure cliArgs

/-! ## What the front end builds -/

/-- The debug-only options a namespace asks for. -/
def CliNamespace.toDebugOnlyOpts (ns : CliNamespace) : NspawnDebugOnlyNotForProdOpts :=
  { forwardTlsEnv := ns.forwardTlsEnv, logsTmpfs := ns.logsTmpfs, snapshotInto := ns.snapshotInto,
    capNetAdmin := ns.capNetAdmin, privateNetwork := ns.privateNetwork, debug := ns.debug }

/-- The options a namespace asks for, with the given debug-only options. -/
def CliNamespace.toOpts (ns : CliNamespace) (debugOnlyOpts : NspawnDebugOnlyNotForProdOpts) : NspawnOpts :=
  { cmd := ns.cmd, layer := ns.layer, bindRepoRo := ns.bindRepoRo, bindmountRo := ns.bindmountRo,
    bindmountRw := ns.bindmountRw, forwardFd := ns.forwardFd, hostname := ns.hostname, quiet := ns.quiet,
    setenv := ns.setenv, snapshot := ns.snapshot, user := ns.user, debugOnlyOpts, allowMknod := ns.allowMknod }

@[simp] theorem CliNamespace.toOpts_user (ns : CliNamespace) (debugOnlyOpts : NspawnDebugOnlyNotForProdOpts) :
    (ns.toOpts debugOnlyOpts).user = ns.user := rfl

@[simp] theorem CliNamespace.toOpts_debugOnlyOpts (ns : CliNamespace) (debugOnlyOpts : NspawnDebugOnlyNotForProdOpts) :
    (ns.toOpts debugOnlyOpts).debugOnlyOpts = debugOnlyOpts := rfl

section Stages

/-! The three extractions of `_parse_cli_args`, one lemma each; `namespace`
is `args.__dict__` once the normalised versionlocks are stored in it. -/

variable (nobody : Passwd) (allowDebugOnlyOpts : Bool) (ns : CliNamespace) (versionlock : List (Str × Str))

theorem extract_debugOnlyOpts :
    extractOptsFromDict newNspawnDebugOnlyNotForProdOpts (if allowDebugOnlyOpts then debugOnlyFields else [])
        ((ns.dict allowDebugOnlyOpts).set .snapshotToVersionlock (.pairs versionlock)) Kwargs.empty =
      .ok (if allowDebugOnlyOpts then ns.toDebugOnlyOpts else debugOptsForProd,
        ((ns.dict allowDebugOnlyOpts).set .snapshotToVersionlock (.pairs versionlock)).eraseAll
          (if allowDebugOnlyOpts then debugOnlyFields else [])) := by
  rw [extractOptsFromDict_eq] <;> cases allowDebugOnlyOpts <;> first | rfl | decide

theorem extract_opts (debugOnlyOpts : NspawnDebugOnlyNotForProdOpts) :
    extractOptsFromDict (fun kwargs => NspawnOpts.ofKwargs nobody kwargs >>= newNspawnOpts) nspawnOptsFields
        (((ns.dict allowDebugOnlyOpts).set .snapshotToVersionlock (.pairs versionlock)).eraseAll
          (if allowDebugOnlyOpts then debugOnlyFields else []))
        (Kwargs.empty.set .debugOnlyOpts (.debugOnlyOpts debugOnlyOpts)) =
      newNspawnOpts (ns.toOpts debugOnlyOpts) >>= fun opts => pure (opts,
        (((ns.dict allowDebugOnlyOpts).set .snapshotToVersionlock (.pairs versionlock)).eraseAll
          (if allowDebugOnlyOpts then debugOnlyFields else [])).eraseAll nspawnOptsFields) := by
  rw [extractOptsFromDict_eq] <;> cases allowDebugOnlyOpts <;> first | rfl | decide

theorem extract_cliArgs (opts : NspawnOpts) :
    extractOptsFromDict newNspawnCliArgs nspawnCliArgsFields
        ((((ns.dict allowDebugOnlyOpts).set .snapshotToVersionlock (.pairs versionlock)).eraseAll
          (if allowDebugOnlyOpts then debugOnlyFields else [])).eraseAll nspawnOptsFields)
        (Kwargs.empty.set .opts (.opts opts)) =
      if !ns.serveRpmSnapshots.isEmpty && opts.user.pwName != "root".toList then .error .assertionError
      else .ok (⟨ns.boot, ns.appendBootConsole, opts, ns.serveRpmSnapshots, versionlock⟩,
        (((((ns.dict allowDebugOnlyOpts).set .snapshotToVersionlock (.pairs versionlock)).eraseAll
          (if allowDebugOnlyOpts then debugOnlyFields else [])).eraseAll nspawnOptsFields).eraseAll
            nspawnCliArgsFields)) := by
  rw [extractOptsFromDict_eq]
  · have built : NspawnCliArgs.ofKwargs ((Kwargs.empty.set .opts (.opts opts)).fill
        ((((ns.dict allowDebugOnlyOpts).set .snapshotToVersionlock (.pairs versionlock)).eraseAll
          (if allowDebugOnlyOpts then debugOnlyFields else [])).eraseAll nspawnOptsFields) nspawnCliArgsFields) =
        .ok ⟨ns.boot, ns.appendBootConsole, opts, ns.serveRpmSnapshots, versionlock⟩ := by
      cases allowDebugOnlyOpts <;> rfl
    simp only [newNspawnCliArgs, built, Py.ok_bind]
    cases !ns.serveRpmSnapshots.isEmpty && opts.user.pwName != "root".toList <;> rfl
  all_goals first | decide | cases allowDebugOnlyOpts <;> rfl

end Stages

/-- `_parse_cli_args` as a typed pipeline: the assertion on the console file,
the versionlocks, `new_nspawn_opts` of the namespace's options, then the root
check of `_new_nspawn_cli_args`. No extraction fails, for every field is a
destination or is passed in. -/
theorem parseCliArgs_eq (nobody : Passwd) (allowDebugOnlyOpts : Bool) (ns : CliNamespace) :
    parseCliArgs nobody allowDebugOnlyOpts ns =
      if ns.boot || !truthy ns.appendBootConsole then do
        let snapshotToVersionlock ← normalizeSnapshotToVersionlock ns.snapshotToVersionlock ns.serveRpmSnapshots
        let opts ← newNspawnOpts
          (ns.toOpts (if allowDebugOnlyOpts then ns.toDebugOnlyOpts else debugOptsForProd))
        if !ns.serveRpmSnapshots.isEmpty && ns.user.pwName != "root".toList then .error .assertionError
        else pure ⟨ns.boot, ns.appendBootConsole, opts, ns.serveRpmSnapshots, snapshotToVersionlock.items⟩
      else .error .assertionError := by
  unfold parseCliArgs
  cases ns.boot || !truthy ns.appendBootConsole
  · rfl
  · cases normalizeSnapshotToVersionlock ns.snapshotToVersionlock ns.serveRpmSnapshots with
    | error e => rfl
    | ok versionlock =>
      simp only [Bool.not_true, Bool.false_eq_true, if_false, if_true, Py.ok_bind, pure_bind,
        extract_debugOnlyOpts, extract_opts, bind_assoc]
      cases opened : newNspawnOpts (ns.toOpts (if allowDebugOnlyOpts then ns.toDebugOnlyOpts else debugOptsForProd))
      with
      | error e => rfl
      | ok opts =>
        obtain ⟨rfl, -⟩ := (newNspawnOpts_eq_ok _ _).mp opened
        simp only [Py.ok_bind, pure_bind, extract_cliArgs, CliNamespace.toOpts_user]
        by_cases root : (!ns.serveRpmSnapshots.isEmpty && ns.user.pwName != "root".toList) = true <;>
          simp only [root, if_true, if_false, Bool.false_eq_true] <;> rfl

/-- The options a successful `_parse_cli_args` returns. -/
theorem parseCliArgs_opts (nobody : Passwd) (allowDebugOnlyOpts : Bool) (ns : CliNamespace) (cli : NspawnCliArgs)
    (parsed : parseCliArgs nobody allowDebugOnlyOpts ns = .ok cli) :
    cli.opts = ns.toOpts (if allowDebugOnlyOpts then ns.toDebugOnlyOpts else debugOptsForProd) := by
  rw [parseCliArgs_eq] at parsed
  split at parsed
  · obtain ⟨versionlock, -, built⟩ := (Py.bind_eq_ok _ _ _).mp parsed
    obtain ⟨opts, opened, checked⟩ := (Py.bind_eq_ok _ _ _).mp built
    obtain ⟨rfl, -⟩ := (newNspawnOpts_eq_ok _ _).mp opened
    split at checked
    · cases checked
    · cases checked
      rfl
  · cases parsed

/-- `_parse_cli_args` accepts a namespace exactly when a console file comes
with `--boot`, `_normalize_snapshot_to_versionlock` accepts the versionlocks,
`new_nspawn_opts` accepts the options, and RPM snapshots are served only as
root. It then returns the namespace's values, with the debug-only
options of the namespace when they are allowed and `_DEBUG_OPTS_FOR_PROD`
otherwise. -/
theorem parseCliArgs_ok_iff (nobody : Passwd) (allowDebugOnlyOpts : Bool) (ns : CliNamespace) (cli : NspawnCliArgs) :
    parseCliArgs nobody allowDebugOnlyOpts ns = .ok cli ↔
      (ns.boot || !truthy ns.appendBootConsole) = true ∧
      ∃ versionlock,
        normalizeSnapshotToVersionlock ns.snapshotToVersionlock ns.serveRpmSnapshots = .ok versionlock ∧
        (ns.toOpts (if allowDebugOnlyOpts then ns.toDebugOnlyOpts else debugOptsForProd)).Valid ∧
        (ns.serveRpmSnapshots = [] ∨ ns.user.pwName = "root".toList) ∧
        cli = ⟨ns.boot, ns.appendBootConsole,
          ns.toOpts (if allowDebugOnlyOpts then ns.toDebugOnlyOpts else debugOptsForProd), ns.serveRpmSnapshots,
          versionlock.items⟩ := by
  rw [parseCliArgs_eq]
  cases ns.boot || !truthy ns.appendBootConsole
  · simp
  · cases normalizeSnapshotToVersionlock ns.snapshotToVersionlock ns.serveRpmSnapshots with
    | error e => simp
    | ok versionlock =>
      generalize (if allowDebugOnlyOpts then ns.toDebugOnlyOpts else debugOptsForProd) = debugOnlyOpts
      simp only [Py.ok_bind, Except.ok.injEq, exists_eq_left', true_and, if_true, Py.bind_eq_ok, newNspawnOpts_eq_ok,
        and_assoc, exists_eq_left, CliNamespace.toOpts_user]
      by_cases empty : ns.serveRpmSnapshots = []
      · simp [empty, pure, Except.pure, eq_comm]
      · by_cases isRoot : ns.user.pwName = "root".toList
        · simp [empty, isRoot, pure, Except.pure, eq_comm]
        · simp only [String.toList] at isRoot
          simp [empty, isRoot]

/-- Without the debug-only options, every container the command line asks
for gets a private network: `--no-private-network` still stores `False`
under `private_network`, but no structure reads it. -/
theorem parseCliArgs_private_network (nobody : Passwd) (ns : CliNamespace) (host : Host) (cli : NspawnCliArgs)
    (parsed : parseCliArgs nobody false ns = .ok cli) :
    cli.opts.debugOnlyOpts = debugOptsForProd ∧
      "--private-network".toList ∈ (extraNspawnArgsAndEnv cli.opts host).1 := by
  rw [parseCliArgs_opts nobody false ns cli parsed]
  simp [extraNspawnArgsAndEnv, debugOptsForProd]

/-- The namespace of `--no-private-network /bin/bash` with the other defaults;
`--layer` names some built layer. -/
def noPrivateNetworkArgs : CliNamespace :=
  { boot := false, appendBootConsole := none, serveRpmSnapshots := [], snapshotToVersionlock := [],
    layer := ⟨"/layer".toList, [], 0⟩, bindRepoRo := false, bindmountRo := [], bindmountRw := [],
    cmd := ["/bin/bash".toList], forwardFd := [], hostname := none, quiet := false, setenv := [], snapshot := true,
    user := ⟨"nobody".toList, 65534, 65534⟩, privateNetwork := false, allowMknod := false, debug := false,
    forwardTlsEnv := false, logsTmpfs := true, snapshotInto := none, capNetAdmin := false }

theorem parseCliArgs_private_network_flagged :
    ∃ cli, parseCliArgs ⟨"nobody".toList, 65534, 65534⟩ false noPrivateNetworkArgs = .ok cli ∧
      cli.opts.debugOnlyOpts = debugOptsForProd ∧
      "--private-network".toList ∈
        (extraNspawnArgsAndEnv cli.opts ⟨.empty, false, "/repo".toList, "/tmp".toList⟩).1 := by
  obtain ⟨cli, parsed⟩ :
      ∃ cli, parseCliArgs ⟨"nobody".toList, 65534, 65534⟩ false noPrivateNetworkArgs = .ok cli := ⟨_, rfl⟩
  exact ⟨cli, parsed, parseCliArgs_private_network _ _ _ cli parsed⟩

end FsImage.NspawnInSubvol
