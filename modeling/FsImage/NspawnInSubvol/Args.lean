import FsImage.Python.Dict

/-! Option structures of `nspawn_in_subvol/args.py`.

Production options and debug-only knobs are separate records; the debug record
defaults to what production containers use. `newNspawnOpts` is the one
constructor the rest of the package may call; `newNspawnOpts_eq_ok` says it
returns its argument exactly when the two assertions `NspawnOpts.Valid` hold.
-/

set_option autoImplicit false

namespace FsImage.NspawnInSubvol

open FsImage.Python

/-- What `cmd.py` reads of a subvolume: where it is, which image paths exist,
and the integer stored under `meta/private/opts/artifacts_may_require_repo`. -/
structure Subvol where
  path : Str
  existing : List Str
  artifactsMayRequireRepo : Nat
  deriving DecidableEq, Repr

/-- The fields of a `pwd.struct_passwd` the command builder reads. -/
structure Passwd where
  pwName : Str
  pwUid : Nat
  pwGid : Nat
  deriving DecidableEq, Repr

/-- `_NspawnDebugOnlyNotForProdOpts`, with its defaults. -/
structure NspawnDebugOnlyNotForProdOpts where
  forwardTlsEnv : Bool := false
  logsTmpfs : Bool := true
  snapshotInto : Option Str := none
  capNetAdmin : Bool := false
  privateNetwork : Bool := true
  debug : Bool := false
  deriving DecidableEq, Repr

/-- `_DEBUG_OPTS_FOR_PROD`. -/
def debugOptsForProd : NspawnDebugOnlyNotForProdOpts := {}

/-- `_NspawnOpts`. The default `user` is the host's `nobody` entry, read from
the password database at import time, so it has no default here. -/
structure NspawnOpts where
  cmd : List Str
  layer : Subvol
  bindRepoRo : Bool := false
  bindmountRo : List (Str × Str) := []
  bindmountRw : List (Str × Str) := []
  forwardFd : List Nat := []
  hostname : Option Str := none
  quiet : Bool := false
  setenv : List Str := []
  snapshot : Bool := true
  user : Passwd
  debugOnlyOpts : NspawnDebugOnlyNotForProdOpts := debugOptsForProd
  allowMknod : Bool := false
  deriving DecidableEq, Repr

/-- Python truthiness of an optional path. -/
def truthy : Option Str → Bool
  | some path => !path.isEmpty
  | none => false

/-- The two assertions of `new_nspawn_opts`. -/
def NspawnOpts.Valid (opts : NspawnOpts) : Prop :=
  ¬ (opts.quiet = true ∧ opts.debugOnlyOpts.debug = true) ∧
    (truthy opts.debugOnlyOpts.snapshotInto = true → opts.snapshot = true)

instance (opts : NspawnOpts) : Decidable opts.Valid := inferInstanceAs (Decidable (_ ∧ _))

/-- `new_nspawn_opts`: build the options, then check the two combinations
that are refused. -/
def newNspawnOpts (opts : NspawnOpts) : Py NspawnOpts :=
  if opts.quiet && opts.debugOnlyOpts.debug then .error .assertionError
  else if truthy opts.debugOnlyOpts.snapshotInto && !opts.snapshot then .error .assertionError
  else .ok opts

theorem newNspawnOpts_eq_ok (opts result : NspawnOpts) :
    newNspawnOpts opts = .ok result ↔ result = opts ∧ opts.Valid := by
  unfold newNspawnOpts NspawnOpts.Valid
  cases opts.quiet <;> cases opts.debugOnlyOpts.debug <;> cases truthy opts.debugOnlyOpts.snapshotInto <;>
    cases opts.snapshot <;> simp [eq_comm]

end FsImage.NspawnInSubvol
