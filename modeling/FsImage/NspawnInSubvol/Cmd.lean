import FsImage.NspawnInSubvol.Args
import FsImage.Python.PosixPath

/-! The command builder of `nspawn_in_subvol/cmd.py`.

Everything the Python code reads from the process (`os.environ`, whether the
host has `/dev/fuse`, the resolved repository root, the random machine name)
is an explicit argument, so the builder is a function of its inputs.
-/

set_option autoImplicit false

namespace FsImage.NspawnInSubvol

open FsImage.Python FsImage.Python.PosixPath

/-- The ambient state `cmd.py` reads. -/
structure Host where
  environ : Dict Str Str
  devFuseExists : Bool
  repoRoot : Str
  tempSubvolumesDir : Str

/-- `_colon_quote_path`: a backslash before every `\` and every `:`. -/
def colonQuotePath (path : Str) : Str :=
  path.flatMap fun c => if c = '\\' ∨ c = ':' then ['\\', c] else [c]

/-- `bind_args`; `dest` defaults to `src`, `readonly` to `True`. -/
def bindArgs (src : Str) (dest : Option Str := none) (readonly : Bool := true) : List Str :=
  let dest := dest.getD src
  [if readonly then "--bind-ro".toList else "--bind".toList,
    colonQuotePath src ++ ':' :: colonQuotePath dest]

/-- `_exists_in_image`. -/
def existsInImage (subvol : Subvol) (path : Str) : Bool := path ∈ subvol.existing

/-- The two places `_inject_os_release_args` looks for `os-release`. -/
def osReleasePaths : List Str := ["/usr/lib/os-release".toList, "/etc/os-release".toList]

/-- `_inject_os_release_args`: bind `/dev/null` over the first path unless the
image has one of them. -/
def injectOsReleaseArgs (subvol : Subvol) : List Str :=
  if osReleasePaths.any (existsInImage subvol) then []
  else bindArgs "/dev/null".toList (some "/usr/lib/os-release".toList)

/-- `_nspawn_cmd`; `machine` is the fresh `uuid.uuid4().hex`. -/
def nspawnCmd (nspawnSubvol : Subvol) (machine : Str) : List Str :=
  ["env".toList, "UNIFIED_CGROUP_HIERARCHY=yes".toList, "systemd-nspawn".toList,
    "--register=no".toList, "--keep-unit".toList, "--machine".toList, machine,
    "--directory".toList, nspawnSubvol.path] ++
  injectOsReleaseArgs nspawnSubvol ++
  ["--link-journal=no".toList, "--settings=no".toList, "--timezone=off".toList]

/-- `_artifacts_may_require_repo`, read as Python truthiness. -/
def artifactsMayRequireRepo (subvol : Subvol) : Bool := subvol.artifactsMayRequireRepo != 0

/-- The `--tmpfs` argument for `/logs`. -/
def logsTmpfsArg (user : Passwd) : Str :=
  "--tmpfs=/logs:".toList ++ join ',' ["uid=".toList ++ (Nat.repr user.pwUid).toList,
    "gid=".toList ++ (Nat.repr user.pwGid).toList, "mode=0755".toList, "nodev".toList,
    "nosuid".toList, "noexec".toList]

/-- The bind arguments of `_extra_nspawn_args_and_env`: the read-write
mounts, then the read-only ones, then the repository when it is needed. -/
def extraBindArgs (opts : NspawnOpts) (host : Host) : List Str :=
  opts.bindmountRw.flatMap (fun mount => bindArgs mount.1 (some mount.2) false) ++
  opts.bindmountRo.flatMap (fun mount => bindArgs mount.1 (some mount.2) true) ++
  (if opts.bindRepoRo || artifactsMayRequireRepo opts.layer then bindArgs host.repoRoot else [])

/-- The literal `'THRIFT_TLS_'`: forwarded host variables start with it. -/
def forwardedTlsVar : Str := "THRIFT_TLS_".toList

/-- The literal `'SYSTEMD_NSPAWN_'`: the variables `systemd-nspawn` must not see. -/
def reservedNspawnVar : Str := "SYSTEMD_NSPAWN_".toList

/-- The `THRIFT_TLS_` host variables, each put in front as the loop meets it. -/
def forwardedTlsEnv (environ : Dict Str Str) : List Str :=
  environ.items.foldl
    (fun cmdEnv entry =>
      if startswith entry.1 forwardedTlsVar then (entry.1 ++ '=' :: entry.2) :: cmdEnv else cmdEnv)
    []

/-- `_extra_nspawn_args_and_env`: the extra `systemd-nspawn` arguments and the
`K=V` environment of `opts.cmd`. -/
def extraNspawnArgsAndEnv (opts : NspawnOpts) (host : Host) : List Str × List Str :=
  let extraNspawnArgs :=
    (if opts.quiet then ["--quiet".toList] else []) ++
    (if opts.debugOnlyOpts.privateNetwork then ["--private-network".toList] else []) ++
    extraBindArgs opts host ++
    (if opts.debugOnlyOpts.logsTmpfs then [logsTmpfsArg opts.user] else []) ++
    (if host.devFuseExists then ["--bind-ro=/dev/fuse".toList] else []) ++
    (if opts.debugOnlyOpts.capNetAdmin then ["--capability=CAP_NET_ADMIN".toList] else []) ++
    (if truthy opts.hostname then ["--hostname=".toList ++ opts.hostname.getD []] else []) ++
    (if !opts.allowMknod then ["--drop-capability=CAP_MKNOD".toList] else [])
  let cmdEnv := (if opts.debugOnlyOpts.forwardTlsEnv then forwardedTlsEnv host.environ else []) ++
    opts.setenv
  (extraNspawnArgs, cmdEnv)

/-- One pass of the loop of `nspawn_sanitize_env`. -/
def sanitizeStep (env : Dict Str Str) (var : Str) : Py (Dict Str Str) :=
  if startswith var reservedNspawnVar then env.pop var else pure env

/-- `nspawn_sanitize_env`: copy the environment and pop every
`SYSTEMD_NSPAWN_` variable, walking a snapshot of the keys. -/
def nspawnSanitizeEnv (environ : Dict Str Str) : Py (Dict Str Str) :=
  environ.keys.foldlM sanitizeStep environ

/-- The name `_snapshot_subvol` gives an ephemeral snapshot: the parent
directory's name of the source, or its own name when that is empty. -/
def tmpName (srcPath : Str) : Str :=
  let normal := normpath srcPath
  match basename (dirname normal) with
  | [] => basename normal
  | name => name

/-- The subvolume `_snapshot_subvol` yields: a snapshot of the source at
`snapshot_into`, or in the temporary-subvolumes directory under `tmpName`. -/
def snapshotSubvol (src : Subvol) (snapshotInto : Option Str) (host : Host) : Subvol :=
  let path := if truthy snapshotInto then snapshotInto.getD [] else
    osJoin host.tempSubvolumesDir (tmpName src.path)
  { src with path := path }

/-- `_NspawnSetup`; `popen_args` passes through untouched and is left out. -/
structure NspawnSetup where
  subvol : Subvol
  nspawnCmd : List Str
  nspawnEnv : Dict Str Str
  opts : NspawnOpts
  cmdEnv : List Str

/-- `_nspawn_setup`: snapshot the layer unless told not to, then build the
command, the sanitized runtime environment and the command's environment. -/
def nspawnSetup (opts : NspawnOpts) (host : Host) (machine : Str) : Py NspawnSetup := do
  let nspawnSubvol :=
    if opts.snapshot then snapshotSubvol opts.layer opts.debugOnlyOpts.snapshotInto host else opts.layer
  let (nspawnArgs, cmdEnv) := extraNspawnArgsAndEnv opts host
  let nspawnEnv ← nspawnSanitizeEnv host.environ
  pure { subvol := nspawnSubvol, nspawnCmd := nspawnCmd nspawnSubvol machine ++ nspawnArgs,
         nspawnEnv := nspawnEnv, opts := opts, cmdEnv := cmdEnv }

end FsImage.NspawnInSubvol
