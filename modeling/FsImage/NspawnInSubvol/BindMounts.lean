import FsImage.NspawnInSubvol.Cmd

/-! How `systemd-nspawn` reads the bind mounts the builder asks for.

A bind value is split at the first colon that no backslash escapes; in each
part a backslash-escaped character stands for itself, and a further unescaped
colon starts the mount options. Quoting with `colonQuotePath` and reading back
are inverse on every path, whatever colons and backslashes it holds.
-/

set_option autoImplicit false

namespace FsImage.NspawnInSubvol

open FsImage.Python

/-- One part of a bind value: up to the first unescaped `:`, unescaped, with
what follows that colon if there was one. A lone trailing backslash is an
error. -/
def readPart : Str → Option (Str × Option Str)
  | [] => some ([], none)
  | ':' :: rest => some ([], some rest)
  | '\\' :: c :: rest => (readPart rest).map fun read => (c :: read.1, read.2)
  | ['\\'] => none
  | c :: rest => (readPart rest).map fun read => (c :: read.1, read.2)

/-- A bind mount as `systemd-nspawn` understands it. -/
structure BindMount where
  source : Str
  destination : Str
  options : Option Str
  readOnly : Bool
  deriving DecidableEq, Repr

/-- `--bind`/`--bind-ro` value parsing; without a colon the destination is the source. -/
def parseBindValue (readOnly : Bool) (value : Str) : Option BindMount := do
  let (source, after) ← readPart value
  match after with
  | none => pure ⟨source, source, none, readOnly⟩
  | some rest =>
    let (destination, options) ← readPart rest
    pure ⟨source, destination, options, readOnly⟩

/-- The bind value of a single `--bind=V` or `--bind-ro=V` argument. -/
def inlineBind (arg : Str) : List (Str × Bool) :=
  if startswith arg "--bind=".toList then [(arg.drop 7, false)]
  else if startswith arg "--bind-ro=".toList then [(arg.drop 10, true)]
  else []

/-- The bind requests of an argument list, in order, each with its read-only
flag. `--bind`, `--bind-ro`, `--machine` and `--directory` take the next
argument; every other argument the builder writes stands alone. -/
def bindRequests : List Str → List (Str × Bool)
  | [] => []
  | [arg] => inlineBind arg
  | arg :: value :: rest =>
    if arg = "--bind".toList then (value, false) :: bindRequests rest
    else if arg = "--bind-ro".toList then (value, true) :: bindRequests rest
    else if arg = "--machine".toList ∨ arg = "--directory".toList then bindRequests rest
    else inlineBind arg ++ bindRequests (value :: rest)

/-- The bind mounts `systemd-nspawn` makes of an argument list; `none` marks
a value it refuses. -/
def decodeBinds (args : List Str) : List (Option BindMount) :=
  (bindRequests args).map fun request => parseBindValue request.2 request.1

/-! ## Reading back what `colonQuotePath` wrote -/

theorem readPart_cons_plain (c : Char) (rest : Str) (notColon : c ≠ ':') (notBackslash : c ≠ '\\') :
    readPart (c :: rest) = (readPart rest).map fun read => (c :: read.1, read.2) := by
  match rest with
  | [] => simp [readPart, notColon, notBackslash]
  | _ :: _ => simp [readPart, notColon, notBackslash]

theorem readPart_colonQuotePath_append (path rest : Str) :
    readPart (colonQuotePath path ++ rest) =
      (readPart rest).map fun read => (path ++ read.1, read.2) := by
  induction path with
  | nil => simp [colonQuotePath]
  | cons c path ih =>
    have step : colonQuotePath (c :: path) ++ rest =
        (if c = '\\' ∨ c = ':' then ['\\', c] else [c]) ++ (colonQuotePath path ++ rest) := by
      simp [colonQuotePath]
    rw [step]
    by_cases special : c = '\\' ∨ c = ':'
    · simp only [special, if_true, List.cons_append, List.nil_append, readPart, ih, Option.map_map]
      rfl
    · have notBackslash : c ≠ '\\' := fun same => special (.inl same)
      have notColon : c ≠ ':' := fun same => special (.inr same)
      simp only [special, if_false, List.cons_append, List.nil_append,
        readPart_cons_plain c _ notColon notBackslash, ih, Option.map_map]
      rfl

theorem readPart_colonQuotePath_colon (path rest : Str) :
    readPart (colonQuotePath path ++ ':' :: rest) = some (path, some rest) := by
  simp [readPart_colonQuotePath_append, readPart]

theorem readPart_colonQuotePath (path : Str) : readPart (colonQuotePath path) = some (path, none) := by
  simpa [readPart] using readPart_colonQuotePath_append path []

/-- A quoted pair reads back as itself, with no mount options. -/
theorem parseBindValue_quoted (readOnly : Bool) (src dest : Str) :
    parseBindValue readOnly (colonQuotePath src ++ ':' :: colonQuotePath dest) =
      some ⟨src, dest, none, readOnly⟩ := by
  simp [parseBindValue, readPart_colonQuotePath_colon, readPart_colonQuotePath]

/-- A path with no colon and no backslash, such as `/dev/fuse`, is read as is. -/
theorem readPart_plain (path : Str) (plain : ∀ c ∈ path, c ≠ ':' ∧ c ≠ '\\') :
    readPart path = some (path, none) := by
  induction path with
  | nil => rfl
  | cons c path ih =>
    obtain ⟨notColon, notBackslash⟩ := plain c (List.mem_cons_self c path)
    simp [readPart_cons_plain c path notColon notBackslash,
      ih fun d member => plain d (List.mem_cons_of_mem c member)]

theorem parseBindValue_plain (readOnly : Bool) (path : Str) (plain : ∀ c ∈ path, c ≠ ':' ∧ c ≠ '\\') :
    parseBindValue readOnly path = some ⟨path, path, none, readOnly⟩ := by
  simp [parseBindValue, readPart_plain path plain]

/-! ## The bind arguments of the builder -/

theorem bindRequests_bindArgs_append (src : Str) (dest : Option Str) (readonly : Bool) (rest : List Str) :
    bindRequests (bindArgs src dest readonly ++ rest) =
      (colonQuotePath src ++ ':' :: colonQuotePath (dest.getD src), readonly) :: bindRequests rest := by
  cases readonly <;> simp [bindArgs, bindRequests]

/-- An argument that takes no value and is no bind contributes nothing. -/
theorem bindRequests_cons_plain (arg : Str) (rest : List Str)
    (plain : arg ≠ "--bind".toList ∧ arg ≠ "--bind-ro".toList ∧ arg ≠ "--machine".toList ∧
      arg ≠ "--directory".toList) :
    bindRequests (arg :: rest) = inlineBind arg ++ bindRequests rest := by
  obtain ⟨notBind, notBindRo, notMachine, notDirectory⟩ := plain
  match rest with
  | [] => simp [bindRequests]
  | _ :: _ => rw [bindRequests, if_neg notBind, if_neg notBindRo, if_neg (not_or.mpr ⟨notMachine, notDirectory⟩)]

/-- An argument that takes no value and asks for no bind mount. -/
def Silent (arg : Str) : Prop :=
  arg ≠ "--bind".toList ∧ arg ≠ "--bind-ro".toList ∧ arg ≠ "--machine".toList ∧
    arg ≠ "--directory".toList ∧ inlineBind arg = []

instance (arg : Str) : Decidable (Silent arg) := inferInstanceAs (Decidable (_ ∧ _))

theorem bindRequests_silent_append (silent rest : List Str) (quiet : ∀ arg ∈ silent, Silent arg) :
    bindRequests (silent ++ rest) = bindRequests rest := by
  induction silent with
  | nil => rfl
  | cons arg silent ih =>
    obtain ⟨notBind, notBindRo, notMachine, notDirectory, noInline⟩ := quiet arg (by simp)
    rw [List.cons_append, bindRequests_cons_plain arg _ ⟨notBind, notBindRo, notMachine, notDirectory⟩,
      noInline, ih (fun other member => quiet other (List.mem_cons_of_mem arg member)), List.nil_append]

theorem bindRequests_mounts_append (mounts : List (Str × Str)) (readonly : Bool) (rest : List Str) :
    bindRequests (mounts.flatMap (fun mount => bindArgs mount.1 (some mount.2) readonly) ++ rest) =
      mounts.map (fun mount => (colonQuotePath mount.1 ++ ':' :: colonQuotePath mount.2, readonly)) ++
        bindRequests rest := by
  induction mounts with
  | nil => rfl
  | cons mount mounts ih =>
    rw [List.flatMap_cons, List.append_assoc, bindRequests_bindArgs_append, ih]
    rfl

/-- A long option whose name starts with none of the letters of the four
options above. -/
theorem silent_of_initial (initial : Char) (rest : Str)
    (other : initial ≠ 'b' ∧ initial ≠ 'm' ∧ initial ≠ 'd') : Silent ('-' :: '-' :: initial :: rest) := by
  obtain ⟨notB, notM, notD⟩ := other
  simp [Silent, inlineBind, startswith, List.isPrefixOf, notB, notM, notD, Ne.symm notB]

theorem silent_if (present : Bool) (arg : Str) (quiet : Silent arg) :
    ∀ other ∈ (if present then [arg] else []), Silent other := by
  cases present <;> simp [quiet]

theorem bindRequests_repo_append (repo : Bool) (root : Str) (rest : List Str) :
    bindRequests ((if repo then bindArgs root else []) ++ rest) =
      (if repo then [(colonQuotePath root ++ ':' :: colonQuotePath root, true)] else []) ++
        bindRequests rest := by
  cases repo
  · rfl
  · simpa using bindRequests_bindArgs_append root none true rest

theorem bindRequests_fuse_append (fuse : Bool) (rest : List Str) :
    bindRequests ((if fuse then ["--bind-ro=/dev/fuse".toList] else []) ++ rest) =
      (if fuse then [("/dev/fuse".toList, true)] else []) ++ bindRequests rest := by
  cases fuse
  · rfl
  · simp only [if_true, List.singleton_append]
    rw [bindRequests_cons_plain _ _ (by decide)]
    rfl

/-- The bind requests of the builder's extra arguments: the read-write pairs,
then the read-only pairs, each quoted, then the repository and `/dev/fuse`. -/
theorem bindRequests_extraNspawnArgs (opts : NspawnOpts) (host : Host) :
    bindRequests (extraNspawnArgsAndEnv opts host).1 =
      opts.bindmountRw.map (fun mount => (colonQuotePath mount.1 ++ ':' :: colonQuotePath mount.2, false)) ++
      opts.bindmountRo.map (fun mount => (colonQuotePath mount.1 ++ ':' :: colonQuotePath mount.2, true)) ++
      (if opts.bindRepoRo || artifactsMayRequireRepo opts.layer then
        [(colonQuotePath host.repoRoot ++ ':' :: colonQuotePath host.repoRoot, true)] else []) ++
      (if host.devFuseExists then [("/dev/fuse".toList, true)] else []) := by
  have quiet := silent_if opts.quiet "--quiet".toList (by decide)
  have network := silent_if opts.debugOnlyOpts.privateNetwork "--private-network".toList (by decide)
  have tmpfs := silent_if opts.debugOnlyOpts.logsTmpfs (logsTmpfsArg opts.user)
    (silent_of_initial 't' _ (by decide))
  have capability := silent_if opts.debugOnlyOpts.capNetAdmin "--capability=CAP_NET_ADMIN".toList
    (by decide)
  have hostname := silent_if (truthy opts.hostname) ("--hostname=".toList ++ opts.hostname.getD [])
    (silent_of_initial 'h' _ (by decide))
  have mknod := silent_if (!opts.allowMknod) "--drop-capability=CAP_MKNOD".toList (by decide)
  simp only [extraNspawnArgsAndEnv, extraBindArgs, List.append_assoc]
  rw [bindRequests_silent_append _ _ quiet, bindRequests_silent_append _ _ network,
    bindRequests_mounts_append, bindRequests_mounts_append, bindRequests_repo_append,
    bindRequests_silent_append _ _ tmpfs, bindRequests_fuse_append, bindRequests_silent_append _ _ capability,
    bindRequests_silent_append _ _ hostname, ← List.append_nil (if !opts.allowMknod then _ else _),
    bindRequests_silent_append _ _ mknod]
  cases host.devFuseExists <;> simp [bindRequests]

/-! ## What reaches `systemd-nspawn` -/

theorem decodeBinds_bindArgs (src : Str) (dest : Option Str) (readonly : Bool) :
    decodeBinds (bindArgs src dest readonly) = [some ⟨src, dest.getD src, none, readonly⟩] := by
  simpa [decodeBinds, parseBindValue_quoted, bindRequests] using
    congrArg (List.map fun request => parseBindValue request.2 request.1)
      (bindRequests_bindArgs_append src dest readonly [])

theorem decodeBinds_extraNspawnArgs (opts : NspawnOpts) (host : Host) :
    decodeBinds (extraNspawnArgsAndEnv opts host).1 =
      opts.bindmountRw.map (fun mount => some ⟨mount.1, mount.2, none, false⟩) ++
      opts.bindmountRo.map (fun mount => some ⟨mount.1, mount.2, none, true⟩) ++
      (if opts.bindRepoRo || artifactsMayRequireRepo opts.layer then
        [some ⟨host.repoRoot, host.repoRoot, none, true⟩] else []) ++
      (if host.devFuseExists then [some ⟨"/dev/fuse".toList, "/dev/fuse".toList, none, true⟩] else []) := by
  rw [decodeBinds, bindRequests_extraNspawnArgs]
  cases opts.bindRepoRo || artifactsMayRequireRepo opts.layer <;> cases host.devFuseExists <;>
    simp [parseBindValue_quoted, Function.comp_def] <;> decide

/-- Every pair given to `bind_args` reaches `systemd-nspawn` as itself, with
its writability and no mount options; through `_extra_nspawn_args_and_env`
the read-write pairs and then the read-only pairs arrive unchanged and in
order, before the repository and `/dev/fuse` binds. -/
theorem bindArgs_reach_nspawn :
    (∀ (src : Str) (dest : Option Str) (readonly : Bool),
      decodeBinds (bindArgs src dest readonly) = [some ⟨src, dest.getD src, none, readonly⟩]) ∧
    (∀ (opts : NspawnOpts) (host : Host),
      decodeBinds (extraNspawnArgsAndEnv opts host).1 =
        opts.bindmountRw.map (fun mount => some ⟨mount.1, mount.2, none, false⟩) ++
        opts.bindmountRo.map (fun mount => some ⟨mount.1, mount.2, none, true⟩) ++
        (if opts.bindRepoRo || artifactsMayRequireRepo opts.layer then
          [some ⟨host.repoRoot, host.repoRoot, none, true⟩] else []) ++
        (if host.devFuseExists then [some ⟨"/dev/fuse".toList, "/dev/fuse".toList, none, true⟩] else [])) :=
  ⟨decodeBinds_bindArgs, decodeBinds_extraNspawnArgs⟩

end FsImage.NspawnInSubvol
