import FsImage.NspawnInSubvol.Cmd

/-! The two environments the command builder produces.

`nspawnSanitizeEnv` gives `systemd-nspawn` the ambient environment without
its reserved variables. The command's own environment is a `K=V` list: the
forwarded `THRIFT_TLS_` variables first, the explicit settings after, so that
read in order an explicit setting always has the last word.
-/

set_option autoImplicit false

namespace FsImage.NspawnInSubvol

open FsImage.Python

/-! ## The runtime's environment -/

/-- Popping `var` when it is reserved, over a filter that already removed the
reserved variables among `vars`, removes them among `var :: vars`. -/
theorem filterKeys_sanitize_cons (env : Dict Str Str) (var : Str) (vars : List Str) :
    env.filterKeys (fun k => (!startswith var reservedNspawnVar || k ≠ var) &&
      !(vars.contains k && startswith k reservedNspawnVar)) =
    env.filterKeys fun k => !((var :: vars).contains k && startswith k reservedNspawnVar) := by
  apply Dict.filterKeys_congr
  intro k _
  by_cases same : k = var
  · subst same; cases startswith k reservedNspawnVar <;> simp
  · simp [same]

theorem foldlM_sanitizeStep (vars : List Str) (env : Dict Str Str) (distinct : vars.Nodup)
    (present : ∀ var ∈ vars, var ∈ env.keys) :
    vars.foldlM sanitizeStep env =
      .ok (env.filterKeys fun k => !(vars.contains k && startswith k reservedNspawnVar)) := by
  induction vars generalizing env with
  | nil => simp [Dict.filterKeys_of_all]
  | cons var vars ih =>
    obtain ⟨fresh, distinct⟩ := List.nodup_cons.mp distinct
    rw [List.foldlM_cons, ← filterKeys_sanitize_cons]
    by_cases reserved : startswith var reservedNspawnVar = true
    · have rest : ∀ other ∈ vars, other ∈ (env.filterKeys (· ≠ var)).keys := fun other member => by
        have differ : other ≠ var := fun same => fresh (same ▸ member)
        simpa [differ] using present other (List.mem_cons_of_mem var member)
      rw [sanitizeStep, if_pos reserved, Dict.pop_of_contains env var (present var (by simp)),
        Py.ok_bind, ih _ distinct rest, Dict.filterKeys_filterKeys]
      simp [reserved]
    · rw [sanitizeStep, if_neg reserved, Py.pure_eq, Py.ok_bind,
        ih env distinct (fun other member => present other (List.mem_cons_of_mem var member))]
      simp [reserved]

theorem nspawnSanitizeEnv_eq (environ : Dict Str Str) :
    nspawnSanitizeEnv environ = .ok (environ.filterKeys fun k => !startswith k reservedNspawnVar) := by
  rw [nspawnSanitizeEnv, foldlM_sanitizeStep environ.keys environ environ.nodup (fun _ member => member)]
  congr 1
  exact Dict.filterKeys_congr _ _ _ (fun k member => by simp [member])

/-- `nspawn_sanitize_env` keeps exactly the names without the reserved prefix,
each with its value, adds none, and `_nspawn_setup` hands this mapping to the
runtime as its environment. -/
theorem nspawnSanitizeEnv_restricts (environ : Dict Str Str) :
    nspawnSanitizeEnv environ = .ok (environ.filterKeys fun k => !startswith k reservedNspawnVar) ∧
    (∀ k, (environ.filterKeys fun k => !startswith k reservedNspawnVar).get? k =
      if startswith k reservedNspawnVar then none else environ.get? k) ∧
    ∀ (opts : NspawnOpts) (host : Host) (machine : Str),
      (nspawnSetup opts host machine).map NspawnSetup.nspawnEnv =
        .ok (host.environ.filterKeys fun k => !startswith k reservedNspawnVar) := by
  refine ⟨nspawnSanitizeEnv_eq environ, fun k => ?_, fun opts host machine => ?_⟩
  · rw [Dict.get?_filterKeys]
    cases startswith k reservedNspawnVar <;> rfl
  · simp [nspawnSetup, nspawnSanitizeEnv_eq]
    rfl

/-! ## The command's environment -/

/-- The assignments of a `K=V` list in order: the name ends at the first `=`. -/
def assignments (entries : List Str) : List (Str × Str) := entries.filterMap (splitOnce '=')

/-- The value `name` ends with when the entries are applied in order, a later
assignment overriding an earlier one. -/
def assignedValue (entries : List Str) (name : Str) : Option Str :=
  (assignments entries).reverse.lookup name

theorem assignedValue_append (first second : List Str) (name : Str) :
    assignedValue (first ++ second) name = (assignedValue second name).or (assignedValue first name) := by
  simp [assignedValue, assignments, List.filterMap_append, List.lookup_append]

theorem forwardedTlsEnv_eq (environ : Dict Str Str) :
    forwardedTlsEnv environ =
      ((environ.items.filter fun entry => startswith entry.1 forwardedTlsVar).map
        fun entry => entry.1 ++ '=' :: entry.2).reverse := by
  have general : ∀ (items : List (Str × Str)) (acc : List Str),
      items.foldl (fun cmdEnv entry => if startswith entry.1 forwardedTlsVar then
          (entry.1 ++ '=' :: entry.2) :: cmdEnv else cmdEnv) acc =
        ((items.filter fun entry => startswith entry.1 forwardedTlsVar).map
          fun entry => entry.1 ++ '=' :: entry.2).reverse ++ acc := by
    intro items
    induction items with
    | nil => simp
    | cons entry items ih =>
      intro acc
      by_cases forwarded : startswith entry.1 forwardedTlsVar <;> simp [forwarded, ih]
  simpa using general environ.items []

theorem assignments_render (items : List (Str × Str)) (plain : ∀ entry ∈ items, '=' ∉ entry.1) :
    assignments (items.map fun entry => entry.1 ++ '=' :: entry.2) = items := by
  induction items with
  | nil => rfl
  | cons entry items ih =>
    simp only [assignments, List.map_cons, List.filterMap_cons,
      splitOnce_append '=' _ _ (plain entry (by simp))]
    exact congrArg _ (ih fun other member => plain other (List.mem_cons_of_mem entry member))

theorem assignedValue_forwardedTlsEnv (environ : Dict Str Str) (plain : ∀ k ∈ environ.keys, '=' ∉ k)
    (name : Str) :
    assignedValue (forwardedTlsEnv environ) name =
      if startswith name forwardedTlsVar then environ.get? name else none := by
  have filteredPlain : ∀ entry ∈ environ.items.filter (fun entry => startswith entry.1 forwardedTlsVar),
      '=' ∉ entry.1 := fun entry member => plain entry.1 (List.mem_map_of_mem _ (List.mem_filter.mp member).1)
  rw [forwardedTlsEnv_eq, assignedValue, assignments, List.filterMap_reverse, List.reverse_reverse]
  rw [← assignments, assignments_render _ filteredPlain]
  have viaFilter := Dict.get?_filterKeys environ (fun k => startswith k forwardedTlsVar) name
  simp only [Dict.get?, Dict.filterKeys] at viaFilter
  simpa [Dict.get?] using viaFilter

/-- Read in order, the command's environment gives every name that `setenv`
assigns the value of its last assignment there; any other name gets its host
value exactly when forwarding is on, the host has it and it starts with
`THRIFT_TLS_`; no other name is assigned. -/
theorem cmdEnv_assignedValue (opts : NspawnOpts) (host : Host)
    (plain : ∀ k ∈ host.environ.keys, '=' ∉ k) (name : Str) :
    assignedValue (extraNspawnArgsAndEnv opts host).2 name =
      (assignedValue opts.setenv name).or
        (if opts.debugOnlyOpts.forwardTlsEnv && startswith name forwardedTlsVar then
          host.environ.get? name else none) := by
  simp only [extraNspawnArgsAndEnv, assignedValue_append]
  congr 1
  cases opts.debugOnlyOpts.forwardTlsEnv
  · rfl
  · simpa using assignedValue_forwardedTlsEnv host.environ plain name

/-- A host whose one variable an explicit setting overrides. -/
def tlsOverrideHost : Host :=
  ⟨⟨[("THRIFT_TLS_CA".toList, "host".toList)], by decide⟩, false, [], []⟩

/-- Forwarding on, and an explicit `THRIFT_TLS_CA`. -/
def tlsOverrideOpts : NspawnOpts :=
  { cmd := [], layer := ⟨[], [], 0⟩, user := ⟨[], 0, 0⟩, setenv := ["THRIFT_TLS_CA=mine".toList],
    debugOnlyOpts := { forwardTlsEnv := true } }

theorem cmdEnv_assignedValue_override :
    (∀ k ∈ tlsOverrideHost.environ.keys, '=' ∉ k) ∧
      assignedValue (extraNspawnArgsAndEnv tlsOverrideOpts tlsOverrideHost).2 "THRIFT_TLS_CA".toList =
        (assignedValue tlsOverrideOpts.setenv "THRIFT_TLS_CA".toList).or
          (if tlsOverrideOpts.debugOnlyOpts.forwardTlsEnv && startswith "THRIFT_TLS_CA".toList forwardedTlsVar
            then tlsOverrideHost.environ.get? "THRIFT_TLS_CA".toList else none) :=
  ⟨by decide, cmdEnv_assignedValue tlsOverrideOpts tlsOverrideHost (by decide) _⟩

end FsImage.NspawnInSubvol
