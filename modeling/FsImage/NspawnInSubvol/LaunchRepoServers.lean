import FsImage.Python.Text

/-! The repo-server supervisor of `nspawn_in_subvol/launch_repo_servers.py`.

A run is the list of what the orchestrator does to the resources it holds:
descriptors received from the namespace helper, servers started, killed and
reaped, sockets closed. Where it raises is an argument, so each failure point
is a run of its own, and so are the observations each server's readiness loop
makes. Entering `_launch_repo_server` gives the events up to its `yield` and
the exit it leaves on the exit stack; `ExitStack.__exit__` runs the pending
exits, most recent first.

The ports are the set `{int(v) ...}` in the order it is iterated, which
Python leaves open: the results hold for any order that lists each port of
the file once.
-/

set_option autoImplicit false

namespace FsImage.NspawnInSubvol

/-- Where a run of `launch_repo_servers_for_netns` raises. -/
inductive FailurePoint where
  /-- In `_create_sockets_inside_netns`, after the descriptors arrived: the
  count assertion or `check_popen_returncode`. -/
  | handoff
  /-- `sock.bind` of socket `j`. -/
  | bind (j : Nat)
  /-- `subprocess.Popen` of the server for socket `j`. -/
  | spawn (j : Nat)
  /-- `poll()` or `getsockopt` in the readiness loop of the server for socket `j`. -/
  | ready (j : Nat)
  /-- The caller's body, after the `yield`. -/
  | body
  deriving DecidableEq, Repr

/-- What the orchestrator does to a descriptor or a server process; a server
is named by the socket it was given. -/
inductive Event where
  | received (sock : Nat)
  | started (sock port : Nat)
  | killed (sock : Nat)
  | reaped (sock : Nat)
  | closed (sock : Nat)
  deriving DecidableEq, Repr

/-- What one pass of the readiness loop of `_launch_repo_server` observes:
`poll()` found the server exited, or found it running and
`getsockopt(SOL_SOCKET, SO_ACCEPTCONN)` returned the given value. -/
inductive Observation where
  | exited
  | running (acceptConn : Nat)
  deriving DecidableEq, Repr

/-- Where the readiness wait stands after a sequence of observations. -/
inductive WaitOutcome where
  /-- The loop is left and the generator reaches its `yield`. -/
  | yielded
  /-- The loop still polls. -/
  | waiting
  deriving DecidableEq, Repr

/-- `while server_proc.poll() is None: if sock.getsockopt(...): break;
time.sleep(0.1)`. -/
def waitForListen : List Observation → WaitOutcome
  | [] => .waiting
  | .exited :: _ => .yielded
  | .running acceptConn :: rest => if acceptConn ≠ 0 then .yielded else waitForListen rest

/-- The exit of an entered `_launch_repo_server`: `server_proc.kill()` in the
`finally`, `Popen.__exit__` waiting for the process, then the socket's own
`with` closing it. -/
def serverExit (sock : Nat) : List Event := [.killed sock, .reaped sock, .closed sock]

/-- `ExitStack.__exit__` over the contexts entered for `stack`, most recent first. -/
def unwind (stack : List Nat) : List Event := stack.flatMap serverExit

/-- How entering a server context ends. -/
inductive Entered where
  /-- It reached its `yield` with these events and left this exit. -/
  | yielded (events exit : List Event)
  /-- It raised, with these events, its own exits included. -/
  | raised (events : List Event)
  /-- Its readiness loop still polls when the observations end. -/
  | polling (events : List Event)
  deriving DecidableEq, Repr

/-- Entering `_launch_repo_server` for `sock` on `port`, the server's
readiness loop making `observations`: the spawn, which closes the socket when
it raises, then the loop, whose failure runs the context's exits. -/
def launchRepoServer (fail : Option FailurePoint) (observations : List Observation) (sock port : Nat) :
    Entered :=
  if fail = some (.spawn sock) then .raised [.closed sock]
  else if fail = some (.ready sock) then .raised (.started sock port :: serverExit sock)
  else match waitForListen observations with
    | .yielded => .yielded [.started sock port] (serverExit sock)
    | .waiting => .polling [.started sock port]

/-- How a run, or the serving block, ends. -/
inductive Outcome where
  /-- The block was left after the body returned. -/
  | returned
  /-- An exception propagated out. -/
  | raised
  /-- Some readiness loop still polls: nothing after it has happened. -/
  | polling
  deriving DecidableEq, Repr

/-- The `with ExitStack()` block: bind each socket and enter its server, then
yield; on the way out, by a failure or after the body, run the pending exits. -/
def serveLoop (fail : Option FailurePoint) (observe : Nat → List Observation) :
    List (Nat × Nat) → List (List Event) → List Event × Outcome
  | [], exits => (exits.flatten, if fail = some .body then .raised else .returned)
  | (sock, port) :: rest, exits =>
    if fail = some (.bind sock) then (exits.flatten, .raised)
    else match launchRepoServer fail (observe sock) sock port with
      | .raised events => (events ++ exits.flatten, .raised)
      | .polling events => (events, .polling)
      | .yielded events exit =>
        ((events ++ (serveLoop fail observe rest (exit :: exits)).1), (serveLoop fail observe rest (exit :: exits)).2)

/-- `launch_repo_servers_for_netns`, the set `repo_server_ports` iterated as
`ports`: one socket per port from the namespace helper, received as
descriptors `0 … n-1`, then the serving block over `zip(socks, ports)`. -/
def launchRepoServersForNetns (fail : Option FailurePoint) (observe : Nat → List Observation) (ports : List Nat) :
    List Event × Outcome :=
  let socks := List.range ports.length
  let received := socks.map Event.received
  if fail = some .handoff then (received, .raised)
  else (received ++ (serveLoop fail observe (socks.zip ports) []).1, (serveLoop fail observe (socks.zip ports) []).2)

/-- An order in which `{int(v) for v in infile.read().split() if v}` may be
iterated: each number of the file once. -/
def SetOrder (file ports : List Nat) : Prop := ports.Nodup ∧ (∀ port ∈ ports, port ∈ file) ∧ ∀ port ∈ file, port ∈ ports

instance (file ports : List Nat) : Decidable (SetOrder file ports) := inferInstanceAs (Decidable (_ ∧ _ ∧ _))

/-! ## Reading a run -/

@[simp] def Event.startedSock? : Event → Option Nat
  | .started sock _ => some sock
  | _ => none

@[simp] def Event.closedSock? : Event → Option Nat
  | .closed sock => some sock
  | _ => none

@[simp] def Event.receivedSock? : Event → Option Nat
  | .received sock => some sock
  | _ => none

@[simp] def Event.startedServer? : Event → Option (Nat × Nat)
  | .started sock port => some (sock, port)
  | _ => none

/-- The servers started, in order, with their sockets and ports. -/
def servers (trace : List Event) : List (Nat × Nat) := trace.filterMap Event.startedServer?

/-- The servers started, in order, by their sockets. -/
def starts (trace : List Event) : List Nat := trace.filterMap Event.startedSock?

def closes (trace : List Event) : List Nat := trace.filterMap Event.closedSock?

def receives (trace : List Event) : List Nat := trace.filterMap Event.receivedSock?

section Reading

variable (event : Event) (first second : List Event)

@[simp] theorem servers_cons : servers (event :: second) = event.startedServer?.toList ++ servers second := by
  unfold servers; rw [List.filterMap_cons]; cases event.startedServer? <;> rfl

@[simp] theorem starts_cons : starts (event :: second) = event.startedSock?.toList ++ starts second := by
  unfold starts; rw [List.filterMap_cons]; cases event.startedSock? <;> rfl

@[simp] theorem closes_cons : closes (event :: second) = event.closedSock?.toList ++ closes second := by
  unfold closes; rw [List.filterMap_cons]; cases event.closedSock? <;> rfl

@[simp] theorem receives_cons : receives (event :: second) = event.receivedSock?.toList ++ receives second := by
  unfold receives; rw [List.filterMap_cons]; cases event.receivedSock? <;> rfl

@[simp] theorem servers_nil : servers [] = [] := rfl
@[simp] theorem starts_nil : starts [] = [] := rfl
@[simp] theorem closes_nil : closes [] = [] := rfl
@[simp] theorem receives_nil : receives [] = [] := rfl

@[simp] theorem servers_append : servers (first ++ second) = servers first ++ servers second :=
  List.filterMap_append _ _ _

@[simp] theorem starts_append : starts (first ++ second) = starts first ++ starts second :=
  List.filterMap_append _ _ _

@[simp] theorem closes_append : closes (first ++ second) = closes first ++ closes second :=
  List.filterMap_append _ _ _

@[simp] theorem receives_append : receives (first ++ second) = receives first ++ receives second :=
  List.filterMap_append _ _ _

@[simp] theorem servers_ite (c : Prop) [Decidable c] : servers (if c then first else second) =
    if c then servers first else servers second := apply_ite _ _ _ _

@[simp] theorem starts_ite (c : Prop) [Decidable c] : starts (if c then first else second) =
    if c then starts first else starts second := apply_ite _ _ _ _

@[simp] theorem closes_ite (c : Prop) [Decidable c] : closes (if c then first else second) =
    if c then closes first else closes second := apply_ite _ _ _ _

@[simp] theorem receives_ite (c : Prop) [Decidable c] : receives (if c then first else second) =
    if c then receives first else receives second := apply_ite _ _ _ _

end Reading

@[simp] theorem unwind_nil : unwind [] = [] := rfl

@[simp] theorem unwind_cons (sock : Nat) (stack : List Nat) :
    unwind (sock :: stack) = serverExit sock ++ unwind stack := rfl

@[simp] theorem unwind_append (stack more : List Nat) : unwind (stack ++ more) = unwind stack ++ unwind more :=
  List.flatMap_append _ _ _

theorem flatten_map_serverExit (stack : List Nat) : (stack.map serverExit).flatten = unwind stack := by
  induction stack <;> simp_all

/-- The exits of the most recent first: each server killed, reaped and its socket closed. -/
theorem unwind_eq (stack : List Nat) : unwind stack = stack.flatMap fun sock => [.killed sock, .reaped sock, .closed sock] :=
  rfl

@[simp] theorem servers_unwind (stack : List Nat) : servers (unwind stack) = [] := by
  induction stack <;> simp_all [serverExit]

@[simp] theorem starts_unwind (stack : List Nat) : starts (unwind stack) = [] := by
  induction stack <;> simp_all [serverExit]

@[simp] theorem closes_unwind (stack : List Nat) : closes (unwind stack) = stack := by
  induction stack <;> simp_all [serverExit]

@[simp] theorem receives_unwind (stack : List Nat) : receives (unwind stack) = [] := by
  induction stack <;> simp_all [serverExit]

/-- The starts of the given servers, in order. -/
def startEvents (started : List (Nat × Nat)) : List Event := started.map fun server => .started server.1 server.2

@[simp] theorem servers_startEvents (started : List (Nat × Nat)) : servers (startEvents started) = started := by
  induction started <;> simp_all [startEvents]

@[simp] theorem starts_startEvents (started : List (Nat × Nat)) :
    starts (startEvents started) = started.map Prod.fst := by
  induction started <;> simp_all [startEvents]

@[simp] theorem closes_startEvents (started : List (Nat × Nat)) : closes (startEvents started) = [] := by
  induction started <;> simp_all [startEvents]

@[simp] theorem receives_startEvents (started : List (Nat × Nat)) : receives (startEvents started) = [] := by
  induction started <;> simp_all [startEvents]

@[simp] theorem servers_map_received (socks : List Nat) : servers (socks.map Event.received) = [] := by
  induction socks <;> simp_all

@[simp] theorem starts_map_received (socks : List Nat) : starts (socks.map Event.received) = [] := by
  induction socks <;> simp_all

@[simp] theorem closes_map_received (socks : List Nat) : closes (socks.map Event.received) = [] := by
  induction socks <;> simp_all

@[simp] theorem receives_map_received (socks : List Nat) : receives (socks.map Event.received) = socks := by
  induction socks <;> simp_all

/-! ## The readiness wait -/

/-- A decisive observation ends the wait: the server has exited, or it runs
with its socket listening. -/
def Observation.Decisive : Observation → Prop
  | .exited => True
  | .running acceptConn => acceptConn ≠ 0

instance (observation : Observation) : Decidable observation.Decisive := by
  cases observation <;> unfold Observation.Decisive <;> infer_instance

/-- The wait is left exactly when some observation is decisive, right after
the first one. -/
theorem waitForListen_yielded_iff (observations : List Observation) :
    waitForListen observations = .yielded ↔
      ∃ before decisive after, observations = before ++ decisive :: after ∧
        (∀ observation ∈ before, ¬ observation.Decisive) ∧ decisive.Decisive := by
  induction observations with
  | nil => simp [waitForListen]
  | cons observation rest ih =>
    cases observation with
    | exited =>
      simp only [waitForListen, true_iff]
      exact ⟨[], .exited, rest, rfl, by simp, trivial⟩
    | running acceptConn =>
      by_cases listening : acceptConn ≠ 0
      · simp only [waitForListen, if_pos listening, true_iff]
        exact ⟨[], .running acceptConn, rest, rfl, by simp, listening⟩
      · simp only [waitForListen, if_neg listening, ih]
        constructor
        · rintro ⟨before, decisive, after, rfl, quiet, found⟩
          refine ⟨.running acceptConn :: before, decisive, after, rfl, ?_, found⟩
          intro observation member
          rcases List.mem_cons.mp member with rfl | member
          · simpa [Observation.Decisive] using listening
          · exact quiet observation member
        · rintro ⟨before, decisive, after, same, quiet, found⟩
          match before, same with
          | [], same =>
            cases same
            exact absurd found listening
          | first :: before, same =>
            obtain ⟨rfl, rfl⟩ := List.cons.inj same
            exact ⟨before, decisive, after, rfl, fun other member => quiet other (by simp [member]), found⟩

/-- The wait still polls exactly when no observation is decisive. -/
theorem waitForListen_waiting_iff (observations : List Observation) :
    waitForListen observations = .waiting ↔ ∀ observation ∈ observations, ¬ observation.Decisive := by
  induction observations with
  | nil => simp [waitForListen]
  | cons observation rest ih =>
    cases observation with
    | exited => simp [waitForListen, Observation.Decisive]
    | running acceptConn =>
      by_cases listening : acceptConn ≠ 0 <;> simp_all [waitForListen, Observation.Decisive]

theorem waitForListen_yielded_of_decisive (observations : List Observation)
    (decisive : ∃ observation ∈ observations, observation.Decisive) : waitForListen observations = .yielded := by
  cases polled : waitForListen observations
  · rfl
  · obtain ⟨observation, member, found⟩ := decisive
    exact absurd found ((waitForListen_waiting_iff _).mp polled observation member)

/-- With neither its spawn nor its wait raising, `_launch_repo_server`
reaches its `yield` exactly when some observation is decisive, leaving the
loop at the first one, so a server that has exited counts as ready; the exit
it leaves kills the server, then reaps it, then closes its socket. With no
decisive observation it still polls. -/
theorem launchRepoServer_ready (fail : Option FailurePoint) (observations : List Observation) (sock port : Nat)
    (spawned : fail ≠ some (.spawn sock)) (waited : fail ≠ some (.ready sock)) :
    (launchRepoServer fail observations sock port =
        .yielded [.started sock port] [.killed sock, .reaped sock, .closed sock] ↔
      ∃ before decisive after, observations = before ++ decisive :: after ∧
        (∀ observation ∈ before, ¬ observation.Decisive) ∧ decisive.Decisive) ∧
    (launchRepoServer fail observations sock port = .polling [.started sock port] ↔
      ∀ observation ∈ observations, ¬ observation.Decisive) := by
  rw [← waitForListen_yielded_iff, ← waitForListen_waiting_iff]
  simp only [launchRepoServer, if_neg spawned, if_neg waited]
  cases waitForListen observations <;> simp [serverExit]

theorem launchRepoServer_ready_exited :
    (none : Option FailurePoint) ≠ some (.spawn 0) ∧ (none : Option FailurePoint) ≠ some (.ready 0) ∧
      ((launchRepoServer none [.exited] 0 80 = .yielded [.started 0 80] [.killed 0, .reaped 0, .closed 0] ↔
        ∃ before decisive after, [Observation.exited] = before ++ decisive :: after ∧
          (∀ observation ∈ before, ¬ observation.Decisive) ∧ decisive.Decisive) ∧
      (launchRepoServer none [.exited] 0 80 = .polling [.started 0 80] ↔
        ∀ observation ∈ [Observation.exited], ¬ observation.Decisive)) :=
  ⟨by decide, by decide, launchRepoServer_ready none [.exited] 0 80 (by decide) (by decide)⟩

/-! ## What the serving block does -/

section ServeLoop

variable (fail : Option FailurePoint) (observe : Nat → List Observation)

/-- Entering a server context raises at its spawn, having closed the socket;
or raises in its wait, having run its exit; or yields and leaves its exit; or
still polls. -/
theorem launchRepoServer_cases (observations : List Observation) (sock port : Nat) :
    (fail = some (.spawn sock) ∧ launchRepoServer fail observations sock port = .raised [.closed sock]) ∨
    (fail = some (.ready sock) ∧
      launchRepoServer fail observations sock port = .raised (.started sock port :: serverExit sock)) ∨
    (fail ≠ some (.spawn sock) ∧ fail ≠ some (.ready sock) ∧
      (launchRepoServer fail observations sock port = .yielded [.started sock port] (serverExit sock) ∨
        launchRepoServer fail observations sock port = .polling [.started sock port])) := by
  unfold launchRepoServer
  by_cases spawn : fail = some (.spawn sock)
  · exact .inl ⟨spawn, by simp [spawn]⟩
  by_cases ready : fail = some (.ready sock)
  · exact .inr (.inl ⟨ready, by simp [ready]⟩)
  refine .inr (.inr ⟨spawn, ready, ?_⟩)
  simp only [if_neg spawn, if_neg ready]
  cases waitForListen observations <;> simp

/-- The close of the first pair's socket, when its spawn is what fails. -/
def spawnClose : List (Nat × Nat) → List Event
  | (sock, _) :: _ => if fail = some (.spawn sock) then [.closed sock] else []
  | [] => []

theorem spawnClose_of_ne (pairs : List (Nat × Nat)) (other : ∀ sock, fail ≠ some (.spawn sock)) :
    spawnClose fail pairs = [] := by
  match pairs with
  | [] => rfl
  | (sock, _) :: _ => simp [spawnClose, other sock]

theorem serveLoop_cons (sock port : Nat) (rest : List (Nat × Nat)) (exits : List (List Event)) :
    serveLoop fail observe ((sock, port) :: rest) exits =
      if fail = some (.bind sock) then (exits.flatten, .raised)
      else match launchRepoServer fail (observe sock) sock port with
        | .raised events => (events ++ exits.flatten, .raised)
        | .polling events => (events, .polling)
        | .yielded events exit => ((events ++ (serveLoop fail observe rest (exit :: exits)).1),
            (serveLoop fail observe rest (exit :: exits)).2) := rfl

/-- The events of the serving block: the starts of the servers on its first
`k` pairs, then, unless it still polls, the close of the next socket if its
spawn failed, and the exits of the started servers, most recent first, before
those pending already. -/
theorem serveLoop_events (pairs : List (Nat × Nat)) (stack : List Nat) :
    ∃ k ≤ pairs.length,
      (serveLoop fail observe pairs (stack.map serverExit)).1 = startEvents (pairs.take k) ++
        if (serveLoop fail observe pairs (stack.map serverExit)).2 = .polling then []
        else spawnClose fail (pairs.drop k) ++ unwind (((pairs.take k).map Prod.fst).reverse ++ stack) := by
  induction pairs generalizing stack with
  | nil =>
    refine ⟨0, le_rfl, ?_⟩
    simp only [serveLoop, flatten_map_serverExit]
    split <;> simp [startEvents, spawnClose]
  | cons pair rest ih =>
    obtain ⟨sock, port⟩ := pair
    rw [serveLoop_cons]
    split
    · next bound => exact ⟨0, by simp, by simp [flatten_map_serverExit, startEvents, spawnClose, bound]⟩
    rcases launchRepoServer_cases fail (observe sock) sock port with
      ⟨spawn, entered⟩ | ⟨ready, entered⟩ | ⟨-, -, entered | entered⟩ <;> simp only [entered]
    · exact ⟨0, by simp, by simp [flatten_map_serverExit, startEvents, spawnClose, spawn]⟩
    · refine ⟨1, by simp, ?_⟩
      simp [flatten_map_serverExit, startEvents, spawnClose_of_ne fail rest (by simp [ready])]
    · obtain ⟨k, bounded, events⟩ := ih (sock :: stack)
      refine ⟨k + 1, by simpa using bounded, ?_⟩
      simp only [List.map_cons] at events
      rw [events]
      simp [startEvents]
    · exact ⟨1, by simp, by simp [startEvents]⟩

/-- With no failure at any of its sockets and a decisive observation for
each, the block starts a server on every pair and runs all their exits. -/
theorem serveLoop_complete (pairs : List (Nat × Nat)) (stack : List Nat)
    (clear : ∀ pair ∈ pairs, fail ≠ some (.bind pair.1) ∧ fail ≠ some (.spawn pair.1) ∧
      fail ≠ some (.ready pair.1) ∧ ∃ observation ∈ observe pair.1, observation.Decisive) :
    serveLoop fail observe pairs (stack.map serverExit) =
      (startEvents pairs ++ unwind ((pairs.map Prod.fst).reverse ++ stack),
        if fail = some .body then .raised else .returned) := by
  induction pairs generalizing stack with
  | nil => simp [serveLoop, flatten_map_serverExit, startEvents]
  | cons pair rest ih =>
    obtain ⟨sock, port⟩ := pair
    obtain ⟨bound, spawned, waited, decisive⟩ := clear (sock, port) (List.mem_cons_self _ _)
    have yielded : launchRepoServer fail (observe sock) sock port =
        .yielded [.started sock port] (serverExit sock) := by
      simp [launchRepoServer, spawned, waited, waitForListen_yielded_of_decisive _ decisive]
    rw [serveLoop_cons, if_neg bound, yielded]
    have rest' := ih (sock :: stack) fun pair member => clear pair (List.mem_cons_of_mem _ member)
    simp only [List.map_cons] at rest'
    simp [rest', startEvents]

end ServeLoop

/-! ## What a whole run does -/

section Run

variable (fail : Option FailurePoint) (observe : Nat → List Observation)

/-- Nothing raises before the caller's body and every server's wait sees a
decisive observation: the run gets to its `yield`. -/
def ReachesYield (n : Nat) : Prop :=
  fail ≠ some .handoff ∧ ∀ j < n, fail ≠ some (.bind j) ∧ fail ≠ some (.spawn j) ∧ fail ≠ some (.ready j) ∧
    ∃ observation ∈ observe j, observation.Decisive

instance (n : Nat) : Decidable (ReachesYield fail observe n) := inferInstanceAs (Decidable (_ ∧ _))

theorem map_fst_take_zip_range (ports : List Nat) (k : Nat) (bounded : k ≤ ports.length) :
    (((List.range ports.length).zip ports).take k).map Prod.fst = List.range k := by
  rw [List.map_take, List.map_fst_zip _ _ (by simp), List.take_range, Nat.min_eq_left bounded]

theorem spawnClose_drop_zip_range (ports : List Nat) (k : Nat) :
    spawnClose fail (((List.range ports.length).zip ports).drop k) =
      if k < ports.length ∧ fail = some (.spawn k) then [.closed k] else [] := by
  by_cases inside : k < ports.length
  · rw [List.drop_eq_getElem_cons (by simpa using inside)]
    simp [spawnClose, inside]
  · rw [List.drop_eq_nil_of_le (by simp; omega)]
    simp [spawnClose, inside]

/-- The events of a run: every descriptor received, the starts of the
servers on the first `k` sockets, and, unless a wait still polls, the close
of socket `k` when its spawn failed and the exits of the started servers,
most recent first. -/
theorem launchRepoServersForNetns_events (ports : List Nat) :
    ∃ k ≤ ports.length,
      (launchRepoServersForNetns fail observe ports).1 = (List.range ports.length).map Event.received ++
        startEvents (((List.range ports.length).zip ports).take k) ++
          if (launchRepoServersForNetns fail observe ports).2 = .polling then []
          else (if k < ports.length ∧ fail = some (.spawn k) then [.closed k] else []) ++
            unwind (List.range k).reverse := by
  unfold launchRepoServersForNetns
  split
  · next handoff => exact ⟨0, by simp, by simp [startEvents, handoff]⟩
  · obtain ⟨k, bounded, events⟩ := serveLoop_events fail observe ((List.range ports.length).zip ports) []
    simp only [List.length_zip, List.length_range, min_self, List.map_nil] at bounded events
    refine ⟨k, bounded, ?_⟩
    simp only [events, map_fst_take_zip_range ports k bounded, spawnClose_drop_zip_range, List.append_nil,
      List.append_assoc]

/-- A run that gets to its `yield` starts a server on every socket and, on the
way out, runs every exit. -/
theorem launchRepoServersForNetns_of_reachesYield (ports : List Nat)
    (reaches : ReachesYield fail observe ports.length) :
    launchRepoServersForNetns fail observe ports =
      ((List.range ports.length).map Event.received ++ startEvents ((List.range ports.length).zip ports) ++
        unwind (List.range ports.length).reverse, if fail = some .body then .raised else .returned) := by
  obtain ⟨handoff, clear⟩ := reaches
  have complete := serveLoop_complete fail observe ((List.range ports.length).zip ports) [] fun pair member =>
    clear pair.1 (by simpa using (List.of_mem_zip member).1)
  simp only [List.map_nil] at complete
  simp [launchRepoServersForNetns, handoff, complete, List.map_fst_zip]

/-- The first `k` sockets, and every socket when the run gets to its `yield`. -/
theorem launchRepoServersForNetns_prefix (ports : List Nat) :
    ∃ k ≤ ports.length,
      (launchRepoServersForNetns fail observe ports).1 = (List.range ports.length).map Event.received ++
        startEvents (((List.range ports.length).zip ports).take k) ++
          (if (launchRepoServersForNetns fail observe ports).2 = .polling then []
          else (if k < ports.length ∧ fail = some (.spawn k) then [.closed k] else []) ++
            unwind (List.range k).reverse) ∧
      (ReachesYield fail observe ports.length →
        k = ports.length ∧ (launchRepoServersForNetns fail observe ports).2 ≠ .polling) := by
  obtain ⟨k, bounded, events⟩ := launchRepoServersForNetns_events fail observe ports
  refine ⟨k, bounded, events, fun reaches => ?_⟩
  have run := launchRepoServersForNetns_of_reachesYield fail observe ports reaches
  have started : ((List.range ports.length).zip ports).take k = (List.range ports.length).zip ports := by
    simpa [run] using (congrArg servers events).symm
  rw [List.take_eq_self_iff] at started
  refine ⟨by simp at started; omega, ?_⟩
  rw [run]
  split <;> simp

/-- Over any order of the set of ports and at every failure point, the run
receives every descriptor and starts servers on the first `k` sockets, on
distinct ports of the file; unless a wait still polls, it then closes socket
`k` when its spawn failed, and kills, reaps and closes each started server,
most recent first. A run that gets to its `yield` starts one server per port. -/
theorem launchRepoServersForNetns_servers (file ports : List Nat) (order : SetOrder file ports) :
    ∃ k ≤ ports.length,
      servers (launchRepoServersForNetns fail observe ports).1 = ((List.range ports.length).zip ports).take k ∧
      ((servers (launchRepoServersForNetns fail observe ports).1).map Prod.snd).Nodup ∧
      (∀ server ∈ servers (launchRepoServersForNetns fail observe ports).1, server.2 ∈ file) ∧
      (launchRepoServersForNetns fail observe ports).1 = (List.range ports.length).map Event.received ++
        (((List.range ports.length).zip ports).take k).map (fun server => Event.started server.1 server.2) ++
          (if (launchRepoServersForNetns fail observe ports).2 = .polling then []
          else (if k < ports.length ∧ fail = some (.spawn k) then [.closed k] else []) ++
            (List.range k).reverse.flatMap fun sock => [.killed sock, .reaped sock, .closed sock]) ∧
      (ReachesYield fail observe ports.length →
        (servers (launchRepoServersForNetns fail observe ports).1).map Prod.snd = ports ∧
          (launchRepoServersForNetns fail observe ports).2 ≠ .polling) := by
  obtain ⟨k, bounded, events, reaches⟩ := launchRepoServersForNetns_prefix fail observe ports
  have started : servers (launchRepoServersForNetns fail observe ports).1 =
      ((List.range ports.length).zip ports).take k := by
    rw [events]; simp
  have ported : (((List.range ports.length).zip ports).take k).map Prod.snd = ports.take k := by
    rw [List.map_take, List.map_snd_zip _ _ (by simp)]
  refine ⟨k, bounded, started, ?distinct, ?listed, events, fun reach => ?all⟩
  case distinct => rw [started, ported]; exact order.1.sublist (List.take_sublist _ _)
  case listed =>
    intro server member
    rw [started] at member
    have port := List.mem_map_of_mem Prod.snd member
    rw [ported] at port
    exact order.2.1 _ (List.mem_of_mem_take port)
  case all =>
    obtain ⟨rfl, running⟩ := reaches reach
    exact ⟨by rw [started, ported, List.take_length], running⟩

theorem launchRepoServersForNetns_servers_two :
    SetOrder [8080, 80, 8080] [80, 8080] ∧
      ∃ k ≤ 2,
        servers (launchRepoServersForNetns none (fun _ => [.running 1]) [80, 8080]).1 =
          ((List.range 2).zip [80, 8080]).take k ∧
        ((servers (launchRepoServersForNetns none (fun _ => [.running 1]) [80, 8080]).1).map Prod.snd).Nodup ∧
        (∀ server ∈ servers (launchRepoServersForNetns none (fun _ => [.running 1]) [80, 8080]).1,
          server.2 ∈ [8080, 80, 8080]) ∧
        (launchRepoServersForNetns none (fun _ => [.running 1]) [80, 8080]).1 = (List.range 2).map Event.received ++
          (((List.range 2).zip [80, 8080]).take k).map (fun server => Event.started server.1 server.2) ++
            (if (launchRepoServersForNetns none (fun _ => [.running 1]) [80, 8080]).2 = .polling then []
            else (if k < 2 ∧ (none : Option FailurePoint) = some (.spawn k) then [.closed k] else []) ++
              (List.range k).reverse.flatMap fun sock => [.killed sock, .reaped sock, .closed sock]) ∧
        (ReachesYield none (fun _ => [.running 1]) 2 →
          (servers (launchRepoServersForNetns none (fun _ => [.running 1]) [80, 8080]).1).map Prod.snd =
              [80, 8080] ∧
            (launchRepoServersForNetns none (fun _ => [.running 1]) [80, 8080]).2 ≠ .polling) :=
  ⟨by decide, launchRepoServersForNetns_servers none (fun _ => [.running 1]) [8080, 80, 8080] [80, 8080] (by decide)⟩

/-- A failing bind leaks every descriptor: none of them was handed to a
server context, and nothing else closes them. -/
theorem launchRepoServersForNetns_bind_leak (observe : Nat → List Observation) :
    launchRepoServersForNetns (some (.bind 0)) observe [80, 8080] = ([.received 0, .received 1], .raised) ∧
      receives (launchRepoServersForNetns (some (.bind 0)) observe [80, 8080]).1 = [0, 1] ∧
      closes (launchRepoServersForNetns (some (.bind 0)) observe [80, 8080]).1 = [] :=
  ⟨rfl, rfl, rfl⟩

/-- A server that exits at once is reported ready: the run reaches the
caller's body and returns. -/
theorem launchRepoServersForNetns_exited_ready :
    launchRepoServersForNetns none (fun _ => [.exited]) [80] =
      ([.received 0, .started 0 80, .killed 0, .reaped 0, .closed 0], .returned) := by
  decide

end Run

end FsImage.NspawnInSubvol
