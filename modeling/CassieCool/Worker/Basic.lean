import CassieCool.Port

/-!
# Worker — a `ScriptWorkerThread` with its listener loop and spawned tasks

A worker is the object `ScriptWorkerThread` of `worker_util.rs` together with what runs
beside it:

* the listener task spawned by `ScriptWorkerThread::new`, which binds `127.0.0.1:port` and then
  loops over `select!` between `tcp_listener.accept()` and `server_rx.recv()`, with its flag
  `ok` (`true`: answer new connections with the rejection bytes);
* the control channel `bounded::<ServerStatus>(1)`, whose one slot is `slot`, and a send of
  the caller that found it full (`caller`);
* the tasks spawned by `stop_runtime` and `stop_watch_runtime`, each sending one cancellation
  and then, perhaps, `Wait`;
* the script-runtime threads spawned by `start_runtime` and `start_watch_runtime`, numbered in
  spawn order, and the cancellation messages sent to them.

Every method call, every step of a spawned task and every step of the listener loop is an
`Event`; `Worker.step` executes one, and `none` means the event cannot happen in that state.
Any event that can happen may come next: the steps are those of every schedule, whichever actix
thread runs the listener and the tasks.  Which of them a parked thread rules out is the business
of `Gateway.Threaded`.
-/

namespace CassieCool

/-- `ScriptWorkerId(pub String)`: the key of `WORKER_TABLE` and `PORT_TABLE`. -/
structure ScriptWorkerId where
  name : String
  deriving DecidableEq, Repr

/-- `Project { name, path }`: the tenant's name and the script the runtimes run. -/
structure Project where
  name : String
  path : String
  deriving DecidableEq, Repr

/-- `ServerStatus`, the messages of a worker's control channel. -/
inductive ServerStatus
  | start
  | wait
  | exit
  deriving DecidableEq, Repr

/-- A script-runtime thread: the script it runs, whether it was started with the inspector
(`flags.inspect = 127.0.0.1:9229`) and whether it is a development runtime (`run_with_watch`). -/
structure Runtime where
  path : String
  inspect : Bool
  watch : Bool
  deriving DecidableEq, Repr

/-- `Terminate { notify_serder }`: the sender of the capacity-1 channel of one production
runtime, named by the runtime's number. -/
structure Terminate where
  runtime : Nat
  deriving DecidableEq, Repr

/-- Where the listener task is: awaiting `TcpListener::bind`, inside its loop, out of the loop
after `Exit`, or dead after `bind(..).await.unwrap()` panicked. -/
inductive ListenerPhase
  | binding
  | serving
  | exited
  | crashed
  deriving DecidableEq, Repr

/-- A task spawned by `stop_runtime` or `stop_watch_runtime` that has not finished: the runtime
it has still to cancel, and whether it has still to send `Wait`. -/
structure StopTask where
  cancel : Option Nat
  wait : Bool
  deriving DecidableEq, Repr

/-- The fields of a `ScriptWorkerThread` other than its channels. `workerHandlers` lists the
`Vec<Terminate>` top first: `push` is `cons` and `pop` takes the head. -/
structure ScriptWorkerThread where
  id : ScriptWorkerId
  project : Project
  port : WorkerPort
  openDebugServer : Bool
  workerHandlers : List Terminate
  watchTx : Option Nat
  deriving DecidableEq, Repr

/-- A `ScriptWorkerThread` and the world around it: whether the object has been dropped, its
control channel's slot and a blocked send of its caller, the spawned tasks, the listener task
and its flag `ok`, the connections it forwarded or rejected, the runtime threads spawned and
the runtimes a cancellation was sent to. -/
structure Worker where
  thread : ScriptWorkerThread
  dropped : Bool
  slot : Option ServerStatus
  caller : Option ServerStatus
  tasks : List StopTask
  listener : ListenerPhase
  ok : Bool
  stream : List Nat
  rejected : List Nat
  runtimes : List Runtime
  signalled : List Nat
  deriving DecidableEq, Repr

namespace Worker

/-- The worker `ScriptWorkerThread::new` builds for `project` on `port`, its listener task
spawned and not yet bound. -/
def init (project : Project) (port : WorkerPort) : Worker where
  thread :=
    { id := ⟨project.name⟩
      project := project
      port := port
      openDebugServer := false
      workerHandlers := []
      watchTx := none }
  dropped := false
  slot := none
  caller := none
  tasks := []
  listener := .binding
  ok := false
  stream := []
  rejected := []
  runtimes := []
  signalled := []

/-- `server_rx` is gone: the listener task crashed or left its loop. -/
def closed (w : Worker) : Bool :=
  match w.listener with
  | .exited | .crashed => true
  | .binding | .serving => false

/-- A send of `m` on a capacity-1 channel: it takes the free slot, fails at once on a closed
channel, and otherwise waits as the caller's pending message. -/
def sendOn (closed : Bool) (slot caller : Option ServerStatus) (m : ServerStatus) :
    Option ServerStatus × Option ServerStatus :=
  if closed then (slot, caller)
  else
    match slot with
    | none => (some m, caller)
    | some _ => (slot, some m)

/-- The caller's `server_tx.send(m).await` or `server_tx.send_blocking(m)`. -/
def send (m : ServerStatus) (w : Worker) : Worker :=
  { w with
    slot := (sendOn w.closed w.slot w.caller m).1
    caller := (sendOn w.closed w.slot w.caller m).2 }

/-! ## The methods of `ScriptWorkerThread` -/

/-- `start_watch_runtime`: spawn a development runtime, store its watch sender (over any
previous one) and send `Start`. -/
def startWatchRuntime (w : Worker) : Worker :=
  send .start
    { w with
      runtimes := w.runtimes ++ [⟨w.thread.project.path, false, true⟩]
      thread.watchTx := some w.runtimes.length }

/-- `stop_watch_runtime`: take the watch sender and spawn a task that, if there was one, sends
`true` on it and then `Wait`. -/
def stopWatchRuntime (w : Worker) : Worker :=
  { w with
    thread.watchTx := none
    tasks := w.tasks ++ [⟨w.thread.watchTx, w.thread.watchTx.isSome⟩] }

/-- `start_runtime`: spawn a production runtime (with the inspector when `open_debug_server`),
push its `Terminate`, and send `Start` if no handle was there before. -/
def startRuntime (w : Worker) : Worker :=
  let size := w.thread.workerHandlers.length
  let w' :=
    { w with
      runtimes := w.runtimes ++ [⟨w.thread.project.path, w.thread.openDebugServer, false⟩]
      thread.workerHandlers := ⟨w.runtimes.length⟩ :: w.thread.workerHandlers }
  if size = 0 then send .start w' else w'

/-- `start_debugger_runtime`: only with no production handle, set `open_debug_server` and
`start_runtime`. -/
def startDebuggerRuntime (w : Worker) : Worker :=
  if w.thread.workerHandlers.length = 0 then startRuntime { w with thread.openDebugServer := true }
  else w

/-- `stop_runtime`: pop the top handle and spawn a task that cancels its runtime and sends
`Wait` if no handle is left; `false` when there was none. -/
def stopRuntime (w : Worker) : Bool × Worker :=
  match w.thread.workerHandlers with
  | [] => (false, w)
  | hand :: rest =>
      (true,
        { w with
          thread.workerHandlers := rest
          tasks := w.tasks ++ [⟨some hand.runtime, rest.length == 0⟩] })

/-- `loop { if !self.stop_runtime() { break; } }`, for at most `fuel` passes. -/
def stopAllLoop : Nat → Worker → Worker
  | 0, w => w
  | fuel + 1, w =>
      match stopRuntime w with
      | (true, w') => stopAllLoop fuel w'
      | (false, w') => w'

/-- `stop_all_runtime`: `stop_watch_runtime`, then `stop_runtime` until it returns `false`
(one pass per handle and a last one). -/
def stopAllRuntime (w : Worker) : Worker :=
  let w := stopWatchRuntime w
  stopAllLoop (w.thread.workerHandlers.length + 1) w

/-- `Drop for ScriptWorkerThread` after its `PORT_TABLE` removal: `stop_all_runtime`, then
`send_blocking(Exit)`; the object is gone afterwards. -/
def drop (w : Worker) : Worker :=
  send .exit { stopAllRuntime w with dropped := true }

/-- The method calls. -/
inductive Op
  | startWatchRuntime
  | stopWatchRuntime
  | startRuntime
  | startDebuggerRuntime
  | stopRuntime
  | stopAllRuntime
  | drop
  deriving DecidableEq, Repr

/-- The effect of a method call. -/
def Op.apply : Op → Worker → Worker
  | .startWatchRuntime => Worker.startWatchRuntime
  | .stopWatchRuntime => Worker.stopWatchRuntime
  | .startRuntime => Worker.startRuntime
  | .startDebuggerRuntime => Worker.startDebuggerRuntime
  | .stopRuntime => fun w => (Worker.stopRuntime w).2
  | .stopAllRuntime => Worker.stopAllRuntime
  | .drop => Worker.drop

/-! ## Spawned tasks and the listener loop -/

/-- The caller's blocked send completes: into the freed slot, or failing on a closed channel. -/
def flush (w : Worker) : Option Worker :=
  match w.caller with
  | none => none
  | some m =>
      if w.closed then some { w with caller := none }
      else
        match w.slot with
        | none => some { w with slot := some m, caller := none }
        | some _ => none

/-- The next step of the spawned task `t`: send its cancellation (`1` on a terminate channel,
`true` on a watch channel; never blocked, each such channel gets one message), then `Wait`.
Spawned tasks run independently, so they form a pool and a step picks one by its contents. -/
def runTask (w : Worker) : StopTask → Option Worker
  | ⟨some r, wait⟩ =>
      some { w with
        signalled := w.signalled ++ [r]
        tasks := w.tasks.erase ⟨some r, wait⟩ ++ if wait then [⟨none, true⟩] else [] }
  | ⟨none, true⟩ =>
      if w.closed then some { w with tasks := w.tasks.erase ⟨none, true⟩ }
      else
        match w.slot with
        | none => some { w with slot := some .wait, tasks := w.tasks.erase ⟨none, true⟩ }
        | some _ => none
  | ⟨none, false⟩ => some { w with tasks := w.tasks.erase ⟨none, false⟩ }

/-- `TcpListener::bind(addr).await.unwrap()` completes, or panics and kills the task. -/
def bindListener (ok : Bool) (w : Worker) : Option Worker :=
  match w.listener with
  | .binding => some { w with listener := if ok then .serving else .crashed }
  | _ => none

/-- The `accept()` branch of the loop: with `ok` the connection gets the rejection bytes and is
dropped, otherwise it is sent to `stream_tx`. -/
def accept (conn : Nat) (w : Worker) : Option Worker :=
  match w.listener with
  | .serving =>
      some (if w.ok then { w with rejected := w.rejected ++ [conn] }
        else { w with stream := w.stream ++ [conn] })
  | _ => none

/-- The `server_rx.recv()` branch of the loop. -/
def recv (w : Worker) : Option Worker :=
  match w.listener, w.slot with
  | .serving, some .start => some { w with slot := none, ok := false }
  | .serving, some .wait => some { w with slot := none, ok := true }
  | .serving, some .exit => some { w with slot := none, listener := .exited }
  | _, _ => none

/-- The object exists and no call on it is suspended, so a method can be called. -/
def idle (w : Worker) : Bool := w.caller.isNone && !w.dropped

/-- One event of a worker. -/
inductive Event
  | op (o : Op)
  | flush
  | task (t : StopTask)
  | bind (ok : Bool)
  | accept (conn : Nat)
  | recv
  deriving DecidableEq, Repr

/-- Execute one event; `none` when it cannot happen. -/
def step (w : Worker) : Event → Option Worker
  | .op o => if w.idle then some (o.apply w) else none
  | .flush => w.flush
  | .task t => if t ∈ w.tasks then w.runTask t else none
  | .bind ok => w.bindListener ok
  | .accept conn => w.accept conn
  | .recv => w.recv

/-- Execute a list of events in order. -/
def run (w : Worker) : List Event → Option Worker
  | [] => some w
  | e :: es => (w.step e).bind (run · es)

/-! ## What the methods change -/

section Effects

variable {w : Worker} {m : ServerStatus}

@[simp] theorem send_thread : (send m w).thread = w.thread := rfl
@[simp] theorem send_runtimes : (send m w).runtimes = w.runtimes := rfl
@[simp] theorem send_tasks : (send m w).tasks = w.tasks := rfl
@[simp] theorem send_signalled : (send m w).signalled = w.signalled := rfl
@[simp] theorem send_dropped : (send m w).dropped = w.dropped := rfl
@[simp] theorem send_ok : (send m w).ok = w.ok := rfl
@[simp] theorem send_closed : (send m w).closed = w.closed := rfl

/-- A send fails on a closed channel, fills the free slot, or makes the caller wait. -/
theorem send_cases (m : ServerStatus) (w : Worker) :
    (w.closed = true ∧ send m w = w) ∨
      (w.closed = false ∧ w.slot = none ∧ send m w = { w with slot := some m }) ∨
      (w.closed = false ∧ w.slot.isSome ∧ send m w = { w with caller := some m }) := by
  by_cases hcl : w.closed = true
  · simp [send, sendOn, hcl]
  · cases hs : w.slot <;> simp [send, sendOn, hcl, hs]

/-- A send by an idle caller leaves it idle or waiting with its own message. -/
theorem send_caller_of_none {v : Worker} (h : v.caller = none) :
    (send m v).caller = none ∨ (send m v).caller = some m := by
  rcases send_cases m v with ⟨-, he⟩ | ⟨-, -, he⟩ | ⟨-, -, he⟩ <;> simp [he, h]

@[simp] theorem startWatchRuntime_thread :
    (startWatchRuntime w).thread = { w.thread with watchTx := some w.runtimes.length } := rfl
@[simp] theorem startWatchRuntime_runtimes :
    (startWatchRuntime w).runtimes = w.runtimes ++ [⟨w.thread.project.path, false, true⟩] := rfl
@[simp] theorem startWatchRuntime_tasks : (startWatchRuntime w).tasks = w.tasks := rfl
@[simp] theorem startWatchRuntime_signalled :
    (startWatchRuntime w).signalled = w.signalled := rfl
@[simp] theorem startWatchRuntime_dropped : (startWatchRuntime w).dropped = w.dropped := rfl

@[simp] theorem startRuntime_thread :
    (startRuntime w).thread =
      { w.thread with workerHandlers := ⟨w.runtimes.length⟩ :: w.thread.workerHandlers } := by
  simp only [startRuntime]; split <;> rfl
@[simp] theorem startRuntime_runtimes :
    (startRuntime w).runtimes =
      w.runtimes ++ [⟨w.thread.project.path, w.thread.openDebugServer, false⟩] := by
  simp only [startRuntime]; split <;> rfl
@[simp] theorem startRuntime_tasks : (startRuntime w).tasks = w.tasks := by
  simp only [startRuntime]; split <;> rfl
@[simp] theorem startRuntime_signalled : (startRuntime w).signalled = w.signalled := by
  simp only [startRuntime]; split <;> rfl
@[simp] theorem startRuntime_dropped : (startRuntime w).dropped = w.dropped := by
  simp only [startRuntime]; split <;> rfl

theorem stopRuntime_of_nil (h : w.thread.workerHandlers = []) : stopRuntime w = (false, w) := by
  simp [stopRuntime, h]

theorem stopRuntime_of_cons {hand : Terminate} {rest : List Terminate}
    (h : w.thread.workerHandlers = hand :: rest) :
    stopRuntime w = (true,
      { w with
        thread.workerHandlers := rest
        tasks := w.tasks ++ [⟨some hand.runtime, rest.length == 0⟩] }) := by
  simp only [stopRuntime, h]

/-- What every `stop_runtime` keeps, the loop of `stop_all_runtime` keeps. -/
theorem stopAllLoop_induct (P : Worker → Prop) (hP : ∀ w, P w → P (stopRuntime w).2) :
    ∀ (fuel : Nat) (w : Worker), P w → P (stopAllLoop fuel w)
  | 0, _, h => h
  | fuel + 1, w, h => by
      have := hP w h
      rcases hs : stopRuntime w with ⟨_ | _, w'⟩ <;> rw [hs] at this <;>
        simp only [stopAllLoop, hs]
      · exact this
      · exact stopAllLoop_induct P hP fuel w' this

/-- One pass per handle and a last one leave no handle. -/
theorem stopAllLoop_workerHandlers :
    ∀ (fuel : Nat) (w : Worker), w.thread.workerHandlers.length < fuel →
      (stopAllLoop fuel w).thread.workerHandlers = []
  | 0, _, h => absurd h (Nat.not_lt_zero _)
  | fuel + 1, w, h => by
      rcases hh : w.thread.workerHandlers with _ | ⟨hand, rest⟩
      · simp [stopAllLoop, stopRuntime_of_nil hh, hh]
      · simp only [stopAllLoop, stopRuntime_of_cons hh]
        exact stopAllLoop_workerHandlers fuel _ (by simp_all)

theorem stopAllRuntime_workerHandlers (w : Worker) :
    (stopAllRuntime w).thread.workerHandlers = [] :=
  stopAllLoop_workerHandlers _ _ (Nat.lt_succ_self _)

theorem stopAllRuntime_watchTx (w : Worker) : (stopAllRuntime w).thread.watchTx = none :=
  stopAllLoop_induct (fun v => v.thread.watchTx = none)
    (fun v hv => by unfold stopRuntime; split <;> exact hv) _ _ rfl

/-- `stop_all_runtime` leaves no handle and no watch sender and otherwise adds to the task pool
only. -/
theorem stopAllRuntime_eq (w : Worker) : ∃ ts, stopAllRuntime w =
    { w with thread.workerHandlers := [], thread.watchTx := none, tasks := ts } := by
  obtain ⟨hs, ts, h⟩ := stopAllLoop_induct
    (fun v => ∃ hs ts, v = { w with thread.workerHandlers := hs, thread.watchTx := none, tasks := ts })
    (fun v ⟨hs, ts, hv⟩ => by
      subst hv; unfold stopRuntime; split
      · exact ⟨hs, ts, rfl⟩
      · exact ⟨_, _, rfl⟩)
    _ (stopWatchRuntime w) ⟨_, _, rfl⟩
  have hnil := stopAllRuntime_workerHandlers w
  unfold stopAllRuntime at hnil ⊢
  rw [h] at hnil ⊢
  exact ⟨ts, by cases hnil; rfl⟩

/-- No method call changes the worker's identity or its port. -/
theorem Op.apply_identity (o : Op) (w : Worker) :
    (o.apply w).thread.id = w.thread.id ∧ (o.apply w).thread.port = w.thread.port := by
  obtain ⟨ts, hs⟩ := stopAllRuntime_eq w
  cases o with
  | startDebuggerRuntime => simp only [Op.apply, Worker.startDebuggerRuntime]; split <;> simp
  | stopRuntime => simp only [Op.apply, Worker.stopRuntime]; split <;> simp
  | stopAllRuntime => simp [Op.apply, hs]
  | drop => simp [Op.apply, Worker.drop, hs]
  | _ => simp [Op.apply, Worker.stopWatchRuntime]

end Effects

/-! ## Frame -/

/-- Only a method call changes the object and the runtimes spawned; the spawned tasks and the
listener loop work on the channels alone, and only a task step touches the task pool and the
cancellations sent. -/
theorem step_frame {w w' : Worker} {e : Event} (he : ∀ o, e ≠ .op o)
    (hs : w.step e = some w') :
    w'.thread = w.thread ∧ w'.runtimes = w.runtimes ∧ w'.dropped = w.dropped ∧
      ((∀ t, e ≠ .task t) → w'.tasks = w.tasks ∧ w'.signalled = w.signalled) := by
  cases e with
  | op o => exact absurd rfl (he o)
  | flush =>
      simp only [step, flush] at hs
      split at hs
      · cases hs
      · split at hs
        · cases hs; exact ⟨rfl, rfl, rfl, fun _ => ⟨rfl, rfl⟩⟩
        · split at hs <;> cases hs; exact ⟨rfl, rfl, rfl, fun _ => ⟨rfl, rfl⟩⟩
  | task t =>
      simp only [step] at hs
      split at hs
      · rcases t with ⟨_ | r, _ | _⟩ <;> simp only [runTask] at hs <;>
          (try split at hs) <;> (try split at hs) <;> cases hs <;>
          exact ⟨rfl, rfl, rfl, fun h => absurd rfl (h _)⟩
      · cases hs
  | bind ok =>
      simp only [step, bindListener] at hs
      split at hs <;> cases hs; exact ⟨rfl, rfl, rfl, fun _ => ⟨rfl, rfl⟩⟩
  | accept conn =>
      simp only [step, accept] at hs
      split at hs
      · cases hs; split <;> exact ⟨rfl, rfl, rfl, fun _ => ⟨rfl, rfl⟩⟩
      · cases hs
  | recv =>
      simp only [step, recv] at hs
      split at hs <;> cases hs <;> exact ⟨rfl, rfl, rfl, fun _ => ⟨rfl, rfl⟩⟩

/-- The states a worker reaches from `init` through steps that `allow` allows. -/
inductive Reach (allow : Worker → Event → Prop) : Worker → Prop
  | new (project : Project) (port : WorkerPort) : Reach allow (init project port)
  | step {w w' : Worker} {e : Event} :
      Reach allow w → allow w e → w.step e = some w' → Reach allow w'

/-- The states a worker reaches under any sequence of calls and any schedule. -/
def Reachable (w : Worker) : Prop := Reach (fun _ _ => True) w

/-- A call of `start_watch_runtime` is made only when there is no watch sender. -/
def WatchGuarded (w : Worker) (e : Event) : Prop :=
  e = .op .startWatchRuntime → w.thread.watchTx = none

theorem Reach.mono {allow allow' : Worker → Event → Prop} (hle : ∀ w e, allow w e → allow' w e)
    {w : Worker} (h : Reach allow w) : Reach allow' w := by
  induction h with
  | new project port => exact .new project port
  | step _ ha hs ih => exact .step ih (hle _ _ ha) hs

/-- A run of events that `allow` admits in every state stays among the states `allow`
reaches. -/
theorem Reach.run {allow : Worker → Event → Prop} {w w' : Worker} (h : Reach allow w)
    (es : List Event) (hall : ∀ e ∈ es, ∀ v, allow v e) (hrun : w.run es = some w') :
    Reach allow w' := by
  induction es generalizing w with
  | nil => cases hrun; exact h
  | cons e es ih =>
      cases hs : w.step e with
      | none => simp [Worker.run, hs] at hrun
      | some w₁ =>
          simp only [Worker.run, hs, Option.bind_some] at hrun
          exact ih (Reach.step h (hall e (.head _) w) hs) (fun e' he' => hall e' (.tail _ he'))
            hrun

theorem Reachable.run {w w' : Worker} (h : Reachable w) (es : List Event)
    (hrun : w.run es = some w') : Reachable w' :=
  Reach.run h es (fun _ _ _ => trivial) hrun

end Worker

end CassieCool
