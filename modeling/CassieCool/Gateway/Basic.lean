import CassieCool.Worker.Basic
import Mathlib.Data.List.AList

/-!
# Gateway — the control API over `WORKER_TABLE`, `PORT_TABLE` and `WORKER_PORT`

The process-wide state of `worker_util.rs`:

* `WORKER_PORT`, the cursor of the port allocator, behind a `Mutex`;
* `WORKER_TABLE`, the workers by tenant, behind a `Mutex`;
* `PORT_TABLE`, the ports by tenant, behind an `RwLock`, read by the proxy;

and the handlers of `runtime_controller.rs` that `api_routers` routes.  Every handler begins
with `WORKER_TABLE.lock().unwrap()` and holds the guard until it returns, across its awaits, so
handler calls do not interleave: a call is one event, and it can begin only when no earlier
call still waits on a worker's control channel (`idle`).  A call whose `get_next_port` loops
stays pending, holding the guard: a later event of the same call tests the port again, and
every other call waits.  A panic while a guard is held poisons that mutex, and every later
`lock().unwrap()` on it panics.

The steps here are those of every schedule: which actix thread runs a handler, a listener or a
task, and which threads a blocked call parks, is the business of `Gateway.Threaded`.

The workers `exit` removed and dropped stay in `retired`, since their spawned tasks and
listener loops still run.  The ghost field `assigned` records every port `get_next_port`
returned, with its tenant, in order.
-/

namespace CassieCool

/-- The control requests `api_routers` routes: `/{product_code}/start`, `start_debugger`,
`stop`, `exit` and `info`, and `/pro/{product_code}/start` and `stop`. -/
inductive Request
  | start
  | startDebugger
  | stop
  | exit
  | info
  | proStart
  | proStop
  deriving DecidableEq, Repr

/-- The methods of `ScriptWorkerThread` each handler calls on the tenant's worker (`exit` drops
it instead). -/
def Request.methods : Request → List Worker.Op
  | .start => [.startWatchRuntime]
  | .startDebugger => [.startDebuggerRuntime]
  | .stop => [.stopWatchRuntime]
  | .proStart => [.startRuntime]
  | .proStop => [.stopRuntime]
  | .exit | .info => []

theorem Request.drop_not_mem (req : Request) : Worker.Op.drop ∉ req.methods := by
  cases req <;> decide

/-- The `data` of a handler's `Res { code: 0, data }`: a text, or the `WorkerInfo` of
`get_runtime_info`. -/
inductive Reply
  | text (data : String)
  | info (count : Nat) (code description : String)
  deriving DecidableEq, Repr

/-- How a call's event ends: with its reply, with a panic of the handler (an `unwrap` on a
poisoned mutex, or on `WorkerPort::next` at 65535), or not yet (it loops in `get_next_port`, or
waits for the guard of a call that does). -/
inductive Outcome
  | reply (r : Reply)
  | panic
  | hang
  deriving DecidableEq, Repr

/-- The process-wide state. -/
structure Gateway where
  /-- The value of `WORKER_PORT`. -/
  workerPort : WorkerPort
  /-- `WORKER_PORT`'s mutex is poisoned. -/
  portPoisoned : Bool
  /-- `WORKER_TABLE`'s mutex is poisoned. -/
  tablePoisoned : Bool
  /-- The call that loops in `get_next_port`, holding both guards: its request and tenant. -/
  spinning : Option (Request × String)
  workerTable : AList (fun _ : ScriptWorkerId => Worker)
  portTable : AList (fun _ : ScriptWorkerId => WorkerPort)
  /-- The workers `exit` dropped; their spawned tasks and listener loops still run. -/
  retired : List Worker
  /-- Every port `get_next_port` returned, with its tenant, in order. -/
  assigned : List (ScriptWorkerId × WorkerPort)

namespace Gateway

variable {g g' : Gateway}

/-- The state at start-up: `WorkerPort(3000)` and empty tables. -/
def init : Gateway where
  workerPort := ⟨3000, by decide⟩
  portPoisoned := false
  tablePoisoned := false
  spinning := none
  workerTable := ∅
  portTable := ∅
  retired := []
  assigned := []

/-- A handler panicked: the mutex of `WORKER_TABLE`, whose guard every handler holds, is
poisoned, and that of `WORKER_PORT` when its guard was held too. -/
def poison (port : Bool) (g : Gateway) : Gateway :=
  { g with tablePoisoned := true, portPoisoned := g.portPoisoned || port }

/-- The script of a tenant's runtimes: `format!("code/{}/app.ts", product_code)`. -/
def scriptPath (code : String) : String := "code/" ++ code ++ "/app.ts"

/-! ## The handlers -/

/-- `get_next_port(project)`: lock `WORKER_PORT`, probe from the cursor, then set the cursor
and `PORT_TABLE[project.name]` to the port found.  One pass decides the loop under one
availability (`probeFrom_succ`), so `probeFrom` with one pass is the loop run while nothing
changes; a loop that has not exited changes nothing yet. -/
def getNextPort (isFree : Nat → Bool) (project : Project) (g : Gateway) :
    Except (Outcome × Gateway) (WorkerPort × Gateway) :=
  if g.portPoisoned then .error (.panic, g.poison false)
  else
    match probeFrom isFree g.workerPort 1 with
    | .unwrapNone => .error (.panic, g.poison true)
    | .looping => .error (.hang, g)
    | .found p =>
        .ok (p, { g with
          workerPort := p
          portTable := g.portTable.insert ⟨project.name⟩ p
          assigned := g.assigned ++ [(⟨project.name⟩, p)] })

/-- The handlers that look the tenant's worker up and create it when there is none
(`ScriptWorkerThread::new`, which runs `get_next_port`, then `script_table.insert(worker.id,
worker)`): `onFound` is the method called on a worker found, if any, and `onNew` the one called
on a new worker.  They reply `成功启动`. -/
def startWith (onFound : Worker → Option Worker.Op) (onNew : Worker.Op) (isFree : Nat → Bool)
    (code : String) (g : Gateway) : Outcome × Gateway :=
  match g.workerTable.lookup ⟨code⟩ with
  | some w =>
      (.reply (.text "成功启动"),
        match onFound w with
        | some o => { g with workerTable := g.workerTable.insert ⟨code⟩ (o.apply w) }
        | none => g)
  | none =>
      let project : Project := ⟨code, scriptPath code⟩
      match getNextPort isFree project g with
      | .error r => r
      | .ok (p, g') =>
          let w := onNew.apply (Worker.init project p)
          (.reply (.text "成功启动"), { g' with workerTable := g'.workerTable.insert w.thread.id w })

/-- `start_runtime` (`/{product_code}/start`): development mode, started on a worker found
only if it has no watch sender. -/
def startRuntime : (Nat → Bool) → String → Gateway → Outcome × Gateway :=
  startWith (fun w => if w.thread.watchTx.isNone then some .startWatchRuntime else none)
    .startWatchRuntime

/-- `start_debugger_runtime` (`/{product_code}/start_debugger`). -/
def startDebuggerRuntime : (Nat → Bool) → String → Gateway → Outcome × Gateway :=
  startWith (fun _ => some .startDebuggerRuntime) .startDebuggerRuntime

/-- `start_pro_runtime` (`/pro/{product_code}/start`). -/
def startProRuntime : (Nat → Bool) → String → Gateway → Outcome × Gateway :=
  startWith (fun _ => some .startRuntime) .startRuntime

/-- The handlers that call method `o` on the tenant's worker, if there is one, and reply
`停止成功`. -/
def stopWith (o : Worker.Op) (code : String) (g : Gateway) : Outcome × Gateway :=
  (.reply (.text "停止成功"),
    match g.workerTable.lookup ⟨code⟩ with
    | some w => { g with workerTable := g.workerTable.insert ⟨code⟩ (o.apply w) }
    | none => g)

/-- `stop_runtime` (`/{product_code}/stop`): `stop_watch_runtime`. -/
def stopRuntime : String → Gateway → Outcome × Gateway := stopWith .stopWatchRuntime

/-- `stop_pro_runtime` (`/pro/{product_code}/stop`): `stop_runtime` of the worker. -/
def stopProRuntime : String → Gateway → Outcome × Gateway := stopWith .stopRuntime

/-- `exit` (`/{product_code}/exit`): remove the worker from `WORKER_TABLE` and drop it; `Drop`
removes its `PORT_TABLE` entry, stops its runtimes and sends `Exit`. -/
def exit (code : String) (g : Gateway) : Outcome × Gateway :=
  match g.workerTable.lookup ⟨code⟩ with
  | some w =>
      (.reply (.text "End all processes"),
        { g with
          workerTable := g.workerTable.erase ⟨code⟩
          portTable := g.portTable.erase w.thread.id
          retired := g.retired ++ [w.drop] })
  | none => (.reply (.text "The process has ended "), g)

/-- `get_runtime_info` (`/{product_code}/info`): the number of production runtimes, or 1 for
development mode alone. -/
def getRuntimeInfo (code : String) (g : Gateway) : Outcome × Gateway :=
  match g.workerTable.lookup ⟨code⟩ with
  | none => (.reply (.info 0 code "暂无实例"), g)
  | some w =>
      let count := w.thread.workerHandlers.length
      (.reply (.info (if count = 0 ∧ w.thread.watchTx.isSome then 1 else count) code
        ("请求头上添加 product_code=" ++ code)), g)

/-- `api_routers`: the handler of each request, past its `WORKER_TABLE.lock().unwrap()`. -/
def route (isFree : Nat → Bool) : Request → String → Gateway → Outcome × Gateway
  | .start => startRuntime isFree
  | .startDebugger => startDebuggerRuntime isFree
  | .stop => stopRuntime
  | .exit => exit
  | .info => getRuntimeInfo
  | .proStart => startProRuntime isFree
  | .proStop => stopProRuntime

/-- The handler of a call that holds the guard; if its `get_next_port` loops, the call stays
pending. -/
def serve (isFree : Nat → Bool) (req : Request) (code : String) (g : Gateway) :
    Outcome × Gateway :=
  match route isFree req code g with
  | (.hang, g') => (.hang, { g' with spinning := some (req, code) })
  | r => r

/-- A handler that never loops is served as it is. -/
theorem serve_of_ne_hang {isFree : Nat → Bool} {req : Request} {code : String} {g : Gateway}
    (h : (route isFree req code g).1 ≠ .hang) : serve isFree req code g = route isFree req code g := by
  unfold serve
  rcases hr : route isFree req code g with ⟨_ | _ | _, g'⟩ <;> simp_all

@[simp] theorem serve_exit {isFree : Nat → Bool} {code : String} {g : Gateway} :
    serve isFree .exit code g = exit code g :=
  serve_of_ne_hang (by simp only [route, exit]; split <;> simp)

@[simp] theorem serve_info {isFree : Nat → Bool} {code : String} {g : Gateway} :
    serve isFree .info code g = getRuntimeInfo code g :=
  serve_of_ne_hang (by simp only [route, getRuntimeInfo]; split <;> simp)

/-- An event of the call `req` for tenant `code`, `isFree` being `port_selector::is_free`
meanwhile.  A pending call goes on looping: its `get_next_port` tests the same port again.
Any other call waits in `WORKER_TABLE.lock()` behind it; with no call pending, the handler
takes the guard, and `lock().unwrap()` panics on a poisoned mutex. -/
def call (isFree : Nat → Bool) (req : Request) (code : String) (g : Gateway) :
    Outcome × Gateway :=
  match g.spinning with
  | some pending =>
      if pending = (req, code) then serve isFree req code { g with spinning := none }
      else (.hang, g)
  | none => if g.tablePoisoned then (.panic, g) else serve isFree req code g

/-! ## Events -/

/-- No call is in progress: no worker, in the table or retired, has a send of its caller
waiting. -/
def idle (g : Gateway) : Bool :=
  g.workerTable.entries.all (fun s => s.2.caller.isNone) && g.retired.all (·.caller.isNone)

/-- A step of a worker's spawned tasks or listener loop; methods are called by handlers only. -/
def internal : Worker.Event → Bool
  | .op _ => false
  | _ => true

/-- An event: a call, or a step of the tasks or the listener loop of a worker of the table or of
a retired one. -/
inductive Event
  | call (req : Request) (code : String) (isFree : Nat → Bool)
  | worker (key : ScriptWorkerId) (e : Worker.Event)
  | retired (i : Nat) (e : Worker.Event)

/-- Execute one event; `none` when it cannot happen. -/
def step (g : Gateway) : Event → Option Gateway
  | .call req code isFree => if g.idle then some (g.call isFree req code).2 else none
  | .worker key e =>
      if internal e then
        (g.workerTable.lookup key).bind fun w =>
          (w.step e).map fun w' => { g with workerTable := g.workerTable.insert key w' }
      else none
  | .retired i e =>
      if internal e then
        g.retired[i]?.bind fun w =>
          (w.step e).map fun w' => { g with retired := g.retired.set i w' }
      else none

/-- Execute a list of events in order. -/
def run (g : Gateway) : List Event → Option Gateway
  | [] => some g
  | e :: es => (g.step e).bind (run · es)

/-- The states reachable from start-up. -/
inductive Reach : Gateway → Prop
  | init : Reach init
  | step {g g' : Gateway} {e : Event} : Reach g → g.step e = some g' → Reach g'

theorem Reach.run (h : Reach g) (es : List Event) (hrun : g.run es = some g') : Reach g' := by
  induction es generalizing g with
  | nil => cases hrun; exact h
  | cons e es ih =>
      cases hs : g.step e with
      | none => simp [Gateway.run, hs] at hrun
      | some g₁ =>
          simp only [Gateway.run, hs, Option.bind_some] at hrun
          exact ih (.step h hs) hrun

/-! ## What a step can do -/

/-- What the handler of `req` for tenant `code` can do to the gateway `g` once it holds the
guard, with no call pending. -/
inductive CallStep (g : Gateway) : Request → String → Gateway → Prop
  /-- It replies without a change. -/
  | same {req : Request} {code : String} : CallStep g req code g
  /-- It panics, poisoning the mutexes whose guards it held. -/
  | panic {req : Request} {code : String} (port : Bool) : CallStep g req code (g.poison port)
  /-- It loops in `get_next_port`, for a tenant with no worker: the call stays pending. -/
  | spin {req : Request} {code : String} :
      g.workerTable.lookup ⟨code⟩ = none →
      CallStep g req code { g with spinning := some (req, code) }
  /-- It calls one of its methods on the tenant's idle worker, `start_watch_runtime` only when
  there is no watch sender. -/
  | update {req : Request} {code : String} {w : Worker} {o : Worker.Op} :
      g.workerTable.lookup ⟨code⟩ = some w → w.caller = none → Worker.WatchGuarded w (.op o) →
      o ∈ req.methods →
      CallStep g req code { g with workerTable := g.workerTable.insert ⟨code⟩ (o.apply w) }
  /-- It creates the tenant's worker on the port after the cursor, which it takes, and calls
  one of its methods on it. -/
  | create {req : Request} {code : String} {p : WorkerPort} {o : Worker.Op} :
      g.workerTable.lookup ⟨code⟩ = none → g.workerPort.next = some p → o ∈ req.methods →
      CallStep g req code { g with
        workerPort := p
        portTable := g.portTable.insert ⟨code⟩ p
        assigned := g.assigned ++ [(⟨code⟩, p)]
        workerTable := g.workerTable.insert ⟨code⟩
          (o.apply (Worker.init ⟨code, scriptPath code⟩ p)) }
  /-- `exit` removes the tenant's idle worker from both tables and drops it. -/
  | exit {code : String} {w : Worker} :
      g.workerTable.lookup ⟨code⟩ = some w → w.caller = none →
      CallStep g .exit code { g with
        workerTable := g.workerTable.erase ⟨code⟩
        portTable := g.portTable.erase w.thread.id
        retired := g.retired ++ [w.drop] }

theorem idle_caller (hi : g.idle = true) {key : ScriptWorkerId} {w : Worker}
    (hw : g.workerTable.lookup key = some w) : w.caller = none := by
  simp only [idle, Bool.and_eq_true, List.all_eq_true, Option.isNone_iff_eq_none] at hi
  exact hi.1 ⟨key, w⟩ (AList.mem_lookup_iff.1 hw)

theorem with_spinning_none (hs : g.spinning = none) : { g with spinning := none } = g := by
  cases g; simp_all

section Handlers

variable {isFree : Nat → Bool} {req : Request} {code : String}

/-- A failed `get_next_port` panics, or loops without a change yet. -/
theorem getNextPort_error {project : Project} {r : Outcome}
    (h : getNextPort isFree project g = .error (r, g')) :
    CallStep g req code g' ∧ (r = .hang → g' = g) := by
  unfold getNextPort at h
  split at h
  · cases h; exact ⟨.panic false, fun h => by cases h⟩
  · rw [probeFrom_one] at h
    rcases hn : g.workerPort.next with _ | port
    · simp only [hn] at h; cases h; exact ⟨.panic true, fun h => by cases h⟩
    · cases hf : isFree port.port <;>
        simp only [hn, hf, Bool.false_eq_true, ↓reduceIte] at h <;> cases h
      exact ⟨.same, fun _ => rfl⟩

theorem getNextPort_ok {project : Project} {p : WorkerPort}
    (h : getNextPort isFree project g = .ok (p, g')) :
    g.workerPort.next = some p ∧ g' = { g with
      workerPort := p
      portTable := g.portTable.insert ⟨project.name⟩ p
      assigned := g.assigned ++ [(⟨project.name⟩, p)] } := by
  unfold getNextPort at h
  split at h
  · cases h
  · rw [probeFrom_one] at h
    rcases hn : g.workerPort.next with _ | port
    · simp only [hn] at h; cases h
    · cases hf : isFree port.port <;>
        simp only [hn, hf, Bool.false_eq_true, ↓reduceIte] at h <;> cases h
      exact ⟨rfl, rfl⟩

theorem startWith_step {onFound : Worker → Option Worker.Op} {onNew : Worker.Op}
    (hi : g.idle = true)
    (hf : ∀ w o, onFound w = some o → Worker.WatchGuarded w (.op o) ∧ o ∈ req.methods)
    (hn : onNew ∈ req.methods) :
    CallStep g req code (startWith onFound onNew isFree code g).2 ∧
      ((startWith onFound onNew isFree code g).1 = .hang →
        (startWith onFound onNew isFree code g).2 = g ∧ g.workerTable.lookup ⟨code⟩ = none) := by
  unfold startWith
  split
  · rename_i w hw
    refine ⟨?_, fun h => by cases h⟩
    split
    · rename_i o ho
      exact .update hw (idle_caller hi hw) (hf w o ho).1 (hf w o ho).2
    · exact .same
  · rename_i hw
    dsimp only
    rcases hg : getNextPort isFree ⟨code, scriptPath code⟩ g with ⟨r, g₁⟩ | ⟨p, g₁⟩
    · obtain ⟨hc, hh⟩ := getNextPort_error hg
      exact ⟨hc, fun h => ⟨hh h, hw⟩⟩
    · obtain ⟨hnext, rfl⟩ := getNextPort_ok hg
      have hid : (onNew.apply (Worker.init ⟨code, scriptPath code⟩ p)).thread.id = ⟨code⟩ :=
        (Worker.Op.apply_identity _ _).1
      refine ⟨?_, fun h => by cases h⟩
      dsimp only
      rw [hid]
      exact .create hw hnext hn

theorem stopWith_step {o : Worker.Op} (hi : g.idle = true) (ho : o ≠ .startWatchRuntime)
    (hm : o ∈ req.methods) : CallStep g req code (stopWith o code g).2 := by
  unfold stopWith
  split
  · rename_i w hw
    exact .update hw (idle_caller hi hw) (fun h => absurd (Worker.Event.op.inj h) ho) hm
  · exact .same

/-- Every handler does one of the things `CallStep` lists; only a `get_next_port` that loops
leaves it unfinished, with no change yet, for a tenant with no worker. -/
theorem route_step (hi : g.idle = true) (isFree : Nat → Bool) (req : Request) (code : String) :
    CallStep g req code (route isFree req code g).2 ∧
      ((route isFree req code g).1 = .hang →
        (route isFree req code g).2 = g ∧ g.workerTable.lookup ⟨code⟩ = none) := by
  have hsingle : ∀ o : Worker.Op, o ∈ [o] := fun o => List.mem_singleton_self o
  cases req with
  | start =>
      refine startWith_step hi (fun w o h => ?_) (hsingle _)
      split at h <;> cases h
      rename_i hn
      exact ⟨fun _ => Option.isNone_iff_eq_none.1 hn, hsingle _⟩
  | startDebugger =>
      exact startWith_step hi (fun _ o h => by cases h; exact ⟨fun h => (by cases h), hsingle _⟩)
        (hsingle _)
  | proStart =>
      exact startWith_step hi (fun _ o h => by cases h; exact ⟨fun h => (by cases h), hsingle _⟩)
        (hsingle _)
  | stop => exact ⟨stopWith_step hi (by decide) (hsingle _), fun h => by cases h⟩
  | proStop => exact ⟨stopWith_step hi (by decide) (hsingle _), fun h => by cases h⟩
  | info =>
      show CallStep g .info code (getRuntimeInfo code g).2 ∧
        ((getRuntimeInfo code g).1 = .hang → _)
      unfold getRuntimeInfo; split <;> exact ⟨.same, fun h => by cases h⟩
  | exit =>
      show CallStep g .exit code (Gateway.exit code g).2 ∧ ((Gateway.exit code g).1 = .hang → _)
      unfold Gateway.exit
      split
      · rename_i w hw
        exact ⟨.exit hw (idle_caller hi hw), fun h => by cases h⟩
      · exact ⟨.same, fun h => by cases h⟩

theorem serve_step (hi : g.idle = true) (isFree : Nat → Bool) (req : Request) (code : String) :
    CallStep g req code (serve isFree req code g).2 := by
  obtain ⟨hc, hh⟩ := route_step hi isFree req code
  unfold serve
  rcases hr : route isFree req code g with ⟨_ | _ | _, g'⟩ <;> rw [hr] at hc hh
  · exact hc
  · exact hc
  · obtain ⟨rfl, hn⟩ := hh rfl
    exact .spin hn

/-- A call event either waits, leaving the gateway as it is, or runs its handler from the
gateway without its pending call: a new call when none is pending, or the pending call going on
with its loop. -/
theorem call_step (hi : g.idle = true) (isFree : Nat → Bool) (req : Request) (code : String) :
    (g.call isFree req code).2 = g ∨
      CallStep { g with spinning := none } req code (g.call isFree req code).2 := by
  unfold call
  rcases hs : g.spinning with _ | pending <;> dsimp only
  · split
    · exact .inl rfl
    · rw [with_spinning_none hs]
      exact .inr (serve_step hi isFree req code)
  · split
    · exact .inr (serve_step (show ({ g with spinning := none } : Gateway).idle = true from hi)
        isFree req code)
    · exact .inl rfl

end Handlers

/-- What one event can do to the gateway. -/
inductive Step (g : Gateway) : Event → Gateway → Prop
  | wait {req : Request} {code : String} {isFree : Nat → Bool} :
      g.idle = true → Step g (.call req code isFree) g
  | call {req : Request} {code : String} {isFree : Nat → Bool} {g' : Gateway} :
      g.idle = true → CallStep { g with spinning := none } req code g' →
      Step g (.call req code isFree) g'
  | worker {key : ScriptWorkerId} {w w' : Worker} {e : Worker.Event} :
      (∀ o, e ≠ .op o) → g.workerTable.lookup key = some w → w.step e = some w' →
      Step g (.worker key e) { g with workerTable := g.workerTable.insert key w' }
  | retired {i : Nat} {w w' : Worker} {e : Worker.Event} :
      (∀ o, e ≠ .op o) → g.retired[i]? = some w → w.step e = some w' →
      Step g (.retired i e) { g with retired := g.retired.set i w' }

theorem internal_iff {e : Worker.Event} : internal e = true ↔ ∀ o, e ≠ .op o := by
  cases e <;> simp [internal]

theorem step_sound {e : Event} (hs : g.step e = some g') : Step g e g' := by
  cases e with
  | call req code isFree =>
      simp only [step] at hs
      split at hs <;> cases hs
      rcases call_step ‹_› isFree req code with h | h
      · rw [h]; exact .wait ‹_›
      · exact .call ‹_› h
  | worker key e =>
      simp only [step] at hs
      split at hs
      · rename_i he
        obtain ⟨w, hw, hs⟩ := Option.bind_eq_some.1 hs
        obtain ⟨w', hw', rfl⟩ := Option.map_eq_some'.1 hs
        exact .worker (internal_iff.1 he) hw hw'
      · cases hs
  | retired i e =>
      simp only [step] at hs
      split at hs
      · rename_i he
        obtain ⟨w, hw, hs⟩ := Option.bind_eq_some.1 hs
        obtain ⟨w', hw', rfl⟩ := Option.map_eq_some'.1 hs
        exact .retired (internal_iff.1 he) hw hw'
      · cases hs

/-- Packaged induction over reachable states: a property of the start-up state that every
possible step keeps holds of every reachable state. -/
theorem Reach.induct (P : Gateway → Prop) (h0 : P Gateway.init)
    (hstep : ∀ g e g', Reach g → P g → Step g e g' → P g') : ∀ g, Reach g → P g := by
  intro g hr
  induction hr with
  | init => exact h0
  | step hr hs ih => exact hstep _ _ _ hr ih (step_sound hs)

end Gateway
end CassieCool
