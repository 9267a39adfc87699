import CassieCool.Proxy
import CassieCool.Worker.Channel

/-!
# Threads — which actix thread runs what, and what a blocked call parks

`HttpServer` runs its handlers on a few worker threads, each driving a single-threaded runtime.
What a handler spawns runs on its thread: `tokio::spawn` in `ScriptWorkerThread::new` puts a
worker's listener loop on the thread of the call that created the worker.  A handler parks its
thread when it blocks: in `WORKER_TABLE.lock()` while another call holds the guard, in
`PORT_TABLE.write()` while a forward holds a read guard, in `Drop`'s `send_blocking(Exit)` on a
full channel, and in the loop of `get_next_port`, which never yields.  A parked thread runs nothing else: neither the tasks spawned on it, nor a new request,
nor the rest of a handler suspended on it.  An awaited `send(Start)` does not park: its thread
runs other work until the send completes.

`Threaded` is the gateway with that bookkeeping: the thread of every listener, the thread of the
call holding the guard past its event, the threads of the forwards holding a read guard, and the
threads parked.  Its steps are the gateway's
(`Gateway.step`), taken only by a free thread, and stutters that park a thread; so every
gateway invariant holds of it (`Threaded.Reach.gateway`).

The thread a stop task runs on is not recorded: a task step is allowed whatever its thread
does.  That only adds runs, and a task step never frees the control channel's slot, so what is
proved below of every run holds of the runs the threads allow.

A call waiting on a worker's full control channel is freed only by that worker's listener, on
the listener's thread: once that thread is parked — by this very `Drop`, when `exit` is served
on the listener's thread, or in `WORKER_TABLE.lock()` by another control call served there —
the send never completes and the guard is never released, and neither is it when the send is
an awaited `Start` whose own thread has been parked in `WORKER_TABLE.lock()`.  Otherwise the
send or the listener can go on.

`forward` holds the `PORT_TABLE` read guard across its upstream `send_stream(..).await`, and the
handlers that create or drop a worker take `PORT_TABLE.write()` (in `get_next_port` and in
`Drop`) with the `WORKER_TABLE` guard held.  Such a call served on a thread whose forward still
awaits its answer parks that thread behind its own read guard, which the forward, resumed only
on that thread, never gives back (`forward_blocks_port_writer`).  When the forward's answer
comes is not modelled: it is allowed whenever its thread is free.
-/

namespace CassieCool
namespace Gateway

/-- Why an actix thread is parked. -/
inductive Park
  /-- In `WORKER_TABLE.lock()`, behind the call holding the guard, to serve `req` for tenant
  `code`. -/
  | lock (req : Request) (code : String)
  /-- In `Drop`'s `send_blocking(Exit)`. -/
  | send
  /-- In the loop of `get_next_port`. -/
  | probe
  /-- In `PORT_TABLE.write()`, behind the forwards holding read guards, to serve `req` for
  tenant `code`. -/
  | write (req : Request) (code : String)
  deriving DecidableEq, Repr

/-- Where a worker of the gateway is: in `WORKER_TABLE` under its key, or retired. -/
inductive Place
  | table (key : ScriptWorkerId)
  | retired (i : Nat)
  deriving DecidableEq, Repr

/-- The gateway event of a step of the worker at a place. -/
def Place.event : Place → Worker.Event → Event
  | .table key, e => .worker key e
  | .retired i, e => .retired i e

/-- The worker at a place. -/
def workerAt (g : Gateway) : Place → Option Worker
  | .table key => g.workerTable.lookup key
  | .retired i => g.retired[i]?

section Places

variable {g g' : Gateway} {p : Place} {w : Worker} {e : Worker.Event}

/-- The gateway is idle when no worker, in the table or retired, has a send of its caller
waiting. -/
theorem idle_iff : g.idle = true ↔ ∀ p w, g.workerAt p = some w → w.caller = none := by
  simp only [idle, Bool.and_eq_true, List.all_eq_true, Option.isNone_iff_eq_none]
  constructor
  · rintro ⟨ht, hr⟩ (key | i) w hw
    · exact ht ⟨key, w⟩ (AList.mem_lookup_iff.1 hw)
    · exact hr w (List.getElem?_mem hw)
  · intro h
    refine ⟨fun s hs => h (.table s.1) s.2 (AList.mem_lookup_iff.2 hs), fun w hw => ?_⟩
    obtain ⟨i, hi⟩ := List.mem_iff_getElem?.1 hw
    exact h (.retired i) w hi

/-- While a worker's caller waits, the gateway is not idle, so no call can run. -/
theorem idle_eq_false_of_caller {m : ServerStatus} (hw : g.workerAt p = some w)
    (hc : w.caller = some m) : g.idle = false := by
  cases hi : g.idle
  · rfl
  · simp [idle_iff.1 hi p w hw] at hc

/-- A step of the worker at a place takes that worker's step and leaves every other worker as
it is. -/
theorem workerAt_step (hs : g.step (p.event e) = some g') :
    (∀ o, e ≠ .op o) ∧ ∃ w w', g.workerAt p = some w ∧ w.step e = some w' ∧
      ∀ q, g'.workerAt q = if q = p then some w' else g.workerAt q := by
  cases p with
  | table key =>
      cases step_sound hs with
      | worker he hw hw' =>
          refine ⟨he, _, _, hw, hw', fun q => ?_⟩
          cases q with
          | table key' =>
              by_cases hk : key' = key
              · subst hk; simp [workerAt]
              · simp [workerAt, hk, AList.lookup_insert_ne hk]
          | retired i => simp [workerAt]
  | retired i =>
      cases step_sound hs with
      | retired he hw hw' =>
          refine ⟨he, _, _, hw, hw', fun q => ?_⟩
          cases q with
          | table key => simp [workerAt]
          | retired j =>
              by_cases hj : j = i
              · subst hj; simp [workerAt, List.getElem?_set, (List.getElem?_eq_some_iff.1 hw).1]
              · simp [workerAt, hj, List.getElem?_set_ne (Ne.symm hj)]

/-- A worker's step keeps an idle gateway idle: only a method call sends. -/
theorem idle_step_worker (hi : g.idle = true) (hs : g.step (p.event e) = some g') :
    g'.idle = true := by
  obtain ⟨hop, w, w', hw, hs', hat⟩ := workerAt_step hs
  refine idle_iff.2 fun q v hv => ?_
  rw [hat q] at hv
  split at hv
  · cases hv; exact Worker.caller_none_step (idle_iff.1 hi p w hw) hs' hop
  · exact idle_iff.1 hi q v hv

end Places

/-- The gateway and the threads that run it. -/
structure Threaded where
  gw : Gateway
  /-- The thread each listener of a worker in `WORKER_TABLE` runs on. -/
  hosts : AList (fun _ : ScriptWorkerId => Nat)
  /-- The thread each listener of a retired worker runs on, in order. -/
  retiredHosts : List Nat
  /-- The thread of the call that holds the `WORKER_TABLE` guard past its event. -/
  holder : Option Nat
  /-- The parked threads, and why. -/
  parked : List (Nat × Park)
  /-- The threads of the forwards awaiting their upstream answer, each holding a `PORT_TABLE`
  read guard. -/
  readers : List Nat

namespace Threaded

/-- Start-up: no worker, no call, no thread parked. -/
def init : Threaded := ⟨Gateway.init, ∅, [], none, [], []⟩

/-- The thread `th` is not parked. -/
def free (t : Threaded) (th : Nat) : Bool := t.parked.all (·.1 != th)

/-- The thread of the listener of the worker at a place. -/
def hostAt (t : Threaded) : Place → Option Nat
  | .table key => t.hosts.lookup key
  | .retired i => t.retiredHosts[i]?

/-! ## Steps -/

/-- The listeners' threads after a call on `th` for tenant `code` took the gateway to `g'`: a
worker the call created has its listener on `th`, and one that `exit` removed keeps its
listener's thread among the retired. -/
def rehost (th : Nat) (code : String) (t : Threaded) (g' : Gateway) :
    AList (fun _ : ScriptWorkerId => Nat) × List Nat :=
  match t.gw.workerTable.lookup ⟨code⟩, g'.workerTable.lookup ⟨code⟩ with
  | none, some _ => (t.hosts.insert ⟨code⟩ th, t.retiredHosts)
  | some _, none => (t.hosts.erase ⟨code⟩, t.retiredHosts ++ (t.hosts.lookup ⟨code⟩).toList)
  | _, _ => (t.hosts, t.retiredHosts)

/-- The call for tenant `code` that took the gateway from `g` to `g'` took `PORT_TABLE.write()`:
`get_next_port` returned a port for a new worker, or `exit` dropped the tenant's worker. -/
def writesPorts (code : String) (g g' : Gateway) : Bool :=
  (g.workerTable.lookup ⟨code⟩).isSome != (g'.workerTable.lookup ⟨code⟩).isSome

/-- The call of `req` for `code`, served on `th` with the guard free, takes its event as
`Gateway.step` says; if it then waits on a channel or loops, it keeps the guard, and a
`send_blocking(Exit)` or the loop parks its thread.  A call that takes `PORT_TABLE.write()`
while a forward holds a read guard parks there first, with the guard. -/
def runCall (th : Nat) (req : Request) (code : String) (isFree : Nat → Bool) (t : Threaded) :
    Option Threaded :=
  (t.gw.step (.call req code isFree)).map fun g' =>
    if !t.readers.isEmpty && writesPorts code t.gw g' then
      { t with holder := some th, parked := t.parked ++ [(th, .write req code)] }
    else
      { gw := g'
        hosts := (rehost th code t g').1
        retiredHosts := (rehost th code t g').2
        holder := if g'.idle && g'.spinning.isNone then none else some th
        parked := t.parked ++
          if g'.spinning.isSome then [(th, .probe)]
          else if !g'.idle && req == .exit then [(th, .send)] else []
        readers := t.readers }

/-- After a worker's step took the gateway to `g'`: when it completed the send a call waited
on, the call that held the guard returns, and its thread, if parked in `send_blocking`, runs
again. -/
def settle (t : Threaded) (g' : Gateway) : Threaded :=
  if !t.gw.idle && g'.idle && g'.spinning.isNone then
    { t with gw := g', holder := none, parked := t.parked.filter (·.2 != .send) }
  else { t with gw := g' }

/-- A worker's own step runs on a free thread: the listener's steps on the listener's thread,
and an awaited send completing on the thread of the handler suspended in it. -/
def runs (t : Threaded) (host : Option Nat) (w : Worker) : Worker.Event → Bool
  | .bind _ | .accept _ | .recv => host.any t.free
  | .flush => w.caller != some .start || t.holder.all t.free
  | .task _ => true
  | .op _ => false

/-- The events of the threaded gateway. -/
inductive Event
  /-- A control request for tenant `code`, served on thread `th`. -/
  | call (th : Nat) (req : Request) (code : String) (isFree : Nat → Bool)
  /-- The thread `th`, parked in `WORKER_TABLE.lock()` to serve `req` for `code`, gets the
  guard. -/
  | acquire (th : Nat) (req : Request) (code : String) (isFree : Nat → Bool)
  /-- The loop of `get_next_port` tests its port again. -/
  | probe (isFree : Nat → Bool)
  /-- A step of the tasks or the listener of the worker at a place. -/
  | worker (p : Place) (e : Worker.Event)
  /-- A proxied request `req`, served by `forward` on thread `th`. -/
  | forward (th : Nat) (req : HttpRequest)
  /-- The forward suspended on thread `th` gets its upstream answer and returns. -/
  | respond (th : Nat)
  /-- The thread `th`, parked in `PORT_TABLE.write()` to serve `req` for `code`, gets the write
  guard. -/
  | write (th : Nat) (req : Request) (code : String) (isFree : Nat → Bool)

/-- Execute one event; `none` when it cannot happen. -/
def step (t : Threaded) : Event → Option Threaded
  | .call th req code isFree =>
      if t.free th then
        if t.holder.isSome then some { t with parked := t.parked ++ [(th, .lock req code)] }
        else t.runCall th req code isFree
      else none
  | .acquire th req code isFree =>
      if (th, Park.lock req code) ∈ t.parked ∧ t.holder = none then
        runCall th req code isFree { t with parked := t.parked.erase (th, .lock req code) }
      else none
  | .probe isFree =>
      match t.holder, t.gw.spinning with
      | some th, some (req, code) =>
          if (th, Park.probe) ∈ t.parked then
            runCall th req code isFree
              { t with holder := none, parked := t.parked.erase (th, .probe) }
          else none
      | _, _ => none
  | .worker p e =>
      (t.gw.workerAt p).bind fun w =>
        if t.runs (t.hostAt p) w e then (t.gw.step (p.event e)).map t.settle else none
  | .forward th req =>
      if t.free th then
        match forward t.gw.portTable req with
        | .send _ _ _ => some { t with readers := t.readers ++ [th] }
        | .notFound _ | .panic => some t
      else none
  | .respond th =>
      if th ∈ t.readers ∧ t.free th then some { t with readers := t.readers.erase th } else none
  | .write th req code isFree =>
      if (th, Park.write req code) ∈ t.parked ∧ t.readers = [] then
        runCall th req code isFree
          { t with holder := none, parked := t.parked.erase (th, .write req code) }
      else none

/-- Execute a list of events in order. -/
def run (t : Threaded) : List Event → Option Threaded
  | [] => some t
  | e :: es => (t.step e).bind (run · es)

/-- The states reachable from start-up. -/
inductive Reach : Threaded → Prop
  | init : Reach init
  | step {t t' : Threaded} {e : Event} : Reach t → t.step e = some t' → Reach t'

theorem Reach.run {t t' : Threaded} (h : Reach t) (es : List Event)
    (hrun : t.run es = some t') : Reach t' := by
  induction es generalizing t with
  | nil => cases hrun; exact h
  | cons e es ih =>
      obtain ⟨t₁, h₁, h₂⟩ := Option.bind_eq_some.1 hrun
      exact ih (.step h h₁) h₂

/-! ## The gateway underneath -/

section Refinement

variable {t t' : Threaded} {e : Event}

/-- A call run on a thread takes its gateway step, or parks at `PORT_TABLE.write()` with the
gateway as it was. -/
theorem runCall_gw {u : Threaded} {th : Nat} {req : Request} {code : String}
    {isFree : Nat → Bool} (h : u.runCall th req code isFree = some t') :
    ∃ g', u.gw.step (.call req code isFree) = some g' ∧ (t'.gw = u.gw ∨ t'.gw = g') := by
  obtain ⟨g', hg, rfl⟩ := Option.map_eq_some'.1 h
  refine ⟨g', hg, ?_⟩
  split
  · exact .inl rfl
  · exact .inr rfl

theorem settle_of_idle_eq_false {g' : Gateway} (h : g'.idle = false) :
    t.settle g' = { t with gw := g' } := by
  simp [settle, h]

theorem settle_of_idle {g' : Gateway} (h : t.gw.idle = true) :
    t.settle g' = { t with gw := g' } := by
  simp [settle, h]

/-- `t'` is `t` with perhaps more threads parked and other forwards waiting. -/
structure Parks (t t' : Threaded) : Prop where
  gw : t'.gw = t.gw
  hosts : t'.hosts = t.hosts
  retiredHosts : t'.retiredHosts = t.retiredHosts
  holder : t'.holder = t.holder
  parked : ∃ l, t'.parked = t.parked ++ l

theorem Parks.hostAt (h : Parks t t') (p : Place) : t'.hostAt p = t.hostAt p := by
  cases p <;> simp [Threaded.hostAt, h.hosts, h.retiredHosts]

/-- Parking more threads keeps a parked thread parked. -/
theorem Parks.free_eq_false (h : Parks t t') {th : Nat} (hf : t.free th = false) :
    t'.free th = false := by
  obtain ⟨l, hl⟩ := h.parked
  simp only [free, hl, List.all_append, Bool.and_eq_false_iff] at hf ⊢
  exact .inl hf

/-- What one step of the threaded gateway is: a request parking its thread at the guard, or a
forward starting or ending; a call run on a thread with the guard free; or a worker's step on a
free thread. -/
theorem step_cases (hs : t.step e = some t') :
    Parks t t' ∨
      (∃ th req code isFree, ∃ u : Threaded, u.runCall th req code isFree = some t' ∧ u.gw = t.gw) ∨
      ∃ p e' w g', t.gw.workerAt p = some w ∧ t.runs (t.hostAt p) w e' = true ∧
        t.gw.step (p.event e') = some g' ∧ t' = t.settle g' := by
  have hkeep : Parks t t := ⟨rfl, rfl, rfl, rfl, [], (List.append_nil _).symm⟩
  cases e with
  | call th req code isFree =>
      simp only [step] at hs
      split at hs
      · split at hs
        · cases hs; exact .inl ⟨rfl, rfl, rfl, rfl, _, rfl⟩
        · exact .inr (.inl ⟨_, _, _, _, _, hs, rfl⟩)
      · cases hs
  | acquire th req code isFree =>
      simp only [step] at hs
      split at hs
      · exact .inr (.inl ⟨_, _, _, _, _, hs, rfl⟩)
      · cases hs
  | probe isFree =>
      simp only [step] at hs
      split at hs
      · split at hs
        · exact .inr (.inl ⟨_, _, _, _, _, hs, rfl⟩)
        · cases hs
      · cases hs
  | worker p e =>
      obtain ⟨w, hw, hs⟩ := Option.bind_eq_some.1 hs
      split at hs
      · obtain ⟨g', hg, rfl⟩ := Option.map_eq_some'.1 hs
        exact .inr (.inr ⟨p, e, w, g', hw, ‹_›, hg, rfl⟩)
      · cases hs
  | forward th req =>
      simp only [step] at hs
      split at hs
      · split at hs <;> cases hs
        · exact .inl ⟨rfl, rfl, rfl, rfl, [], (List.append_nil _).symm⟩
        all_goals exact .inl hkeep
      · cases hs
  | respond th =>
      simp only [step] at hs
      split at hs
      · cases hs; exact .inl ⟨rfl, rfl, rfl, rfl, [], (List.append_nil _).symm⟩
      · cases hs
  | write th req code isFree =>
      simp only [step] at hs
      split at hs
      · exact .inr (.inl ⟨_, _, _, _, _, hs, rfl⟩)
      · cases hs

end Refinement

/-! ## A send waiting on the control channel -/

section Blocked

variable {t t' : Threaded} {p : Place} {m : ServerStatus}

/-- The send of the worker at `p`, a send of `m`, can never complete: the listener's thread is
parked while the slot is full and the listener loops or binds, or the send is an awaited
`Start` whose handler's thread is parked. -/
def Stuck (t : Threaded) (p : Place) (m : ServerStatus) : Prop :=
  ∃ w, t.gw.workerAt p = some w ∧ w.caller = some m ∧
    ((∃ h, t.hostAt p = some h ∧ t.free h = false ∧ w.slot.isSome ∧ w.closed = false) ∨
      (m = .start ∧ ∃ th, t.holder = some th ∧ t.free th = false))

/-- One step keeps a stuck send stuck: no call runs while the caller waits, and the only step
that could complete the send is the worker's own, which the parked thread, or the full slot,
rules out. -/
theorem Stuck.step {e : Event} (hst : Stuck t p m) (hs : t.step e = some t') : Stuck t' p m := by
  obtain ⟨w, hw, hc, hwhy⟩ := hst
  rcases step_cases hs with hp | ⟨_, _, _, _, _, h, hu⟩ | ⟨q, e', w₀, g', hw₀, hrun, hg, rfl⟩
  · refine ⟨w, hp.gw ▸ hw, hc, ?_⟩
    rw [hp.hostAt, hp.holder]
    rcases hwhy with ⟨h, hh, hf, hsl⟩ | ⟨hm, th, hth, hf⟩
    · exact .inl ⟨h, hh, hp.free_eq_false hf, hsl⟩
    · exact .inr ⟨hm, th, hth, hp.free_eq_false hf⟩
  · -- a call needs the gateway idle, and the waiting caller keeps it busy
    obtain ⟨_, hg, -⟩ := runCall_gw h
    simp [hu, Gateway.step, idle_eq_false_of_caller hw hc] at hg
  obtain ⟨hop, w₁, w₁', hw₁, hs₁, hat⟩ := workerAt_step hg
  rw [hw₀] at hw₁; cases hw₁
  by_cases hpq : p = q
  · subst hpq
    rw [hw] at hw₀; cases hw₀
    have hp := hat p; rw [if_pos rfl] at hp
    have hne : e' ≠ .flush := by
      rintro rfl
      rcases hwhy with ⟨h, -, -, hsl, hcl⟩ | ⟨rfl, th, hth, hf⟩
      · obtain ⟨x, hx⟩ := Option.isSome_iff_exists.1 hsl
        simp [Worker.step, Worker.flush, hc, hcl, hx] at hs₁
      · simp [runs, hc, hth, hf] at hrun
    have hc' : w₁'.caller = some m := (Worker.caller_step_eq hs₁ hop hne).trans hc
    rw [settle_of_idle_eq_false (idle_eq_false_of_caller hp hc')]
    refine ⟨w₁', hp, hc', ?_⟩
    rcases hwhy with ⟨h, hh, hf, hsl, hcl⟩ | h2
    · cases e' with
      | task tk =>
          obtain ⟨hsl', hl⟩ := Worker.task_step_full hs₁ hsl
          exact .inl ⟨h, hh, hf, hsl' ▸ hsl, by simp only [Worker.closed, hl]; exact hcl⟩
      | flush => exact absurd rfl hne
      | op o => exact absurd rfl (hop o)
      | bind _ | accept _ | recv => simp [runs, hh, hf] at hrun
    · exact .inr h2
  · have hp := hat p; rw [if_neg hpq, hw] at hp
    rw [settle_of_idle_eq_false (idle_eq_false_of_caller hp hc)]
    exact ⟨w, hp, hc, hwhy⟩

theorem Stuck.run (hst : Stuck t p m) (es : List Event) (hrun : t.run es = some t') :
    Stuck t' p m := by
  induction es generalizing t with
  | nil => cases hrun; exact hst
  | cons e es ih =>
      obtain ⟨t₁, h₁, h₂⟩ := Option.bind_eq_some.1 hrun
      exact ih (hst.step h₁) h₂

end Blocked

/-! ## A port writer behind a forward on its own thread -/

section Writer

variable {t t' : Threaded} {th : Nat} {req : Request} {code : String}

/-- The call of `req` for `code` is parked on thread `th` in `PORT_TABLE.write()`, holding the
guard of `WORKER_TABLE`, while a forward suspended on `th` holds a read guard; no loop of
`get_next_port` is parked on `th`, and no send waits. -/
def WriteStuck (t : Threaded) (th : Nat) (req : Request) (code : String) : Prop :=
  (th, Park.write req code) ∈ t.parked ∧ (th, Park.probe) ∉ t.parked ∧ th ∈ t.readers ∧
    t.holder = some th ∧ t.gw.idle = true

/-- One step keeps the writer parked: a new call parks at the guard, no other call can take it,
the forward on `th` cannot resume on its parked thread, and the workers' steps leave the gateway
idle. -/
theorem WriteStuck.step {e : Event} (hst : WriteStuck t th req code) (hs : t.step e = some t') :
    WriteStuck t' th req code := by
  obtain ⟨hw, hp, hr, hh, hi⟩ := hst
  have hf : t.free th = false := by
    simp only [free, List.all_eq_false]
    exact ⟨_, hw, by simp⟩
  cases e with
  | call th' req' code' isFree =>
      simp only [Threaded.step, hh, Option.isSome_some, ↓reduceIte] at hs
      split at hs
      · cases hs; exact ⟨List.mem_append_left _ hw, by simp [hp], hr, rfl, hi⟩
      · cases hs
  | acquire => simp [Threaded.step, hh] at hs
  | probe isFree =>
      rcases hsp : t.gw.spinning with _ | ⟨req', code'⟩ <;> simp [Threaded.step, hh, hsp, hp] at hs
  | worker q e' =>
      obtain ⟨w, -, hs⟩ := Option.bind_eq_some.1 hs
      split at hs
      · obtain ⟨g', hg, rfl⟩ := Option.map_eq_some'.1 hs
        rw [settle_of_idle hi]
        exact ⟨hw, hp, hr, hh, idle_step_worker hi hg⟩
      · cases hs
  | forward th' req' =>
      simp only [Threaded.step] at hs
      split at hs
      · split at hs <;> cases hs
        · exact ⟨hw, hp, List.mem_append_left _ hr, hh, hi⟩
        all_goals exact ⟨hw, hp, hr, hh, hi⟩
      · cases hs
  | respond th' =>
      simp only [Threaded.step] at hs
      split at hs
      · rename_i h'
        cases hs
        have hne : th ≠ th' := by rintro rfl; simp [hf] at h'
        exact ⟨hw, hp, (List.mem_erase_of_ne hne).2 hr, hh, hi⟩
      · cases hs
  | write th' req' code' isFree =>
      simp only [Threaded.step] at hs
      split at hs
      · rename_i h'; rw [h'.2] at hr; cases hr
      · cases hs

theorem WriteStuck.run (hst : WriteStuck t th req code) (es : List Event)
    (hrun : t.run es = some t') : WriteStuck t' th req code := by
  induction es generalizing t with
  | nil => cases hrun; exact hst
  | cons e es ih =>
      obtain ⟨t₁, h₁, h₂⟩ := Option.bind_eq_some.1 hrun
      exact ih (hst.step h₁) h₂

/-- A call parked in `PORT_TABLE.write()` behind a forward suspended on its own thread: in every
run from here on it stays parked there holding the guard of `WORKER_TABLE`, and every control
request served afterwards parks its thread in `WORKER_TABLE.lock()`. -/
theorem forward_blocks_port_writer (hst : WriteStuck t th req code) :
    ∀ es t', t.run es = some t' →
      (th, Park.write req code) ∈ t'.parked ∧ t'.holder = some th ∧
        ∀ th' req' code' isFree t'', t'.step (.call th' req' code' isFree) = some t'' →
          t''.parked = t'.parked ++ [(th', .lock req' code')] := by
  intro es t' hrun
  obtain ⟨hw, -, -, hh, -⟩ := hst.run es hrun
  refine ⟨hw, hh, fun th' req' code' isFree t'' hs => ?_⟩
  simp only [step, hh, Option.isSome_some, ↓reduceIte] at hs
  split at hs
  · cases hs; rfl
  · cases hs

/-- A tenant started on thread 0; a request of the tenant proxied on thread 0, awaiting its
answer; then `exit` of the tenant on thread 0: `Drop` parks the thread in `PORT_TABLE.write()`
behind the forward's read guard. -/
theorem exit_behind_own_forward :
    let fwd : HttpRequest := ⟨[("product_code", "demo".toList.map (·.toNat.toUInt8))], "/", none⟩
    let t := (init.run [.call 0 .proStart "demo" (fun _ => true),
      .worker (.table ⟨"demo"⟩) (.bind true), .worker (.table ⟨"demo"⟩) .recv,
      .forward 0 fwd, .call 0 .exit "demo" (fun _ => true)]).get (by decide)
    Reach t ∧ WriteStuck t 0 .exit "demo" ∧
      ∀ es t', t.run es = some t' →
        (0, Park.write .exit "demo") ∈ t'.parked ∧ t'.holder = some 0 ∧
          ∀ th' req' code' isFree t'', t'.step (.call th' req' code' isFree) = some t'' →
            t''.parked = t'.parked ++ [(th', .lock req' code')] := by
  intro fwd t
  have hst : WriteStuck t 0 .exit "demo" := ⟨by decide, by decide, by decide, by decide, by decide⟩
  exact ⟨Reach.run .init _ (Option.some_get _).symm, hst, forward_blocks_port_writer hst⟩

end Writer

end Threaded
end Gateway
end CassieCool
