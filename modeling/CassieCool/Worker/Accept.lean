import CassieCool.Worker.Basic

/-!
# Accept — where the listener loop sends a connection

The listener loop starts with `ok = false` and so forwards every accepted connection to
`stream_tx`, where it waits for whatever runtime is started next.  `Start` clears `ok` and
`Wait` sets it.  The starts send `Start`; `stop_runtime` and `stop_watch_runtime` leave the
`Wait` to a spawned task, which may run long after the call.

The invariant `AcceptInv` says that once a runtime has been spawned, a worker with no
production handle and no watch sender has its listener rejecting, or a `Wait` or `Exit` on its
way there.  Hence in every reachable state where no status message is in flight, such a worker
rejects exactly when some start has happened.
-/

namespace CassieCool
namespace Worker

variable {w : Worker} {m : ServerStatus}

/-! ## The invariant -/

/-- No `ServerStatus` is in flight: the slot is empty, no send of the caller waits for it, and
no spawned task has a `Wait` left to send. -/
def Quiescent (w : Worker) : Prop :=
  w.slot = none ∧ w.caller = none ∧ ∀ t ∈ w.tasks, t.wait = false

/-- Nothing the object holds consumes connections: no production handle, no watch sender. -/
def Unused (w : Worker) : Prop :=
  w.thread.workerHandlers = [] ∧ w.thread.watchTx = none

/-- A `Wait` is on its way to the listener. -/
def WaitPending (w : Worker) : Prop :=
  (∃ t ∈ w.tasks, t.wait = true) ∨ w.slot = some .wait

/-- The listener rejects, or will once the messages in flight are delivered: it is gone or
`Exit` is on its way, a `Wait` is on its way, or nothing is in the slot and `ok` is set. -/
def BoundToReject (w : Worker) : Prop :=
  (w.closed = true ∨ w.slot = some .exit ∨ w.caller = some .exit) ∨ WaitPending w ∨
    (w.slot = none ∧ w.ok = true)

/-- The invariant of the listener's flag. -/
structure AcceptInv (w : Worker) : Prop where
  /-- Before any runtime is spawned, the object holds nothing and no `Wait` was sent. -/
  fresh : w.runtimes = [] → Unused w ∧ w.ok = false ∧ ¬ WaitPending w
  /-- A blocked `Start` belongs to a start still in effect. -/
  callerStart : w.caller = some .start → ¬ Unused w
  /-- Callers never send `Wait`. -/
  callerWait : w.caller ≠ some .wait
  /-- After the first spawn, an unused worker's listener is bound to reject. -/
  rejects : w.runtimes ≠ [] → Unused w → BoundToReject w

theorem acceptInv_init (project : Project) (port : WorkerPort) :
    AcceptInv (init project port) where
  fresh _ := ⟨⟨rfl, rfl⟩, rfl, by simp [WaitPending, init]⟩
  callerStart h := by simp [init] at h
  callerWait := by simp [init]
  rejects h := absurd rfl h

/-- `BoundToReject` survives any change that keeps whether the channel is closed, the slot,
the caller and `ok`, and leaves some task with a `Wait` to send if there was one. -/
theorem BoundToReject.mono {w' : Worker} (h : BoundToReject w) (hcl : w'.closed = w.closed)
    (hs : w'.slot = w.slot) (hc : w'.caller = w.caller) (hok : w'.ok = w.ok)
    (ht : (∃ t ∈ w.tasks, t.wait = true) → ∃ t ∈ w'.tasks, t.wait = true) :
    BoundToReject w' := by
  unfold BoundToReject WaitPending at *
  rcases h with h | (h | h) | h
  · exact .inl (by rwa [hcl, hs, hc])
  · exact .inr (.inl (.inl (ht h)))
  · exact .inr (.inl (.inr (hs ▸ h)))
  · exact .inr (.inr (by rwa [hs, hok]))

/-- A worker that has spawned a runtime and holds a handle or a watch sender satisfies the
invariant as soon as its caller waits for nothing but `Start`. -/
theorem AcceptInv.of_used {w : Worker} (hr : w.runtimes ≠ []) (hu : ¬ Unused w)
    (hc : w.caller = none ∨ w.caller = some .start) : AcceptInv w where
  fresh h := absurd h hr
  callerStart _ := hu
  callerWait := by rcases hc with hc | hc <;> simp [hc]
  rejects _ h := absurd h hu

/-! ## The methods keep the invariant -/

theorem AcceptInv.startWatchRuntime (hc : w.caller = none) :
    AcceptInv (startWatchRuntime w) :=
  .of_used (by simp [Worker.startWatchRuntime]) (by simp [Worker.startWatchRuntime, Unused])
    (send_caller_of_none hc)

theorem AcceptInv.startRuntime (hc : w.caller = none) : AcceptInv (startRuntime w) := by
  simp only [Worker.startRuntime]
  split
  · exact .of_used (by simp) (by simp [Unused]) (send_caller_of_none hc)
  · exact .of_used (by simp) (by simp [Unused]) (.inl hc)

theorem AcceptInv.startDebuggerRuntime (h : AcceptInv w) (hc : w.caller = none) :
    AcceptInv (startDebuggerRuntime w) := by
  unfold Worker.startDebuggerRuntime
  split
  · exact AcceptInv.startRuntime hc
  · exact h

theorem AcceptInv.stopWatchRuntime (h : AcceptInv w) (hc : w.caller = none) :
    AcceptInv (stopWatchRuntime w) where
  fresh hr := by
    obtain ⟨⟨hh, hw⟩, hok, hwp⟩ := h.fresh hr
    refine ⟨⟨hh, rfl⟩, hok, ?_⟩
    simpa [WaitPending, Worker.stopWatchRuntime, hw, or_imp, forall_and] using hwp
  callerStart := by simp [Worker.stopWatchRuntime, hc]
  callerWait := by simp [Worker.stopWatchRuntime, hc]
  rejects hr hu := by
    cases hw : w.thread.watchTx with
    | some j => exact .inr (.inl (.inl ⟨⟨some j, true⟩, by simp [Worker.stopWatchRuntime, hw]⟩))
    | none =>
        exact (h.rejects hr ⟨hu.1, hw⟩).mono rfl rfl rfl rfl
          (fun ⟨t, ht, htw⟩ => ⟨t, by simp [Worker.stopWatchRuntime, ht], htw⟩)

theorem AcceptInv.stopRuntime (h : AcceptInv w) (hc : w.caller = none) :
    AcceptInv (stopRuntime w).2 := by
  unfold Worker.stopRuntime
  split
  · exact h
  · rename_i hand rest hh
    refine ⟨fun hr => ?_, by simp [hc], by simp [hc], fun _ hu => ?_⟩
    · simp [(h.fresh hr).1.1] at hh
    · have : rest = [] := hu.1
      exact .inr (.inl (.inl ⟨⟨some hand.runtime, true⟩, by simp [this]⟩))

theorem stopRuntime_caller (w : Worker) : (stopRuntime w).2.caller = w.caller := by
  unfold Worker.stopRuntime; split <;> rfl

theorem AcceptInv.stopAllRuntime (h : AcceptInv w) (hc : w.caller = none) :
    AcceptInv (stopAllRuntime w) :=
  (stopAllLoop_induct (fun v => AcceptInv v ∧ v.caller = none)
    (fun v hv => ⟨hv.1.stopRuntime hv.2, (stopRuntime_caller v).trans hv.2⟩) _ _
    ⟨h.stopWatchRuntime hc, hc⟩).1

theorem stopAllRuntime_caller (w : Worker) : (stopAllRuntime w).caller = w.caller :=
  stopAllLoop_induct (fun v => v.caller = w.caller)
    (fun v hv => (stopRuntime_caller v).trans hv) _ _ rfl

theorem AcceptInv.sendExit (h : AcceptInv w) (hc : w.caller = none) :
    AcceptInv (send .exit w) := by
  rcases send_cases .exit w with ⟨-, he⟩ | ⟨-, -, he⟩ | ⟨-, -, he⟩ <;> rw [he]
  · exact h
  · refine ⟨fun hr => ?_, by simp [hc], by simp [hc], fun _ _ => .inl (.inr (.inl rfl))⟩
    obtain ⟨hu, hok, hwp⟩ := h.fresh hr
    simp only [WaitPending, not_or] at hwp
    exact ⟨hu, hok, by simp [WaitPending, hwp.1]⟩
  · exact ⟨h.fresh, by simp, by simp, fun _ _ => .inl (.inr (.inr rfl))⟩

theorem AcceptInv.drop (h : AcceptInv w) (hc : w.caller = none) : AcceptInv (drop w) :=
  have h₁ := h.stopAllRuntime hc
  AcceptInv.sendExit (show AcceptInv { Worker.stopAllRuntime w with dropped := true } from
    ⟨h₁.1, h₁.2, h₁.3, h₁.4⟩) ((stopAllRuntime_caller w).trans hc)

theorem AcceptInv.apply (h : AcceptInv w) (hc : w.caller = none) :
    ∀ o : Op, AcceptInv (o.apply w)
  | .startWatchRuntime => AcceptInv.startWatchRuntime hc
  | .stopWatchRuntime => h.stopWatchRuntime hc
  | .startRuntime => AcceptInv.startRuntime hc
  | .startDebuggerRuntime => h.startDebuggerRuntime hc
  | .stopRuntime => h.stopRuntime hc
  | .stopAllRuntime => h.stopAllRuntime hc
  | .drop => h.drop hc

/-! ## The spawned tasks and the listener keep the invariant -/

/-- A change that touches only the task pool and the runtimes' messages keeps the invariant,
provided some task still has a `Wait` to send exactly when one had. -/
theorem AcceptInv.of_tasks {w' : Worker} (h : AcceptInv w) (hth : w'.thread = w.thread)
    (hr : w'.runtimes = w.runtimes) (hcl : w'.closed = w.closed) (hs : w'.slot = w.slot)
    (hc : w'.caller = w.caller) (hok : w'.ok = w.ok)
    (ht : (∃ t ∈ w'.tasks, t.wait = true) ↔ ∃ t ∈ w.tasks, t.wait = true) : AcceptInv w' := by
  have hu : Unused w' ↔ Unused w := by simp only [Unused, hth]
  have hwp : WaitPending w' ↔ WaitPending w := by simp only [WaitPending, ht, hs]
  refine ⟨fun h0 => ?_, fun h0 => ?_, hc ▸ h.callerWait, fun h0 h1 => ?_⟩
  · obtain ⟨h₁, h₂, h₃⟩ := h.fresh (hr ▸ h0)
    exact ⟨hu.2 h₁, hok ▸ h₂, fun h' => h₃ (hwp.1 h')⟩
  · exact fun h' => h.callerStart (hc ▸ h0) (hu.1 h')
  · exact (h.rejects (hr ▸ h0) (hu.1 h1)).mono hcl hs hc hok ht.2

/-- Removing the task `t` and adding `extra` leaves a task with a `Wait` to send exactly when
there was one, if `extra` has such a task exactly when `t` had. -/
theorem exists_wait_erase_append {ts : List StopTask} {t : StopTask} (ht : t ∈ ts)
    (extra : List StopTask) (hextra : t.wait = true ↔ ∃ u ∈ extra, u.wait = true) :
    (∃ u ∈ ts.erase t ++ extra, u.wait = true) ↔ ∃ u ∈ ts, u.wait = true := by
  constructor
  · rintro ⟨u, hu, huw⟩
    rcases List.mem_append.1 hu with hu | hu
    · exact ⟨u, List.mem_of_mem_erase hu, huw⟩
    · exact ⟨t, ht, hextra.2 ⟨u, hu, huw⟩⟩
  · rintro ⟨u, hu, huw⟩
    by_cases hut : u = t
    · obtain ⟨v, hv, hvw⟩ := hextra.1 (hut ▸ huw)
      exact ⟨v, List.mem_append_right _ hv, hvw⟩
    · exact ⟨u, List.mem_append_left _ ((List.mem_erase_of_ne hut).2 hu), huw⟩

theorem AcceptInv.runTask {w' : Worker} {t : StopTask} (h : AcceptInv w) (ht : t ∈ w.tasks)
    (hs : w.runTask t = some w') : AcceptInv w' := by
  rcases t with ⟨_ | r, _ | _⟩
  · simp only [Worker.runTask, Option.some.injEq] at hs
    subst hs
    exact h.of_tasks rfl rfl rfl rfl rfl rfl
      (by simpa using exists_wait_erase_append ht [] (by simp))
  · have hfresh (hr : w.runtimes = []) : False := (h.fresh hr).2.2 (.inl ⟨_, ht, rfl⟩)
    by_cases hcl : w.closed = true
    · simp only [Worker.runTask, hcl, if_true, Option.some.injEq] at hs
      subst hs
      exact ⟨(hfresh · |>.elim), h.callerStart, h.callerWait, fun _ _ => .inl (.inl hcl)⟩
    · rcases hsl : w.slot with _ | _ <;>
        simp only [Worker.runTask, if_neg hcl, hsl, Option.some.injEq, reduceCtorEq] at hs
      subst hs
      exact ⟨(hfresh · |>.elim), h.callerStart, h.callerWait, fun _ _ => .inr (.inl (.inr rfl))⟩
  all_goals
    simp only [Worker.runTask, Option.some.injEq] at hs
    subst hs
    exact h.of_tasks rfl rfl rfl rfl rfl rfl (exists_wait_erase_append ht _ (by simp))

theorem AcceptInv.flush {w' : Worker} (h : AcceptInv w) (hs : w.flush = some w') :
    AcceptInv w' := by
  rcases hc : w.caller with _ | m
  · simp [Worker.flush, hc] at hs
  by_cases hcl : w.closed = true
  · simp only [Worker.flush, hc, hcl, if_true, Option.some.injEq] at hs
    subst hs
    exact ⟨h.fresh, by simp, by simp, fun _ _ => .inl (.inl hcl)⟩
  rcases hsl : w.slot with _ | _ <;>
    simp only [Worker.flush, hc, if_neg hcl, hsl, Option.some.injEq, reduceCtorEq] at hs
  subst hs
  have hm : m ≠ .wait := fun e => h.callerWait (e ▸ hc)
  refine ⟨fun hr => ?_, by simp, by simp, fun _ hu => ?_⟩
  · obtain ⟨hu, hok, hwp⟩ := h.fresh hr
    simp only [WaitPending, not_or] at hwp
    exact ⟨hu, hok, by simp [WaitPending, hwp.1, hm]⟩
  · cases m with
    | start => exact absurd hu (h.callerStart hc)
    | wait => exact absurd rfl hm
    | exit => exact .inl (.inr (.inl rfl))

theorem AcceptInv.bindListener {w' : Worker} {ok : Bool} (h : AcceptInv w)
    (hs : w.bindListener ok = some w') : AcceptInv w' := by
  unfold Worker.bindListener at hs
  split at hs
  · rename_i hl
    cases hs
    cases ok
    · exact ⟨h.fresh, h.callerStart, h.callerWait, fun _ _ => .inl (.inl rfl)⟩
    · exact h.of_tasks rfl rfl (by simp [closed, hl]) rfl rfl rfl Iff.rfl
  · cases hs

theorem AcceptInv.accept {w' : Worker} {conn : Nat} (h : AcceptInv w)
    (hs : w.accept conn = some w') : AcceptInv w' := by
  unfold Worker.accept at hs
  split at hs
  · cases hs
    split <;> exact h.of_tasks rfl rfl rfl rfl rfl rfl Iff.rfl
  · cases hs

theorem AcceptInv.recv {w' : Worker} (h : AcceptInv w) (hs : w.recv = some w') :
    AcceptInv w' := by
  unfold Worker.recv at hs
  split at hs <;> cases hs
  · -- `Start`: a `Wait` or `Exit` that was on its way still is
    rename_i hl hsl
    refine ⟨fun hr => ?_, h.callerStart, h.callerWait, fun hr hu => ?_⟩
    · obtain ⟨hu, -, hwp⟩ := h.fresh hr
      simp only [WaitPending, not_or] at hwp
      exact ⟨hu, rfl, by simp [WaitPending, hwp.1]⟩
    · rcases h.rejects hr hu with (h | h | h) | (h | h) | h <;>
        simp_all [BoundToReject, WaitPending, closed]
  · -- `Wait`
    rename_i hl hsl
    refine ⟨fun hr => ?_, h.callerStart, h.callerWait, fun _ _ => .inr (.inr ⟨rfl, rfl⟩)⟩
    exact absurd (.inr hsl) (h.fresh hr).2.2
  · -- `Exit`
    refine ⟨fun hr => ?_, h.callerStart, h.callerWait, fun _ _ => .inl (.inl rfl)⟩
    obtain ⟨hu, hok, hwp⟩ := h.fresh hr
    simp only [WaitPending, not_or] at hwp
    exact ⟨hu, hok, by simp [WaitPending, hwp.1]⟩

/-- Every event keeps the invariant. -/
theorem AcceptInv.step {w' : Worker} {e : Event} (h : AcceptInv w) (hs : w.step e = some w') :
    AcceptInv w' := by
  cases e with
  | op o =>
      simp only [Worker.step] at hs
      split at hs
      · rename_i hi
        cases hs
        simp only [idle, Bool.and_eq_true, Option.isNone_iff_eq_none] at hi
        exact h.apply hi.1 o
      · cases hs
  | flush => exact h.flush hs
  | task t =>
      simp only [Worker.step] at hs
      split at hs
      · exact h.runTask ‹_› hs
      · cases hs
  | bind ok => exact h.bindListener hs
  | accept conn => exact h.accept hs
  | recv => exact h.recv hs

theorem Reachable.acceptInv (hr : Reachable w) : AcceptInv w := by
  induction hr with
  | new project port => exact acceptInv_init project port
  | step _ _ hs ih => exact ih.step hs

/-! ## The listener of an unused worker -/

/-- In every reachable state with no status message in flight, the bound listener of a worker
that holds no production handle and no watch sender forwards an accepted connection to
`stream_tx` if no runtime has ever been spawned, and otherwise writes the rejection bytes to
it and drops it. -/
theorem accept_when_unused (hr : Reachable w) (hq : Quiescent w)
    (hl : w.listener = .serving) (hu : Unused w) (conn : Nat) :
    w.accept conn = some (if w.runtimes = [] then { w with stream := w.stream ++ [conn] }
      else { w with rejected := w.rejected ++ [conn] }) := by
  have inv := hr.acceptInv
  obtain ⟨hslot, hcaller, htasks⟩ := hq
  by_cases h0 : w.runtimes = []
  · simp [Worker.accept, hl, h0, (inv.fresh h0).2.1]
  · have hok : w.ok = true := by
      rcases inv.rejects h0 hu with (h | h | h) | (⟨t, ht, htw⟩ | h) | h <;>
        simp_all [closed]
    simp [Worker.accept, hl, h0, hok]

/-- After a production runtime is started and stopped and the stop task's `Wait` has been
delivered, the unused worker rejects. -/
theorem accept_when_unused_after_stop :
    let w : Worker := { init ⟨"demo", "code/demo/app.ts"⟩ ⟨3001, by decide⟩ with
      runtimes := [⟨"code/demo/app.ts", false, false⟩], listener := .serving, ok := true,
      signalled := [0] }
    (Reachable w ∧ Quiescent w ∧ w.listener = .serving ∧ Unused w) ∧
      w.accept 7 = some { w with rejected := [7] } :=
  by
  intro w
  have hr : Reachable w := Reachable.run (.new w.thread.project w.thread.port)
    [.op .startRuntime, .bind true, .recv, .op .stopRuntime, .task ⟨some 0, true⟩,
      .task ⟨none, true⟩, .recv] rfl
  have hq : Quiescent w := by simp [w, Quiescent, init]
  exact ⟨⟨hr, hq, rfl, rfl, rfl⟩, (accept_when_unused hr hq rfl ⟨rfl, rfl⟩ 7).trans rfl⟩

/-- A worker just created and bound, before any start: no status message is in flight and it
holds nothing, yet its listener queues the connection it accepts on `stream_tx`. -/
theorem accept_queues_before_any_start :
    let w : Worker := { init ⟨"demo", "code/demo/app.ts"⟩ ⟨3001, by decide⟩ with
      listener := .serving }
    Reachable w ∧ Quiescent w ∧ Unused w ∧ w.accept 0 = some { w with stream := [0] } :=
  ⟨Reachable.run (.new _ _) [.bind true] rfl, by simp [Quiescent, init],
    ⟨rfl, rfl⟩, rfl⟩

end Worker
end CassieCool
