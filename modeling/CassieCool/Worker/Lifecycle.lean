import CassieCool.Worker.Basic

/-!
# Lifecycle — what a worker keeps until it is dropped

Two facts hold of every reachable worker, whatever the calls and the schedule:

* `Exit` is sent only by `Drop`: until the object is dropped no `Exit` is in the slot or waits
  to be sent, so the listener task has not left its loop;
* `start_runtime` passes `open_debug_server` to the runtime it spawns, `start_debugger_runtime`
  sets the flag only while no production runtime runs, and nothing clears it: every running
  production runtime was started with the inspector exactly when the flag is set.
-/

namespace CassieCool
namespace Worker

variable {w w' : Worker} {m : ServerStatus}

/-- What a method call does to `dropped` and `open_debug_server`: only `Drop` drops, and only
`start_debugger_runtime` with no production handle sets the flag. -/
theorem Op.apply_flags (o : Op) (w : Worker) :
    (o.apply w).dropped = (decide (o = .drop) || w.dropped) ∧
      (o.apply w).thread.openDebugServer = (w.thread.openDebugServer ||
        decide (o = .startDebuggerRuntime ∧ w.thread.workerHandlers = [])) := by
  obtain ⟨ts, hs⟩ := stopAllRuntime_eq w
  cases o with
  | startDebuggerRuntime =>
      simp only [Op.apply, Worker.startDebuggerRuntime, List.length_eq_zero]
      split <;> simp [*]
  | stopRuntime => simp only [Op.apply, Worker.stopRuntime]; split <;> simp
  | stopAllRuntime => simp [Op.apply, hs]
  | drop => simp [Op.apply, Worker.drop, hs]
  | _ => simp [Op.apply, Worker.stopWatchRuntime]

/-! ## `Exit` comes from `Drop` -/

/-- No `Exit` has been sent: none is in the slot or waits, and the listener has not left its
loop. -/
structure ExitUnsent (w : Worker) : Prop where
  slot : w.slot ≠ some .exit
  caller : w.caller ≠ some .exit
  listener : w.listener ≠ .exited

theorem ExitUnsent.of_eq (h : ExitUnsent w) (hs : w'.slot = w.slot) (hc : w'.caller = w.caller)
    (hl : w'.listener = w.listener) : ExitUnsent w' :=
  ⟨hs ▸ h.slot, hc ▸ h.caller, hl ▸ h.listener⟩

theorem ExitUnsent.send (h : ExitUnsent w) (hm : m ≠ .exit) : ExitUnsent (send m w) := by
  rcases send_cases m w with ⟨-, he⟩ | ⟨-, -, he⟩ | ⟨-, -, he⟩ <;> rw [he]
  · exact h
  · exact ⟨by simpa using hm, h.caller, h.listener⟩
  · exact ⟨h.slot, by simpa using hm, h.listener⟩

theorem ExitUnsent.startRuntime (h : ExitUnsent w) : ExitUnsent (startRuntime w) := by
  simp only [Worker.startRuntime]
  split
  · exact ExitUnsent.send (h.of_eq rfl rfl rfl) (by decide)
  · exact h.of_eq rfl rfl rfl

/-- Every method call but `Drop` keeps `Exit` unsent. -/
theorem ExitUnsent.apply (h : ExitUnsent w) {o : Op} (ho : o ≠ .drop) : ExitUnsent (o.apply w) := by
  obtain ⟨ts, hs⟩ := stopAllRuntime_eq w
  cases o with
  | startWatchRuntime => exact ExitUnsent.send (h.of_eq rfl rfl rfl) (by decide)
  | startRuntime => exact h.startRuntime
  | startDebuggerRuntime =>
      simp only [Op.apply, Worker.startDebuggerRuntime]
      split
      · exact ExitUnsent.startRuntime ⟨h.slot, h.caller, h.listener⟩
      · exact h
  | stopRuntime => simp only [Op.apply, Worker.stopRuntime]; split <;> exact h.of_eq rfl rfl rfl
  | stopAllRuntime =>
      simp only [Op.apply, hs]
      exact h.of_eq rfl rfl rfl
  | stopWatchRuntime => exact h.of_eq rfl rfl rfl
  | drop => exact absurd rfl ho

/-- The spawned tasks and the listener loop never send `Exit`, and the loop leaves only on one. -/
theorem ExitUnsent.step (h : ExitUnsent w) {e : Event} (he : ∀ o, e ≠ .op o)
    (hs : w.step e = some w') : ExitUnsent w' := by
  cases e with
  | op o => exact absurd rfl (he o)
  | flush =>
      simp only [Worker.step, Worker.flush] at hs
      split at hs
      · cases hs
      · rename_i m hm
        split at hs
        · cases hs; exact ⟨h.slot, by simp, h.listener⟩
        · split at hs <;> cases hs
          exact ⟨by simpa [hm] using h.caller, by simp, h.listener⟩
  | task t =>
      simp only [Worker.step] at hs
      split at hs
      · rcases t with ⟨_ | r, _ | _⟩ <;> simp only [Worker.runTask] at hs
        · cases hs; exact h.of_eq rfl rfl rfl
        · split at hs
          · cases hs; exact h.of_eq rfl rfl rfl
          · split at hs <;> cases hs; exact ⟨by simp, h.caller, h.listener⟩
        all_goals cases hs; exact h.of_eq rfl rfl rfl
      · cases hs
  | bind ok =>
      simp only [Worker.step, Worker.bindListener] at hs
      split at hs <;> cases hs
      exact ⟨h.slot, h.caller, by split <;> simp⟩
  | accept conn =>
      simp only [Worker.step, Worker.accept] at hs
      split at hs <;> cases hs
      split <;> exact h.of_eq rfl rfl rfl
  | recv =>
      simp only [Worker.step, Worker.recv] at hs
      split at hs <;> cases hs
      · exact ⟨by simp, h.caller, h.listener⟩
      · exact ⟨by simp, h.caller, h.listener⟩
      · rename_i hslot; exact absurd hslot h.slot

/-- Until the object is dropped, no `Exit` has been sent and the listener has not left its
loop. -/
theorem Reachable.exitUnsent (hr : Reachable w) (hd : w.dropped = false) : ExitUnsent w := by
  induction hr with
  | new project port => exact ⟨by simp [init], by simp [init], by simp [init]⟩
  | @step w w' e _ _ hs ih =>
      by_cases he : ∃ o, e = .op o
      · obtain ⟨o, rfl⟩ := he
        simp only [Worker.step] at hs
        split at hs <;> cases hs
        rw [(Op.apply_flags o w).1, Bool.or_eq_false_iff, decide_eq_false_iff_not] at hd
        exact (ih hd.2).apply hd.1
      · push_neg at he
        exact (ih ((step_frame he hs).2.2.1 ▸ hd)).step he hs

/-! ## The inspector follows `open_debug_server` -/

/-- Every running production runtime was started with the inspector (`flags.inspect =
127.0.0.1:9229`) exactly when `open_debug_server` is set. -/
def InspectFollowsFlag (w : Worker) : Prop :=
  ∀ t ∈ w.thread.workerHandlers,
    (w.runtimes[t.runtime]?).map (·.inspect) = some w.thread.openDebugServer

/-- Dropping handles and spawning runtimes keep the law, as long as the flag is kept. -/
theorem InspectFollowsFlag.of_sub (h : InspectFollowsFlag w)
    (hh : ∀ t ∈ w'.thread.workerHandlers, t ∈ w.thread.workerHandlers)
    (hf : w'.thread.openDebugServer = w.thread.openDebugServer)
    (hr : ∃ rs, w'.runtimes = w.runtimes ++ rs) : InspectFollowsFlag w' := by
  intro t ht
  obtain ⟨rs, hrs⟩ := hr
  have hold := h t (hh t ht)
  cases hget : w.runtimes[t.runtime]? with
  | none => simp [hget] at hold
  | some r =>
      rw [hrs, hf, List.getElem?_append_left (List.getElem?_eq_some_iff.1 hget).1, hget]
      simpa [hget] using hold

theorem InspectFollowsFlag.startRuntime (h : InspectFollowsFlag w) :
    InspectFollowsFlag (Worker.startRuntime w) := by
  intro t ht
  simp only [startRuntime_thread, List.mem_cons] at ht
  rcases ht with rfl | ht
  · simp
  · have : InspectFollowsFlag { Worker.startRuntime w with thread := w.thread } :=
      h.of_sub (fun t ht => ht) rfl ⟨_, startRuntime_runtimes⟩
    simpa using this t ht

theorem InspectFollowsFlag.apply (h : InspectFollowsFlag w) (o : Op) :
    InspectFollowsFlag (o.apply w) := by
  obtain ⟨ts, hs⟩ := stopAllRuntime_eq w
  cases o with
  | startWatchRuntime => exact h.of_sub (fun t ht => ht) rfl ⟨_, rfl⟩
  | startRuntime => exact h.startRuntime
  | startDebuggerRuntime =>
      simp only [Op.apply, Worker.startDebuggerRuntime]
      split
      · rename_i hnil
        refine InspectFollowsFlag.startRuntime fun t ht => ?_
        simp [List.length_eq_zero.1 hnil] at ht
      · exact h
  | stopRuntime =>
      simp only [Op.apply, Worker.stopRuntime]
      split
      · exact h
      · rename_i hh
        exact h.of_sub (fun t ht => by simp [hh, ht]) rfl ⟨[], by simp⟩
  | stopAllRuntime => intro t ht; simp [Op.apply, hs] at ht
  | drop => intro t ht; simp [Op.apply, drop, hs] at ht
  | stopWatchRuntime => exact h.of_sub (fun t ht => ht) rfl ⟨[], by simp [Op.apply, Worker.stopWatchRuntime]⟩

/-- In every reachable state every running production runtime was started with the inspector
exactly when `open_debug_server` is set. -/
theorem Reachable.inspectFollowsFlag (hr : Reachable w) : InspectFollowsFlag w := by
  induction hr with
  | new project port => intro t ht; simp [init] at ht
  | @step w w' e _ _ hs ih =>
      by_cases he : ∃ o, e = .op o
      · obtain ⟨o, rfl⟩ := he
        simp only [Worker.step] at hs
        split at hs <;> cases hs
        exact ih.apply o
      · push_neg at he
        obtain ⟨hth, hrt, -⟩ := step_frame he hs
        exact ih.of_sub (by simp [hth]) (by simp [hth]) ⟨[], by simp [hrt]⟩

end Worker
end CassieCool
