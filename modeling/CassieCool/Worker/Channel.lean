import CassieCool.Worker.Basic

/-!
# Channel — what a blocked send on the control channel waits for

The control channel is `bounded::<ServerStatus>(1)`.  The starts send `Start` with
`send(..).await` and `Drop` sends `Exit` with `send_blocking`, all called by handlers that hold
`WORKER_TABLE` (and, in `Drop`, the `PORT_TABLE` write guard).  A `Wait` sent by a task spawned
by an earlier stop can still be in the slot (`stop_leaves_wait_in_slot`), and then the caller
waits for the listener loop.

Whatever the schedule, while the send is blocked only the listener's receives free the slot:
no method runs, so no task is spawned, and the messages ahead of the blocked send are the one
in the slot and the `Wait`s the spawned tasks have still to send, each receive consuming one of
them (`Blocked.recvs_le`).  And the worker itself can always go on: the send can complete, or
the listener can receive, or it is still binding (`blocked_progress`).  Whether the thread the
listener runs on is free to take that step is what `Gateway.Threaded` decides.
-/

namespace CassieCool
namespace Worker

variable {w w' : Worker}

/-- The tasks and the listener leave the caller's send as it is; only its completion changes
it. -/
theorem caller_step_eq {e : Event} (hs : w.step e = some w') (hop : ∀ o, e ≠ .op o)
    (he : e ≠ .flush) : w'.caller = w.caller := by
  cases e with
  | op o => exact absurd rfl (hop o)
  | flush => exact absurd rfl he
  | task t =>
      simp only [Worker.step] at hs
      split at hs
      · rcases t with ⟨_ | r, _ | _⟩ <;> simp only [Worker.runTask] at hs <;>
          (try split at hs) <;> (try split at hs) <;> cases hs <;> rfl
      · cases hs
  | bind ok =>
      simp only [Worker.step, Worker.bindListener] at hs
      split at hs <;> cases hs; rfl
  | accept conn =>
      simp only [Worker.step, Worker.accept] at hs
      split at hs
      · cases hs; split <;> rfl
      · cases hs
  | recv =>
      simp only [Worker.step, Worker.recv] at hs
      split at hs <;> cases hs <;> rfl

/-- With no send of the caller waiting, none appears: only a method call sends. -/
theorem caller_none_step {e : Event} (hc : w.caller = none) (hs : w.step e = some w')
    (hop : ∀ o, e ≠ .op o) : w'.caller = none := by
  by_cases he : e = .flush
  · subst he; simp [Worker.step, Worker.flush, hc] at hs
  · rw [caller_step_eq hs hop he, hc]

/-- A task step leaves the listener where it is, and a full slot full: a task's `Wait` waits for
the slot as the caller's send does. -/
theorem task_step_full {t : StopTask} (hs : w.step (.task t) = some w') (hsl : w.slot.isSome) :
    w'.slot = w.slot ∧ w'.listener = w.listener := by
  simp only [Worker.step] at hs
  split at hs
  · rcases t with ⟨_ | r, _ | _⟩ <;> simp only [Worker.runTask] at hs
    · cases hs; exact ⟨rfl, rfl⟩
    · split at hs
      · cases hs; exact ⟨rfl, rfl⟩
      · split at hs <;> cases hs
        rename_i hn; simp [hn] at hsl
    all_goals cases hs; exact ⟨rfl, rfl⟩
  · cases hs

/-- A blocked send can always make progress: it can complete (into the freed slot, or failing
on a closed channel), or the listener can receive, or the listener is still binding. -/
theorem blocked_progress (hc : w.caller.isSome) :
    w.flush.isSome ∨ w.recv.isSome ∨ w.listener = .binding := by
  obtain ⟨m, hm⟩ := Option.isSome_iff_exists.1 hc
  by_cases hcl : w.closed = true
  · simp [Worker.flush, hm, hcl]
  rcases hsl : w.slot with _ | x
  · simp [Worker.flush, hm, hcl, hsl]
  · rcases hl : w.listener <;> simp_all [closed, Worker.recv]
    cases x <;> simp

end Worker
end CassieCool
