import CassieCool.Worker.Basic
import Mathlib.Data.List.Sort

/-!
# Cancel — every runtime is held once or cancelled once

A production runtime is held by its `Terminate` in `worker_handlers` until `stop_runtime` pops
it and spawns the task that sends its cancellation; a development runtime is held by
`watch_tx` until `stop_watch_runtime` takes the sender and spawns the task that sends `true`.
Counting references and dispatched cancellations per runtime gives a conservation law: every
runtime spawned has exactly one of the two, and no other number has either.

`start_watch_runtime` itself does not look at `watch_tx`: called while a development runtime
runs, it overwrites the sender, and the old runtime is then neither held nor cancelled.  Its
callers call it only when `watch_tx` is `None` (the `start` handler checks
`watch_tx.is_none()`, and `restart` stops the development runtime first); `WatchGuarded` is that
condition, and the law holds over every run that keeps it.
-/

namespace CassieCool
namespace Worker

variable {w w' : Worker}

/-- The references the object holds to runtime `i`: its production handles and its watch
sender. -/
def refs (w : Worker) (i : Nat) : Nat :=
  (w.thread.workerHandlers.map (·.runtime)).count i + if w.thread.watchTx = some i then 1 else 0

/-- The cancellations of runtime `i` sent, or held by a spawned task that will send them. -/
def dispatched (w : Worker) (i : Nat) : Nat :=
  w.signalled.count i + w.tasks.countP (fun t => t.cancel = some i)

/-- The runtimes that have been spawned are numbered below `w.runtimes.length`. -/
def spawned (w : Worker) (i : Nat) : Nat := if i < w.runtimes.length then 1 else 0

/-- The invariant of the cancellation bookkeeping. -/
structure CancelInv (w : Worker) : Prop where
  /-- Each spawned runtime is held once or has one cancellation dispatched, and nothing else. -/
  conserved : ∀ i, refs w i + dispatched w i = spawned w i
  /-- The handles are newest first. -/
  sorted : (w.thread.workerHandlers.map (·.runtime)).Sorted (· > ·)
  /-- The handles hold production runtimes. -/
  prod : ∀ h ∈ w.thread.workerHandlers, (w.runtimes[h.runtime]?.map (·.watch)) = some false
  /-- The watch sender holds a development runtime. -/
  dev : ∀ j, w.thread.watchTx = some j → (w.runtimes[j]?.map (·.watch)) = some true
  /-- A dropped object holds nothing. -/
  dropped : w.dropped = true → w.thread.workerHandlers = [] ∧ w.thread.watchTx = none

theorem cancelInv_init (project : Project) (port : WorkerPort) :
    CancelInv (init project port) where
  conserved i := by simp [refs, dispatched, spawned, init]
  sorted := by simp [init]
  prod := by simp [init]
  dev := by simp [init]
  dropped := by simp [init]

/-- A runtime the object holds has been spawned. -/
theorem CancelInv.lt_of_refs (h : CancelInv w) {i : Nat} (hi : 0 < refs w i) :
    i < w.runtimes.length := by
  have := h.conserved i
  unfold spawned at this
  split at this <;> omega

theorem CancelInv.lt_of_mem (h : CancelInv w) {hand : Terminate}
    (hm : hand ∈ w.thread.workerHandlers) : hand.runtime < w.runtimes.length :=
  h.lt_of_refs (by
    have : 0 < (w.thread.workerHandlers.map (·.runtime)).count hand.runtime :=
      List.count_pos_iff.2 (List.mem_map_of_mem _ hm)
    unfold refs; omega)

theorem CancelInv.lt_of_watch (h : CancelInv w) {j : Nat} (hj : w.thread.watchTx = some j) :
    j < w.runtimes.length :=
  h.lt_of_refs (by simp [refs, hj])

/-- Spawning a runtime leaves the kinds of the older ones as they were. -/
theorem getElem?_watch_append {rs : List Runtime} {rt : Runtime} {i : Nat} (hi : i < rs.length) :
    ((rs ++ [rt])[i]?.map (·.watch)) = (rs[i]?.map (·.watch)) := by
  rw [List.getElem?_append_left hi]

/-- Spawning one more runtime after `n` counts runtime `i` as spawned when it is the new one or
an older one. -/
theorem spawned_push_eq (n i : Nat) :
    (if i < n + 1 then 1 else 0) = (if n = i then 1 else 0) + (if i < n then 1 else 0) := by
  rcases Nat.lt_trichotomy i n with hi | rfl | hi
  · simp [hi, Nat.lt_succ_of_lt hi, hi.ne']
  · simp
  · simp [hi.ne, Nat.not_lt.2 hi.le, Nat.not_lt.2 (Nat.succ_le_of_lt hi)]

/-! ## The methods keep the invariant -/

theorem CancelInv.startWatchRuntime (h : CancelInv w) (hd : w.dropped = false)
    (hw : w.thread.watchTx = none) : CancelInv (startWatchRuntime w) where
  conserved i := by
    have := h.conserved i
    simp only [refs, dispatched, spawned, hw, startWatchRuntime_thread, startWatchRuntime_tasks,
      startWatchRuntime_signalled, startWatchRuntime_runtimes, List.length_append,
      List.length_singleton, Option.some.injEq, reduceCtorEq, if_false, spawned_push_eq] at this ⊢
    omega
  sorted := h.sorted
  prod hand hm := by
    simpa [getElem?_watch_append (h.lt_of_mem hm)] using h.prod hand hm
  dev j hj := by
    simp only [startWatchRuntime_thread, Option.some.injEq] at hj
    subst hj
    simp
  dropped hd' := absurd hd' (by simp [hd])

theorem CancelInv.startRuntime (h : CancelInv w) (hd : w.dropped = false) :
    CancelInv (startRuntime w) where
  conserved i := by
    have := h.conserved i
    simp only [refs, dispatched, spawned, startRuntime_thread, startRuntime_tasks,
      startRuntime_signalled, startRuntime_runtimes, List.map_cons, List.count_cons,
      List.length_append, List.length_singleton, beq_iff_eq, spawned_push_eq] at this ⊢
    omega
  sorted := by
    simp only [startRuntime_thread, List.map_cons, List.sorted_cons, List.mem_map]
    exact ⟨fun _ ⟨hand, hm, he⟩ => he ▸ h.lt_of_mem hm, h.sorted⟩
  prod hand hm := by
    simp only [startRuntime_thread, List.mem_cons] at hm
    rcases hm with rfl | hm
    · simp
    · simpa [getElem?_watch_append (h.lt_of_mem hm)] using h.prod hand hm
  dev j hj := by
    simp only [startRuntime_thread] at hj
    simpa [getElem?_watch_append (h.lt_of_watch hj)] using h.dev j hj
  dropped hd' := absurd hd' (by simp [hd])

theorem CancelInv.startDebuggerRuntime (h : CancelInv w) (hd : w.dropped = false) :
    CancelInv (startDebuggerRuntime w) := by
  unfold Worker.startDebuggerRuntime
  split
  · exact CancelInv.startRuntime (w := { w with thread.openDebugServer := true })
      ⟨h.1, h.2, h.3, h.4, h.5⟩ hd
  · exact h

theorem CancelInv.stopWatchRuntime (h : CancelInv w) : CancelInv (stopWatchRuntime w) where
  conserved i := by
    have := h.conserved i
    simp only [refs, dispatched, spawned, Worker.stopWatchRuntime, List.countP_append,
      List.countP_cons, List.countP_nil, decide_eq_true_eq] at this ⊢
    cases hw : w.thread.watchTx <;>
      simp only [hw, Option.some.injEq, reduceCtorEq, if_false] at this ⊢ <;> omega
  sorted := h.sorted
  prod := h.prod
  dev j hj := by simp [Worker.stopWatchRuntime] at hj
  dropped hd := ⟨(h.dropped hd).1, rfl⟩

theorem CancelInv.stopRuntime (h : CancelInv w) : CancelInv (stopRuntime w).2 := by
  rcases hh : w.thread.workerHandlers with _ | ⟨hand, rest⟩
  · rw [stopRuntime_of_nil hh]; exact h
  · rw [stopRuntime_of_cons hh]
    refine ⟨fun i => ?_, ?_, fun hand' hm => h.prod hand' (by simp [hh, hm]), h.dev,
      fun hd => by simp [(h.dropped hd).1] at hh⟩
    · have := h.conserved i
      simp only [refs, dispatched, spawned, hh, List.map_cons, List.count_cons, List.countP_append,
        List.countP_cons, List.countP_nil, beq_iff_eq, decide_eq_true_eq, Option.some.injEq]
        at this ⊢
      omega
    · have := h.sorted
      rw [hh, List.map_cons, List.sorted_cons] at this
      exact this.2

theorem CancelInv.stopAllRuntime (h : CancelInv w) : CancelInv (stopAllRuntime w) :=
  stopAllLoop_induct CancelInv (fun _ hv => hv.stopRuntime) _ _ h.stopWatchRuntime

theorem CancelInv.drop (h : CancelInv w) : CancelInv (drop w) :=
  have h₁ := h.stopAllRuntime
  ⟨h₁.conserved, h₁.sorted, h₁.prod, h₁.dev,
    fun _ => ⟨stopAllRuntime_workerHandlers w, stopAllRuntime_watchTx w⟩⟩

theorem CancelInv.apply (h : CancelInv w) (hd : w.dropped = false) :
    ∀ o : Op, (o = .startWatchRuntime → w.thread.watchTx = none) → CancelInv (o.apply w)
  | .startWatchRuntime, hg => h.startWatchRuntime hd (hg rfl)
  | .stopWatchRuntime, _ => h.stopWatchRuntime
  | .startRuntime, _ => h.startRuntime hd
  | .startDebuggerRuntime, _ => h.startDebuggerRuntime hd
  | .stopRuntime, _ => h.stopRuntime
  | .stopAllRuntime, _ => h.stopAllRuntime
  | .drop, _ => h.drop

/-! ## The spawned tasks and the listener keep the invariant -/

/-- Removing one task from the pool removes its cancellation from the count. -/
theorem countP_cancel_erase {ts : List StopTask} {t : StopTask} (ht : t ∈ ts) (x : Option Nat) :
    (ts.erase t).countP (fun u => u.cancel = x) + (if t.cancel = x then 1 else 0) =
      ts.countP (fun u => u.cancel = x) := by
  have := (List.perm_cons_erase ht).countP_eq (fun u => decide (u.cancel = x))
  rw [List.countP_cons] at this
  simpa only [decide_eq_true_eq] using this.symm

/-- A task step moves a cancellation from the task to the runtime's channel, or moves none. -/
theorem dispatched_runTask {t : StopTask} (ht : t ∈ w.tasks) (hs : w.runTask t = some w')
    (i : Nat) : dispatched w' i = dispatched w i := by
  have := countP_cancel_erase ht (some i)
  rcases t with ⟨_ | r, _ | _⟩ <;> simp only [Worker.runTask] at hs
  · cases hs; simp_all [dispatched]
  · split at hs
    · cases hs; simp_all [dispatched]
    · split at hs <;> cases hs; simp_all [dispatched]
  all_goals
    cases hs
    simp only [dispatched, List.count_append, List.countP_append, List.count_cons, List.count_nil,
      List.countP_cons, List.countP_nil, beq_iff_eq, decide_eq_true_eq, Option.some.injEq,
      reduceCtorEq, ↓reduceIte] at this ⊢
    omega

theorem CancelInv.step {e : Event} (h : CancelInv w) (hg : WatchGuarded w e)
    (hs : w.step e = some w') : CancelInv w' := by
  by_cases he : ∃ o, e = .op o
  · obtain ⟨o, rfl⟩ := he
    simp only [Worker.step] at hs
    split at hs
    · rename_i hi
      cases hs
      simp only [idle, Bool.and_eq_true, Bool.not_eq_true'] at hi
      exact h.apply hi.2 o (fun ho => hg (ho ▸ rfl))
    · cases hs
  · push_neg at he
    obtain ⟨hth, hr, hd, hts⟩ := step_frame he hs
    have hdisp : ∀ i, dispatched w' i = dispatched w i := by
      by_cases ht : ∃ t, e = .task t
      · obtain ⟨t, rfl⟩ := ht
        simp only [Worker.step] at hs
        split at hs
        · exact dispatched_runTask ‹_› hs
        · cases hs
      · push_neg at ht
        obtain ⟨h1, h2⟩ := hts ht
        simp [dispatched, h1, h2]
    refine ⟨fun i => ?_, ?_, ?_, ?_, ?_⟩
    · simpa [refs, spawned, hth, hr, hdisp] using h.conserved i
    · rw [hth]; exact h.sorted
    · rw [hth, hr]; exact h.prod
    · rw [hth, hr]; exact h.dev
    · rw [hth, hd]; exact h.dropped

theorem Reach.cancelInv (hr : Reach WatchGuarded w) : CancelInv w := by
  induction hr with
  | new project port => exact cancelInv_init project port
  | step _ hg hs ih => exact ih.step hg hs

/-! ## Held once or cancelled once -/

/-- `stop_runtime` cancels the newest production runtime not yet cancelled: its task carries a
production runtime with no cancellation dispatched, and every production runtime spawned after
that one has had its cancellation dispatched. -/
theorem CancelInv.stopRuntime_newest (h : CancelInv w) (hs : Worker.stopRuntime w = (true, w')) :
    ∃ j wait, w'.tasks = w.tasks ++ [⟨some j, wait⟩] ∧
      (w.runtimes[j]?.map (·.watch)) = some false ∧ dispatched w j = 0 ∧
      ∀ i, j < i → (w.runtimes[i]?.map (·.watch)) = some false → dispatched w i = 1 := by
  rcases hh : w.thread.workerHandlers with _ | ⟨hand, rest⟩
  · rw [stopRuntime_of_nil hh] at hs; cases hs
  rw [stopRuntime_of_cons hh] at hs
  cases hs
  have hmem : hand ∈ w.thread.workerHandlers := hh ▸ List.mem_cons_self _ _
  refine ⟨hand.runtime, _, rfl, h.prod hand hmem, ?_, fun i hi hk => ?_⟩
  · have hc := h.conserved hand.runtime
    have hpos : 0 < (w.thread.workerHandlers.map (·.runtime)).count hand.runtime :=
      List.count_pos_iff.2 (List.mem_map_of_mem _ hmem)
    simp only [refs, spawned, h.lt_of_mem hmem, if_true] at hc
    omega
  · have hlt : i < w.runtimes.length := by
      by_contra hge
      rw [List.getElem?_eq_none (by omega)] at hk
      cases hk
    have hsorted := h.sorted
    rw [hh, List.map_cons, List.sorted_cons] at hsorted
    have hnot : i ∉ w.thread.workerHandlers.map (·.runtime) := by
      rw [hh, List.map_cons, List.mem_cons]
      rintro (rfl | hm)
      · exact absurd hi (lt_irrefl _)
      · exact absurd (hsorted.1 i hm) (by omega)
    have hwatch : w.thread.watchTx ≠ some i := fun hw => by
      have := h.dev i hw
      rw [hk] at this
      cases this
    have hc := h.conserved i
    simp only [refs, spawned, hlt, if_true, List.count_eq_zero.2 hnot, hwatch, if_false] at hc
    omega

/-- The cancellation ledger of a worker: every runtime spawned is held by exactly one handle or
by the watch sender, or has had exactly one cancellation dispatched; a `stop_runtime` cancels
the newest production runtime not yet cancelled; and once the object is dropped, every runtime
spawned has had exactly one cancellation dispatched. -/
def CancelLedger (w : Worker) : Prop :=
  (∀ i < w.runtimes.length,
      (refs w i = 1 ∧ dispatched w i = 0) ∨ (refs w i = 0 ∧ dispatched w i = 1)) ∧
    (∀ w', stopRuntime w = (true, w') → ∃ j wait, w'.tasks = w.tasks ++ [⟨some j, wait⟩] ∧
      (w.runtimes[j]?.map (·.watch)) = some false ∧ dispatched w j = 0 ∧
      ∀ i, j < i → (w.runtimes[i]?.map (·.watch)) = some false → dispatched w i = 1) ∧
    (w.dropped = true → ∀ i < w.runtimes.length, dispatched w i = 1)

/-- Over every sequence of calls whose `start_watch_runtime` calls find no watch sender, and
every schedule of the spawned tasks and the listener, the ledger holds. -/
theorem cancel_ledger_of_guarded (hr : Reach WatchGuarded w) : CancelLedger w := by
  have h := hr.cancelInv
  refine ⟨fun i hi => ?_, fun w' hs => h.stopRuntime_newest hs, fun hd i hi => ?_⟩
  · have hc := h.conserved i
    simp only [spawned, hi, if_true] at hc
    omega
  · have hc := h.conserved i
    obtain ⟨hh, hw⟩ := h.dropped hd
    simp only [refs, spawned, hi, if_true, hh, hw, List.map_nil, List.count_nil, reduceCtorEq,
      if_false] at hc
    omega

/-- Two production starts, a stop and the drop: the ledger at a reachable state. -/
theorem cancel_ledger_after_drop :
    let w := ((init ⟨"demo", "code/demo/app.ts"⟩ ⟨3001, by decide⟩).run
      [.op .startRuntime, .op .startRuntime, .op .stopRuntime, .op .drop]).get (by decide)
    Reach WatchGuarded w ∧ CancelLedger w := by
  intro w
  have hr : Reach WatchGuarded w := Reach.run (.new _ _) _
    (by intro e he v hv; simp only [List.mem_cons, List.not_mem_nil, or_false] at he
        rcases he with rfl | rfl | rfl | rfl <;> cases hv)
    (Option.some_get _).symm
  exact ⟨hr, cancel_ledger_of_guarded hr⟩

/-- Calling `start_watch_runtime` twice (the listener taking each `Start`) and dropping the
object: the first development runtime is neither held nor ever cancelled. -/
theorem second_watch_start_orphans :
    let w := ((init ⟨"demo", "code/demo/app.ts"⟩ ⟨3001, by decide⟩).run
      [.op .startWatchRuntime, .bind true, .recv, .op .startWatchRuntime, .recv,
        .op .drop]).get (by decide)
    Reachable w ∧ w.dropped = true ∧ 0 < w.runtimes.length ∧ refs w 0 = 0 ∧ dispatched w 0 = 0 :=
  ⟨Reachable.run (.new _ _) _ (Option.some_get _).symm, by decide, by decide, by decide,
    by decide⟩

/-! ## The handles are the production runtimes still running -/

/-- The runtimes spawned as development (`watch`) or production runtimes that no cancellation
has been dispatched to. -/
def running (w : Worker) (watch : Bool) : List Nat :=
  (List.range w.runtimes.length).filter fun i =>
    (w.runtimes[i]?.map (·.watch)) = some watch ∧ dispatched w i = 0

theorem nodup_running (watch : Bool) : (running w watch).Nodup := (List.nodup_range _).filter _

theorem mem_running {watch : Bool} {i : Nat} :
    i ∈ running w watch ↔
      i < w.runtimes.length ∧ (w.runtimes[i]?.map (·.watch)) = some watch ∧ dispatched w i = 0 := by
  simp [running]

/-- A runtime held once has had no cancellation dispatched, and a runtime spawned with none
dispatched is held once. -/
theorem CancelInv.dispatched_eq_zero_iff (h : CancelInv w) {i : Nat} (hi : i < w.runtimes.length) :
    dispatched w i = 0 ↔ 0 < refs w i := by
  have := h.conserved i
  simp only [spawned, hi, if_true] at this
  omega

/-- The production handles are the production runtimes still running. -/
theorem CancelInv.handles_perm_running (h : CancelInv w) :
    (w.thread.workerHandlers.map (·.runtime)).Perm (running w false) := by
  have hnd : (w.thread.workerHandlers.map (·.runtime)).Nodup := h.sorted.imp ne_of_gt
  refine (List.perm_ext_iff_of_nodup hnd (nodup_running false)).2 fun i => ?_
  rw [mem_running]
  constructor
  · intro hm
    obtain ⟨hand, hmem, rfl⟩ := List.mem_map.1 hm
    have hlt := h.lt_of_mem hmem
    refine ⟨hlt, h.prod hand hmem, (h.dispatched_eq_zero_iff hlt).2 ?_⟩
    have := List.count_pos_iff.2 hm
    unfold refs; omega
  · rintro ⟨hlt, hprod, hd⟩
    have hpos := (h.dispatched_eq_zero_iff hlt).1 hd
    have hwatch : w.thread.watchTx ≠ some i := fun hw => by
      have := h.dev i hw
      rw [hprod] at this
      cases this
    simp only [refs, hwatch, if_false, Nat.add_zero] at hpos
    exact List.count_pos_iff.1 hpos

/-- The watch sender holds the one development runtime still running, if any. -/
theorem CancelInv.watch_perm_running (h : CancelInv w) :
    (running w true).Perm w.thread.watchTx.toList := by
  have hnd : w.thread.watchTx.toList.Nodup := by cases w.thread.watchTx <;> simp
  refine (List.perm_ext_iff_of_nodup (nodup_running true) hnd).2 fun i => ?_
  rw [mem_running, Option.mem_toList, Option.mem_def]
  constructor
  · rintro ⟨hlt, hdev, hd⟩
    have hpos := (h.dispatched_eq_zero_iff hlt).1 hd
    have hnot : i ∉ w.thread.workerHandlers.map (·.runtime) := fun hm => by
      obtain ⟨hand, hmem, rfl⟩ := List.mem_map.1 hm
      have := h.prod hand hmem
      rw [hdev] at this
      cases this
    simp only [refs, List.count_eq_zero.2 hnot, Nat.zero_add] at hpos
    by_contra hw
    simp [hw] at hpos
  · intro hw
    have hlt := h.lt_of_watch hw
    exact ⟨hlt, h.dev i hw, (h.dispatched_eq_zero_iff hlt).2 (by simp [refs, hw])⟩

end Worker
end CassieCool
