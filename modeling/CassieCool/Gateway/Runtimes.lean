import CassieCool.Gateway.Workers
import CassieCool.Worker.Cancel

/-!
# Runtimes — what the gateway's workers spawn and cancel

The handlers call `start_watch_runtime` only through the `start` handler, which checks
`watch_tx.is_none()` first, so every worker the gateway holds, in `WORKER_TABLE` or retired by
`exit`, keeps the cancellation law of `Worker.CancelInv` (`TableInv.worker`, `TableInv.retired`).
Read at the level of the whole gateway:

* no runtime is orphaned or cancelled twice: each one a tenant's worker spawned is held by one
  handle or by the watch sender, or has had one cancellation dispatched; a worker `exit` removed
  holds none, so each of its runtimes has had exactly one;
* `get_runtime_info` counts the production runtimes not yet asked to stop.
-/

namespace CassieCool
namespace Gateway

variable {g g' : Gateway} {e : Event}

/-! ## Retired workers -/

/-- A property of the workers `exit` removes that their own steps keep holds of every retired
worker. -/
theorem Reach.retired_induct (hr : Reach g) (P : Worker → Prop) (hdrop : ∀ w : Worker, P w.drop)
    (hstep : ∀ (w w' : Worker) (e : Worker.Event), (∀ o, e ≠ .op o) → P w →
      w.step e = some w' → P w') :
    ∀ w ∈ g.retired, P w := by
  refine Reach.induct (fun g => ∀ w ∈ g.retired, P w) (fun w hw => by simp [Gateway.init] at hw)
    (fun g e g' _ ih hs => ?_) g hr
  cases hs with
  | wait => exact ih
  | call _ hc =>
      cases hc with
      | same | panic | spin | update | create => exact ih
      | exit =>
          intro v hv
          rcases List.mem_append.1 hv with hv | hv
          · exact ih v hv
          · rw [List.mem_singleton.1 hv]; exact hdrop _
  | worker => exact ih
  | retired he hw hs =>
      intro v hv
      rcases List.mem_or_eq_of_mem_set hv with hv | rfl
      · exact ih v hv
      · exact hstep _ _ _ he (ih _ (List.getElem?_mem hw)) hs

/-- Every worker `exit` removed has been dropped. -/
theorem Reach.retired_dropped (hr : Reach g) : ∀ w ∈ g.retired, w.dropped = true :=
  hr.retired_induct _ (fun _ => rfl) fun _ _ _ he hd hs => (Worker.step_frame he hs).2.2.1.trans hd

/-! ## Every runtime is held once or cancelled once -/

/-- Over every run of the control API and every schedule of the workers, no runtime is
orphaned or cancelled twice: a runtime spawned by a tenant's worker is held by exactly one
handle or by the watch sender, or has had exactly one cancellation dispatched (sent, or held by
a stop task), and not both; a worker `exit` removed holds none, so each runtime it spawned has
had exactly one.  No number that names no runtime gets a cancellation. -/
theorem runtimes_cancelled_once (hr : Reach g) :
    (∀ key w, g.workerTable.lookup key = some w → ∀ i,
      Worker.refs w i + Worker.dispatched w i = if i < w.runtimes.length then 1 else 0) ∧
    ∀ w ∈ g.retired, ∀ i, Worker.dispatched w i = if i < w.runtimes.length then 1 else 0 := by
  have h := hr.tableInv
  refine ⟨fun key w hw => (h.worker key w hw).1.cancelInv.conserved, fun w hw i => ?_⟩
  have hinv := (h.retired w hw).cancelInv
  obtain ⟨hh, hwatch⟩ := hinv.dropped (hr.retired_dropped w hw)
  simpa [Worker.refs, Worker.spawned, hh, hwatch] using hinv.conserved i

/-- `demo` with a production and a development runtime, removed by `exit`. -/
theorem runtimes_cancelled_after_exit :
    let g := (init.run [.call .proStart "demo" (fun _ => true), .worker ⟨"demo"⟩ (.bind true),
      .worker ⟨"demo"⟩ .recv, .call .start "demo" (fun _ => true),
      .call .exit "demo" (fun _ => true)]).get (by decide)
    Reach g ∧ ((∀ key w, g.workerTable.lookup key = some w → ∀ i,
      Worker.refs w i + Worker.dispatched w i = if i < w.runtimes.length then 1 else 0) ∧
    ∀ w ∈ g.retired, ∀ i, Worker.dispatched w i = if i < w.runtimes.length then 1 else 0) :=
  have hr : Reach _ := Reach.run .init _ (Option.some_get _).symm
  ⟨hr, runtimes_cancelled_once hr⟩

/-! ## `get_runtime_info` counts the running production runtimes -/

/-- In every reachable state `get_runtime_info` reports, for a tenant with a worker, the number
of its production runtimes not yet asked to stop, or 1 when none runs but its development runtime
does; and a tenant never has two development runtimes running. -/
theorem info_counts_running (hr : Reach g) (hs : g.spinning = none)
    (hp : g.tablePoisoned = false) (isFree : Nat → Bool) {code : String} {w : Worker}
    (hw : g.workerTable.lookup ⟨code⟩ = some w) :
    (Worker.running w true).length ≤ 1 ∧
    (g.call isFree .info code).1 = .reply (.info
      (if (Worker.running w false).length = 0 ∧ (Worker.running w true).length = 1 then 1
        else (Worker.running w false).length) code ("请求头上添加 product_code=" ++ code)) := by
  have hinv := (hr.tableInv.worker _ w hw).1.cancelInv
  have hprod := hinv.handles_perm_running.length_eq
  have hdev := hinv.watch_perm_running.length_eq
  rw [List.length_map] at hprod
  refine ⟨by rw [hdev]; cases w.thread.watchTx <;> simp, ?_⟩
  simp only [call, hs, hp, Bool.false_eq_true, ↓reduceIte, serve_info, getRuntimeInfo, hw, ← hprod,
    hdev]
  cases w.thread.watchTx <;> simp

/-- `demo` in development mode with one production runtime. -/
theorem info_counts_after_starts :
    let g := (init.run [.call .start "demo" (fun _ => true),
      .call .proStart "demo" (fun _ => true)]).get (by decide)
    let w := (g.workerTable.lookup ⟨"demo"⟩).get (by decide)
    Reach g ∧ g.spinning = none ∧ g.tablePoisoned = false ∧
      g.workerTable.lookup ⟨"demo"⟩ = some w ∧
      ((Worker.running w true).length ≤ 1 ∧
        (g.call (fun _ => true) .info "demo").1 = .reply (.info
          (if (Worker.running w false).length = 0 ∧ (Worker.running w true).length = 1 then 1
            else (Worker.running w false).length) "demo" ("请求头上添加 product_code=" ++ "demo"))) :=
  have hr : Reach _ := Reach.run .init _ (Option.some_get _).symm
  ⟨hr, by decide, by decide, (Option.some_get _).symm,
    info_counts_running hr (by decide) (by decide) _ (Option.some_get _).symm⟩

end Gateway
end CassieCool
