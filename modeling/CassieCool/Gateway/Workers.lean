import CassieCool.Gateway.Basic
import CassieCool.Worker.Lifecycle

/-!
# Workers — the gateway's workers and its two tables

Every worker the gateway holds, in `WORKER_TABLE` or retired by `exit`, has gone through a run
of the worker model in which `start_watch_runtime` was called only with no watch sender: the
handlers call methods only on idle workers, and the `start` handler checks `watch_tx` first.
So every law of such workers holds of the gateway's (`TableInv.worker`).

The tables agree: `PORT_TABLE` and `WORKER_TABLE` have the same tenants, each worker is stored
under its own id, and `PORT_TABLE` has its port.  `Exit` is sent only by `Drop`, so the listener
of a worker in the table has not left its loop; it may still have died in
`bind(..).await.unwrap()`, which the `start` call that created the worker never learns of.
-/

namespace CassieCool

theorem Worker.step_op {w : Worker} (hc : w.caller = none) (hd : w.dropped = false)
    (o : Worker.Op) : w.step (.op o) = some (o.apply w) := by
  simp [Worker.step, Worker.idle, hc, hd]

theorem Request.eq_of_mem_methods {req : Request} {o : Worker.Op} (h : o ∈ req.methods) :
    o = .startDebuggerRuntime → req = .startDebugger := by
  rintro rfl; cases req <;> simp [Request.methods] at h ⊢

namespace Gateway

variable {g g' : Gateway} {e : Event}

/-- The invariant linking the gateway to its workers and its two tables. -/
structure TableInv (g : Gateway) : Prop where
  /-- A worker of the table is reachable, with `start_watch_runtime` called only when there was
  no watch sender; it is not dropped, it is stored under its id, and `PORT_TABLE` has its
  port. -/
  worker : ∀ key w, g.workerTable.lookup key = some w →
    Worker.Reach Worker.WatchGuarded w ∧ w.dropped = false ∧ w.thread.id = key ∧
      g.portTable.lookup key = some w.thread.port
  /-- `PORT_TABLE` has no other tenant. -/
  portKeys : ∀ key, key ∈ g.portTable → key ∈ g.workerTable
  /-- A dropped worker is reachable in the same way. -/
  retired : ∀ w ∈ g.retired, Worker.Reach Worker.WatchGuarded w

theorem tableInv_init : TableInv init where
  worker _ _ h := by simp [init] at h
  portKeys _ h := absurd h (AList.not_mem_empty _)
  retired _ h := by simp [init] at h

/-- Storing a successor of a tenant's worker, with the same id and port, keeps the invariant. -/
theorem TableInv.replace (h : TableInv g) {key : ScriptWorkerId} {w w' : Worker}
    (hw : g.workerTable.lookup key = some w) (hr : Worker.Reach Worker.WatchGuarded w')
    (hd : w'.dropped = false) (hid : w'.thread.id = w.thread.id)
    (hp : w'.thread.port = w.thread.port) :
    TableInv { g with workerTable := g.workerTable.insert key w' } where
  worker k v hv := by
    by_cases hk : k = key
    · subst hk
      simp only [AList.lookup_insert, Option.some.injEq] at hv
      subst hv
      obtain ⟨-, -, hid₀, hp₀⟩ := h.worker k w hw
      exact ⟨hr, hd, hid.trans hid₀, hp ▸ hp₀⟩
    · rw [AList.lookup_insert_ne hk] at hv
      exact h.worker k v hv
  portKeys k hk := (AList.mem_insert _).2 (.inr (h.portKeys k hk))
  retired := h.retired

theorem TableInv.update (h : TableInv g) {key : ScriptWorkerId} {w : Worker} {o : Worker.Op}
    (hw : g.workerTable.lookup key = some w) (hc : w.caller = none)
    (hg : Worker.WatchGuarded w (.op o)) (ho : o ≠ .drop) :
    TableInv { g with workerTable := g.workerTable.insert key (o.apply w) } :=
  have hw' := h.worker key w hw
  h.replace hw (.step hw'.1 hg (Worker.step_op hc hw'.2.1 o))
    (by simpa [ho, hw'.2.1] using (Worker.Op.apply_flags o w).1)
    (Worker.Op.apply_identity o w).1 (Worker.Op.apply_identity o w).2

theorem TableInv.create (h : TableInv g) {code : String} {p : WorkerPort} {o : Worker.Op}
    (ho : o ≠ .drop) :
    TableInv { g with
      workerPort := p
      portTable := g.portTable.insert ⟨code⟩ p
      assigned := g.assigned ++ [(⟨code⟩, p)]
      workerTable := g.workerTable.insert ⟨code⟩
        (o.apply (Worker.init ⟨code, scriptPath code⟩ p)) } where
  worker k v hv := by
    by_cases hk : k = ⟨code⟩
    · subst hk
      simp only [AList.lookup_insert, Option.some.injEq] at hv
      subst hv
      have hid := Worker.Op.apply_identity o (Worker.init ⟨code, scriptPath code⟩ p)
      refine ⟨.step (.new _ _) (fun _ => rfl) (Worker.step_op rfl rfl o), ?_, hid.1, ?_⟩
      · simpa [ho] using (Worker.Op.apply_flags o (Worker.init ⟨code, scriptPath code⟩ p)).1
      · simp only [AList.lookup_insert, hid.2]; rfl
    · rw [AList.lookup_insert_ne hk] at hv
      obtain ⟨hr, hd, hid, hp⟩ := h.worker k v hv
      exact ⟨hr, hd, hid, by simpa [AList.lookup_insert_ne hk] using hp⟩
  portKeys k hk := by
    rcases (AList.mem_insert _).1 hk with rfl | hk
    · exact (AList.mem_insert _).2 (.inl rfl)
    · exact (AList.mem_insert _).2 (.inr (h.portKeys k hk))
  retired := h.retired

theorem TableInv.exit (h : TableInv g) {code : String} {w : Worker}
    (hw : g.workerTable.lookup ⟨code⟩ = some w) (hc : w.caller = none) :
    TableInv { g with
      workerTable := g.workerTable.erase ⟨code⟩
      portTable := g.portTable.erase w.thread.id
      retired := g.retired ++ [w.drop] } := by
  obtain ⟨hr, hd, hid, -⟩ := h.worker _ w hw
  rw [hid]
  refine ⟨fun k v hv => ?_, fun k hk => ?_, fun v hv => ?_⟩
  · have hk : k ≠ ⟨code⟩ := by rintro rfl; simp at hv
    rw [AList.lookup_erase_ne hk] at hv ⊢
    exact h.worker k v hv
  · obtain ⟨hk, hk'⟩ := AList.mem_erase.1 hk
    exact AList.mem_erase.2 ⟨hk, h.portKeys k hk'⟩
  · rcases List.mem_append.1 hv with hv | hv
    · exact h.retired v hv
    · rw [List.mem_singleton.1 hv]
      exact .step hr (fun h => by cases h) (Worker.step_op hc hd .drop)

theorem TableInv.callStep (h : TableInv g) {req : Request} {code : String}
    (hs : CallStep g req code g') : TableInv g' := by
  cases hs with
  | same => exact h
  | panic => exact ⟨h.worker, h.portKeys, h.retired⟩
  | spin _ => exact ⟨h.worker, h.portKeys, h.retired⟩
  | update hw hc hg hm => exact h.update hw hc hg (ne_of_mem_of_not_mem hm (req.drop_not_mem))
  | create _ _ hm => exact h.create (ne_of_mem_of_not_mem hm (req.drop_not_mem))
  | exit hw hc => exact h.exit hw hc

theorem TableInv.step (h : TableInv g) (hs : Step g e g') : TableInv g' := by
  cases hs with
  | wait => exact h
  | call _ hc => exact (⟨h.worker, h.portKeys, h.retired⟩ : TableInv { g with spinning := none }).callStep hc
  | worker he hw hs =>
      obtain ⟨hth, -, hd, -⟩ := Worker.step_frame he hs
      have hw' := h.worker _ _ hw
      exact h.replace hw (.step hw'.1 (fun h => absurd h (he _)) hs) (hd.trans hw'.2.1)
        (by rw [hth]) (by rw [hth])
  | retired he hw hs =>
      refine ⟨h.worker, h.portKeys, fun v hv => ?_⟩
      rcases List.mem_or_eq_of_mem_set hv with hv | rfl
      · exact h.retired v hv
      · exact .step (h.retired _ (List.getElem?_mem hw)) (fun h => absurd h (he _)) hs

theorem Reach.tableInv (hr : Reach g) : TableInv g :=
  Reach.induct TableInv tableInv_init (fun _ _ _ _ h hs => h.step hs) g hr

/-- A worker of a reachable gateway is a reachable worker that has not been dropped. -/
theorem Reach.worker_reachable (hr : Reach g) {key : ScriptWorkerId} {w : Worker}
    (hw : g.workerTable.lookup key = some w) : Worker.Reachable w ∧ w.dropped = false :=
  have h := hr.tableInv.worker key w hw
  ⟨h.1.mono fun _ _ _ => trivial, h.2.1⟩

/-! ## The two tables -/

/-- In every reachable state `PORT_TABLE` and `WORKER_TABLE` have the same tenants, and a
tenant's `PORT_TABLE` entry is its worker's port, whose listener has not left its loop; an
`exit` that gets the guard leaves the tenant in neither table. -/
theorem port_table_matches_workers (hr : Reach g) :
    (∀ key, key ∈ g.portTable ↔ key ∈ g.workerTable) ∧
    (∀ key w, g.workerTable.lookup key = some w →
      g.portTable.lookup key = some w.thread.port ∧ w.listener ≠ .exited) ∧
    ∀ isFree code, g.spinning = none → g.tablePoisoned = false →
      (⟨code⟩ : ScriptWorkerId) ∉ (g.call isFree .exit code).2.workerTable ∧
      (⟨code⟩ : ScriptWorkerId) ∉ (g.call isFree .exit code).2.portTable := by
  have h := hr.tableInv
  refine ⟨fun key => ⟨h.portKeys key, fun hk => ?_⟩, fun key w hw => ?_, fun isFree code hs hp => ?_⟩
  · obtain ⟨w, hw⟩ := Option.isSome_iff_exists.1 (AList.lookup_isSome.2 hk)
    exact AList.lookup_isSome.1 (by simp [(h.worker key w hw).2.2.2])
  · obtain ⟨hreach, hd⟩ := hr.worker_reachable hw
    exact ⟨(h.worker key w hw).2.2.2, (hreach.exitUnsent hd).listener⟩
  · simp only [call, hs, hp, Bool.false_eq_true, ↓reduceIte, serve_exit, Gateway.exit]
    split
    · rename_i w hw
      simp [(h.worker _ w hw).2.2.1]
    · rename_i hw
      exact ⟨AList.lookup_eq_none.1 hw, fun hk => AList.lookup_eq_none.1 hw (h.portKeys _ hk)⟩

/-- A tenant with a development runtime and a production runtime, its listener serving. -/
theorem port_table_matches_after_starts :
    let g := (init.run [.call .start "demo" (fun _ => true), .worker ⟨"demo"⟩ (.bind true),
      .worker ⟨"demo"⟩ .recv, .call .proStart "demo" (fun _ => true)]).get (by decide)
    Reach g ∧ ((∀ key, key ∈ g.portTable ↔ key ∈ g.workerTable) ∧
      (∀ key w, g.workerTable.lookup key = some w →
        g.portTable.lookup key = some w.thread.port ∧ w.listener ≠ .exited) ∧
      ∀ isFree code, g.spinning = none → g.tablePoisoned = false →
        (⟨code⟩ : ScriptWorkerId) ∉ (g.call isFree .exit code).2.workerTable ∧
        (⟨code⟩ : ScriptWorkerId) ∉ (g.call isFree .exit code).2.portTable) :=
  have hr : Reach _ := Reach.run .init _ (Option.some_get _).symm
  ⟨hr, port_table_matches_workers hr⟩

/-- A `start` whose listener then fails to bind has already replied `成功启动`, and the tenant
stays in both tables with a dead listener. -/
theorem failed_bind_keeps_tenant :
    let g := (init.run [.call .start "demo" (fun _ => true),
      .worker ⟨"demo"⟩ (.bind false)]).get (by decide)
    (init.call (fun _ => true) .start "demo").1 = .reply (.text "成功启动") ∧ Reach g ∧
      (⟨"demo"⟩ : ScriptWorkerId) ∈ g.portTable ∧
      (g.workerTable.lookup ⟨"demo"⟩).map (·.listener) = some .crashed :=
  ⟨by decide, Reach.run .init _ (Option.some_get _).symm, by decide, by decide⟩

/-! ## Where a tenant's worker comes from -/

/-- After a step a tenant's worker is the one before, or one of the call's methods was called
on it, or it took a step of its own, or the call created it. -/
theorem Step.lookup_cases (hs : Step g e g') {key : ScriptWorkerId} {w' : Worker}
    (hw' : g'.workerTable.lookup key = some w') :
    g.workerTable.lookup key = some w' ∨
    (∃ w req isFree o, g.workerTable.lookup key = some w ∧ e = .call req key.name isFree ∧
      o ∈ req.methods ∧ w' = o.apply w) ∨
    (∃ w ev, g.workerTable.lookup key = some w ∧ (∀ o, ev ≠ .op o) ∧ w.step ev = some w') ∨
    (∃ req isFree o p, g.workerTable.lookup key = none ∧ e = .call req key.name isFree ∧
      o ∈ req.methods ∧ w' = o.apply (Worker.init ⟨key.name, scriptPath key.name⟩ p)) := by
  cases hs with
  | wait => exact .inl hw'
  | @call req code isFree _ _ hc =>
      cases hc with
      | same | panic | spin => exact .inl hw'
      | @update _ _ w o hw _ _ hm =>
          by_cases hk : key = ⟨code⟩
          · subst hk
            simp only [AList.lookup_insert, Option.some.injEq] at hw'
            exact .inr (.inl ⟨w, _, _, o, hw, rfl, hm, hw'.symm⟩)
          · rw [AList.lookup_insert_ne hk] at hw'
            exact .inl hw'
      | @create _ _ p o hn _ hm =>
          by_cases hk : key = ⟨code⟩
          · subst hk
            simp only [AList.lookup_insert, Option.some.injEq] at hw'
            exact .inr (.inr (.inr ⟨_, _, o, p, hn, rfl, hm, hw'.symm⟩))
          · rw [AList.lookup_insert_ne hk] at hw'
            exact .inl hw'
      | exit =>
          by_cases hk : key = ⟨code⟩
          · subst hk; simp at hw'
          · rw [AList.lookup_erase_ne hk] at hw'
            exact .inl hw'
  | @worker key₀ w _ ev he hw hst =>
      by_cases hk : key = key₀
      · subst hk
        simp only [AList.lookup_insert, Option.some.injEq] at hw'
        exact .inr (.inr (.inl ⟨w, ev, hw, he, hw' ▸ hst⟩))
      · rw [AList.lookup_insert_ne hk] at hw'
        exact .inl hw'
  | retired => exact .inl hw'

/-! ## The inspector -/

/-- In every reachable state every running production runtime of a worker of the table was
started with the inspector exactly when the worker's `open_debug_server` is set; over any
step the flag of a tenant's worker is never cleared, and it is set only by a `start_debugger`
call for that tenant made while its worker, if any, has no production handle. -/
theorem inspector_follows_debug_flag (hr : Reach g) :
    (∀ key w, g.workerTable.lookup key = some w → Worker.InspectFollowsFlag w) ∧
    ∀ e g', g.step e = some g' → ∀ key w', g'.workerTable.lookup key = some w' →
      (∀ w, g.workerTable.lookup key = some w → w.thread.openDebugServer = true →
          w'.thread.openDebugServer = true) ∧
        (w'.thread.openDebugServer = true →
          (∃ w, g.workerTable.lookup key = some w ∧ w.thread.openDebugServer = true) ∨
          ((∃ isFree, e = .call .startDebugger key.name isFree) ∧
            ∀ w, g.workerTable.lookup key = some w → w.thread.workerHandlers = [])) := by
  refine ⟨fun key w hw => (hr.worker_reachable hw).1.inspectFollowsFlag,
    fun e g' hs key w' hw' => ?_⟩
  rcases (step_sound hs).lookup_cases hw' with
    h | ⟨w, req, isFree, o, hw, rfl, hm, rfl⟩ | ⟨w, ev, hw, he, hst⟩ | ⟨req, isFree, o, p, hn, rfl, hm, rfl⟩
  · exact ⟨fun w hw hf => by rw [h] at hw; cases hw; exact hf, fun hf => .inl ⟨w', h, hf⟩⟩
  · have hflag := (Worker.Op.apply_flags o w).2
    refine ⟨fun w₁ hw₁ hf => ?_, fun hf => ?_⟩
    · rw [hw] at hw₁; cases hw₁; simp [hflag, hf]
    · rw [hflag] at hf
      cases hwf : w.thread.openDebugServer
      · simp only [hwf, Bool.false_or, decide_eq_true_eq] at hf
        refine .inr ⟨⟨isFree, by rw [Request.eq_of_mem_methods hm hf.1]⟩, fun w₁ hw₁ => ?_⟩
        rw [hw] at hw₁; cases hw₁; exact hf.2
      · exact .inl ⟨w, hw, hwf⟩
  · have hth := (Worker.step_frame he hst).1
    refine ⟨fun w₁ hw₁ hf => ?_, fun hf => .inl ⟨w, hw, by rwa [← hth]⟩⟩
    rw [hw] at hw₁; cases hw₁; rwa [hth]
  · refine ⟨fun w₁ hw₁ => by simp [hn] at hw₁, fun hf => .inr ⟨⟨isFree, ?_⟩, fun w₁ hw₁ => by
      simp [hn] at hw₁⟩⟩
    have hflag := (Worker.Op.apply_flags o (Worker.init ⟨key.name, scriptPath key.name⟩ p)).2
    rw [hf] at hflag
    rw [Request.eq_of_mem_methods hm (by simpa [Worker.init] using hflag.symm)]

/-- A tenant started in debug mode. -/
theorem inspector_after_debugger_start :
    let g := (init.run [.call .startDebugger "demo" (fun _ => true)]).get (by decide)
    Reach g ∧ ((∀ key w, g.workerTable.lookup key = some w → Worker.InspectFollowsFlag w) ∧
      ∀ e g', g.step e = some g' → ∀ key w', g'.workerTable.lookup key = some w' →
        (∀ w, g.workerTable.lookup key = some w → w.thread.openDebugServer = true →
            w'.thread.openDebugServer = true) ∧
          (w'.thread.openDebugServer = true →
            (∃ w, g.workerTable.lookup key = some w ∧ w.thread.openDebugServer = true) ∨
            ((∃ isFree, e = .call .startDebugger key.name isFree) ∧
              ∀ w, g.workerTable.lookup key = some w → w.thread.workerHandlers = []))) :=
  have hr : Reach _ := Reach.run .init _ (Option.some_get _).symm
  ⟨hr, inspector_follows_debug_flag hr⟩

/-- `open_debug_server` is never reset: after `start_debugger`, the next `pro/start` of the
tenant starts a second production runtime with the inspector on `127.0.0.1:9229`. -/
theorem pro_start_after_debugger_inspects :
    let g := (init.run [.call .startDebugger "demo" (fun _ => true),
      .call .proStart "demo" (fun _ => true)]).get (by decide)
    Reach g ∧ (g.workerTable.lookup ⟨"demo"⟩).map (fun w =>
      w.thread.workerHandlers.map fun t => (w.runtimes[t.runtime]?).map (·.inspect)) =
        some [some true, some true] :=
  ⟨Reach.run .init _ (Option.some_get _).symm, by decide⟩

end Gateway
end CassieCool
