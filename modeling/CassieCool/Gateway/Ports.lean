import CassieCool.Gateway.Basic

/-!
# Ports — the port allocator and what its failures leave behind

`get_next_port` takes `WORKER_PORT + 1`: its probing loop tests that one candidate again and
again (`probeFrom_succ`), so it returns it once it is free, and never moves past it while it is
taken (`probe_stuck_on_taken_successor`); `curport.next().unwrap()` panics at 65535.  Hence:

* the ports handed out increase strictly from 3001 on, and `PORT_TABLE` never maps two tenants
  to one port;
* at 65535 a call that needs a port panics holding both guards, which poisons `WORKER_PORT` and
  `WORKER_TABLE` for good: from then on every call, for any tenant, panics.  One tenant brings
  the cursor to 65535 by 62535 `start`/`exit` cycles.
-/

namespace CassieCool
namespace Gateway

variable {g g' : Gateway} {e : Event}

/-! ## Ports are handed out once -/

/-- The invariant of the port allocator. -/
structure PortInv (g : Gateway) : Prop where
  /-- The ports handed out increase strictly. -/
  increasing : g.assigned.Pairwise (fun a b => a.2.port < b.2.port)
  /-- They lie above 3000 and up to the cursor. -/
  bounds : ∀ a ∈ g.assigned, 3000 < a.2.port ∧ a.2.port ≤ g.workerPort.port
  /-- The cursor starts at 3000 and never goes back. -/
  cursor : 3000 ≤ g.workerPort.port
  /-- Every `PORT_TABLE` entry was handed out to its tenant. -/
  entries : ∀ key p, g.portTable.lookup key = some p → (key, p) ∈ g.assigned

theorem portInv_init : PortInv init where
  increasing := List.Pairwise.nil
  bounds _ h := by simp [init] at h
  cursor := le_refl _
  entries _ _ h := by simp [init] at h

theorem PortInv.create (h : PortInv g) {code : String} {p : WorkerPort} {w : Worker}
    (hnext : g.workerPort.next = some p) :
    PortInv { g with
      workerPort := p
      portTable := g.portTable.insert ⟨code⟩ p
      assigned := g.assigned ++ [(⟨code⟩, p)]
      workerTable := g.workerTable.insert ⟨code⟩ w } := by
  have hp := WorkerPort.port_of_next_eq_some hnext
  have hc := h.cursor
  refine ⟨List.pairwise_append.2 ⟨h.increasing, List.pairwise_singleton _ _, fun a ha b hb => ?_⟩,
    fun a ha => ?_, by dsimp only; omega, fun k q hq => ?_⟩
  · rw [List.mem_singleton.1 hb]
    have := (h.bounds a ha).2
    dsimp only; omega
  · rcases List.mem_append.1 ha with ha | ha
    · have := h.bounds a ha
      dsimp only; omega
    · rw [List.mem_singleton.1 ha]
      dsimp only; omega
  · by_cases hk : k = ⟨code⟩
    · subst hk
      simp only [AList.lookup_insert, Option.some.injEq] at hq
      subst hq
      exact List.mem_append_right _ (List.mem_singleton_self _)
    · rw [AList.lookup_insert_ne hk] at hq
      exact List.mem_append_left _ (h.entries k q hq)

theorem PortInv.step (h : PortInv g) (hs : Step g e g') : PortInv g' := by
  cases hs with
  | wait => exact h
  | call _ hc =>
      cases hc with
      | same | panic | spin | update => exact ⟨h.1, h.2, h.3, h.4⟩
      | create _ hnext _ =>
          exact (show PortInv { g with spinning := none } from ⟨h.1, h.2, h.3, h.4⟩).create hnext
      | @exit _ w _ _ =>
          refine ⟨h.1, h.2, h.3, fun k q hq => h.entries k q ?_⟩
          by_cases hk : k = w.thread.id
          · subst hk; simp at hq
          · rwa [AList.lookup_erase_ne hk] at hq
  | worker | retired => exact ⟨h.1, h.2, h.3, h.4⟩

theorem Reach.portInv (hr : Reach g) : PortInv g :=
  Reach.induct PortInv portInv_init (fun _ _ _ _ h hs => h.step hs) g hr

/-- The ports `get_next_port` returned in any run increase strictly and lie above 3000; so no
port is handed out twice, and `PORT_TABLE` never maps two tenants to one port. -/
theorem assigned_ports_increase (hr : Reach g) :
    (g.assigned.map (·.2.port)).Pairwise (· < ·) ∧ (∀ a ∈ g.assigned, 3000 < a.2.port) ∧
      (∀ a ∈ g.assigned, ∀ b ∈ g.assigned, a.2 = b.2 → a.1 = b.1) ∧
      ∀ k₁ k₂ p, g.portTable.lookup k₁ = some p → g.portTable.lookup k₂ = some p → k₁ = k₂ := by
  have h := hr.portInv
  have hone : ∀ a ∈ g.assigned, ∀ b ∈ g.assigned, a.2 = b.2 → a = b := fun a ha b hb hab => by
    by_contra hne
    exact (h.increasing.imp ne_of_lt).forall (fun _ _ h => Ne.symm h) ha hb hne
      (congrArg WorkerPort.port hab)
  exact ⟨List.pairwise_map.2 h.increasing, fun a ha => (h.bounds a ha).1,
    fun a ha b hb hab => congrArg Prod.fst (hone a ha b hb hab),
    fun k₁ k₂ p h₁ h₂ => congrArg Prod.fst (hone _ (h.entries _ _ h₁) _ (h.entries _ _ h₂) rfl)⟩

/-- Two tenants started one after the other get 3001 and 3002. -/
theorem assigned_ports_two_tenants :
    let g := (init.run [.call .start "a" (fun _ => true), .call .start "b" (fun _ => true)]).get
      (by decide)
    g.assigned.map (·.2.port) = [3001, 3002] ∧ Reach g ∧
      ((g.assigned.map (·.2.port)).Pairwise (· < ·) ∧ (∀ a ∈ g.assigned, 3000 < a.2.port) ∧
        (∀ a ∈ g.assigned, ∀ b ∈ g.assigned, a.2 = b.2 → a.1 = b.1) ∧
        ∀ k₁ k₂ p, g.portTable.lookup k₁ = some p → g.portTable.lookup k₂ = some p → k₁ = k₂) :=
  have hr : Reach _ := Reach.run .init _ (Option.some_get _).symm
  ⟨by decide, hr, assigned_ports_increase hr⟩

/-! ## The cursor at 65535 -/

section Exhausted

variable {isFree : Nat → Bool} {req : Request} {code : String}

/-- At 65535 `get_next_port` panics on `curport.next().unwrap()` holding the `WORKER_PORT`
guard. -/
theorem getNextPort_of_max {project : Project} (hc : g.workerPort.port = 65535)
    (hp : g.portPoisoned = false) :
    getNextPort isFree project g = .error (.panic, g.poison true) := by
  simp [getNextPort, hp, probeFrom_of_max hc]

/-- A call that needs a new worker when the cursor is at 65535. -/
theorem call_of_exhausted (hc : g.workerPort.port = 65535) (hs : g.spinning = none)
    (ht : g.tablePoisoned = false) (hp : g.portPoisoned = false)
    (hk : g.workerTable.lookup ⟨code⟩ = none)
    (hreq : req ∈ [Request.start, Request.startDebugger, Request.proStart]) :
    g.call isFree req code = (.panic, g.poison true) := by
  have hstart : ∀ (onFound : Worker → Option Worker.Op) (onNew : Worker.Op),
      startWith onFound onNew isFree code g = (.panic, g.poison true) := by
    intro onFound onNew
    simp only [startWith, hk, getNextPort_of_max hc hp]
  simp only [List.mem_cons, List.mem_singleton, List.not_mem_nil, or_false] at hreq
  rcases hreq with rfl | rfl | rfl <;>
    simp only [call, hs, ht, Bool.false_eq_true, ↓reduceIte, serve, route, startRuntime,
      startDebuggerRuntime, startProRuntime, hstart]

/-- Once `WORKER_TABLE` is poisoned with no call pending, every event keeps it so: a call panics
at `lock().unwrap()` and changes nothing, and the workers' steps do not touch the mutexes. -/
theorem poisoned_step {e : Event} (ht : g.tablePoisoned = true) (hs : g.spinning = none)
    (hst : g.step e = some g') : g'.tablePoisoned = true ∧ g'.spinning = none := by
  cases e with
  | call req code isFree =>
      simp only [step] at hst
      split at hst
      · cases hst; simp [call, hs, ht]
      · cases hst
  | worker | retired =>
      cases step_sound hst
      exact ⟨ht, hs⟩

theorem poisoned_run : ∀ (es : List Event) {g g' : Gateway}, g.tablePoisoned = true →
    g.spinning = none → g.run es = some g' → g'.tablePoisoned = true ∧ g'.spinning = none
  | [], _, _, ht, hs, h => by cases h; exact ⟨ht, hs⟩
  | e :: es, _, _, ht, hs, h => by
      obtain ⟨g₁, h₁, h₂⟩ := Option.bind_eq_some.1 h
      obtain ⟨ht₁, hs₁⟩ := poisoned_step ht hs h₁
      exact poisoned_run es ht₁ hs₁ h₂

/-- When the cursor is at 65535, a call that needs a new worker does not end with a response: it
panics on `curport.next().unwrap()` holding the guards of `WORKER_PORT` and `WORKER_TABLE`. It
leaves the cursor and both tables as they were but poisons both mutexes, and after it, whatever
happens, every call, for any tenant, panics. -/
theorem exhausted_ports_block_calls (hc : g.workerPort.port = 65535)
    (hs : g.spinning = none) (ht : g.tablePoisoned = false) (hp : g.portPoisoned = false)
    (hk : g.workerTable.lookup ⟨code⟩ = none)
    (hreq : req ∈ [Request.start, Request.startDebugger, Request.proStart]) :
    let r := g.call isFree req code
    r.1 = .panic ∧ r.2.workerPort = g.workerPort ∧ r.2.portTable = g.portTable ∧
      r.2.workerTable = g.workerTable ∧ r.2.tablePoisoned = true ∧ r.2.portPoisoned = true ∧
      ∀ (es : List Event) (g' : Gateway), r.2.run es = some g' →
        ∀ isFree' req' code', (g'.call isFree' req' code').1 = .panic := by
  rw [call_of_exhausted hc hs ht hp hk hreq]
  refine ⟨rfl, rfl, rfl, rfl, rfl, by simp [poison], fun es g' hrun isFree' req' code' => ?_⟩
  obtain ⟨ht', hs'⟩ := poisoned_run es (show (g.poison true).tablePoisoned = true from rfl) hs hrun
  simp [call, hs', ht']

/-- A gateway whose cursor stands at 65535, with no worker: a `start` panics and poisons both
mutexes. -/
theorem exhausted_ports_at_start_up :
    let g : Gateway := { init with workerPort := ⟨65535, by decide⟩ }
    g.workerPort.port = 65535 ∧ g.spinning = none ∧ g.tablePoisoned = false ∧
      g.portPoisoned = false ∧ g.workerTable.lookup ⟨"demo"⟩ = none ∧
      Request.start ∈ [Request.start, Request.startDebugger, Request.proStart] ∧
      let r := g.call (fun _ => true) .start "demo"
      r.1 = .panic ∧ r.2.workerPort = g.workerPort ∧ r.2.portTable = g.portTable ∧
        r.2.workerTable = g.workerTable ∧ r.2.tablePoisoned = true ∧ r.2.portPoisoned = true ∧
        ∀ (es : List Event) (g' : Gateway), r.2.run es = some g' →
          ∀ isFree' req' code', (g'.call isFree' req' code').1 = .panic :=
  ⟨rfl, rfl, rfl, rfl, rfl, by simp,
    exhausted_ports_block_calls rfl rfl rfl rfl rfl (by simp)⟩

/-! ## One tenant exhausts the ports -/

/-- A state in which a call can begin and runs normally: reachable, no call in progress or
looping, no mutex poisoned. -/
structure Ready (g : Gateway) : Prop where
  reach : Reach g
  callers : ∀ s ∈ g.workerTable.entries, s.2.caller = none
  retired : ∀ w ∈ g.retired, w.caller = none
  spinning : g.spinning = none
  table : g.tablePoisoned = false
  port : g.portPoisoned = false

theorem Ready.idle (h : Ready g) : g.idle = true := by
  simp only [Gateway.idle, Bool.and_eq_true, List.all_eq_true, Option.isNone_iff_eq_none]
  exact ⟨h.callers, h.retired⟩

theorem ready_init : Ready init :=
  ⟨.init, by simp [init, AList.empty_entries], by simp [init], rfl, rfl, rfl⟩

theorem callers_insert {t : AList (fun _ : ScriptWorkerId => Worker)} {key : ScriptWorkerId}
    {w : Worker} (ht : ∀ s ∈ t.entries, s.2.caller = none) (hw : w.caller = none) :
    ∀ s ∈ (t.insert key w).entries, s.2.caller = none := by
  intro s hs
  rw [AList.insert_entries, List.mem_cons] at hs
  rcases hs with rfl | hs
  · exact hw
  · exact ht s ((List.kerase_sublist _ _).subset hs)

/-- A `start`/`exit` cycle of a tenant with no worker, its listener binding and taking the
`Start` in between, moves the cursor by one. -/
theorem Ready.cycle (h : Ready g) (hk : g.workerTable.lookup ⟨code⟩ = none)
    (hc : g.workerPort.port < 65535) :
    ∃ g', Ready g' ∧ g'.workerPort.port = g.workerPort.port + 1 ∧
      g'.workerTable.lookup ⟨code⟩ = none := by
  obtain ⟨p, hnext, hp⟩ := WorkerPort.next_eq_some_of_lt hc
  let w₀ := Worker.startWatchRuntime (Worker.init ⟨code, scriptPath code⟩ p)
  let w₂ : Worker := { w₀ with listener := .serving, slot := none }
  let g₁ : Gateway := { g with
    workerPort := p
    portTable := g.portTable.insert ⟨code⟩ p
    assigned := g.assigned ++ [(⟨code⟩, p)]
    workerTable := g.workerTable.insert ⟨code⟩ w₀ }
  let g₃ : Gateway := { g₁ with workerTable := g.workerTable.insert ⟨code⟩ w₂ }
  have h₁ : g.step (.call .start code fun _ => true) = some g₁ := by
    simp only [step, h.idle, call, h.spinning, h.table, Bool.false_eq_true, ↓reduceIte, serve, route,
      startRuntime, startWith, hk, getNextPort, h.port, probeFrom_one, hnext]
    simp only [g₁, h.port, h.spinning, h.table]
    rfl
  have h₂ : g₁.step (.worker ⟨code⟩ (.bind true)) =
      some { g₁ with workerTable := g.workerTable.insert ⟨code⟩ { w₀ with listener := .serving } } := by
    simp only [step, internal, ↓reduceIte, AList.lookup_insert, Option.some_bind, g₁,
      AList.insert_insert]
    rfl
  have h₃ : ({ g₁ with workerTable := g.workerTable.insert ⟨code⟩ { w₀ with listener := .serving } } :
      Gateway).step (.worker ⟨code⟩ .recv) = some g₃ := by
    simp only [step, internal, ↓reduceIte, AList.lookup_insert, Option.some_bind, g₃,
      AList.insert_insert]
    rfl
  have hi₃ : g₃.idle = true := by
    simp only [Gateway.idle, Bool.and_eq_true, List.all_eq_true, Option.isNone_iff_eq_none]
    exact ⟨callers_insert h.callers rfl, h.retired⟩
  have h₄ : g₃.step (.call .exit code fun _ => true) = some { g₃ with
      workerTable := g₃.workerTable.erase ⟨code⟩
      portTable := g₃.portTable.erase ⟨code⟩
      retired := g₃.retired ++ [w₂.drop] } := by
    simp only [step, hi₃, ↓reduceIte]
    simp only [call, g₃, g₁, h.spinning, h.table, Bool.false_eq_true, ↓reduceIte, serve, route,
      Gateway.exit, AList.lookup_insert]
    rfl
  refine ⟨_, ⟨.step (.step (.step (.step h.reach h₁) h₂) h₃) h₄, fun s hs => ?_,
    fun w hw => ?_, h.spinning, h.table, h.port⟩, hp, AList.lookup_erase _ _⟩
  · exact callers_insert h.callers rfl s ((List.kerase_sublist _ _).subset hs)
  · rcases List.mem_append.1 hw with hw | hw
    · exact h.retired w hw
    · rw [List.mem_singleton.1 hw]; rfl

/-- After `n` cycles of one tenant the cursor stands at `3000 + n`. -/
theorem ready_after_cycles (code : String) :
    ∀ n, 3000 + n ≤ 65535 → ∃ g, Ready g ∧ g.workerPort.port = 3000 + n ∧
      g.workerTable.lookup ⟨code⟩ = none
  | 0, _ => ⟨init, ready_init, rfl, by simp [init]⟩
  | n + 1, hn => by
      obtain ⟨g, hg, hc, hk⟩ := ready_after_cycles code n (by omega)
      obtain ⟨g', hg', hc', hk'⟩ := hg.cycle hk (by omega)
      exact ⟨g', hg', by omega, hk'⟩

/-- After 62535 `start`/`exit` cycles of one tenant the cursor is at 65535; the next `start`
panics, and the `info` call that answered before now panics too. -/
theorem cursor_exhaustion_poisons_table :
    ∃ g, Reach g ∧ g.workerPort.port = 65535 ∧
      (g.call (fun _ => true) .info "demo").1 = .reply (.info 0 "demo" "暂无实例") ∧
      (g.call (fun _ => true) .start "demo").1 = .panic ∧
      ((g.call (fun _ => true) .start "demo").2.call (fun _ => true) .info "demo").1 = .panic := by
  obtain ⟨g, hg, hc, hk⟩ := ready_after_cycles "demo" 62535 (by omega)
  have hstart : g.call (fun _ => true) .start "demo" = (.panic, g.poison true) := by
    rw [call_of_exhausted hc hg.spinning hg.table hg.port hk (by simp)]
  refine ⟨g, hg.reach, hc, ?_, by rw [hstart], by rw [hstart]; simp [call, poison, hg.spinning]⟩
  simp [call, hg.spinning, hg.table, serve, route, getRuntimeInfo, hk]

end Exhausted

/-! ## A taken successor -/

/-- From the cursor 3000, with 3001 taken and 3002 free, `get_next_port` never returns: its
loop tests 3001 again and again, and the `start` call loops holding both guards. -/
theorem probe_stuck_on_taken_successor :
    (∀ fuel, probeFrom (fun q => q != 3001) init.workerPort fuel = .looping) ∧
      init.call (fun q => q != 3001) .start "demo" =
        (.hang, { init with spinning := some (.start, "demo") }) :=
  ⟨probeFrom_looping rfl rfl, rfl⟩

end Gateway
end CassieCool
