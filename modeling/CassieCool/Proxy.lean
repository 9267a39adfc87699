import CassieCool.Gateway.Workers

/-!
# Proxy — `forward`, the default service

Every request that no control route matches goes to `forward`, which reads the `product_code`
header, looks its text up in `PORT_TABLE` and sends the request on to `http://127.0.0.1:<port>`
with its path and query.  The header's text is `HeaderValue::to_str().unwrap()`: `to_str`
accepts only visible ASCII and tab, so a value with any other byte (obs-text 0x80–0xFF, which
HTTP/1 parsers accept in header values) panics the handler.

Over a reachable gateway, `PORT_TABLE` agrees with `WORKER_TABLE` (`TableInv`), so a request
whose header names a tenant with a worker goes to that worker's listener port.
-/

namespace CassieCool

/-- The byte test of `HeaderValue::to_str`: visible ASCII or tab. -/
def isVisibleAscii (b : UInt8) : Bool :=
  (32 ≤ b.toNat && b.toNat < 127) || b.toNat == 9

/-- `HeaderValue::to_str`: the value as text when every byte passes `isVisibleAscii`. -/
def headerToStr (v : List UInt8) : Option String :=
  if v.all isVisibleAscii then some (String.mk (v.map fun b => Char.ofNat b.toNat)) else none

/-- The parts of an inbound request that `forward` reads: its headers, with the lower-case
names the `http` crate stores and the values' bytes, in order; its path; its query. -/
structure HttpRequest where
  headers : List (String × List UInt8)
  path : String
  query : Option String
  deriving DecidableEq, Repr

/-- What `forward` does: answer `404` with a body, send the request on to
`http://127.0.0.1:port` with the path and query given to `set_path` and `set_query`, or panic. -/
inductive Forwarded
  | notFound (body : String)
  | send (port : Nat) (path : String) (query : Option String)
  | panic
  deriving DecidableEq, Repr

/-- `forward`: `req.headers().get("product_code")` (the first value of that name), its
`to_str().unwrap()`, then `PORT_TABLE.read().unwrap().get(&id)`. -/
def forward (portTable : AList (fun _ : ScriptWorkerId => WorkerPort)) (req : HttpRequest) :
    Forwarded :=
  match List.lookup "product_code" req.headers with
  | none => .notFound "product_code not found"
  | some v =>
      match headerToStr v with
      | none => .panic
      | some productCode =>
          match portTable.lookup ⟨productCode⟩ with
          | none => .notFound (productCode ++ " service not found")
          | some port => .send port.port req.path req.query

theorem headerToStr_eq_none_iff {v : List UInt8} :
    headerToStr v = none ↔ ∃ b ∈ v, isVisibleAscii b = false := by
  simp [headerToStr]

/-- `forward` panics exactly when the request has a `product_code` header with a byte that is
neither visible ASCII nor tab, whatever `PORT_TABLE` holds. -/
theorem forward_eq_panic_iff {pt : AList (fun _ : ScriptWorkerId => WorkerPort)}
    {req : HttpRequest} :
    forward pt req = .panic ↔
      ∃ v, List.lookup "product_code" req.headers = some v ∧ ∃ b ∈ v, isVisibleAscii b = false := by
  unfold forward
  rcases hv : List.lookup "product_code" req.headers with _ | v
  · simp
  · simp only [Option.some.injEq, exists_eq_left', ← headerToStr_eq_none_iff]
    rcases hs : headerToStr v with _ | code
    · simp
    · simp only [reduceCtorEq, iff_false]
      split <;> simp

/-- A `product_code` header holding the byte 0x80 panics `forward`, whatever the state of the
gateway. -/
theorem forward_panics_on_obs_text (g : Gateway) :
    forward g.portTable ⟨[("product_code", [0x80])], "/", none⟩ = .panic :=
  forward_eq_panic_iff.2 ⟨[0x80], rfl, 0x80, List.mem_singleton_self _, rfl⟩

namespace Gateway

variable {g : Gateway}

/-- In every reachable state a request whose `product_code` header reads as a tenant's name
is sent to the listener port of that tenant's worker, and answered `404 <code> service not
found` when the tenant has no worker. -/
theorem forward_routes_to_worker (hr : Reach g) {req : HttpRequest} {v : List UInt8}
    {code : String} (hv : List.lookup "product_code" req.headers = some v)
    (hs : headerToStr v = some code) :
    forward g.portTable req = match g.workerTable.lookup ⟨code⟩ with
      | some w => .send w.thread.port.port req.path req.query
      | none => .notFound (code ++ " service not found") := by
  have h := hr.tableInv
  simp only [forward, hv, hs]
  cases hw : g.workerTable.lookup ⟨code⟩ with
  | some w => rw [(h.worker _ w hw).2.2.2]
  | none => rw [AList.lookup_eq_none.2 fun hk => AList.lookup_eq_none.1 hw (h.portKeys _ hk)]

/-- Once `demo` is started, a request naming it goes to port 3001. -/
theorem forward_after_start :
    let g := (init.run [.call .start "demo" (fun _ => true)]).get (by decide)
    let req : HttpRequest := ⟨[("product_code", "demo".toList.map (·.toNat.toUInt8))], "/api", none⟩
    Reach g ∧ List.lookup "product_code" req.headers = some ("demo".toList.map (·.toNat.toUInt8)) ∧
      headerToStr ("demo".toList.map (·.toNat.toUInt8)) = some "demo" ∧
      forward g.portTable req = (match g.workerTable.lookup ⟨"demo"⟩ with
        | some w => .send w.thread.port.port req.path req.query
        | none => .notFound ("demo" ++ " service not found")) ∧
      forward g.portTable req = .send 3001 "/api" none :=
  by
    intro g req
    have hr : Reach g := Reach.run .init _ (Option.some_get _).symm
    have hs : headerToStr ("demo".toList.map (·.toNat.toUInt8)) = some "demo" := by decide
    have hv : List.lookup "product_code" req.headers =
        some ("demo".toList.map (·.toNat.toUInt8)) := rfl
    exact ⟨hr, hv, hs, forward_routes_to_worker hr hv hs, by decide⟩

end Gateway
end CassieCool
