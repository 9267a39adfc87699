import Mathlib.Tactic.Common

/-!
# Port — `WorkerPort` and the probing loop of `get_next_port`

`WorkerPort(pub u16)` is a 16-bit port and `WorkerPort::next` is `checked_add(1)`: it fails at
65535 instead of wrapping.

The probing loop of `get_next_port` is

```
while let Some(port) = curport.next() {
  if is_free(port.0) { curr_port = port; break; }
}
```

where `curport` is the guard on the shared cursor `WORKER_PORT`.  The body never writes
`curport`, so every pass tests the same candidate.  We model the loop with an explicit bound on
the number of passes and show that the first pass decides its outcome: it exits at once or it
never exits.
-/

namespace CassieCool

/-- Number of values of a `u16`. -/
def portLimit : Nat := 65536

/-- `WorkerPort(pub u16)`: a port below `portLimit`. -/
structure WorkerPort where
  port : Nat
  isLt : port < portLimit
  deriving DecidableEq, Repr

namespace WorkerPort

/-- `WorkerPort::next`: `self.0.checked_add(1).map(WorkerPort)`. -/
def next (p : WorkerPort) : Option WorkerPort :=
  if h : p.port + 1 < portLimit then some ⟨p.port + 1, h⟩ else none

theorem next_eq_none_iff (p : WorkerPort) : p.next = none ↔ p.port = 65535 := by
  have := p.isLt
  simp only [next, portLimit] at *
  split <;> simp <;> omega

theorem port_of_next_eq_some {p q : WorkerPort} (h : p.next = some q) : q.port = p.port + 1 := by
  unfold next at h
  split at h
  · cases h; rfl
  · cases h

theorem next_eq_some_of_lt {p : WorkerPort} (h : p.port < 65535) :
    ∃ q, p.next = some q ∧ q.port = p.port + 1 := by
  unfold next
  rw [dif_pos (by simp only [portLimit]; omega)]
  exact ⟨_, rfl, rfl⟩

end WorkerPort

/-! ## The probing loop -/

/-- The `while let Some(port) = curport.next()` loop of `get_next_port`, run for at most `fuel`
passes: `some` the final `curr_port` once the loop exits, `none` while it is still looping.
`curport` is the guard on `WORKER_PORT`; the body only writes `curr_port`, and only on `break`. -/
def probeLoop (isFree : Nat → Bool) (curport currPort : WorkerPort) : Nat → Option WorkerPort
  | 0 => none
  | fuel + 1 =>
      match curport.next with
      | none => some currPort
      | some port => if isFree port.port then some port else probeLoop isFree curport currPort fuel

variable {isFree : Nat → Bool} {curport currPort : WorkerPort}

/-- One pass decides the loop: any number of passes gives what the first gives. -/
theorem probeLoop_succ (fuel : Nat) :
    probeLoop isFree curport currPort (fuel + 1) = probeLoop isFree curport currPort 1 := by
  induction fuel with
  | zero => rfl
  | succ fuel ih =>
      rw [probeLoop, ih]
      cases h : curport.next <;> simp [probeLoop, h]

/-- When the candidate `curport + 1` is taken, the loop never exits. -/
theorem probeLoop_spins {port : WorkerPort} (hnext : curport.next = some port)
    (hbusy : isFree port.port = false) (fuel : Nat) :
    probeLoop isFree curport currPort fuel = none := by
  cases fuel with
  | zero => rfl
  | succ fuel => rw [probeLoop_succ]; simp [probeLoop, hnext, hbusy]

/-- When the candidate `curport + 1` is free, the first pass exits with it. -/
theorem probeLoop_found {port : WorkerPort} (hnext : curport.next = some port)
    (hfree : isFree port.port = true) (fuel : Nat) :
    probeLoop isFree curport currPort (fuel + 1) = some port := by
  simp [probeLoop, hnext, hfree]

/-! ## `get_next_port` up to its writes -/

/-- What `get_next_port` makes of the cursor: the port it takes, the panic of
`curport.next().unwrap()`, or a probing loop that has not exited. -/
inductive Probe
  | found (port : WorkerPort)
  | unwrapNone
  | looping
  deriving DecidableEq, Repr

/-- `get_next_port` before it writes the cursor and `PORT_TABLE`: the first `curr_port` is
`curport.next().unwrap()`, then the probing loop runs for at most `fuel` passes. -/
def probeFrom (isFree : Nat → Bool) (curport : WorkerPort) (fuel : Nat) : Probe :=
  match curport.next with
  | none => .unwrapNone
  | some currPort =>
      match probeLoop isFree curport currPort fuel with
      | some port => .found port
      | none => .looping

/-- One pass decides `get_next_port` too. -/
theorem probeFrom_succ (fuel : Nat) :
    probeFrom isFree curport (fuel + 1) = probeFrom isFree curport 1 := by
  unfold probeFrom
  split
  · rfl
  · rw [probeLoop_succ]

/-- What the first pass gives: the panic at 65535, else the candidate `curport + 1` if it is
free, else a loop that never exits. -/
theorem probeFrom_one :
    probeFrom isFree curport 1 = match curport.next with
      | none => .unwrapNone
      | some port => if isFree port.port then .found port else .looping := by
  unfold probeFrom
  split
  · rfl
  · rename_i port hnext
    cases hfree : isFree port.port
    · simp [probeLoop_spins hnext hfree]
    · simp [probeLoop_found hnext hfree]

theorem probeFrom_of_max (h : curport.port = 65535) (fuel : Nat) :
    probeFrom isFree curport fuel = .unwrapNone := by
  simp [probeFrom, (WorkerPort.next_eq_none_iff curport).2 h]

/-- A taken candidate `curport + 1` makes the loop run forever, whatever ports above it are
free. -/
theorem probeFrom_looping {port : WorkerPort} (hnext : curport.next = some port)
    (hbusy : isFree port.port = false) (fuel : Nat) : probeFrom isFree curport fuel = .looping := by
  simp [probeFrom, hnext, probeLoop_spins hnext hbusy]

end CassieCool
