/-! # Monitors of event traces

A monitor reads a trace event by event and either moves on or refuses it. A trace that is not refused
has only prefixes that are not refused, so what the monitor's states say about the next event becomes
a property of every place in the trace.
-/

namespace MineRider.Machine.Monitor

variable {σ ε : Type}

/-- Where the monitor stands after the trace; `none` if it refused an event. -/
def run (next : σ → ε → Option σ) (s : σ) (trace : List ε) : Option σ := trace.foldlM next s

variable {next : σ → ε → Option σ} {s final : σ}

theorem run_cons {event : ε} {rest : List ε} (accepted : run next s (event :: rest) = some final) :
    ∃ mid, next s event = some mid ∧ run next mid rest = some final := by
  rw [run, List.foldlM_cons] at accepted
  exact Option.bind_eq_some_iff.mp accepted

/-- A trace can be cut anywhere. -/
theorem run_split {first second : List ε} (accepted : run next s (first ++ second) = some final) :
    ∃ mid, run next s first = some mid ∧ run next mid second = some final := by
  rw [run, List.foldlM_append] at accepted
  exact Option.bind_eq_some_iff.mp accepted

/-- One more event. -/
theorem run_snoc {trace : List ε} {mid : σ} {event : ε} (accepted : run next s trace = some mid)
    (moves : next mid event = some final) : run next s (trace ++ [event]) = some final := by
  rw [run] at accepted
  simp [run, List.foldlM_append, accepted, moves]

end MineRider.Machine.Monitor
