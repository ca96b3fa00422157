/-!
# The simulation clock

The cycle counter of `SimulationClock`, which counts modulo `2 ^ 64`.
-/

namespace EFS

namespace System

/-- The cycles that have passed, in 64 bits. -/
structure SimulationClock where
  cycles : UInt64

namespace SimulationClock

/-- `tick()`. -/
def tick (clock : SimulationClock) (count : UInt64) : SimulationClock := ⟨clock.cycles + count⟩

/-- `reset()`. -/
def reset : SimulationClock := ⟨0⟩

end SimulationClock

end System

end EFS
