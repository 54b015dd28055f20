/-!
# Timestamps

A `Timestamp` counts milliseconds from the epoch in a 64-bit word, which is also what is
sent for it. Whole seconds saturate at the ends of the word. An `Instant` is a point in
time to the nanosecond, on an unbounded scale; the milliseconds of its distance from the
epoch, rounded toward the epoch, are reduced to a word. Arithmetic on words wraps, as in a
release build, and overflow is not checked.
-/

namespace QueryAlgebra

/-- Milliseconds from the epoch. -/
structure Timestamp where
  millis : Int64
  deriving DecidableEq

/-- A point in time, in nanoseconds from the epoch. -/
structure Instant where
  nanos : Int
  deriving DecidableEq

namespace Instant

def nanosPerSecond : Nat := 1000000000

def nanosPerMilli : Nat := 1000000

/-- The instant at a distance after the epoch. -/
def after (seconds nanos : Nat) : Instant :=
  ⟨(seconds * nanosPerSecond + nanos : Nat)⟩

/-- The instant at a distance before the epoch. -/
def before (seconds nanos : Nat) : Instant :=
  ⟨-(seconds * nanosPerSecond + nanos : Nat)⟩

/-- The instant a whole number of seconds from the epoch. -/
def ofSeconds (seconds : Int) : Instant :=
  ⟨seconds * nanosPerSecond⟩

end Instant

namespace Timestamp

/-- The timestamp a number of seconds from the epoch; where the milliseconds do not fit a
word, the nearest timestamp there is. -/
def ofSeconds (seconds : Int64) : Timestamp :=
  ⟨Int64.ofIntClamp (seconds.toInt * 1000)⟩

/-- The timestamp of an instant: the whole milliseconds of its distance from the epoch as a
word, negated for an instant before the epoch. The negation wraps: at exactly `2 ^ 63` milliseconds
before the epoch, or that and a multiple of `2 ^ 64`, it gives the least word, where a build with
overflow checks panics. -/
def ofInstant (t : Instant) : Timestamp :=
  let distance := Int64.ofNat (t.nanos.natAbs / Instant.nanosPerMilli)
  ⟨if t.nanos < 0 then -distance else distance⟩

instance : LE Timestamp := ⟨fun s t => s.millis ≤ t.millis⟩

instance : LT Timestamp := ⟨fun s t => s.millis < t.millis⟩

instance (s t : Timestamp) : Decidable (s ≤ t) :=
  inferInstanceAs (Decidable (s.millis ≤ t.millis))

instance (s t : Timestamp) : Decidable (s < t) :=
  inferInstanceAs (Decidable (s.millis < t.millis))

/-- The order of two timestamps. -/
def order (s t : Timestamp) : Ordering :=
  if s < t then .lt else if s = t then .eq else .gt

theorem le_def (s t : Timestamp) : s ≤ t ↔ s.millis.toInt ≤ t.millis.toInt :=
  Int64.le_iff_toInt_le

end Timestamp

end QueryAlgebra
