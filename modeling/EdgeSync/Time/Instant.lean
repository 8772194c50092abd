/-!
# Instants and Spans

An instant counts nanoseconds from the beginning of 1970 in universal time and
may lie before it. A span is a length of time; the longest one is just below
`2 ^ 64` seconds.

## Main definitions

- `Span`, `Span.add?`: lengths of time and their checked sum
- `Instant`, `Instant.spanTo`: points in time and the span from one to a later one
-/

namespace EdgeSync.Time

/-- Nanoseconds in a second. -/
def nanosPerSecond : Nat := 1000000000

/-! ## Spans -/

/-- A length of time in nanoseconds. -/
structure Span where
  nanos : Nat
  deriving DecidableEq, Repr, Inhabited

namespace Span

/-- The empty span. -/
def zero : Span := ⟨0⟩

/-- The first number of seconds that is too long for a span. -/
def secondsLimit : Nat := 18446744073709551616

/-- The first length, in nanoseconds, that is no span. -/
def limit : Nat := secondsLimit * nanosPerSecond

/-- Whole seconds. -/
def seconds (s : Span) : Nat := s.nanos / nanosPerSecond

/-- Nanoseconds beyond the whole seconds. -/
def subsecond (s : Span) : Nat := s.nanos % nanosPerSecond

/-- The sum, unless it is too long. -/
def add? (a b : Span) : Option Span :=
  if a.nanos + b.nanos < limit then some ⟨a.nanos + b.nanos⟩ else none

/-- Milliseconds, a begun one counting as a whole one. -/
def ceilMillis (s : Span) : Nat := (s.nanos + 999999) / 1000000

end Span

/-! ## Instants -/

/-- Nanoseconds since the beginning of 1970. -/
structure Instant where
  nanos : Int
  deriving DecidableEq, Repr, Inhabited

namespace Instant

/-- The instant some seconds and nanoseconds after the beginning of 1970. -/
def ofUnix (seconds : Int) (nanos : Nat) : Instant :=
  ⟨seconds * nanosPerSecond + nanos⟩

/-- The last whole second not after the instant. -/
def seconds (t : Instant) : Int := t.nanos / nanosPerSecond

/-- The instant a span later. -/
def after (t : Instant) (s : Span) : Instant := ⟨t.nanos + s.nanos⟩

/-- The span from one instant to another, empty if that is not later. -/
def spanTo (t u : Instant) : Span := ⟨(u.nanos - t.nanos).toNat⟩

end Instant

end EdgeSync.Time
