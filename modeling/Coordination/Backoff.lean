/-!
# Backoff

Delays between attempts that double from one to the next up to a cap.
-/

namespace Coordination

/-- A span of time in nanoseconds.  Its seconds fit sixty-four bits. -/
structure Duration where
  /-- The whole span. -/
  nanos : Nat
  /-- The span is not beyond the longest one. -/
  bounded : nanos < UInt64.size * 1000000000 := by decide
deriving DecidableEq, Repr

namespace Duration

def longest : Duration := ⟨UInt64.size * 1000000000 - 1, by decide⟩

/-- A span of the given nanoseconds, or the longest one. -/
def ofNanos (n : Nat) : Duration :=
  if h : n < UInt64.size * 1000000000 then ⟨n, h⟩ else longest

def ofSeconds (n : Nat) : Duration := ofNanos (n * 1000000000)

def ofMillis (n : Nat) : Duration := ofNanos (n * 1000000)

def seconds (d : Duration) : Nat := d.nanos / 1000000000

def subNanos (d : Duration) : Nat := d.nanos % 1000000000

def min (a b : Duration) : Duration := if a.nanos ≤ b.nanos then a else b

/-- Twice the span, or the longest span where that is too long. -/
def double (d : Duration) : Duration := ofNanos (2 * d.nanos)

end Duration

/-- A doubling delay with a cap. -/
structure Backoff where
  /-- The first delay. -/
  initial : Duration
  /-- The cap. -/
  max : Duration
deriving DecidableEq, Repr

namespace Backoff

def defaultInitial : Duration := .ofSeconds 1

def defaultMax : Duration := .ofSeconds 16

/-- The usual delays. -/
def standard : Backoff := ⟨defaultInitial, defaultMax⟩

def withMax (max : Duration) : Backoff := ⟨defaultInitial, max⟩

def next (b : Backoff) (d : Duration) : Duration := d.double.min b.max

/-- The first delay, under the cap. -/
def first (b : Backoff) : Duration := b.initial.min b.max

/-- The delay before attempt `n + 2`, counted from zero. -/
def delay (b : Backoff) : Nat → Duration
  | 0 => b.first
  | n + 1 => b.next (b.delay n)

/-- The `n` delays from `d` on. -/
def delaysFrom (b : Backoff) : Nat → Duration → List Duration
  | 0, _ => []
  | n + 1, d => d :: b.delaysFrom n (b.next d)

def delays (b : Backoff) (n : Nat) : List Duration := b.delaysFrom n b.first

end Backoff

end Coordination
