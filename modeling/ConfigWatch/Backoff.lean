/-!
Reconnect delays. The delay doubles with every attempt up to a cap, and a random
part of less than a tenth is added to it. All delays are whole milliseconds in
64 bits; what would be larger is cut off at the greatest such number.

The random part comes from a draw that the caller supplies: whatever the draw, the
part lies in its range, and every value in the range is reached by some draw.
-/
namespace ConfigWatch.Backoff

/-- How delays grow: the first delay and the cap, in milliseconds. -/
structure Policy where
  base : UInt64
  cap : UInt64
deriving DecidableEq, Repr

/-- A tenth of a second at first, half a minute at most. -/
def Policy.standard : Policy := ⟨100, 30000⟩

/-- A power of two, cut off at the greatest 64-bit number. -/
def powerOfTwo (n : Nat) : UInt64 :=
  if n < 64 then UInt64.ofNat (Nat.pow 2 n) else .ofNatClamp UInt64.size

/-- A product, cut off at the greatest 64-bit number. -/
def clampedMul (a b : UInt64) : UInt64 := .ofNatClamp (a.toNat * b.toNat)

/-- A sum, cut off at the greatest 64-bit number. -/
def clampedAdd (a b : UInt64) : UInt64 := .ofNatClamp (a.toNat + b.toNat)

namespace Policy

/-- The delay before an attempt without its random part. There is none before
    attempt zero. -/
def plainDelay (p : Policy) (attempt : UInt32) : UInt64 :=
  if attempt = 0 then 0 else min (clampedMul p.base (powerOfTwo (attempt.toNat - 1))) p.cap

/-- The number of values that the random part of a delay can have. -/
def spread (plain : UInt64) : UInt64 := plain / 10

def jitter (plain : UInt64) (draw : Nat) : UInt64 :=
  if spread plain = 0 then 0 else UInt64.ofNat (draw % (spread plain).toNat)

/-- The delay before an attempt, for the given draw. -/
def delay (p : Policy) (attempt : UInt32) (draw : Nat) : UInt64 :=
  let plain := p.plainDelay attempt
  clampedAdd plain (jitter plain draw)

/-- The draw that makes a delay longest. -/
def greatestDraw (p : Policy) (attempt : UInt32) : Nat :=
  (spread (p.plainDelay attempt)).toNat - 1

end Policy

/-- The number of attempts in a row that have failed. -/
structure Counter where
  policy : Policy
  attempts : UInt32
deriving DecidableEq, Repr

namespace Counter

def start (policy : Policy) : Counter := ⟨policy, 0⟩

/-- One more failure; the count stays at its greatest value when it gets there. -/
def failed (c : Counter) : Counter :=
  { c with attempts := .ofNatClamp (c.attempts.toNat + 1) }

/-- The delay after one more failure, and the counter with that failure. -/
def next (c : Counter) (draw : Nat) : UInt64 × Counter :=
  (c.failed.policy.delay c.failed.attempts draw, c.failed)

def reset (c : Counter) : Counter := { c with attempts := 0 }

end Counter

end ConfigWatch.Backoff
