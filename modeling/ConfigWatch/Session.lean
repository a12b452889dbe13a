import ConfigWatch.Backoff
import ConfigWatch.Session.Status
import ConfigWatch.Replica
import ConfigWatch.Target
/-!
Watch sessions. A session keeps a replica in step with one target: it subscribes,
applies the batches of the subscription, and when the subscription is lost it
waits and subscribes again, for ever.

A session is always suspended at a `Point`, where it waits for one call to return.
What comes back is a `Signal`, and `hear` takes the session to the point where it
is suspended next.
-/
namespace ConfigWatch

open Feed (Event Failure)

namespace Session

/-- The call whose return a session waits for. -/
inductive Point where
  /-- The feed is asked for a subscription. -/
  | subscribing
  /-- The subscription is asked for its next batch. -/
  | listening
  /-- The lost subscription is given back. -/
  | releasing
  /-- The delay before the next subscription runs. -/
  | resting (delay : UInt64)
deriving DecidableEq, Repr

/-- The return of a call. -/
inductive Signal where
  | opened
  | refused (failure : Failure)
  | received (events : List Event)
  | disturbed (failure : Failure)
  | released
  | rested
deriving DecidableEq, Repr

end Session

/-- A watch session. The random part of its delays comes from `draws`, one draw
    for each failure in order. -/
structure Session where
  target : Target
  draws : Nat → Nat
  backoff : Backoff.Counter
  status : Session.Status
  replica : Replica
  point : Session.Point

namespace Session

/-- The session with its state set and recorded. -/
def enter (s : Session) (state : State) : Session :=
  { s with
    status := { s.status with state }
    replica := { s.replica with metrics := s.replica.metrics.recordState state.number } }

/-- The session as it asks the feed for a subscription. -/
def subscribe (s : Session) : Session := { s.enter .subscribing with point := .subscribing }

/-- A session at its first call. -/
def start (target : Target) (policy : Backoff.Policy) (draws : Nat → Nat) (status : Status)
    (replica : Replica) : Session :=
  subscribe ⟨target, draws, .start policy, status, replica, .subscribing⟩

/-- The session as it first listens on a new subscription. -/
def listen (s : Session) : Session :=
  { { s with status := { s.status with subscriptions := s.status.subscriptions + 1 } }.enter .active
    with point := .listening }

/-- Counts a failure and rests for the delay that it calls for. -/
def fail (s : Session) : Session :=
  let failed := s.enter .failed
  let (delay, backoff) := s.backoff.next (s.draws s.status.failures)
  { failed with
    backoff
    status := { failed.status with
      failures := failed.status.failures + 1
      attempts := backoff.attempts }
    replica := { failed.replica with metrics := failed.replica.metrics.recordResubscribe }
    point := .resting delay }

/-- Applies one event and counts it when it brought a document. -/
def applyEvent (s : Session) (e : Event) : Session :=
  let (applied, replica) := s.replica.deliver e
  let reloads := if applied then s.status.reloads + 1 else s.status.reloads
  { s with replica, status := { s.status with reloads } }

/-- Applies a batch. Receiving one ends the row of failures, even if it is empty. -/
def applyBatch (s : Session) (events : List Event) : Session :=
  events.foldl applyEvent
    { s with backoff := s.backoff.reset, status := { s.status with attempts := 0 } }

/-- The session after a call has returned. A signal that does not fit the call is
    not heard. -/
def hear (s : Session) (signal : Signal) : Session :=
  match s.point, signal with
  | .subscribing, .opened => s.listen
  | .subscribing, .refused _ => s.fail
  | .listening, .received events => s.applyBatch events
  | .listening, .disturbed failure =>
    if failure.losesSubscription then { s with point := .releasing } else s
  | .releasing, .released => s.fail
  | .resting _, .rested => s.subscribe
  | _, _ => s

end Session

end ConfigWatch
