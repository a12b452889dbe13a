import ConfigWatch.Replica.Request
import ConfigWatch.Session
/-!
Sessions on a scripted feed. A script says how each subscribe call goes and what
each subscription delivers; running a session on it gives the trace of its calls
on the feed. The calls themselves take no time, so the time between two subscribe
calls is the delay that lies between them. A call for which the script has no
answer never returns, and the run ends there.

While a session waits for a batch, others may use its replica; the script says
which requests they make then.
-/
namespace ConfigWatch.Session

open Feed (Event Failure)

/-- What a wait for the next batch brings, and the requests that others make
    meanwhile. -/
structure Delivery where
  requests : List Request
  result : Except Failure (List Event)

/-- How a subscribe call goes. -/
inductive Offer where
  | refusal (failure : Failure)
  | subscription (deliveries : List Delivery)

/-- A call on the feed. -/
inductive Call where
  /-- A subscription is asked for, `waited` milliseconds after the last time. -/
  | subscribe (waited : Nat)
  /-- The next batch is asked for; `answers` are those to the requests made
      meanwhile, and `none` if the call does not return. -/
  | nextBatch (answers : Option (List Answer))
  /-- A subscription is given back. -/
  | release

/-- A call, and the session as it makes it. -/
structure Moment where
  call : Call
  session : Session

def Delivery.signal (d : Delivery) : Signal :=
  match d.result with
  | .ok events => .received events
  | .error failure => .disturbed failure

def restTime (s : Session) : Nat :=
  match s.point with
  | .resting delay => delay.toNat
  | _ => 0

/-- Runs a listening session on a subscription. The session afterwards either
    still listens, because the deliveries are used up, or rests. -/
def runSubscription (s : Session) : List Delivery → List Moment × Session
  | [] => ([⟨.nextBatch none, s⟩], s)
  | delivery :: rest =>
    let (answers, replica) := s.replica.answerAll delivery.requests
    let waiting := { s with replica }
    let heard := waiting.hear delivery.signal
    match heard.point with
    | .releasing =>
      ([⟨.nextBatch (some answers), waiting⟩, ⟨.release, heard⟩], heard.hear .released)
    | _ =>
      let (moments, last) := runSubscription heard rest
      (⟨.nextBatch (some answers), waiting⟩ :: moments, last)

/-- Runs a subscribing session, `waited` milliseconds after its last subscribe
    call, on the rest of a script. -/
def runFrom (waited : Nat) (s : Session) : List Offer → List Moment × Session
  | [] => ([⟨.subscribe waited, s⟩], s)
  | .refusal failure :: rest =>
    let resting := s.hear (.refused failure)
    let (moments, last) := runFrom resting.restTime (resting.hear .rested) rest
    (⟨.subscribe waited, s⟩ :: moments, last)
  | .subscription deliveries :: rest =>
    let (heard, left) := runSubscription (s.hear .opened) deliveries
    match left.point with
    | .resting delay =>
      let (moments, last) := runFrom delay.toNat (left.hear .rested) rest
      (⟨.subscribe waited, s⟩ :: heard ++ moments, last)
    | _ => (⟨.subscribe waited, s⟩ :: heard, left)

/-- The trace of a session that starts on a script, and the session in the end. -/
def run (s : Session) (script : List Offer) : List Moment × Session := runFrom 0 s script

end ConfigWatch.Session
