import ConfigWatch.Manager.Error
import ConfigWatch.Session
/-!
Clients. A client owns a replica and starts at most one watch session on it, ever.
The session needs a target, which a lookup finds for the name of the application;
when that fails, nothing has started and starting can be tried again.
-/
namespace ConfigWatch

/-- A client: its replica, the status of its session, and whether it has started
    one. -/
structure Client where
  replica : Replica
  status : Session.Status
  started : Bool

namespace Client

/-- Why a session could not be started. -/
inductive StartError where
  | missingApp
  | lookup (error : Manager.Error)
deriving DecidableEq

def StartError.message : StartError → String
  | .missingApp => "Application name is empty"
  | .lookup error => "Bootstrap failed: " ++ error.message

def fresh : Client := ⟨.fresh, .initial, false⟩

/-- Starts the session on a target. Only the first start gives a session. -/
def startWatch (c : Client) (target : Target) (policy : Backoff.Policy) (draws : Nat → Nat) :
    Option Session × Client :=
  if c.started then (none, c)
  else (some (.start target policy draws c.status c.replica), { c with started := true })

/-- The names for which starting under a name asks the lookup. A blank name is not
    asked for. -/
def asked (app : Text) : List Text := if app.isBlank then [] else [app]

/-- Looks the target of an application up and starts the session on it. -/
def init (c : Client) (app : Text) (lookup : Text → Except Manager.Error Target)
    (policy : Backoff.Policy) (draws : Nat → Nat) :
    Except StartError (Option Session) × Client :=
  match asked app with
  | [] => (.error .missingApp, c)
  | name :: _ =>
    match lookup name with
    | .error error => (.error (.lookup error), c)
    | .ok target =>
      match target.fault? with
      | some fault => (.error (.lookup (.invalidTarget fault.message.toList)), c)
      | none =>
        let (session, after) := c.startWatch target policy draws
        (.ok session, after)

def observe (c : Client) (s : Session) : Client :=
  { c with replica := s.replica, status := s.status }

end Client

end ConfigWatch
