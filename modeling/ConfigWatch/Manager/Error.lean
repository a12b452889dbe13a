import ConfigWatch.Url.Error
import ConfigWatch.Target
/-!
Why a watch target could not be had from a manager.
-/
namespace ConfigWatch.Manager

/-- What can go wrong with a lookup at a manager. -/
inductive Error where
  /-- The endpoint of the manager is no address. -/
  | invalidEndpoint (endpoint : Text) (cause : Url.Error)
  /-- The exchange failed, or its answer could not be read. -/
  | exchange
  /-- The manager answered with a status other than success. -/
  | status (code : Nat) (body : Text)
  /-- The answer named no target. -/
  | missingTarget
  /-- The target cannot be used. -/
  | invalidTarget (reason : Text)
deriving DecidableEq, Repr

def Error.message : Error → String
  | .invalidEndpoint endpoint cause =>
    "Invalid manager endpoint '" ++ String.ofList endpoint ++ "': " ++ cause.message
  | .exchange => "HTTP error"
  | .status code body =>
    "Manager returned status " ++ toString code ++ ": " ++ String.ofList body
  | .missingTarget => "Manager response carried no watch target"
  | .invalidTarget reason => "Invalid watch target: " ++ String.ofList reason

end ConfigWatch.Manager
