import ConfigWatch.Text.Blank
/-!
Watch targets: the endpoints of a change feed and the one key to watch there.
-/
namespace ConfigWatch

/-- Where to watch for configuration. -/
structure Target where
  endpoints : List Text
  key : Text
deriving DecidableEq, Repr

namespace Target

/-- What makes a target unusable. -/
inductive Fault where
  | noEndpoints
  | emptyKey
deriving DecidableEq, Repr

def Fault.message : Fault → String
  | .noEndpoints => "no feed endpoints"
  | .emptyKey => "empty watch key"

/-- The first fault of a target. It needs an endpoint and a key that are not
    blank. -/
def fault? (t : Target) : Option Fault :=
  if t.endpoints.all Text.isBlank then some .noEndpoints
  else if t.key.isBlank then some .emptyKey
  else none

end Target

end ConfigWatch
