import ConfigWatch.Address.Socket
import ConfigWatch.Settings.Basic
/-!
What can be wrong with settings. All problems are reported at once, in a fixed order.
-/
namespace ConfigWatch.Settings

/-- A problem with settings that could be read. -/
inductive Problem where
  | zeroTimeout
  | zeroBackoffBase
  | backoffRange (base cap : UInt64)
  | backoffTooLarge (cap : UInt64)
  | invalidManagerEndpoint (endpoint : Text)
  | invalidMetricsAddress (address : Text)
deriving DecidableEq, Repr

/-- The greatest cap of delays: one hour. -/
def greatestCap : UInt64 := 3600000

def Problem.message : Problem → String
  | .zeroTimeout => "bootstrap.timeout_secs must be greater than 0"
  | .zeroBackoffBase => "watch.backoff_base_ms must be greater than 0"
  | .backoffRange base cap =>
    "watch.backoff_max_ms (" ++ toString cap.toNat ++ ") must be >= watch.backoff_base_ms (" ++
      toString base.toNat ++ ")"
  | .backoffTooLarge cap =>
    "watch.backoff_max_ms (" ++ toString cap.toNat ++ ") must be <= " ++
      toString greatestCap.toNat
  | .invalidManagerEndpoint endpoint =>
    "manager_endpoint '" ++ String.ofList endpoint ++ "' is not a valid address"
  | .invalidMetricsAddress address =>
    "observability.metrics_address '" ++ String.ofList address ++ "' is not a socket address"

def hasLookupUrl [Url.Idna] (s : Settings) (endpoint : Text) : Bool :=
  match Manager.lookupUrl endpoint s.lookup.path with
  | .ok _ => true
  | .error _ => false

/-- The problem with the endpoint of the manager, if one is set. -/
def managerProblem [Url.Idna] (s : Settings) : Option Problem :=
  match s.managerEndpoint with
  | some endpoint =>
    if s.hasLookupUrl endpoint then none else some (.invalidManagerEndpoint endpoint)
  | none => none

/-- The problem with the address of the metrics, if there are any. -/
def metricsProblem (s : Settings) : Option Problem :=
  let o := s.observability
  if o.metricsEnabled && !Socket.isAddress o.metricsAddress then
    some (.invalidMetricsAddress o.metricsAddress)
  else none

def problems [Url.Idna] (s : Settings) : List Problem :=
  (if s.lookup.timeoutSeconds = 0 then [.zeroTimeout] else []) ++
  (if s.backoff.base = 0 then [.zeroBackoffBase] else []) ++
  (if s.backoff.cap < s.backoff.base then [.backoffRange s.backoff.base s.backoff.cap] else []) ++
  (if greatestCap < s.backoff.cap then [.backoffTooLarge s.backoff.cap] else []) ++
  s.managerProblem.toList ++ s.metricsProblem.toList

/-- Accepts settings with which there is no problem, and reports all problems otherwise. -/
def validate [Url.Idna] (s : Settings) : Except (List Problem) Unit :=
  if s.problems.isEmpty then .ok () else .error s.problems

end ConfigWatch.Settings
