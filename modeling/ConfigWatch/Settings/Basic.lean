import ConfigWatch.Backoff
import ConfigWatch.Manager.Lookup
import ConfigWatch.Text.Blank
/-!
The settings of a client.
-/
namespace ConfigWatch

/-- How the manager is asked. -/
structure LookupSettings where
  path : Text
  timeoutSeconds : UInt64
deriving DecidableEq, Repr

/-- Logging and metrics. -/
structure ObservabilitySettings where
  logFilter : Text
  metricsEnabled : Bool
  metricsAddress : Text
deriving DecidableEq, Repr

/-- All settings of a client. The application and the manager need not be set. -/
structure Settings where
  app : Option Text
  managerEndpoint : Option Text
  lookup : LookupSettings
  backoff : Backoff.Policy
  observability : ObservabilitySettings
deriving DecidableEq, Repr

/-- The time after which a lookup is given up. Times are 64-bit numbers of milliseconds
    throughout; one that does not fit is longer than any clock runs, and is cut off. -/
def LookupSettings.timeout (s : LookupSettings) : UInt64 :=
  .ofNatClamp (s.timeoutSeconds.toNat * 1000)

def LookupSettings.standard : LookupSettings := ⟨Manager.standardPath, 10⟩

def ObservabilitySettings.standard : ObservabilitySettings :=
  ⟨"gray_config=info".toList, false, "0.0.0.0:9100".toList⟩

namespace Settings

def standard : Settings := ⟨none, none, .standard, .standard, .standard⟩

/-- The environment variable that overrides the application. -/
def appVariable : Text := "GRAY_CONFIG_APP".toList

/-- The environment variable that overrides the endpoint of the manager. -/
def managerVariable : Text := "GRAY_CONFIG_MANAGER_ENDPOINT".toList

/-- The settings with those that the environment overrides. Blank values do not
    count. -/
def override (s : Settings) (environment : Text → Option Text) : Settings :=
  let given := fun name => (environment name).filter fun value => !value.isBlank
  { s with
    app := (given appVariable).or s.app
    managerEndpoint := (given managerVariable).or s.managerEndpoint }

end Settings

end ConfigWatch
