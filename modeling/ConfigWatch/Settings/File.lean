import ConfigWatch.Settings.Problem
import ConfigWatch.Toml.Document
/-!
Settings from a file and the environment. A file is a TOML document with a table for
each group of settings. What it does not give keeps its standard value, and what it
gives besides does not matter; but a setting of the wrong kind makes the file
unreadable. A group may also be given as an array of its values in order.
-/
namespace ConfigWatch.Settings

open Toml (Value Fields)

def text? : Value → Option Text
  | .string t => some t
  | _ => none

def number? : Value → Option UInt64
  | .scalar (.integer n) => if 0 ≤ n then some (UInt64.ofNat n.toNat) else none
  | _ => none

def flag? : Value → Option Bool
  | .scalar (.bool b) => some b
  | _ => none

/-- The values of a group of settings, by the names of its settings. A date counts as a
    group that gives none of them. -/
def group? (names : List Text) : Value → Option (List (Option Value))
  | .inline fields => some (names.map (Fields.get? fields))
  | .table _ fields => some (names.map (Fields.get? fields))
  | .array items => some ((List.range names.length).map fun i => items[i]?)
  | .tables closed last =>
    some ((List.range names.length).map fun i => (closed ++ [last])[i]?.map (.table .header))
  | .scalar .date => some (names.map fun _ => none)
  | _ => none

/-- A setting as it is given, or its standard value. -/
def orStandard {α : Type} (readValue : Value → Option α) (standard : α) :
    Option Value → Option α
  | some value => readValue value
  | none => some standard

def lookup? (value : Value) : Option LookupSettings :=
  match group? ["path".toList, "timeout_secs".toList] value with
  | some [path, timeout] => do
    return ⟨← orStandard text? LookupSettings.standard.path path,
      ← orStandard number? LookupSettings.standard.timeoutSeconds timeout⟩
  | _ => none

def backoff? (value : Value) : Option Backoff.Policy :=
  match group? ["backoff_base_ms".toList, "backoff_max_ms".toList] value with
  | some [base, cap] => do
    return ⟨← orStandard number? Backoff.Policy.standard.base base,
      ← orStandard number? Backoff.Policy.standard.cap cap⟩
  | _ => none

def observability? (value : Value) : Option ObservabilitySettings :=
  match group? ["log_filter".toList, "metrics_enabled".toList, "metrics_address".toList] value with
  | some [filter, enabled, address] => do
    return ⟨← orStandard text? ObservabilitySettings.standard.logFilter filter,
      ← orStandard flag? ObservabilitySettings.standard.metricsEnabled enabled,
      ← orStandard text? ObservabilitySettings.standard.metricsAddress address⟩
  | _ => none

/-- A text that is set, where none needs to be. -/
def optionalText? (value : Value) : Option (Option Text) := (text? value).map some

def ofFields? (fields : Fields) : Option Settings := do
  return {
    app := ← orStandard optionalText? none (fields.get? "app".toList)
    managerEndpoint := ← orStandard optionalText? none (fields.get? "manager_endpoint".toList)
    lookup := ← orStandard lookup? .standard (fields.get? "bootstrap".toList)
    backoff := ← orStandard backoff? .standard (fields.get? "watch".toList)
    observability :=
      ← orStandard observability? .standard (fields.get? "observability".toList) }

/-- Where settings are loaded from. -/
inductive Source where
  /-- No file: the standard values. -/
  | standard
  /-- A file that is not there. -/
  | missing
  /-- A file with the given bytes. -/
  | bytes (content : List UInt8)

/-- Why settings could not be loaded. -/
inductive LoadError where
  | fileMissing
  | notText
  | unreadable
  | invalid (problems : List Problem)
deriving DecidableEq, Repr

def LoadError.message : LoadError → String
  | .fileMissing => "IO error: No such file or directory (os error 2)"
  | .notText => "IO error: stream did not contain valid UTF-8"
  | .unreadable => "Parse error"
  | .invalid problems => "Validation failed: " ++ ", ".intercalate (problems.map Problem.message)

def ofSource : Source → Except LoadError Settings
  | .standard => .ok .standard
  | .missing => .error .fileMissing
  | .bytes content =>
    match Utf8.decode? content with
    | none => .error .notText
    | some t =>
      match (Fields.ofText? t).bind ofFields? with
      | none => .error .unreadable
      | some settings => .ok settings

/-- Loads settings: those of the source, with those that the environment overrides, if
    there is no problem with them. -/
def load [Url.Idna] (source : Source) (environment : Text → Option Text) : Except LoadError Settings := do
  let settings := (← ofSource source).override environment
  settings.validate.mapError .invalid
  return settings

end ConfigWatch.Settings
