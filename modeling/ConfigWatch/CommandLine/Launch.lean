import ConfigWatch.Client
import ConfigWatch.CommandLine.Options
import ConfigWatch.Settings.File
/-!
Starting a client from the command line: options and settings say what is watched, and
everything that can be wrong with them is found before the first report.
-/
namespace ConfigWatch.CommandLine

/-- Why a client could not be started. -/
inductive Fault where
  | settings (error : Settings.LoadError)
  | noManager
  | manager (error : Manager.Error)
  | start (error : Client.StartError)
deriving DecidableEq

def Fault.message : Fault → String
  | .settings error => error.message
  | .noManager => "no manager endpoint configured (use --manager or --feed-dir/--key)"
  | .manager error => error.message
  | .start error => error.message

/-- Where a client gets its target from: it is given, or a manager is asked for that of
    an application. -/
inductive Origin where
  | given (target : Target)
  | lookup (url : Url) (app : Text)

def Options.override (o : Options) (s : Settings) : Settings :=
  { s with app := o.app.or s.app, managerEndpoint := o.manager.or s.managerEndpoint }

/-- The origin of the target. Directories and a key together give it; otherwise a manager
    has to be known. -/
def origin [Url.Idna] (o : Options) (s : Settings) : Except Fault Origin :=
  match o.feedDirectories, o.key with
  | first :: others, some key => .ok (.given ⟨first :: others, key⟩)
  | _, _ =>
    match s.managerEndpoint with
    | none => .error .noManager
    | some endpoint =>
      match Manager.lookupUrl endpoint s.lookup.path with
      | .ok url => .ok (.lookup url (s.app.getD []))
      | .error error => .error (.manager error)

/-- The lookup that a start needs: its address, the application, and the milliseconds
    after which it is given up. -/
def lookup? [Url.Idna] (o : Options) (loaded : Except Settings.LoadError Settings) :
    Option (Url × Text × UInt64) := do
  let settings := o.override (← loaded.toOption)
  match origin o settings with
  | .ok (.lookup url app) =>
    if app.isBlank then none else some (url, app, settings.lookup.timeout)
  | _ => none

/-- Starts a client. `ask` is how a manager is asked. -/
def launch [Url.Idna] (o : Options) (loaded : Except Settings.LoadError Settings)
    (ask : Url → Text → Except Manager.Error Target) (draws : Nat → Nat) :
    Except Fault (Option Session × Client) := do
  let settings := o.override (← loaded.mapError Fault.settings)
  match ← origin o settings with
  | .given target => return Client.fresh.startWatch target settings.backoff draws
  | .lookup url app =>
    match Client.fresh.init app (ask url) settings.backoff draws with
    | (.ok session, client) => return (session, client)
    | (.error error, _) => throw (.start error)

end ConfigWatch.CommandLine
