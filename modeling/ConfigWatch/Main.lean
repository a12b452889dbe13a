import ConfigWatch.CommandLine.Launch
import ConfigWatch.CommandLine.Report
import ConfigWatch.Feed.Sight
import ConfigWatch.Manager.Exchange
import ConfigWatch.Manager.Response
import Std.Async.DNS
import Std.Async.TCP
/-!
The command line. Arguments, environment, files, the manager and the clock are read
here, and all that is made of them is decided elsewhere.
-/
namespace ConfigWatch.Main

open CommandLine (Options)
open Std.Async

def help : String :=
  "Runtime config client with gray-release checks\n\n" ++
  "Usage: gray-config [OPTIONS]\n\n" ++
  "Options:\n" ++
  "  -s, --settings <SETTINGS>            Settings file (TOML)\n" ++
  "      --app <APP>                      Application name to resolve at the manager\n" ++
  "      --manager <MANAGER>              Config manager endpoint\n" ++
  "      --feed-dir <FEED_DIRS>           Directory to watch instead (repeatable)\n" ++
  "      --key <KEY>                      Watch key, a path in such a directory\n" ++
  "      --show <SHOW>                    Config name to print (repeatable)\n" ++
  "      --gray <GRAY>                    Gray check to print, as name:id (repeatable)\n" ++
  "      --interval-secs <INTERVAL_SECS>  Seconds between reports [default: 5]\n" ++
  "  -h, --help                           Print help\n"

def see (path : Text) : IO Feed.Sight := do
  match ← (IO.FS.readBinFile (String.ofList path)).toBaseIO with
  | .ok bytes => return .content bytes.toList
  | .error (.noFileOrDirectory ..) => return .absent
  | .error error => return .unreadable (toString error)

def source (file : Option Text) : IO Settings.Source := do
  match file with
  | none => return .standard
  | some path =>
    match ← see path with
    | .content bytes => return .bytes bytes
    | _ => return .missing

/-- The environment, as far as settings depend on it. -/
def environment : IO (Text → Option Text) := do
  let given ← [Settings.appVariable, Settings.managerVariable].filterMapM fun name => do
    return (← IO.getEnv (String.ofList name)).map fun value => (name, value.toList)
  return fun name => given.lookup name

def draws : IO (Nat → Nat) := do
  let seed ← IO.rand 0 UInt32.size
  return fun n => (randNat (mkStdGen (seed + n)) 0 (UInt64.size - 1)).1

def socketAddress (port : Nat) : Std.Net.IPAddr → Std.Net.SocketAddress
  | .v4 address => .v4 ⟨address, port.toUInt16⟩
  | .v6 address => .v6 ⟨address, port.toUInt16⟩

/-- Receives until the other side closes the connection. -/
partial def receiveAll (socket : TCP.Socket.Client) (received : ByteArray) : Async ByteArray := do
  match ← socket.recv? 65536 with
  | some bytes => receiveAll socket (received ++ bytes)
  | none => return received

/-- Sends bytes to a host and receives what comes back. -/
def exchange (host : Url.Host) (port : Nat) (request : List UInt8) : IO (List UInt8) :=
  Async.block do
    let name := host.toText.filter fun c => c ≠ '[' && c ≠ ']'
    let addresses ← DNS.getAddrInfo (String.ofList name) ""
    match addresses[0]? with
    | none => return []
    | some address =>
      let socket ← TCP.Socket.Client.mk
      socket.connect (socketAddress port address)
      socket.send (ByteArray.mk request.toArray)
      return (← receiveAll socket ByteArray.empty).toList

/-- Waits for a task for some milliseconds at most. -/
partial def await? {α : Type} (task : Task (Except IO.Error α)) (timeout : Nat) :
    IO (Option α) := do
  if ← IO.hasFinished task then return (← IO.wait task).toOption
  if timeout = 0 then return none
  IO.sleep 1
  await? task (timeout - 1)

/-- Asks a manager for the target of an application. Only plain connections are made. -/
def ask (url : Url) (app : Text) (timeout : UInt64) : IO (Except Manager.Error Target) := do
  match url.host, Manager.request? url app, Url.defaultPort? url.scheme with
  | some host, some request, some 80 =>
    let task ← IO.asTask (exchange host (url.port.getD 80) request)
    match (← await? task timeout.toNat).bind Manager.Reply.ofBytes? with
    | some reply => return Manager.readAnswer reply.status reply.body
    | none => return .error .exchange
  | _, _, _ => return .error .exchange

def find? (target : Target) : IO (Option Feed.Observed) :=
  target.endpoints.findSomeM? fun endpoint => do
    let path := Feed.joinPath endpoint target.key.dropSlashes
    match ← see path with
    | .content _ => return some ⟨target.key, path, none⟩
    | _ => return none

/-- A client at work: its session, the file that is watched, and the time of the last
    signal. -/
structure Running where
  client : Client
  session : Session
  file : Option Feed.Observed
  since : Nat

def Running.hear (r : Running) (signal : Session.Signal) : IO Running := do
  return { r with session := r.session.hear signal, since := ← IO.monoMsNow }

/-- Makes the call that the session waits for, as far as it returns at once. -/
def Running.advance (r : Running) : IO Running := do
  match r.session.point with
  | .subscribing =>
    match ← find? r.session.target with
    | some file => Running.hear { r with file := some file } .opened
    | none => r.hear (.refused (Feed.missingFile r.session.target.endpoints r.session.target.key))
  | .listening =>
    match r.file with
    | none => r.hear (.disturbed .closed)
    | some file =>
      let (batch, file) := file.look (← see file.path)
      match batch with
      | none => return r
      | some (.ok events) => Running.hear { r with file := some file } (.received events)
      | some (.error failure) => Running.hear { r with file := some file } (.disturbed failure)
  | .releasing => Running.hear { r with file := none } .released
  | .resting delay =>
    if r.since + delay.toNat ≤ (← IO.monoMsNow) then r.hear .rested else return r

def Running.report (r : Running) (o : Options) : IO Running := do
  let (lines, client) := CommandLine.reportWith true (r.client.observe r.session) o.shown o.checks
  for line in lines do IO.println (String.ofList line)
  (← IO.getStdout).flush
  return { r with client, session := { r.session with replica := client.replica } }

/-- Works for ever, with a report whenever one is due. -/
partial def Running.loop (r : Running) (o : Options) (due : Nat) : IO UInt32 := do
  let r ← r.advance
  if due ≤ (← IO.monoMsNow) then
    let r ← r.report o
    r.loop o (due + 1000 * o.reportInterval)
  else
    IO.sleep 20
    r.loop o due

/-- Starts a client and lets it work; the exit code if it cannot be started. -/
def start (o : Options) : IO UInt32 := do
  let loaded := Settings.load (← source o.settings) (← environment)
  let answer ← match CommandLine.lookup? o loaded with
    | some (url, app, timeout) => ask url app timeout
    | none => pure (.error .exchange)
  match CommandLine.launch o loaded (fun _ _ => answer) (← draws) with
  | .ok (some session, client) =>
    for line in CommandLine.checkWarnings o.checks do IO.println (String.ofList line)
    let now ← IO.monoMsNow
    Running.loop ⟨client, session, none, now⟩ o now
  | .ok (none, _) => return 0
  | .error fault =>
    IO.eprintln ("Error: " ++ fault.message)
    return 1

end ConfigWatch.Main

/-- Watches configuration and reports on it, as the arguments say. -/
def main (arguments : List String) : IO UInt32 := do
  match ConfigWatch.CommandLine.Options.ofArguments (arguments.map String.toList) with
  | .ok options => ConfigWatch.Main.start options
  | .error .help =>
    IO.print ConfigWatch.Main.help
    return 0
  | .error .usage =>
    IO.eprintln "error: the arguments cannot be read; for more information, try '--help'."
    return 2
