import ConfigWatch.Client
import ConfigWatch.Text.Quoted
/-!
Reports: the state of a client, the values that are asked for, and the decisions that
are asked for. A check is written as a name and an identity with a colon between them;
names may hold colons themselves.
-/
namespace ConfigWatch.CommandLine

/-- A decision that is asked for. -/
structure Check where
  name : Text
  id : Text
deriving DecidableEq, Repr

/-- The check that a text writes: it is cut at its last colon. -/
def Check.ofText? (t : Text) : Option Check :=
  (Text.cutLast? ':' t).map fun (name, id) => ⟨name, id⟩

/-- The decision about a check. Where the identity reads as an integer it is one. -/
def Check.decide (c : Check) (r : Replica) : Bool × Replica :=
  r.checkNamed c.name (.ofText c.id)

def checkWarnings (checks : List Text) : List Text :=
  (checks.filter fun t => (Check.ofText? t).isNone).map fun t =>
    "WARN Ignoring gray check without ':<id>' check=".toList ++ t

/-- The line about the client itself, with the state of its session or without it. -/
def statusLine (c : Client) (showsState : Bool) : Text :=
  "INFO Client status".toList ++
    (if showsState then " state=".toList ++ c.status.state.toText else []) ++
    " entries=".toList ++ Numeral.ofNat c.replica.store.size ++
    " reloads=".toList ++ Numeral.ofNat c.status.reloads

def valueLine (s : Store) (name : Text) : Text :=
  "INFO Config value name=".toList ++ name ++ " value=".toList ++
    Text.quoted ((s.named? name).getD "<unset>".toList)

def checkLine (c : Check) (allowed : Bool) : Text :=
  "INFO Gray check name=".toList ++ c.name ++ " id=".toList ++ c.id ++ " allowed=".toList ++
    (if allowed then "true".toList else "false".toList)

/-- The line about a check says which decision was made. -/
theorem checkLine_inj {c : Check} {allowed decided : Bool} :
    checkLine c allowed = checkLine c decided ↔ allowed = decided := by
  unfold checkLine
  rw [List.append_cancel_left_eq]
  cases allowed <;> cases decided <;> simp

/-- The lines about checks, made one after the other. -/
def checkLines (r : Replica) : List Check → List Text × Replica
  | [] => ([], r)
  | check :: rest =>
    let (allowed, decided) := check.decide r
    let (lines, last) := checkLines decided rest
    (checkLine check allowed :: lines, last)

/-- A report on a client, and the client after it: first the client itself, then the
    values, then the checks. -/
def reportWith (showsState : Bool) (c : Client) (shown checks : List Text) : List Text × Client :=
  let (lines, replica) := checkLines c.replica (checks.filterMap Check.ofText?)
  (statusLine c showsState :: shown.map (valueLine c.replica.store) ++ lines, { c with replica })

/-- The report on what a client holds. The state of its session, which passes while the report
    is made, is left out. -/
def report (c : Client) (shown checks : List Text) : List Text × Client :=
  reportWith false c shown checks

end ConfigWatch.CommandLine
