import ConfigWatch.Numeral.Integer
/-!
The options of the command line. An option is followed by its value, in the same
argument after an equals sign or in the next one. Nothing but options can be given,
and those that are not lists at most once.
-/
namespace ConfigWatch.CommandLine

/-- What can be set on the command line. -/
structure Options where
  settings : Option Text
  app : Option Text
  manager : Option Text
  feedDirectories : List Text
  key : Option Text
  shown : List Text
  checks : List Text
  interval : Option Nat
deriving DecidableEq, Repr

def Options.initial : Options := ⟨none, none, none, [], none, [], [], none⟩

/-- The seconds between two reports, at least one. -/
def Options.reportInterval (o : Options) : Nat := max 1 (o.interval.getD 5)

/-- The options by name. -/
inductive OptionName where
  | settings
  | app
  | manager
  | feedDirectory
  | watchKey
  | shown
  | check
  | interval
deriving DecidableEq, Repr

/-- Why a command line does not lead to a run. -/
inductive Stop where
  /-- Help was asked for. -/
  | help
  /-- The arguments make no sense. -/
  | usage
deriving DecidableEq, Repr

/-- What one argument says. -/
inductive Argument where
  | help
  | setting (name : OptionName) (value : Option Text)
  | endOfOptions
  | other
deriving DecidableEq, Repr

def OptionName.ofLong? (name : Text) : Option OptionName :=
  if name = "settings".toList then some .settings
  else if name = "app".toList then some .app
  else if name = "manager".toList then some .manager
  else if name = "feed-dir".toList then some .feedDirectory
  else if name = "key".toList then some .watchKey
  else if name = "show".toList then some .shown
  else if name = "gray".toList then some .check
  else if name = "interval-secs".toList then some .interval
  else none

/-- The argument with a long name, and a value if one is attached. -/
def Argument.ofLong (body : Text) : Argument :=
  let (name, value) := match Text.cutFirst? '=' body with
    | some (name, value) => (name, some value)
    | none => (body, none)
  if name = "help".toList then (if value.isNone then .help else .other)
  else
    match OptionName.ofLong? name with
    | some option => .setting option value
    | none => .other

def attached? : Text → Option Text
  | [] => none
  | '=' :: value => some value
  | value => some value

/-- Reads an argument that is not the value of an option. -/
def Argument.ofText : Text → Argument
  | '-' :: '-' :: [] => .endOfOptions
  | '-' :: '-' :: body => .ofLong body
  | '-' :: 'h' :: _ => .help
  | '-' :: 's' :: rest => .setting .settings (attached? rest)
  | _ => .other

/-- Whether an argument can be the value of the option before it. -/
def isValue : Text → Bool
  | '-' :: _ :: _ => false
  | _ => true

def setOnce {α : Type} (old : Option α) (value : α) : Except Stop (Option α) :=
  if old.isSome then .error .usage else .ok (some value)

/-- A path, which is not empty. -/
def path (value : Text) : Except Stop Text :=
  if value.isEmpty then .error .usage else .ok value

def Options.set (o : Options) (option : OptionName) (value : Text) : Except Stop Options :=
  match option with
  | .settings => do return { o with settings := ← setOnce o.settings (← path value) }
  | .app => do return { o with app := ← setOnce o.app value }
  | .manager => do return { o with manager := ← setOnce o.manager value }
  | .feedDirectory => do
    return { o with feedDirectories := o.feedDirectories ++ [← path value] }
  | .watchKey => do return { o with key := ← setOnce o.key value }
  | .shown => .ok { o with shown := o.shown ++ [value] }
  | .check => .ok { o with checks := o.checks ++ [value] }
  | .interval =>
    match Numeral.naturalBelow? UInt64.size value with
    | some seconds => do return { o with interval := ← setOnce o.interval seconds }
    | none => .error .usage

/-- Reads arguments from left to right, after the options that are set already. The
    first argument that asks for help or makes no sense decides. -/
def Options.readFrom (o : Options) : List Text → Except Stop Options
  | [] => .ok o
  | argument :: rest =>
    match Argument.ofText argument with
    | .help => .error .help
    | .other => .error .usage
    | .endOfOptions => if rest.isEmpty then .ok o else .error .usage
    | .setting option (some value) => do (← o.set option value).readFrom rest
    | .setting option none =>
      match rest with
      | value :: rest =>
        if isValue value then do (← o.set option value).readFrom rest else .error .usage
      | [] => .error .usage

def Options.ofArguments (arguments : List Text) : Except Stop Options :=
  Options.initial.readFrom arguments

end ConfigWatch.CommandLine
