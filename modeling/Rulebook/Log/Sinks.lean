import Rulebook.Log.Record
import Rulebook.Settings.Basic

/-!
# Log — sinks

Records go to the sinks that are installed.  The library is silent until a sink is enabled, and
again once the last one is disabled; a handle is the right to disable one sink.

* `State.enable`, `State.disable`: a sink more, a sink less.
* `State.emit`: what the sinks put out for one entry, and `Sink.write` one of them: a line, or the
  report that an entry with an integer of too many digits could not be written.
-/

namespace Rulebook.Log

/-- An entry of the log: a record of the library, or a text from some module. -/
inductive Entry
  | ofRecord (record : Record)
  | text (module : Option String) (level : Level) (message : String)
  deriving Repr

namespace Entry

def level : Entry → Level
  | .ofRecord record => record.level
  | .text _ level _ => level

/-- The module an entry comes from, if it comes from a named one. -/
def module? : Entry → Option String
  | .ofRecord record => some record.origin.1
  | .text module _ _ => module

/-- The function an entry comes from. -/
def function : Entry → String
  | .ofRecord record => record.origin.2
  | .text .. => "<module>"

def message : Entry → String
  | .ofRecord record => record.message
  | .text _ _ message => message

def fields : Entry → List (String × Field)
  | .ofRecord record => record.fields
  | .text .. => []

/-- Whether every field of an entry can be written. -/
def isWritable (entry : Entry) : Bool := entry.fields.all fun field => field.2.isWritable

end Entry

/-- The name of the package whose records the sinks take. -/
def packageName : String := "symkit"

/-- Whether a module is silenced together with the package. -/
def inPackage (module : String) : Bool :=
  module == packageName || (packageName ++ ".").isPrefixOf module

/-- A handler that writes lines. -/
structure Sink where
  id : Nat
  level : Level
  format : Format
  deriving DecidableEq, Repr

/-- What stands in a line for the time and for the place in the source. -/
structure Stamp where
  time : String
  place : String

/-- What a sink puts out for an entry: a line, or a report that names the sink, which could not
write one. -/
inductive Output
  | line (text : String)
  | failure (sink : Nat)
  deriving DecidableEq, Repr

namespace Sink

/-- Whether a sink takes an entry: it is grave enough and its module has the package's name at the
start of its own. -/
def admits (sink : Sink) (entry : Entry) : Bool :=
  decide (sink.level.severity ≤ entry.level.severity)
    && (entry.module?.any fun module => packageName.isPrefixOf module)

/-- A name, filled up with spaces to eight characters. -/
def pad (name : String) : String := name ++ String.ofList (List.replicate (8 - name.length) ' ')

/-- The fields of an entry between braces. -/
def fieldsText (fields : List (String × Field)) : String :=
  Text.enclose "\x7b" "\x7d"
    (fields.map fun (key, field) => Text.quote key ++ ": " ++ field.literal)

/-- The line of a sink for an entry. -/
def line (sink : Sink) (stamp : Stamp) (entry : Entry) : String :=
  let origin := match sink.format with
    | .short => entry.function
    | .full => entry.module?.getD "None" ++ ":" ++ entry.function ++ ":" ++ stamp.place
  stamp.time ++ " | " ++ pad entry.level.name ++ " | " ++ origin ++ " - " ++ entry.message ++ " "
    ++ fieldsText entry.fields

/-- What a sink puts out for an entry that it takes. -/
def write (sink : Sink) (stamp : Stamp) (entry : Entry) : Output :=
  if entry.isWritable then .line (sink.line stamp entry) else .failure sink.id

end Sink

/-- The sinks that are installed, whether the package speaks, and the handles that have been
given out: each has its sink until it is disabled. -/
structure State where
  speaking : Bool
  sinks : List Sink
  nextId : Nat
  active : List Nat
  handles : List (Option Nat)
  deriving Repr

namespace State

/-- Silent, without sinks. -/
def initial : State := ⟨false, [], 0, [], []⟩

/-- Why no sink is enabled: the settings cannot be read, or the level has no such name. -/
inductive EnableFault
  | settings (faults : List Settings.Fault)
  | unknownLevel (name : String)
  deriving DecidableEq, Repr

def EnableFault.message : EnableFault → String
  | .settings _ => ""
  | .unknownLevel name => "Level '" ++ name ++ "' does not exist"

/-- An argument that is left out when it is missing or empty. -/
def given (argument : Option String) : Option String := argument.filter (· ≠ "")

/-- Installs a sink and gives out its handle.  A level or a format that is left out is taken from
the settings; every format but the short one is the full one.  The package speaks from then on, and
the id is used up, also if the level turns out to be unknown. -/
def enable (settings : Except (List Settings.Fault) Settings) (level format : Option String)
    (s : State) : State × Except EnableFault Unit :=
  match settings with
  | .error faults => (s, .error (.settings faults))
  | .ok settings =>
    let s := { s with speaking := true }
    let name := (given level).getD settings.logLevel.name
    match Level.ofName? name with
    | none => ({ s with nextId := s.nextId + 1 }, .error (.unknownLevel name))
    | some level =>
      let format := match given format with
        | none => settings.logFormat
        | some name => if name = Format.short.name then .short else .full
      ({ s with
          sinks := s.sinks ++ [⟨s.nextId, level, format⟩]
          nextId := s.nextId + 1
          active := s.active ++ [s.nextId]
          handles := s.handles ++ [some s.nextId] }, .ok ())

/-- Takes the sink of a handle away; a handle that was disabled before has none.  The package
falls silent with its last sink. -/
def disable (handle : Nat) (s : State) : State :=
  match (s.handles[handle]?).join with
  | none => s
  | some id =>
    let active := s.active.erase id
    { s with
      speaking := s.speaking && !active.isEmpty
      sinks := s.sinks.filter (·.id ≠ id)
      active := active
      handles := s.handles.set handle none }

/-- The number of handles that are not disabled. -/
def activeCount (s : State) : Nat := s.active.length

/-- Whether an entry reaches the sinks at all. -/
def passes (s : State) (entry : Entry) : Bool :=
  s.speaking || !(entry.module?.any inPackage)

/-- What the sinks put out for an entry, in the order in which they were installed. -/
def emit (stamp : Stamp) (s : State) (entry : Entry) : List Output :=
  if s.passes entry then (s.sinks.filter (·.admits entry)).map (·.write stamp entry) else []

/-- What is put out for a text from some module at the level of a name; the name is looked up only
if there is a sink and the module may speak. -/
def emitText (stamp : Stamp) (s : State) (module : Option String) (level text : String) :
    Except EnableFault (List Output) :=
  match Level.ofName? level with
  | some level => .ok (s.emit stamp (.text module level text))
  | none =>
    if !s.sinks.isEmpty && s.passes (.text module .trace text) then
      .error (.unknownLevel level)
    else .ok []

end State

end Rulebook.Log
