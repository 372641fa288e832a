import KernelCore.Operation
import KernelCore.Serial

/-!
# The logger

A logger passes on the records that are severe enough to the serial line, each as a mark of its
level, its text and a line feed. It can be put in place once; from then on records down to the
debug level pass.

Nothing in a text is escaped. `Record.readAll` is what a reader makes out of the line: a text with
line feeds in it is read back whole, unless one of its lines begins with the mark of a level.
-/

namespace KernelCore

/-- The least severe level that passes, or that no record does. -/
inductive Filter where
  | off
  | upTo (level : Level)
  deriving DecidableEq, Repr

namespace Filter

def admits : Filter → Level → Bool
  | off, _ => false
  | upTo least, level => level.rank ≤ least.rank

def name : Filter → String
  | off => "OFF"
  | upTo least => least.name

def ofName? (name : String) : Option Filter :=
  if name = off.name then some off else (Level.ofName? name).map upTo

end Filter

/-- A text that was logged, and how severe it is. -/
structure Record where
  level : Level
  text : String
  deriving DecidableEq, Repr

namespace Record

/-- What the first line of a record begins with. -/
def mark (level : Level) : String :=
  "[" ++ level.name ++ "] "

/-- The record on the line, with the line feed that ends it. -/
def render (record : Record) : String :=
  mark record.level ++ record.text ++ "\n"

/-- The record that a line begins, if it begins with a mark. -/
def ofLine? (line : String) : Option Record :=
  Level.all.findSome? fun level =>
    ((mark level).toList.isPrefixOf? line.toList).map fun text => ⟨level, String.ofList text⟩

/-- Takes one more line into the records read so far, the last of them first. A line without a mark
belongs to the record before it. -/
def readLine (records : List Record) (line : String) : List Record :=
  match ofLine? line, records with
  | some record, _ => record :: records
  | none, [] => []
  | none, last :: rest => { last with text := last.text ++ "\n" ++ line } :: rest

/-- The records that can be made out in what was sent, in order. -/
def readAll (sent : String) : List Record :=
  ((sent.splitOn "\n").dropLast.foldl readLine []).reverse

end Record

/-- Why a logger was not put in place. -/
inductive LoggerError where
  | alreadyInstalled
  deriving DecidableEq, Repr

namespace LoggerError

def message : LoggerError → String
  | alreadyInstalled =>
      "attempted to set a logger after the logging system was already initialized"

end LoggerError

/-- Whether a logger is in place, and what it lets pass. -/
structure Logger where
  installed : Bool := false
  filter : Filter := .off
  deriving DecidableEq, Repr

namespace Logger

def install (logger : Logger) : Except LoggerError Logger :=
  if logger.installed then
    .error .alreadyInstalled
  else
    .ok { installed := true, filter := .upTo .debug }

/-- The bytes on the serial line for one record. -/
def emit (filter : Filter) (level : Level) (text : String) : List UInt8 :=
  if filter.admits level then
    Serial.transmitText (Record.render ⟨level, text⟩)
  else
    []

/-- The bytes on the serial line for the effects of an operation, in order, when the console is
the serial line too. -/
def transcript (filter : Filter) (effects : List Effect) : List UInt8 :=
  effects.flatMap fun
    | .cpu _ => []
    | .log notice => emit filter notice.level notice.text
    | .print bytes => Serial.transmit bytes

end Logger

end KernelCore
