import HuntDraw.Log.Event
import HuntDraw.Log.Message
import HuntDraw.Text.Case
import HuntDraw.Text.Order

/-! Lines of the log. Every logger has a least rank, given by name, and loggers that would flood the log are held to
warnings at least. Every event that is admitted is one object with its fields, its logger and its level. -/

namespace HuntDraw

/-- Levels by the names that may be asked for, and their ranks. -/
def rankNames : List (String × Nat) :=
  [("CRITICAL", 50), ("ERROR", 40), ("WARNING", 30), ("INFO", 20), ("DEBUG", 10), ("NOTSET", 0),
   ("FATAL", 50), ("WARN", 30)]

/-- The least rank that is logged. -/
structure Threshold where
  rank : Nat
  deriving DecidableEq, Repr

namespace Threshold

/-- The threshold of a name, in letters of either case. -/
def ofName? (name : String) : Option Threshold :=
  (rankNames.find? (·.1 = Text.upper name)).map fun p => ⟨p.2⟩

/-- The proper name of a threshold. -/
def name (t : Threshold) : String :=
  ((rankNames.find? (·.2 = t.rank)).map (·.1)).getD s!"Level {t.rank}"

/-- What is said of a name that no level has. -/
def unknownMessage (name : String) : String := "Unknown level: " ++ Text.quoted ("Level " ++ Text.upper name)

/-- Loggers that are heard from warnings on, however low the threshold is. -/
def noisyLoggers : List String := ["sqlalchemy.engine", "sqlalchemy.pool", "dynaconf"]

/-- Whether a logger is one of the given one's own: itself, or under it by a point. -/
def belongs (logger owner : String) : Bool := logger == owner || Text.startsWith logger (owner ++ ".")

/-- The threshold of one logger. -/
def ofLogger (t : Threshold) (logger : String) : Threshold :=
  if noisyLoggers.any (belongs logger) then ⟨max t.rank LogLevel.warning.rank⟩ else t

def admits (t : Threshold) (logger : String) (level : LogLevel) : Bool := (t.ofLogger logger).rank ≤ level.rank

end Threshold
/-- What a logger is told. -/
inductive LogEntry where
  /-- An event with fields, and fields of its surroundings. -/
  | event (e : LogEvent) (bound : Fields Json)
  /-- A message made from a template. -/
  | message (level : LogLevel) (template : String) (args : List Json)

namespace LogEntry

def level : LogEntry → LogLevel
  | event e _ => e.level
  | message l _ _ => l

/-- Fields that tell of a failure or a call stack are not shown when there is none. -/
def traceFields : List String := ["exc_info", "stack_info"]

/-- What an entry says, if it says anything. -/
def fields? : LogEntry → Option (Fields Json)
  | event e bound =>
    let fields : Fields Json := (e.within bound).fields.filter fun p => !traceFields.contains p.1
    some (fields.put "event" (.text e.name))
  | message _ template args => (Message.fill? template args).map fun s => [("event", .text s)]

/-- The line of an entry, if it is admitted. -/
def line? (t : Threshold) (logger : String) (e : LogEntry) : Option Json :=
  if t.admits logger e.level then
    e.fields?.map fun fs => .object ((fs.put "logger" (.text logger)).put "level" (.text e.level.text))
  else none

end LogEntry
end HuntDraw
