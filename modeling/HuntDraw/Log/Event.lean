import HuntDraw.Data.Json

/-! What a run tells its operators: named events with fields, in the order in which they happen. -/

namespace HuntDraw

inductive LogLevel where
  | debug
  | info
  | warning
  | error
  | critical
  deriving DecidableEq, Repr

namespace LogLevel

def all : List LogLevel := [.debug, .info, .warning, .error, .critical]

def text : LogLevel → String
  | .debug => "debug"
  | .info => "info"
  | .warning => "warning"
  | .error => "error"
  | .critical => "critical"

/-- Higher ranks matter more. -/
def rank : LogLevel → Nat
  | .debug => 10
  | .info => 20
  | .warning => 30
  | .error => 40
  | .critical => 50

end LogLevel

structure LogEvent where
  level : LogLevel
  name : String
  fields : Fields Json := []

namespace LogEvent

/-- The same event with the fields of its surroundings; its own fields win. -/
def within (bound : Fields Json) (e : LogEvent) : LogEvent :=
  { e with fields := e.fields.foldl (fun m p => Fields.put m p.1 p.2) bound }

def toJson (e : LogEvent) : Json :=
  .object ((Fields.put e.fields "event" (.text e.name)).put "log_level" (.text e.level.text))

end LogEvent
end HuntDraw
