import HuntDraw.Text.Quoted

/-! Outcomes of checking a value against what is expected of it. Every fault is reported, each with
its place, in the order in which the parts are declared. -/

namespace HuntDraw

/-- What is wrong with one part of a value. -/
inductive Complaint where
  | missing
  | extra
  | notText
  | emptyText
  | notWhole
  | wholeSyntax
  | wholeTooLarge
  | notFinite
  | fractional
  | notNumber
  | numberSyntax
  | notBool
  | boolSyntax
  | notTuple
  | tooManyItems (most actual : Nat)
  | notMapping
  | notRecord (name : String)
  | notMember (texts : List String)
  | below (least : Nat)
  | notAbove (bound : Nat)
  | notPath
  | refused (reason : String)
  deriving DecidableEq, Repr

/-- The alternatives in quotes, the last one joined by a word. -/
def alternatives : List String → String
  | [] => ""
  | [a] => s!"'{a}'"
  | [a, b] => s!"'{a}' or '{b}'"
  | a :: rest => s!"'{a}', {alternatives rest}"

def Complaint.message : Complaint → String
  | .missing => "Field required"
  | .extra => "Extra inputs are not permitted"
  | .notText => "Input should be a valid string"
  | .emptyText => "String should have at least 1 character"
  | .notWhole => "Input should be a valid integer"
  | .wholeSyntax => "Input should be a valid integer, unable to parse string as an integer"
  | .wholeTooLarge => "Unable to parse input string as an integer, exceeded maximum size"
  | .notFinite => "Input should be a finite number"
  | .fractional => "Input should be a valid integer, got a number with a fractional part"
  | .notNumber => "Input should be a valid number"
  | .numberSyntax => "Input should be a valid number, unable to parse string as a number"
  | .notBool => "Input should be a valid boolean"
  | .boolSyntax => "Input should be a valid boolean, unable to interpret input"
  | .notTuple => "Input should be a valid tuple"
  | .tooManyItems most actual =>
    s!"Tuple should have at most {most} items after validation, not {actual}"
  | .notMapping => "Input should be a valid dictionary"
  | .notRecord name => s!"Input should be a valid dictionary or instance of {name}"
  | .notMember texts => s!"Input should be {alternatives texts}"
  | .below least => s!"Input should be greater than or equal to {least}"
  | .notAbove bound => s!"Input should be greater than {bound}"
  | .notPath => "Input is not a valid path for <class 'pathlib.Path'>"
  | .refused reason => s!"Value error, {reason}"

/-- A complaint and the place it is about, outermost part first. -/
structure Fault where
  path : List String
  complaint : Complaint
  deriving DecidableEq, Repr

/-- The place as one text. -/
def Fault.place (f : Fault) : String := ".".intercalate f.path

/-- The checked value, or all the faults found. -/
inductive Checked (α : Type) where
  | valid (value : α)
  | faulty (faults : List Fault)
  deriving DecidableEq, Repr

namespace Checked

variable {α β : Type}

def map (f : α → β) : Checked α → Checked β
  | .valid a => .valid (f a)
  | .faulty fs => .faulty fs

/-- The faults of both sides, those of the left one first. -/
def apply : Checked (α → β) → Checked α → Checked β
  | .valid f, .valid a => .valid (f a)
  | .valid _, .faulty fs => .faulty fs
  | .faulty fs, .valid _ => .faulty fs
  | .faulty fs, .faulty gs => .faulty (fs ++ gs)

instance : Functor Checked where
  map := map

instance : Applicative Checked where
  pure := .valid
  seq f a := apply f (a ())

/-- A further check, made only of a valid value. -/
def andThen (a : Checked α) (f : α → Checked β) : Checked β :=
  match a with
  | .valid a => f a
  | .faulty fs => .faulty fs

def complain (c : Complaint) : Checked α := .faulty [⟨[], c⟩]

/-- The same outcome, reported of a part at `step`. -/
def within (step : String) : Checked α → Checked α
  | .valid a => .valid a
  | .faulty fs => .faulty (fs.map fun f => { f with path := step :: f.path })

def toExcept : Checked α → Except (List Fault) α
  | .valid a => .ok a
  | .faulty fs => .error fs

end Checked
end HuntDraw
