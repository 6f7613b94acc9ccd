/-! Closed sets of values, each written as one text. -/

namespace HuntDraw

class Worded (α : Type) where
  /-- What the set is called in messages. -/
  kind : String
  all : List α
  /-- The name of a member. -/
  name : α → String
  /-- The text that stands for a member wherever it is written. -/
  text : α → String

namespace Worded

variable {α : Type} [Worded α]

/-- The member that a text stands for. -/
def ofText? (s : String) : Option α := (all (α := α)).find? fun a => text a = s

/-- Why a text stands for no member. -/
def refusal (α : Type) [Worded α] (shown : String) : String := s!"{shown} is not a valid {kind α}"

def texts (α : Type) [Worded α] : List String := (all (α := α)).map text

/-- Name and text of every member. -/
def table (α : Type) [Worded α] : List (String × String) := (all (α := α)).map fun a => (name a, text a)

end Worded
end HuntDraw
