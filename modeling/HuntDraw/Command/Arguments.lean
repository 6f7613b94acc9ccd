import HuntDraw.Text.Order

/-! Arguments of commands: options, which may take a value, and words. Options have a long name, and some
a letter; letters may be written together. -/

namespace HuntDraw

structure OptionSpec where
  long : String
  letter : Option Char := none
  takesValue : Bool := false
  deriving DecidableEq, Repr

/-- The options that were given, by their long names and in the order of writing, and the words. -/
structure Arguments where
  options : List (String × String) := []
  words : List String := []
  deriving DecidableEq, Repr

namespace Arguments

def withOptions (options : List (String × String)) (a : Arguments) : Arguments :=
  { a with options := options ++ a.options }

def withWord (word : String) (a : Arguments) : Arguments := { a with words := word :: a.words }

/-- The value of an option; the last one that was given counts. -/
def value? (a : Arguments) (long : String) : Option String :=
  (a.options.reverse.find? (·.1 = long)).map (·.2)

def has (a : Arguments) (long : String) : Bool := a.options.any (·.1 = long)

/-- The options that letters stand for. The first one that takes a value takes the rest of the letters as
its value; when there are none, it is named, and its value is still to come. -/
def letters (specs : List OptionSpec) : List Char → Option (List (String × String) × Option String)
  | [] => some ([], none)
  | c :: rest => do
    let spec ← specs.find? (·.letter = some c)
    if spec.takesValue then
      if rest.isEmpty then return ([], some spec.long)
      else return ([(spec.long, String.ofList rest)], none)
    else
      let (more, waiting) ← letters specs rest
      return ((spec.long, "") :: more, waiting)

/-- What an argument that starts with a dash stands for. -/
def optionOf (specs : List OptionSpec) (arg : List Char) : Option (List (String × String) × Option String) :=
  match arg with
  | '-' :: '-' :: _ => do
    let spec ← specs.find? (·.long = String.ofList (arg.takeWhile (· ≠ '=')))
    match arg.dropWhile (· ≠ '='), spec.takesValue with
    | [], false => return ([(spec.long, "")], none)
    | [], true => return ([], some spec.long)
    | _ :: value, true => return ([(spec.long, String.ofList value)], none)
    | _ :: _, false => none
  | _ :: cs => letters specs cs
  | [] => none

def isOption (arg : String) : Bool := Text.startsWith arg "-" && arg ≠ "-"

/-- Reads arguments. Behind two dashes there are only words; where options and words are not mixed, behind
the first word too. -/
def parse (specs : List OptionSpec) (mixed : Bool) : List String → Option Arguments
  | [] => some {}
  | arg :: rest =>
    if arg = "--" then some { words := rest }
    else if isOption arg then
      match optionOf specs arg.toList with
      | none => none
      | some (options, none) => (parse specs mixed rest).map (withOptions options)
      | some (options, some waiting) =>
        match rest with
        | [] => none
        | value :: rest => (parse specs mixed rest).map (withOptions (options ++ [(waiting, value)]))
    else if mixed then (parse specs mixed rest).map (withWord arg)
    else some { words := arg :: rest }

end Arguments
end HuntDraw
