import HuntDraw.Settings.Variables
import HuntDraw.Text.Blank
import HuntDraw.Text.Order

/-! Files of variables: a name, an equals sign and a value on each line. Values may be quoted, and then go
over several lines. Lines that cannot be read are passed over. -/

namespace HuntDraw.VariableFile

/-- A variable, with a value if one is given. -/
abbrev Binding := String × Option String

def isBreak (c : Char) : Bool := c = '\n' || c = '\r'

/-- A blank within a line. -/
def isInner (c : Char) : Bool := Text.isBlank c && !isBreak c

def isNameChar (c : Char) : Bool := !Text.isBlank c && c ≠ '=' && c ≠ '#'

/-- What follows the line that a place is in. -/
def nextLine (cs : List Char) : List Char := (cs.dropWhile fun c => !isBreak c).drop 1

/-- What follows a word that marks a variable for others. -/
def skipExport (cs : List Char) : List Char :=
  let word := "export".toList
  if word.isPrefixOf cs ∧ (cs.drop word.length).head?.any isInner then (cs.drop word.length).dropWhile isInner
  else cs

/-- The name of a variable, in quotes or not. A comment has none. -/
def name? : List Char → Option (Option String × List Char)
  | '#' :: rest => some (none, '#' :: rest)
  | '\'' :: rest =>
    let name := rest.takeWhile (· ≠ '\'')
    match rest.dropWhile (· ≠ '\'') with
    | _ :: after => if name.isEmpty then none else some (some (String.ofList name), after)
    | [] => none
  | cs =>
    let name := cs.takeWhile isNameChar
    if name.isEmpty then none else some (some (String.ofList name), cs.dropWhile isNameChar)

/-- The place of the quote that closes a text: the first one that no backslash is before, or else the last
one of all. -/
def closing (quote : Char) (i : Nat) (last : Option Nat) : List Char → Option Nat
  | [] => last
  | '\\' :: c :: rest =>
    if c = quote then closing quote (i + 2) (some (i + 1)) rest else closing quote (i + 1) last (c :: rest)
  | c :: rest => if c = quote then some i else closing quote (i + 1) last rest

/-- What a character behind a backslash stands for. Single quotes know only two escapes. -/
def escape? (quote : Char) (c : Char) : Option Char :=
  if c = '\\' ∨ c = '\'' then some c
  else if quote = '\'' then none
  else match c with
    | '"' => some '"'
    | 'a' => some (Char.ofNat 7)
    | 'b' => some (Char.ofNat 8)
    | 'f' => some (Char.ofNat 12)
    | 'n' => some '\n'
    | 'r' => some '\r'
    | 't' => some '\t'
    | 'v' => some (Char.ofNat 11)
    | _ => none

def unescape (quote : Char) : List Char → List Char
  | [] => []
  | '\\' :: c :: rest =>
    match escape? quote c with
    | some x => x :: unescape quote rest
    | none => '\\' :: unescape quote (c :: rest)
  | c :: rest => c :: unescape quote rest

/-- A value without quotes: a comment starts at a blank and a number sign. -/
def plainValue : List Char → List Char
  | [] => []
  | c :: rest =>
    if Text.isBlank c ∧ (rest.dropWhile Text.isBlank).head? = some '#' then [] else c :: plainValue rest

def trimEnd (cs : List Char) : List Char := (cs.reverse.dropWhile Text.isBlank).reverse

/-- The value at a place, and what follows it. -/
def value? (cs : List Char) : Option (String × List Char) :=
  match cs with
  | [] => some ("", [])
  | q :: rest =>
    if q = '\'' ∨ q = '"' then
      (closing q 0 none rest).map fun n => (String.ofList (unescape q (rest.take n)), rest.drop (n + 1))
    else
      let line := cs.takeWhile fun c => !isBreak c
      some (String.ofList (trimEnd (plainValue line)), cs.drop line.length)

/-- What follows the end of a line, which may hold a comment before it. -/
def lineEnd? (cs : List Char) : Option (List Char) :=
  let cs := match cs.dropWhile isInner with
    | '#' :: rest => rest.dropWhile fun c => !isBreak c
    | cs => cs
  match cs with
  | [] => some []
  | '\r' :: '\n' :: rest => some rest
  | c :: rest => if isBreak c then some rest else none

/-- The binding at a place, and what follows it. -/
def binding (cs : List Char) : Option Binding × List Char :=
  let cs := skipExport cs
  match name? cs with
  | none => (none, nextLine cs)
  | some (name, cs) =>
    let cs := cs.dropWhile isInner
    let read := match cs with
      | '=' :: rest =>
        let rest := rest.dropWhile isInner
        match value? rest with
        | some (v, after) => Except.ok (some v, after)
        | none => .error rest
      | cs => .ok (none, cs)
    match read with
    | .error cs => (none, nextLine cs)
    | .ok (v, cs) =>
      match lineEnd? cs with
      | some rest => (name.map (·, v), rest)
      | none => (none, nextLine cs)

/-- The bindings of a text, in at most `fuel` steps. -/
def bindings : Nat → List Char → List Binding
  | 0, _ => []
  | fuel + 1, cs =>
    match cs.dropWhile Text.isBlank with
    | [] => []
    | cs =>
      let (b, rest) := binding cs
      b.toList ++ bindings fuel rest

/-- The reference at a place in a value, its default, and what follows. -/
def reference? : List Char → Option (String × Option (List Char) × List Char)
  | '$' :: '\x7b' :: body =>
    let name := body.takeWhile fun c => c ≠ '\x7d' && c ≠ ':'
    match body.drop name.length with
    | '\x7d' :: rest => some (String.ofList name, none, rest)
    | ':' :: '-' :: more =>
      let absent := more.takeWhile (· ≠ '\x7d')
      match more.drop absent.length with
      | _ :: rest => some (String.ofList name, some absent, rest)
      | [] => none
    | _ => none
  | _ => none

/-- Replaces the references in a value; a variable that is not there is empty. -/
def resolve (look : String → Option String) : Nat → List Char → List Char
  | 0, cs => cs
  | fuel + 1, cs =>
    match reference? cs with
    | some (name, absent, rest) =>
      (((look name).map String.toList).getD (absent.getD [])) ++ resolve look fuel rest
    | none =>
      match cs with
      | [] => []
      | c :: rest => c :: resolve look fuel rest

/-- Puts the variables of a text beside those that are set already, which win. A value may refer to those
and to the variables before it. -/
def extend (env : Environment) (cs : List Char) : Environment :=
  let own : Fields (Option String) := (bindings (cs.length + 1) cs).foldl (fun own b =>
    let look (name : String) : Option String :=
      (env.get? name).or ((Fields.get? own name).map (·.getD ""))
    Fields.put own b.1 (b.2.map fun v => String.ofList (resolve look (v.length + 1) v.toList))) []
  env ++ own.filterMap fun p => if env.has p.1 then none else p.2.map (p.1, ·)

end HuntDraw.VariableFile
