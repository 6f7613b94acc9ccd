import HuntDraw.Data.Json

/-! References to variables in the texts of settings. A reference is a dollar sign and a name in braces,
with `:-` and a default behind the name where one is wanted. A text is read from left to right, and what
takes the place of a reference is not read again. -/

namespace HuntDraw

/-- Variables by their names. -/
abbrev Environment := Fields String

/-- A piece of a text: one character of it, or a reference. -/
inductive Segment where
  | char (c : Char)
  | reference (name : List Char) (absent : Option (List Char))
  deriving DecidableEq, Repr

namespace Segment

def startsName (c : Char) : Bool := c.isAlpha || c = '_'

def continuesName (c : Char) : Bool := c.isAlphanum || c = '_'

def isName (cs : List Char) : Bool := cs.head?.any startsName && cs.all continuesName

/-- The reference that a text starts with, and what follows it. A default ends at the first brace. -/
def reference? : List Char → Option (Segment × List Char)
  | '$' :: '\x7b' :: body =>
    let name := body.takeWhile continuesName
    if !isName name then none
    else
      match body.dropWhile continuesName with
      | '\x7d' :: rest => some (.reference name none, rest)
      | ':' :: '-' :: more =>
        match more.dropWhile (· ≠ '\x7d') with
        | [] => none
        | _ :: rest => some (.reference name (some (more.takeWhile (· ≠ '\x7d'))), rest)
      | _ => none
  | _ => none

theorem length_lt_of_reference? {cs rest : List Char} {s : Segment} (h : reference? cs = some (s, rest)) :
    rest.length < cs.length := by
  unfold reference? at h
  split at h
  · rename_i body
    simp only at h
    have drops (p : Char → Bool) (l : List Char) : (l.dropWhile p).length ≤ l.length :=
      (List.dropWhile_sublist p).length_le
    have hb := drops continuesName body
    split at h
    · simp at h
    · split at h
      · rename_i heq
        rw [heq] at hb
        simp only [Option.some.injEq, Prod.mk.injEq] at h
        obtain ⟨_, rfl⟩ := h
        simp only [List.length_cons] at hb ⊢
        omega
      · rename_i more heq
        rw [heq] at hb
        have hm := drops (· ≠ '\x7d') more
        split at h
        · simp at h
        · rename_i heq
          rw [heq] at hm
          simp only [Option.some.injEq, Prod.mk.injEq] at h
          obtain ⟨_, rfl⟩ := h
          simp only [List.length_cons] at hb hm ⊢
          omega
      · simp at h
  · simp at h

/-- The pieces of a text. -/
def read (cs : List Char) : List Segment :=
  match h : reference? cs with
  | some (s, rest) =>
    have := length_lt_of_reference? h
    s :: read rest
  | none =>
    match cs with
    | [] => []
    | c :: rest => .char c :: read rest
termination_by cs.length

/-- A piece as it is written. -/
def written : Segment → List Char
  | char c => [c]
  | reference name none => '$' :: '\x7b' :: (name ++ ['\x7d'])
  | reference name (some absent) => '$' :: '\x7b' :: (name ++ ':' :: '-' :: (absent ++ ['\x7d']))

/-- What takes the place of a piece: the value of its variable where that is set, even to nothing, else
its default, else what is written. -/
def value (env : Environment) : Segment → List Char
  | char c => [c]
  | reference name absent =>
    match env.get? (String.ofList name) with
    | some v => v.toList
    | none => absent.getD (written (.reference name absent))

end Segment

namespace Environment

def expandChars (env : Environment) (cs : List Char) : List Char := (Segment.read cs).flatMap (Segment.value env)

def expandText (env : Environment) (s : String) : String := String.ofList (env.expandChars s.toList)

mutual

/-- Replaces the references in every text of a value. Keys stay, and so does what is no text. -/
def expand (env : Environment) : Json → Json
  | .text s => .text (env.expandText s)
  | .list items => .list (expandItems env items)
  | .object fields => .object (expandFields env fields)
  | .null => .null
  | .bool b => .bool b
  | .int i => .int i
  | .float x => .float x

def expandItems (env : Environment) : List Json → List Json
  | [] => []
  | v :: rest => expand env v :: expandItems env rest

def expandFields (env : Environment) : List (String × Json) → List (String × Json)
  | [] => []
  | (k, v) :: rest => (k, expand env v) :: expandFields env rest

end

end Environment
end HuntDraw
