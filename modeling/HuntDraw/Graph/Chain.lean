import HuntDraw.Data.Canonical
import HuntDraw.Data.Digest
import HuntDraw.Schema.Check

/-! Task chains: what a workflow is compiled to and what is executed. -/

namespace HuntDraw

/-- One step of a chain. Parameters whose keys end in the reference mark are looked up when the step
starts. -/
structure Task where
  resource : String
  comment : String := ""
  parameters : Fields Json := []
  next : Option String := none
  terminal : Bool := false

structure TaskChain where
  start : String
  tasks : Fields Task

namespace Task

def check : Check Task := fun v =>
  (Check.record "Task" v).andThen fun fs =>
    Task.mk <$> Check.required fs "resource_ref" Check.filledText
      <*> Check.optional fs "comment" "" Check.text
      <*> Check.optional fs "parameters" [] (Check.mapping Check.text Check.any)
      <*> Check.optional fs "next" none (Check.nullable Check.text)
      <*> Check.optional fs "terminal" false Check.flag

def toJson (t : Task) : Json :=
  .object [
    ("resource_ref", .text t.resource),
    ("comment", .text t.comment),
    ("parameters", .object t.parameters),
    ("next", Json.ofText? t.next),
    ("terminal", .bool t.terminal)]

end Task

namespace TaskChain

def check : Check TaskChain := fun v =>
  (Check.record "TaskChainDefinition" v).andThen fun fs =>
    TaskChain.mk <$> Check.required fs "start_node_id" Check.text
      <*> Check.required fs "tasks" (Check.mapping Check.text Task.check)

def toJson (c : TaskChain) : Json :=
  .object [("start_node_id", .text c.start), ("tasks", .object (c.tasks.map fun p => (p.1, p.2.toJson)))]

/-- The steps met from a step on, going from each to its next, among those in `left`. -/
def follow (c : TaskChain) (left : List String) : Option String → List String
  | none => []
  | some id =>
    if _h : id ∈ left then
      match c.tasks.get? id with
      | some t => id :: follow c (left.erase id) t.next
      | none => []
    else []
  termination_by left.length
  decreasing_by
    have := List.length_erase_of_mem _h
    have := List.length_pos_of_mem _h
    omega

/-- The steps in the order of execution. -/
def ordered (c : TaskChain) : List String := follow c c.tasks.keys (some c.start)

end TaskChain

/-- The digest of the canonical text of a value. -/
def Json.digest (v : Json) : Except CanonicalFault String := Digest.sha256 <$> v.canonicalBytes

end HuntDraw
