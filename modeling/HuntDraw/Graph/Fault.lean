import HuntDraw.Text.Quoted
import HuntDraw.Workflow.Vocabulary

/-! What can be wrong with a workflow graph. Its author is told, in the log of the job. -/

namespace HuntDraw

inductive GraphFault where
  | noStart
  | manyStarts (nodes : List String)
  | manyEnds (nodes : List String)
  | parallel (node : String)
  | cycle (node : String)
  | unknownSource (edge node : String)
  | unknownTarget (edge node : String)
  | unknownType (node type : String)
  | noDocument (node : String)
  | unsupportedMime (node mime : String)
  | noResource (node type : String)
  deriving DecidableEq, Repr

namespace GraphFault

def message : GraphFault → String
  | noStart => "No start node found"
  | manyStarts nodes => "Multiple start nodes found: " ++ ", ".intercalate nodes
  | manyEnds nodes => "Multiple end nodes found: " ++ ", ".intercalate nodes
  | parallel node => s!"Node {node} has more than one target"
  | cycle node => s!"Cycle detected at node {node}"
  | unknownSource edge node => s!"Edge {edge} references unknown source node {node}"
  | unknownTarget edge node => s!"Edge {edge} references unknown target node {node}"
  | unknownType node type => s!"Node {node} has invalid type {Text.quoted type}"
  | noDocument node => s!"Data node {node} has no document"
  | unsupportedMime node mime => s!"Data node {node} has unsupported content type {Text.quoted mime}"
  | noResource node type => s!"No resource registered for node {node} of type {type}"

def key : GraphFault → MessageKey
  | noStart => .noStart
  | manyStarts _ => .multipleStarts
  | manyEnds _ => .multipleEnds
  | parallel _ => .parallel
  | cycle _ => .cycle
  | unknownSource .. => .invalidSource
  | unknownTarget .. => .invalidTarget
  | unknownType .. => .invalidNodeType
  | noDocument _ => .noDocument
  | unsupportedMime .. => .invalidMime
  | noResource .. => .noResource

/-- What a client fills into the message. -/
def params : GraphFault → List (String × String)
  | noStart => []
  | manyStarts nodes | manyEnds nodes => [("workflowNodeIds", ",".intercalate nodes)]
  | parallel node | cycle node | noDocument node => [("workflowNodeId", node)]
  | unknownSource edge node | unknownTarget edge node =>
    [("workflowEdgeId", edge), ("workflowNodeId", node)]
  | unknownType node type | noResource node type =>
    [("workflowNodeId", node), ("workflowNodeType", type)]
  | unsupportedMime node mime => [("workflowNodeId", node), ("mimeType", mime)]

/-- Whether the shape of the graph is wrong, rather than what its nodes need. -/
def isStructural : GraphFault → Bool
  | noDocument _ | unsupportedMime .. | noResource .. => false
  | _ => true

/-- The kind of error a fault is reported as. -/
def kind : GraphFault → String
  | noStart => "NoStartNodeFoundError"
  | manyStarts _ => "MultipleStartNodesFoundError"
  | manyEnds _ => "MultipleEndNodesFoundError"
  | parallel _ => "ParallelNodesNotSupportedError"
  | cycle _ => "CycleDetectedError"
  | unknownSource .. => "EdgeHasInvalidSourceError"
  | unknownTarget .. => "EdgeHasInvalidTargetError"
  | unknownType .. => "InvalidNodeTypeError"
  | noDocument _ => "DataNodeHasNoDocumentError"
  | unsupportedMime .. => "InvalidMimeTypeError"
  | noResource .. => "NoResourceFoundError"

end GraphFault
end HuntDraw
