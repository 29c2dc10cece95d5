import Dnlab.Models.Topology

/-!
# Containerlab topologies

The document of a single-node topology before it is printed as YAML. A link of
it connects two endpoints, each written `<node>:<interface>`, where the node
`host` stands for the host itself.
-/

namespace Dnlab

/-- A link of a single-node topology. `linkId` names the link it was written for, and is empty
    for a port that was only pre-created; it is not part of the document. -/
structure ClabLink where
  linkId : String
  endpoints : List String
  deriving DecidableEq

/-- A single-node topology. -/
structure ClabDict where
  name : String
  mgmtNetwork : String
  nodes : Dict String (Dict String Yaml)
  links : List ClabLink

/-- What is uploaded to a host: a topology, or a text. -/
inductive Content
  | clab (c : ClabDict)
  | text (s : String)

end Dnlab
