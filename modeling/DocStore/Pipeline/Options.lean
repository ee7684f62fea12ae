import DocStore.Json.Record

/-!
# Options of a pipeline

Whether the parts of a `$facet` stage may run side by side; what they give does not depend on it.
-/

set_option autoImplicit false

namespace DocStore

/-- Options of a pipeline. -/
structure PipelineOptions where
  parallelFacets : Bool := true
deriving DecidableEq, Repr

namespace PipelineOptions

open Json.Record in
/-- The options that JSON stands for. -/
def ofJson? (j : Json) : Option PipelineOptions := do
  let given ← settings? ["parallel_facets"] j
  return { parallelFacets := ← setting? given "parallel_facets" true Json.bool? }

/-- The options as JSON. -/
def toJson (o : PipelineOptions) : Json := .object [("parallel_facets", .bool o.parallelFacets)]

end PipelineOptions

end DocStore
