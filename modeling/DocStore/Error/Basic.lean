import DocStore.Document.Id
import DocStore.Error.Fault
import DocStore.Error.Validation

/-!
# Errors

Every operation that can fail does so with an `Error`: a kind with its cause. Errors of wrong kinds
and of results out of range concern a single document, so a pipeline records them and goes on.
-/

set_option autoImplicit false

namespace DocStore

mutual

/-- Why an operation failed. -/
inductive Error where
  | validation (violation : ValidationError)
  | type (fault : TypeFault)
  | arithmetic (fault : ArithmeticFault)
  | config (fault : ConfigFault)
  | query (fault : QueryFault)
  | duplicateId (id : DocumentId)
  /-- A batch stopped at a document, after those with the given ids were inserted. -/
  | batch (inserted : List DocumentId) (index : Nat) (source : Error)
  | timeout
  /-- A journal that is not UTF-8. -/
  | unreadableText
  | corruption (fault : CorruptionFault)

/-- What makes a schema or a pipeline invalid; a part of a pipeline may fail for a reason of its
own. -/
inductive ConfigFault where
  | schema (fault : SchemaFault)
  | expr (fault : ExprFault)
  | stage (fault : StageFault)
  /-- The single argument of an operator. -/
  | argument (operator : String) (cause : Error)
  | matchFilter (cause : Error)
  | regexMatch (cause : Error)
  | facet (name : String) (cause : Error)
  /-- A stage at its position in the pipeline. -/
  | atStage (index : Nat) (fault : ConfigFault)

end

mutual

/-- The wording of an error. -/
def Error.message : Error → String
  | .validation violation => "document failed validation: " ++ violation.message
  | .type fault => "type error: " ++ fault.message
  | .arithmetic fault => "arithmetic error: " ++ fault.message
  | .config fault => "configuration error: " ++ fault.message
  | .query fault => "invalid query: " ++ fault.message
  | .duplicateId id => "duplicate _id " ++ id.display
  | .batch inserted index source =>
    s!"batch insert stopped at document {index} after {inserted.length} inserts: " ++
      source.message
  | .timeout => "operation exceeded its time limit"
  | .unreadableText => "I/O error: stream did not contain valid UTF-8"
  | .corruption fault => "storage corruption: " ++ fault.message

/-- The wording of an invalid configuration. -/
def ConfigFault.message : ConfigFault → String
  | .schema fault => "invalid schema: " ++ fault.message
  | .expr fault => fault.message
  | .stage fault => fault.message
  | .argument operator cause => operator ++ ": " ++ cause.message
  | .matchFilter cause => "$match: " ++ cause.message
  | .regexMatch cause => "$regexMatch: " ++ cause.message
  | .facet name cause => "$facet '" ++ name ++ "': " ++ cause.message
  | .atStage index fault => s!"stage {index}: " ++ fault.message

end

namespace Error

/-- Whether an error concerns the computation of a single document only. -/
def isDocumentLocal : Error → Bool
  | type _ => true
  | arithmetic _ => true
  | _ => false

/-- Whether an error says that something was configured wrongly. -/
def isConfig : Error → Bool
  | config _ => true
  | _ => false

end Error

/-- The result of an operation that may fail. -/
abbrev Result (α : Type) := Except Error α

end DocStore
