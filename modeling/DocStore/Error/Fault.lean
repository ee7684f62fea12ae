import DocStore.Value.Json

/-!
# Causes of errors

What can be wrong with a value, a computation, a query or a journal, one constructor for each
cause, with its wording.
-/

set_option autoImplicit false

namespace DocStore

/-! ## Values of the wrong kind -/

/-- A value that is not of the kind that an operation needs. -/
inductive TypeFault where
  | documentKind (found : Kind)
  | idKind (found : Kind)
  /-- The last segment of a path would be a field of a scalar. -/
  | noField (segment : String) (found : Kind) (path : String)
  /-- A path leads through a scalar. -/
  | noPassage (found : Kind) (segment path : String)
  /-- An array is addressed by something else than an index. -/
  | notAnIndex (segment path : String)
  | increment (path : String) (found : Kind)
  | incrementTarget (path : String) (found : Kind)
  | pushTarget (path : String) (found : Kind)
  | operand (operator : String) (found : Kind)
  | dateOffset (found : Kind)
  | matchInput (found : Kind)
  | dateInput (found : Kind)
  | sliceArray (found : Kind)
  | sliceArgument (name : String) (found : Value)
  | sliceCount (count : Int64)

/-- The wording of a wrong kind. -/
def TypeFault.message : TypeFault → String
  | documentKind found => "document must be an object, found " ++ found.name
  | idKind found => "_id must be an int or string, found " ++ found.name
  | noField segment found path =>
    "cannot create field '" ++ segment ++ "' in " ++ found.name ++ " value at '" ++ path ++ "'"
  | noPassage found segment path =>
    "cannot traverse " ++ found.name ++ " value at '" ++ segment ++ "' in path '" ++ path ++ "'"
  | notAnIndex segment path =>
    "array segment '" ++ segment ++ "' in path '" ++ path ++ "' is not an index"
  | increment path found =>
    "$inc on '" ++ path ++ "' requires a numeric delta, got " ++ found.name
  | incrementTarget path found =>
    "$inc on '" ++ path ++ "' requires a numeric field, found " ++ found.name
  | pushTarget path found => "$push on '" ++ path ++ "' requires an array, found " ++ found.name
  | operand operator found => operator ++ " only supports numeric operands, found " ++ found.name
  | dateOffset found => "$add with a date only accepts numeric operands, found " ++ found.name
  | matchInput found => "$regexMatch input must be a string, found " ++ found.name
  | dateInput found => "$dateToString date must be a date, found " ++ found.name
  | sliceArray found => "$slice requires an array, found " ++ found.name
  | sliceArgument name found => "$slice " ++ name ++ " must be an integer, found " ++ found.text
  | sliceCount count =>
    "$slice count must be positive when a position is given, got " ++ toString count.toInt

/-! ## Results out of range -/

/-- A result that is out of range or not defined. -/
inductive ArithmeticFault where
  | incrementOverflow (path : String)
  | dateRange
  | divisionByZero

/-- The wording of a result out of range. -/
def ArithmeticFault.message : ArithmeticFault → String
  | incrementOverflow path => "$inc on '" ++ path ++ "' overflows to a non-finite value"
  | dateRange => "date arithmetic out of range"
  | divisionByZero => "$divide by zero"

/-! ## Malformed queries -/

/-- What makes a filter, an update, a sort order or a projection invalid. -/
inductive QueryFault where
  /-- A write far beyond the end of an array. -/
  | indexTooFar (index : Nat) (path : String) (length : Nat)
  | regexOption (c : Char)
  | malformedRegex (source : String)
  | oversizedRegex (source : String)
  | filterShape (found : Json)
  | clauseList (operator : String)
  | noClauses (operator : String)
  | unknownCombinator (operator : String)
  | filterPath (path : String)
  | mixedOperand (path key : String)
  | unknownCondition (operator field : String)
  | listOperand (operator field : String)
  | sizeOperand (field : String)
  | existsOperand (field : String)
  | regexOperand (field : String)
  | optionsOperand (field : String)
  | optionsAlone (field : String)
  | updateShape
  | emptyUpdate
  | updateFields (operator : String)
  | updatePath (operator path : String)
  | updateId (operator : String)
  | unknownUpdate (operator : String)
  | replacementUpdate (key : String)
  | conflictingUpdate (path : String)
  | sortDirection (field : String) (found : Int)
  | projectionShape
  | projectionFlag (path : String)
  | mixedProjection

/-- The wording of a malformed query. -/
def QueryFault.message : QueryFault → String
  | indexTooFar index path length =>
    s!"array index {index} in path '" ++ path ++ s!"' is too far past the end ({length} items)"
  | regexOption c => "unsupported regex option '" ++ c.toString ++ "'"
  | malformedRegex source => "invalid regex pattern '" ++ source ++ "':"
  | oversizedRegex source =>
    "invalid regex pattern '" ++ source ++ "': Compiled regex exceeds size limit of 10485760 bytes."
  | filterShape found => "filter must be an object, got " ++ found.render
  | clauseList operator => operator ++ " requires an array of filters"
  | noClauses operator => operator ++ " requires a non-empty array"
  | unknownCombinator operator => "unknown top-level operator '" ++ operator ++ "'"
  | filterPath path => "invalid field path '" ++ path ++ "'"
  | mixedOperand path key =>
    "field '" ++ path ++ "' mixes operators with literal key '" ++ key ++ "'"
  | unknownCondition operator field =>
    "unknown operator '" ++ operator ++ "' on field '" ++ field ++ "'"
  | listOperand operator field => operator ++ " on '" ++ field ++ "' requires an array"
  | sizeOperand field => "$size on '" ++ field ++ "' requires a non-negative integer"
  | existsOperand field => "$exists on '" ++ field ++ "' requires a boolean"
  | regexOperand field => "$regex on '" ++ field ++ "' requires a string pattern"
  | optionsOperand field => "$options on '" ++ field ++ "' must be a string"
  | optionsAlone field => "$options on '" ++ field ++ "' without $regex"
  | updateShape => "update must be an object of operators"
  | emptyUpdate => "update must contain at least one operator"
  | updateFields operator => operator ++ " requires an object of fields"
  | updatePath operator path => operator ++ ": invalid field path '" ++ path ++ "'"
  | updateId operator => operator ++ ": the _id field is immutable"
  | unknownUpdate operator => "unknown update operator '" ++ operator ++ "'"
  | replacementUpdate key =>
    "update key '" ++ key ++ "' is not an operator; replacement documents are not supported"
  | conflictingUpdate path => "conflicting update operators on '" ++ path ++ "'"
  | sortDirection field found =>
    "sort direction for '" ++ field ++ s!"' must be 1 or -1, got {found}"
  | projectionShape => "projection must be an object"
  | projectionFlag path => "projection value for '" ++ path ++ "' must be 0, 1, true or false"
  | mixedProjection => "projection cannot mix inclusion and exclusion"

/-! ## Malformed schemas -/

/-- What makes a schema invalid, with the path of the place in the schema. -/
inductive SchemaFault where
  | shape
  | notAnObjectSchema (path : String)
  | required (path : String)
  | requiredEntry (path : String)
  | properties (path : String)
  | additionalProperties (path : String)
  | typeEntry (path : String)
  | typeShape (path : String)
  | property (path : String)
  | unsupportedType (name path : String)
  | count (path key : String)
  | number (path key : String)
  | patternShape (path : String)
  | malformedPattern (source : String)
  | oversizedPattern (source : String)
  | allowedValues (path : String)
  | uniqueItems (path : String)

/-- A path as messages about schemas show it. -/
def SchemaFault.place (path : String) : String :=
  if path.isEmpty then "'<root>'" else "'" ++ path ++ "'"

/-- The wording of a malformed schema. -/
def SchemaFault.message : SchemaFault → String
  | shape => "schema must be an object"
  | notAnObjectSchema path => place path ++ " must be an object schema"
  | required path => place path ++ " required must be an array"
  | requiredEntry path => place path ++ " required entries must be strings"
  | properties path => place path ++ " properties must be an object"
  | additionalProperties path => place path ++ " additionalProperties must be a boolean"
  | typeEntry path => place path ++ " type list entries must be strings"
  | typeShape path => place path ++ " type must be a string or an array of strings"
  | property path => "property '" ++ path ++ "' must be an object"
  | unsupportedType name path => "unsupported type '" ++ name ++ "' for '" ++ path ++ "'"
  | count path key => "'" ++ path ++ "' " ++ key ++ " must be a non-negative integer"
  | number path key => "'" ++ path ++ "' " ++ key ++ " must be a number"
  | patternShape path => "'" ++ path ++ "' pattern must be a string"
  | malformedPattern source => "invalid pattern '" ++ source ++ "':"
  | oversizedPattern source =>
    "invalid pattern '" ++ source ++ "': Compiled regex exceeds size limit of 10485760 bytes."
  | allowedValues path => "'" ++ path ++ "' enum must be an array"
  | uniqueItems path => "'" ++ path ++ "' uniqueItems must be a boolean"

/-! ## Malformed expressions -/

/-- What makes an expression or an accumulator invalid. -/
inductive ExprFault where
  | unknownVariable (name : String)
  | fieldReference (text : String)
  | severalKeys (operator : String)
  | unknownOperator (operator : String)
  | arity (operator : String) (expected found : Nat)
  | notArity
  | sliceArity
  | missingArgument (operator key : String)
  | condKey (key : String)
  | condShape
  | switchShape
  | switchBranches
  | switchEmpty
  | switchBranch
  | switchDefault
  | regexMatchShape
  | regexMatchPattern
  | regexMatchOptions
  | dateToStringShape
  | dateFormat
  | timezone
  | formatToken (c : Char)
  | formatEnd
  | accumulatorShape (field : String)
  | unknownAccumulator (operator field : String)
  | accumulatorField (field : String)

/-- The wording of a malformed expression. -/
def ExprFault.message : ExprFault → String
  | unknownVariable name => "unknown variable '$$" ++ name ++ "'"
  | fieldReference text => "invalid field reference '" ++ text ++ "'"
  | severalKeys operator =>
    "expression object with operator '" ++ operator ++ "' must have exactly one key"
  | unknownOperator operator => "unknown expression operator '" ++ operator ++ "'"
  | arity operator expected found =>
    operator ++ s!" takes exactly {expected} arguments, got {found}"
  | notArity => "$not takes exactly one argument"
  | sliceArity => "$slice takes 2 or 3 arguments"
  | missingArgument operator key => operator ++ " requires '" ++ key ++ "'"
  | condKey key => "$cond does not accept '" ++ key ++ "'"
  | condShape => "$cond requires an array or an object"
  | switchShape => "$switch requires an object"
  | switchBranches => "$switch branches must be an array"
  | switchEmpty => "$switch requires at least one branch"
  | switchBranch => "$switch branch must be an object"
  | switchDefault => "$switch requires a default"
  | regexMatchShape => "$regexMatch requires an object"
  | regexMatchPattern => "$regexMatch regex must be a string"
  | regexMatchOptions => "$regexMatch options must be a string"
  | dateToStringShape => "$dateToString requires an object"
  | dateFormat => "$dateToString format must be a string"
  | timezone => "$dateToString only supports the UTC timezone"
  | formatToken c => "unsupported $dateToString token '%" ++ c.toString ++ "'"
  | formatEnd => "$dateToString format ends with '%'"
  | accumulatorShape field =>
    "accumulator for '" ++ field ++ "' must be an object with exactly one operator"
  | unknownAccumulator operator field =>
    "unknown accumulator '" ++ operator ++ "' for '" ++ field ++ "'"
  | accumulatorField field => "invalid accumulator field name '" ++ field ++ "'"

/-! ## Malformed stages -/

/-- What makes a stage of a pipeline invalid, or stops it. -/
inductive StageFault where
  | pipelineShape
  | shape
  | severalKeys
  | unknown (name : String)
  | sort
  | sortDirection (field : String)
  | limit
  | skip
  /-- A stage that needs fields got something else, or none. -/
  | fields (stage : String)
  | fieldName (stage field : String)
  | projectValue (path : String)
  | mixedProject
  /-- A stage that needs an object got something else. -/
  | notAnObject (stage : String)
  | groupId
  | extraKey (stage key : String)
  | unwindPathKind
  | unwindPreserve
  | unwindShape
  | unwindPath (path : String)
  | facetName (name : String)
  | nestedFacet (name : String)
  | count
  | bucketOutput (stage : String)
  | groupBy (stage : String)
  | boundaries
  | fewBoundaries
  | boundaryOrder (a b : Value)
  | defaultInside (label : Value)
  | outside (key : Value)
  | bucketCount
  | notOrdered (a b : Value)

/-- The wording of a malformed stage. -/
def StageFault.message : StageFault → String
  | pipelineShape => "pipeline must be an array"
  | shape => "stage must be an object"
  | severalKeys => "each stage must have exactly one operator"
  | unknown name => "unknown pipeline stage '" ++ name ++ "'"
  | sort => "$sort must be a non-empty object"
  | sortDirection field => "$sort direction for '" ++ field ++ "' must be 1 or -1"
  | limit => "$limit must be a positive integer"
  | skip => "$skip must be a non-negative integer"
  | fields stage => stage ++ " must be a non-empty object"
  | fieldName stage field => stage ++ ": invalid field name '" ++ field ++ "'"
  | projectValue path =>
    "$project value for '" ++ path ++ "' must be 0, 1, true, false or an expression"
  | mixedProject => "$project cannot mix exclusion with inclusion or computed fields"
  | notAnObject stage => stage ++ " must be an object"
  | groupId => "$group requires an _id expression"
  | extraKey stage key => stage ++ " does not accept '" ++ key ++ "'"
  | unwindPathKind => "$unwind requires a string path"
  | unwindPreserve => "$unwind preserveNullAndEmptyArrays must be a boolean"
  | unwindShape => "$unwind requires a path string or an object"
  | unwindPath path => "$unwind path '" ++ path ++ "' must be a '$' field path"
  | facetName name => "$facet: invalid facet name '" ++ name ++ "'"
  | nestedFacet name => "$facet '" ++ name ++ "' cannot contain a nested $facet"
  | count => "$count requires a non-empty field name without '$' or '.'"
  | bucketOutput stage => stage ++ " output must be an object"
  | groupBy stage => stage ++ " requires groupBy"
  | boundaries => "$bucket requires a boundaries array"
  | fewBoundaries => "$bucket requires at least 2 boundaries"
  | boundaryOrder a b =>
    "$bucket boundaries must share one type and be strictly ascending, got " ++ a.text ++
      " then " ++ b.text
  | defaultInside label => "$bucket default " ++ label.text ++ " falls inside the boundary range"
  | outside key =>
    "$bucket value " ++ key.text ++ " is outside the boundaries and no default is set"
  | bucketCount => "$bucketAuto buckets must be a positive integer"
  | notOrdered a b =>
    "$bucketAuto groupBy values " ++ a.text ++ " and " ++ b.text ++ " cannot be ordered together"

/-! ## Damaged journals -/

/-- What makes a line of a journal unreadable. -/
inductive LineFault where
  | noSeparator
  | malformedChecksum
  | wrongChecksum
  | unreadableRecord
  | replaceOfUnknown (id : String)
  | removeOfUnknown (id : String)

/-- The wording of an unreadable line. -/
def LineFault.message : LineFault → String
  | noSeparator => "missing checksum separator"
  | malformedChecksum => "malformed checksum"
  | wrongChecksum => "checksum mismatch"
  | unreadableRecord => "unreadable record"
  | replaceOfUnknown id => "replace of unknown _id " ++ id
  | removeOfUnknown id => "remove of unknown _id " ++ id

/-- Stored data that cannot be what was written. -/
inductive CorruptionFault where
  /-- A line of a journal, counted from 1. -/
  | line (number : Nat) (fault : LineFault)
  | noDocument (position count : Nat)
  | repeatedId (collection id : String)

/-- The wording of damaged data. -/
def CorruptionFault.message : CorruptionFault → String
  | line number fault => s!"journal line {number}: " ++ fault.message
  | noDocument position count =>
    s!"no document at position {position} (collection holds {count})"
  | repeatedId collection id =>
    "collection '" ++ collection ++ "' holds _id " ++ id ++ " more than once"

end DocStore
