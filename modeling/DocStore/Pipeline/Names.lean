import DocStore.Pattern
import DocStore.Text.Segments

/-!
# Names in stages

What stages accept as names of fields, and how a malformed stage fails.
-/

set_option autoImplicit false

namespace DocStore

namespace StageFault

variable {m : Type → Type} [Reading m] {α : Type}

/-- The error of a malformed stage. -/
def toError (f : StageFault) : Error := .config (.stage f)

/-- Fails for a malformed stage. -/
def fail (f : StageFault) : m α := Reading.fail f.toError

/-- Goes on with the value of an optional one, or fails for a malformed stage. -/
def require (v : Option α) (f : StageFault) : m α := Reading.require v f.toError

end StageFault

namespace Segments

/-- Whether a name is a path that is not written like an operator. -/
def isFieldPath (name : String) : Bool := !isOperator name && isPath name

/-- Whether a name is one segment that is not written like an operator. -/
def isFieldName (name : String) : Bool := !name.isEmpty && !isOperator name && !name.contains '.'

end Segments

end DocStore
