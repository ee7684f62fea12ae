import DocStore.Error.Basic
import DocStore.Regex.Footprint
import DocStore.Regex.Matching
import DocStore.Regex.Parser

/-!
# Patterns

A pattern is a regular expression with options. Compiled patterns are kept in a cache of the most
recently used ones, whose key joins options and source with a colon; a pattern that is found there
is not compiled again. Definitions that hold patterns are read in any context that can compile
them: `Except Error`, where every pattern is compiled from its own source, or `CachedReading`.
-/

set_option autoImplicit false

namespace DocStore

/-- A compiled regular expression with its source. -/
structure Pattern where
  source : String
  options : String
  regex : Regex

namespace Pattern

/-- Whether a text holds a match. -/
def isMatch (p : Pattern) (text : String) : Bool := p.regex.isMatch text

/-- The letters that may be given as options: ignore case, lines, dot matches all, verbose. -/
def optionLetters : List Char := ['i', 'm', 's', 'x']

/-- The regular expression of a source with options, which are put in front of it as flags. -/
def fullSource (source options : String) : String :=
  if options.isEmpty then source else "(?" ++ options ++ ")" ++ source

/-- Compiles a regular expression. -/
def compileRegex (source options : String) : Result Regex :=
  match options.toList.find? (fun c => !(optionLetters.contains c)) with
  | some c => .error (.query (.regexOption c))
  | none =>
    match Regex.parse? (fullSource source options) with
    | none => .error (.query (.malformedRegex source))
    | some r =>
      if r.fits then .ok r else .error (.query (.oversizedRegex source))

/-- Compiles a pattern. -/
def compile (source options : String) : Result Pattern :=
  (compileRegex source options).map fun regex => { source, options, regex }

end Pattern

/-! ## The cache -/

/-- The most recently used expressions, the last used first. -/
structure PatternCache where
  entries : List (String × Regex)

namespace PatternCache

/-- The number of expressions that are kept. -/
def capacity : Nat := 100

/-- The cache before any pattern is compiled. -/
def empty : PatternCache := ⟨[]⟩

/-- The key of a pattern. -/
def key (source options : String) : String := options ++ ":" ++ source

/-- Puts an expression in front and drops what exceeds the capacity. -/
def touch (cache : PatternCache) (key : String) (regex : Regex) : PatternCache :=
  ⟨((key, regex) :: cache.entries.filter (·.1 != key)).take capacity⟩

/-- Compiles a pattern unless its key is in the cache. -/
def compile (source options : String) (cache : PatternCache) : Result Pattern × PatternCache :=
  let k := key source options
  match cache.entries.lookup k with
  | some regex => (.ok { source, options, regex }, cache.touch k regex)
  | none =>
    match Pattern.compileRegex source options with
    | .ok regex => (.ok { source, options, regex }, cache.touch k regex)
    | .error e => (.error e, cache)

end PatternCache

/-! ## Contexts that compile patterns -/

/-- A context in which definitions are read: it may fail, a failure can be caught, and patterns can
be compiled. -/
class Reading (m : Type → Type) extends Monad m where
  fail : {α : Type} → Error → m α
  attempt : {α : Type} → m α → m (Result α)
  pattern : String → String → m Pattern

instance : Reading (Except Error) where
  fail e := .error e
  attempt x := .ok x
  pattern := Pattern.compile

/-- Reading with a cache of patterns. -/
abbrev CachedReading := ExceptT Error (StateM PatternCache)

instance : Reading CachedReading where
  fail e := throw e
  attempt x := ExceptT.lift (ExceptT.run x)
  pattern source options := ExceptT.mk fun cache => PatternCache.compile source options cache

namespace Reading

variable {m : Type → Type} [Reading m] {α : Type}

/-- Goes on with the value of an optional one, or fails. -/
def require (v : Option α) (e : Error) : m α :=
  match v with
  | some a => pure a
  | none => fail e

/-- Goes on with the value of a result, or fails with its error. -/
def ofResult : Result α → m α
  | .ok a => pure a
  | .error e => fail e

/-- Reads with another error in place of the one that a failure gives. -/
def mapError (f : Error → Error) (x : m α) : m α := do
  match ← attempt x with
  | .ok a => pure a
  | .error e => fail (f e)

end Reading

end DocStore
