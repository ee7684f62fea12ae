import DocStore.Error.Basic
import DocStore.Proofs.Except
import DocStore.Value.Edit

/-!
# Errors of single documents

Computations whose errors concern a single document, but for those of one more kind. Writing values
at paths has such a kind: indices that lie too far beyond the end of an array.
-/

set_option autoImplicit false

namespace DocStore

variable {α : Type} {P : Error → Prop} {x : Result α}

/-- Every error that a computation ends in concerns a single document. -/
abbrev FailsLocally (x : Result α) : Prop := FailsOnly (·.isDocumentLocal = true) x

/-- Every error that a computation ends in concerns a single document or has a property. -/
abbrev FailsLocallyOr (P : Error → Prop) (x : Result α) : Prop :=
  FailsOnly (fun e => e.isDocumentLocal = true ∨ P e) x

theorem failsLocally_type (fault : TypeFault) : FailsLocally (.error (.type fault) : Result α) :=
  failsOnly_error rfl

theorem failsLocally_arithmetic (fault : ArithmeticFault) :
    FailsLocally (.error (.arithmetic fault) : Result α) := failsOnly_error rfl

theorem FailsLocally.orElse (h : FailsLocally x) : FailsLocallyOr P x := h.mono fun _ => .inl

namespace Error

/-- The error says that a query is malformed. -/
def IsQuery (e : Error) : Prop := ∃ fault, e = .query fault

/-- The error says that one of the segments, as an index, lies too far beyond the end of an array to
be written. -/
def BeyondEnd (path : String) (segments : List String) (e : Error) : Prop :=
  ∃ segment ∈ segments, ∃ i length, Segments.index? segment = some i ∧
    length + Value.maxPadding ≤ i ∧ e = .query (.indexTooFar i path length)

/-- A write at one of the paths meets an index that lies too far beyond the end of an array. -/
def PastEnd (paths : List String) (e : Error) : Prop :=
  ∃ path ∈ paths, e.BeyondEnd path (Segments.ofPath path).tail

theorem PastEnd.mono {paths others : List String} (hsub : paths ⊆ others) {e : Error}
    (h : e.PastEnd paths) : e.PastEnd others := by
  obtain ⟨path, hpath, hfar⟩ := h
  exact ⟨path, hsub hpath, hfar⟩

end Error

end DocStore
