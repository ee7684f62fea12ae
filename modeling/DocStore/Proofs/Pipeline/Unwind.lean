import DocStore.Proofs.Pipeline.Run
import DocStore.Proofs.Value.Place

/-!
# Unwinding

A document with items in an array comes out once for each item, with the item in the place of the
array and all else as it was; a document without items passes, or not, as the stage was told. No
document fails, since the place of the array can be written with whatever it held:
`UnwindStage.unwinds_of_read`.
-/

set_option autoImplicit false

namespace DocStore

namespace Json

variable {j : Json}

theorem eq_of_string? {s : String} (h : j.string? = some s) : j = .string s := by
  cases j with
  | string t => exact congrArg string (Option.some.inj h)
  | _ => cases h

theorem eq_of_bool? {b : Bool} (h : j.bool? = some b) : j = .bool b := by
  cases j with
  | bool c => exact congrArg bool (Option.some.inj h)
  | _ => cases h

end Json

namespace UnwindStage

open Fields (getPath? Replaced)

variable {s : UnwindStage} {m : Fields Value} {path text : String} {j : Json} {old : Value}

/-! ## Documents -/

/-- What holds no items: nothing at all, a null or an empty array. -/
def Vacant (found : Option Value) : Prop :=
  found = none ∨ found = some .null ∨ found = some (.array [])

/-- What a document is unwound to. -/
inductive Unwinds (s : UnwindStage) (m : Fields Value) : List Value → Prop
  /-- Each item takes the place of the array. -/
  | items {items outs : List Value} (hpath : getPath? m s.path = some (.array items))
      (hne : items ≠ []) (houts : List.Forall₂
        (fun item out => ∃ m', out = .object m' ∧ Replaced m m' s.path item) items outs) :
      Unwinds s m outs
  /-- What is no array stands for itself. -/
  | whole {v : Value} (hpath : getPath? m s.path = some v) (hnull : v ≠ .null)
      (harray : ∀ items, v ≠ .array items) : Unwinds s m [.object m]
  | kept (hpath : Vacant (getPath? m s.path)) (hkeep : s.keepEmpty = true) :
      Unwinds s m [.object m]
  | dropped (hpath : Vacant (getPath? m s.path)) (hkeep : s.keepEmpty = false) : Unwinds s m []

/-- Each item can be put in the place of what the path leads to. -/
theorem exists_place (hpath : getPath? m path = some old) (items : List Value) :
    ∃ outs, items.map (place path (.object m)) = outs.map .ok ∧ List.Forall₂
      (fun item out => ∃ m', out = .object m' ∧ Replaced m m' path item) items outs := by
  induction items with
  | nil => exact ⟨[], rfl, .nil⟩
  | cons item rest ih =>
      obtain ⟨outs, hplaced, houts⟩ := ih
      obtain ⟨m', hset, hreplaced⟩ := Fields.replaced_of_getPath? hpath item
      have hitem : place path (.object m) item = .ok (.object m') := by
        rw [place, hset]
        rfl
      refine ⟨.object m' :: outs, ?_, .cons ⟨m', rfl, hreplaced⟩ houts⟩
      rw [List.map_cons, hitem, hplaced, List.map_cons]

theorem exists_unwinds_of_vacant (h : Vacant (getPath? m s.path)) :
    ∃ outs, (if s.keepEmpty then [.ok (.object m)] else []) = outs.map (Except.ok (ε := Error)) ∧
      s.Unwinds m outs := by
  cases hkeep : s.keepEmpty with
  | true => exact ⟨[.object m], rfl, .kept h hkeep⟩
  | false => exact ⟨[], rfl, .dropped h hkeep⟩

/-- **No document fails**, whatever its path leads to. -/
theorem exists_unwinds (s : UnwindStage) (m : Fields Value) :
    ∃ outs, s.unwind (.object m) = outs.map .ok ∧ s.Unwinds m outs := by
  unfold unwind
  dsimp only
  split
  · rename_i hnone
    exact exists_unwinds_of_vacant (.inl hnone)
  · rename_i hnull
    exact exists_unwinds_of_vacant (.inr (.inl hnull))
  · rename_i hempty
    exact exists_unwinds_of_vacant (.inr (.inr hempty))
  · rename_i items hne hitems
    obtain ⟨outs, hplaced, houts⟩ := exists_place hitems items
    refine ⟨outs, hplaced, .items hitems ?_ houts⟩
    rintro rfl
    exact hne rfl
  · rename_i v hnull hempty harray hv
    refine ⟨[.object m], rfl, .whole hv hnull ?_⟩
    rintro items rfl
    exact harray items rfl

/-- All documents come out in order, and none fails. -/
theorem exists_clean_run (s : UnwindStage) (index : Nat) (ms : List (Fields Value)) :
    ∃ outs, List.Forall₂ s.Unwinds ms outs ∧
      (s.run index (ms.map .object)).Clean outs.flatten := by
  obtain ⟨outs, hunwound, houts⟩ : ∃ outs,
      (ms.map .object).flatMap s.unwind = outs.flatten.map .ok ∧
        List.Forall₂ s.Unwinds ms outs := by
    induction ms with
    | nil => exact ⟨[], rfl, .nil⟩
    | cons m rest ih =>
        obtain ⟨outs, hunwound, houts⟩ := ih
        obtain ⟨now, hnow, hm⟩ := exists_unwinds s m
        refine ⟨now :: outs, ?_, .cons hm houts⟩
        rw [List.map_cons, List.flatMap_cons, hnow, hunwound, List.flatten_cons, List.map_append]
  refine ⟨outs, houts, ?_⟩
  rw [run, hunwound]
  exact Run.clean_keepAll index "$unwind" _

/-! ## Reading -/

/-- The path of a stage follows a dollar sign. -/
theorem eq_of_reference? (h : reference? text = some path) : text = "$" ++ path := by
  unfold reference? at h
  split at h
  · rename_i cs hcs
    dsimp only at h
    split at h
    · obtain rfl := Option.some.inj h
      rw [← String.toList_inj, hcs, String.toList_append, String.toList_ofList,
        String.toList_ofList]
      rfl
    · cases h
  · cases h

/-- How JSON gives a path and whether documents without items pass. -/
structure Given (j : Json) (text : String) (keepEmpty : Bool) : Prop where
  path : j = .string text ∨
    ∃ fields, j = .object fields ∧ Fields.get? fields "path" = some (.string text)
  keepEmpty : keepEmpty = true ↔ ∃ fields, j = .object fields ∧
    Fields.get? fields "preserveNullAndEmptyArrays" = some (.bool true)

theorem gives_readOptions (j : Json) : Gives (readOptions j) fun r => Given j r.1 r.2 := by
  unfold readOptions
  split
  · exact gives_pure ⟨.inl rfl, by simp⟩
  · rename_i fields
    split
    · exact gives_fail _
    · refine gives_bind (gives_require (fun _ => id) _) fun text htext => ?_
      obtain ⟨raw, hraw, hstring⟩ := Option.bind_eq_some_iff.1 htext
      have hpath : Fields.get? fields "path" = some (.string text) := by
        rw [hraw, Json.eq_of_string? hstring]
      split
      · rename_i hnone
        exact gives_pure ⟨.inr ⟨fields, rfl, hpath⟩, by simp [hnone]⟩
      · rename_i flag hflag
        refine gives_bind (gives_require (fun _ => id) _) fun keepEmpty hkeep => ?_
        rw [Json.eq_of_bool? hkeep] at hflag
        exact gives_pure ⟨.inr ⟨fields, rfl, hpath⟩, by simp [hflag]⟩
  · exact gives_fail _

theorem gives_read (j : Json) :
    Gives (UnwindStage.read j) fun s => Given j ("$" ++ s.path) s.keepEmpty := by
  refine gives_bind (gives_readOptions j) fun r hr =>
    gives_bind (gives_require (fun _ => eq_of_reference?) _) fun path hpath => gives_pure ?_
  rwa [← hpath]

/-- **Unwinding** as JSON asks for it. No document fails. In the order of the documents, each one
comes out once for each item of its array, as a whole where it holds something else, and where it
holds nothing only if the stage was told so. -/
theorem unwinds_of_read {cache : PatternCache}
    (hread : ((UnwindStage.read j : CachedReading UnwindStage).run.run cache).1 = .ok s)
    (index : Nat) (ms : List (Fields Value)) :
    Given j ("$" ++ s.path) s.keepEmpty ∧ ∃ outs, List.Forall₂ s.Unwinds ms outs ∧
      (s.run index (ms.map .object)).Clean outs.flatten :=
  ⟨gives_read j cache s hread, exists_clean_run s index ms⟩

/-- The tags of a pet, of which one is a null; of one that is no list; and of pets without any. -/
theorem unwinds_of_read_tags :
    let j : Json := .object [("path", .string "$pet.tags"),
      ("preserveNullAndEmptyArrays", .bool true)]
    let s : UnwindStage := { path := "pet.tags", keepEmpty := true }
    let docs : List (Fields Value) :=
      [[("pet", .object [("tags", .array [.string "wet", .null]), ("name", .string "Rex")]),
          ("_id", .int 1)],
        [("pet", .object [("tags", .string "tame")])],
        [("_id", .int 3)],
        [("pet", .object [("name", .null), ("tags", .array [])])]]
    ((UnwindStage.read j : CachedReading UnwindStage).run.run .empty).1 = .ok s ∧
      ∃ outs, List.Forall₂ s.Unwinds docs outs ∧ outs.flatten =
        [.object [("pet", .object [("tags", .string "wet"), ("name", .string "Rex")]),
            ("_id", .int 1)],
          .object [("pet", .object [("tags", .null), ("name", .string "Rex")]), ("_id", .int 1)],
          .object [("pet", .object [("tags", .string "tame")])],
          .object [("_id", .int 3)],
          .object [("pet", .object [("name", .null), ("tags", .array [])])]] := by
  intro j s docs
  have hread : ((UnwindStage.read j : CachedReading UnwindStage).run.run .empty).1 = .ok s := rfl
  obtain ⟨-, outs, houts, hclean⟩ := unwinds_of_read hread 0 docs
  refine ⟨hread, outs, houts, Except.ok.inj (hclean.result.symm.trans ?_)⟩
  simp only [s, docs]
  rfl

end UnwindStage

end DocStore
