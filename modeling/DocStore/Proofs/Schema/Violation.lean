import DocStore.Proofs.Schema.Satisfied
import DocStore.Proofs.Text.Segments
import DocStore.Value.Path

/-!
# Violations of a schema

The check of an object reports its first violation (`Schema.FirstViolation`): required names come
first, then declared fields, each in the order of the schema, then other fields in the order of the
object. The path of the report leads to what offends, however deep it stands in arrays and objects:
`ValidationError.OffendsAt`.
-/

set_option autoImplicit false

namespace DocStore

/-! ## The first violation -/

/-- What the check of an object reports. -/
inductive Schema.FirstViolation (s : Schema) (fields : Fields Value) : ValidationError → Prop
  | missing {before after : List String} {name : String}
      (hrequired : s.required = before ++ name :: after)
      (hbefore : ∀ k ∈ before, k ∈ Fields.keys fields) (hname : name ∉ Fields.keys fields) :
      FirstViolation s fields (.missingField name)
  | declared {before after : List (String × FieldSchema)} {name : String} {f : FieldSchema}
      {v : Value} {e : ValidationError} (hrequired : ∀ k ∈ s.required, k ∈ Fields.keys fields)
      (hproperties : s.properties = before ++ (name, f) :: after)
      (hbefore : ∀ k g, (k, g) ∈ before → ∀ w, Fields.get? fields k = some w → g.Satisfied w)
      (hv : Fields.get? fields name = some v) (he : f.check name v = .error e) :
      FirstViolation s fields e
  | unknown {before after : List (String × Value)} {name : String} {v : Value}
      (hrequired : ∀ k ∈ s.required, k ∈ Fields.keys fields)
      (hproperties : ∀ k g, (k, g) ∈ s.properties → ∀ w, Fields.get? fields k = some w →
        g.Satisfied w)
      (hadditional : s.additional = false) (hfields : fields = before ++ (name, v) :: after)
      (hbefore : ∀ b ∈ before, b.1 = idField ∨ b.1 ∈ Fields.keys s.properties)
      (hid : name ≠ idField) (hname : name ∉ Fields.keys s.properties) :
      FirstViolation s fields (.unknownField name)

section First

variable {fields : Fields Value} {e : ValidationError}

/-- What is refused first of things that are asked for one by one. -/
theorem forM_ite_eq_error {α : Type} {as : List α} {c : α → Bool} {report : α → ValidationError} :
    (as.forM fun a => if c a then (.ok () : Verdict) else .error (report a)) = .error e ↔
      ∃ before a after, as = before ++ a :: after ∧ (∀ b ∈ before, c b = true) ∧
        c a = false ∧ e = report a := by
  have hok (a : α) : (if c a then (.ok () : Verdict) else .error (report a)) = .ok () ↔
      c a = true := by cases c a <;> simp
  have herror (a : α) : (if c a then (.ok () : Verdict) else .error (report a)) = .error e ↔
      c a = false ∧ e = report a := by cases c a <;> simp [@eq_comm _ e]
  rw [forM_eq_error]
  simp only [hok, herror]

theorem checkRequired_eq_forM (names : List String) : checkRequired fields names =
    names.forM fun name =>
      if Fields.contains fields name then .ok () else .error (.missingField name) := by
  induction names with
  | nil => rfl
  | cons name rest ih =>
      rw [checkRequired, ih, List.forM]
      cases Fields.contains fields name <;> rfl

theorem checkDeclared_eq_forM (declared : String → Bool) : checkDeclared declared fields =
    fields.forM fun a =>
      if a.1 == idField || declared a.1 then .ok () else .error (.unknownField a.1) := by
  induction fields with
  | nil => rfl
  | cons a rest ih =>
      obtain ⟨name, v⟩ := a
      rw [checkDeclared, ih, List.forM]
      cases name == idField || declared name <;> rfl

theorem checkProperties_eq_forM (properties : List (String × FieldSchema)) :
    Schema.checkProperties fields properties =
      properties.forM fun a => checkSome (Fields.get? fields a.1) (a.2.check a.1) := by
  induction properties with
  | nil => rfl
  | cons a rest ih =>
      obtain ⟨name, f⟩ := a
      rw [Schema.checkProperties, ih, List.forM]
      cases Fields.get? fields name <;> rfl

theorem checkDeclared_eq_error {properties : List (String × FieldSchema)} :
    checkDeclared (fun name => properties.any (·.1 == name)) fields = .error e ↔
      ∃ before a after, fields = before ++ a :: after ∧
        (∀ b ∈ before, b.1 = idField ∨ b.1 ∈ Fields.keys properties) ∧
        (a.1 ≠ idField ∧ a.1 ∉ Fields.keys properties) ∧ e = .unknownField a.1 := by
  have hdeclared (name : String) : (name == idField || properties.any (·.1 == name)) = true ↔
      name = idField ∨ name ∈ Fields.keys properties := by simp [Fields.keys]
  rw [checkDeclared_eq_forM, forM_ite_eq_error]
  simp only [← Bool.not_eq_true, hdeclared, not_or]

/-- **The check of an object reports the first violation**, and fails if there is one. -/
theorem Schema.checkFields_eq_error {s : Schema} :
    Schema.checkFields fields s = .error e ↔ s.FirstViolation fields e := by
  obtain ⟨required, properties, additional⟩ := s
  have hcontains (name : String) :
      Fields.contains fields name = false ↔ name ∉ Fields.keys fields := by
    rw [← Fields.contains_iff_mem_keys, Bool.not_eq_true]
  rw [Schema.checkFields, andThen_eq_error, andThen_eq_error, checkRequired_eq_ok,
    checkRequired_eq_forM, forM_ite_eq_error, checkProperties_eq_ok, checkProperties_eq_forM,
    forM_eq_error]
  simp only [checkSome_eq_ok, checkSome_eq_error, FieldSchema.check_eq_ok, hcontains,
    Fields.contains_iff_mem_keys]
  constructor
  -- Each check is reached only if those before it pass, so its failure is one constructor.
  · rintro (⟨before, name, after, hnames, hbefore, hname, rfl⟩ |
      ⟨hrequired, ⟨before, a, after, hproperties, hbefore, v, hv, he⟩ | ⟨hproperties, he⟩⟩)
    · exact .missing hnames hbefore hname
    · exact .declared hrequired hproperties (fun k g hmem => hbefore _ hmem) hv he
    · cases additional with
      | true => cases he
      | false =>
          obtain ⟨before, a, after, hfields, hbefore, ha, rfl⟩ := checkDeclared_eq_error.1 he
          exact .unknown hrequired hproperties rfl hfields hbefore ha.1 ha.2
  · rintro (⟨hnames, hbefore, hname⟩ | ⟨hrequired, hproperties', hbefore, hv, he⟩ |
      ⟨hrequired, hproperties', hadditional, hfields, hbefore, hid, hname⟩)
    · exact .inl ⟨_, _, _, hnames, hbefore, hname, rfl⟩
    · exact .inr ⟨hrequired, .inl
        ⟨_, _, _, hproperties', fun b hmem => hbefore _ _ hmem, _, hv, he⟩⟩
    · obtain rfl : additional = false := hadditional
      exact .inr ⟨hrequired, .inr ⟨hproperties', checkDeclared_eq_error.2
        ⟨_, _, _, hfields, hbefore, ⟨hid, hname⟩, rfl⟩⟩⟩

end First

/-! ## Where the offence is -/

open Value (child? descend?)

/-- The value breaks the constraint, and the report tells how. -/
def Constraint.BrokenBy (v : Value) : Constraint → Prop
  | shorterThan length least => ∃ s, v.string? = some s ∧ s.length = length ∧ length < least
  | longerThan length most => ∃ s, v.string? = some s ∧ s.length = length ∧ most < length
  | noMatch source => ∃ s p, v.string? = some s ∧ SchemaPattern.source p = source ∧
      p.regex.isMatch s = false
  | below w minimum => w = v ∧ ∃ x, v.float? = some x ∧ Binary64.compare? x minimum = some .lt
  | above w maximum => w = v ∧ ∃ x, v.float? = some x ∧ Binary64.compare? x maximum = some .gt
  | notAllowed w => w = v
  | tooFewItems count least => ∃ vs, v.array? = some vs ∧ vs.length = count ∧ count < least
  | tooManyItems count most => ∃ vs, v.array? = some vs ∧ vs.length = count ∧ most < count
  | duplicateItem item => ∃ before after, v.array? = some (before ++ item :: after) ∧
      item.canonicalKey ∈ before.map Value.canonicalKey

namespace ValidationError

/-- A chain of segments leads to the value that the report is about. A missing field is not there,
but the object is in which it is missed. -/
def OffendsAt (segments : List String) (v : Value) : ValidationError → Prop
  | missingField _ => descend? segments v = none ∧
      ∃ fields, descend? segments.dropLast v = some (.object fields)
  | wrongKind _ expected found => ∃ w, descend? segments v = some w ∧ w.kind = found ∧
      found ∉ expected
  | broken _ c => ∃ w, descend? segments v = some w ∧ c.BrokenBy w
  | unknownField _ => ∃ w, descend? segments v = some w

/-- The report is about the value of a field, or about something in it. -/
def IsWithin (field : String) (v : Value) (e : ValidationError) : Prop :=
  ∃ segments, Segments.ofPath e.field = Segments.ofPath field ++ segments ∧ e.OffendsAt segments v

variable {e : ValidationError} {segment : String} {segments : List String} {v w : Value}

/-- What offends in a child offends in the value, one segment further down. -/
theorem OffendsAt.of_child (h : e.OffendsAt segments w) (hw : child? segment v = some w) :
    e.OffendsAt (segment :: segments) v := by
  have hdescend (segments : List String) :
      descend? (segment :: segments) v = descend? segments w := by
    rw [descend?, hw, Option.bind_some]
  cases e with
  | missingField name =>
      obtain ⟨hnone, hparent⟩ := h
      cases segments with
      -- The child is there, so it is not what is missing.
      | nil => cases hnone
      | cons first rest =>
          refine ⟨(hdescend _).trans hnone, ?_⟩
          rwa [List.dropLast_cons_cons, hdescend]
  | wrongKind name expected found => rwa [OffendsAt, hdescend]
  | broken name c => rwa [OffendsAt, hdescend]
  | unknownField name => rwa [OffendsAt, hdescend]

theorem offendsAt_nestedUnder {parent : String} (h : e.OffendsAt segments v) :
    (e.nestedUnder parent).OffendsAt segments v := by
  cases e <;> exact h

theorem field_nestedUnder (parent : String) :
    (e.nestedUnder parent).field = parent ++ "." ++ e.field := by
  cases e <;> rfl

theorem isWithin_self {field : String} (hfield : e.field = field) (h : e.OffendsAt [] v) :
    e.IsWithin field v :=
  ⟨[], by rw [hfield, List.append_nil], h⟩

theorem IsWithin.of_item {field : String} {vs : List Value} {i : Nat} (hi : i < UInt64.size)
    (hw : vs[i]? = some w) (h : e.IsWithin (field ++ "." ++ toString i) w) :
    e.IsWithin field (.array vs) := by
  obtain ⟨segments, hfield, h⟩ := h
  refine ⟨toString i :: segments, ?_, h.of_child ?_⟩
  · rw [hfield, Segments.ofPath_append, Segments.ofPath_toString, List.append_assoc]
    rfl
  · rw [child?, Segments.index?_toString hi, Option.bind_some, hw]

theorem isWithin_nestedUnder {field : String} (h : e.OffendsAt (Segments.ofPath e.field) v) :
    (e.nestedUnder field).IsWithin field v :=
  ⟨Segments.ofPath e.field, by rw [field_nestedUnder, Segments.ofPath_append],
    offendsAt_nestedUnder h⟩

/-! ### Names of fields -/

variable {fields : Fields Value} {name : String}

theorem descend?_name (hname : '.' ∉ name.toList) :
    descend? (Segments.ofPath name) (.object fields) = Fields.get? fields name := by
  rw [Segments.ofPath_of_not_mem hname]
  exact Option.bind_fun_some _

theorem offendsAt_missingField (hname : '.' ∉ name.toList) (h : name ∉ Fields.keys fields) :
    (missingField name).OffendsAt (Segments.ofPath name) (.object fields) := by
  refine ⟨(descend?_name hname).trans (Fields.get?_eq_none_iff.2 h), fields, ?_⟩
  rw [Segments.ofPath_of_not_mem hname]
  rfl

theorem offendsAt_unknownField (hname : '.' ∉ name.toList) (h : name ∈ Fields.keys fields) :
    (unknownField name).OffendsAt (Segments.ofPath name) (.object fields) := by
  rw [OffendsAt, descend?_name hname]
  exact Option.ne_none_iff_exists'.1 fun hnone => Fields.get?_eq_none_iff.1 hnone h

end ValidationError

namespace ValueConstraints

variable {c : ValueConstraints} {field : String} {v : Value}

theorem failsOnly_bounded {β : Type} {bound : Option β} {broken : β → Bool}
    {report : β → Constraint} (h : ∀ b, broken b = true → (report b).BrokenBy v) :
    FailsOnly (·.IsWithin field v) (bounded field bound broken report) := by
  cases bound with
  | none => exact failsOnly_ok ()
  | some b =>
      unfold bounded
      dsimp only
      split
      · rename_i hb
        exact failsOnly_error (ValidationError.isWithin_self rfl ⟨v, rfl, h b hb⟩)
      · exact failsOnly_ok ()

theorem failsOnly_checkKind : FailsOnly (·.IsWithin field v) (c.checkKind field v) := by
  unfold checkKind
  split
  · exact failsOnly_ok ()
  · rename_i h
    refine failsOnly_error (ValidationError.isWithin_self rfl ⟨v, rfl, rfl, ?_⟩)
    simpa using (not_or.1 (by simpa using h)).2

theorem failsOnly_checkString {s : String} (hs : v.string? = some s) :
    FailsOnly (·.IsWithin field v) (c.checkString field s) := by
  refine (failsOnly_bounded fun least h => ?_).bind fun _ =>
    (failsOnly_bounded fun most h => ?_).bind fun _ => failsOnly_bounded fun p h => ?_
  · exact ⟨s, hs, rfl, of_decide_eq_true h⟩
  · exact ⟨s, hs, rfl, of_decide_eq_true h⟩
  · exact ⟨s, p, hs, rfl, by simpa using h⟩

theorem failsOnly_checkNumber {x : Float} (hx : v.float? = some x) :
    FailsOnly (·.IsWithin field v) (c.checkNumber field v x) := by
  refine (failsOnly_bounded fun minimum h => ?_).bind fun _ =>
    failsOnly_bounded fun maximum h => ?_
  · exact ⟨rfl, x, hx, beq_iff_eq.1 h⟩
  · exact ⟨rfl, x, hx, beq_iff_eq.1 h⟩

theorem failsOnly_checkAllowed : FailsOnly (·.IsWithin field v) (c.checkAllowed field v) :=
  failsOnly_bounded fun _ _ => rfl

theorem failsOnly_checkLength {vs : List Value} (hvs : v.array? = some vs) :
    FailsOnly (·.IsWithin field v) (c.checkLength field vs) := by
  refine (failsOnly_bounded fun least h => ?_).bind fun _ => failsOnly_bounded fun most h => ?_
  · exact ⟨vs, hvs, rfl, of_decide_eq_true h⟩
  · exact ⟨vs, hvs, rfl, of_decide_eq_true h⟩

/-- An item that repeats a key stands behind one that has it, or repeats a key seen before. -/
theorem duplicate?_eq_some {seen : List String} {vs : List Value} {item : Value}
    (h : duplicate? seen vs = some item) : ∃ before after, vs = before ++ item :: after ∧
      (item.canonicalKey ∈ before.map Value.canonicalKey ∨ item.canonicalKey ∈ seen) := by
  induction vs generalizing seen with
  | nil => cases h
  | cons v rest ih =>
      unfold duplicate? at h
      split at h
      · rename_i hseen
        cases h
        exact ⟨[], rest, rfl, .inr (List.contains_iff_mem.1 hseen)⟩
      · obtain ⟨before, after, rfl, hkey⟩ := ih h
        refine ⟨v :: before, after, rfl, ?_⟩
        rw [List.map_cons, List.mem_cons]
        rcases hkey with hkey | hkey
        · exact .inl (.inr hkey)
        · exact (List.mem_cons.1 hkey).imp .inl id

theorem failsOnly_checkUnique {vs : List Value} (hvs : v.array? = some vs) :
    FailsOnly (·.IsWithin field v) (c.checkUnique field vs) := by
  unfold checkUnique
  split
  · split
    · rename_i item hitem
      obtain ⟨before, after, rfl, hkey⟩ := duplicate?_eq_some hitem
      refine failsOnly_error (ValidationError.isWithin_self rfl ⟨v, rfl, before, after, hvs, ?_⟩)
      exact hkey.resolve_right List.not_mem_nil
    · exact failsOnly_ok ()
  · exact failsOnly_ok ()

end ValueConstraints

/-! ## Names without dots -/

mutual

/-- No name in the schema of a field has a dot. -/
inductive FieldSchema.Dotless : FieldSchema → Prop
  | mk {own : ValueConstraints} {items : Option FieldSchema} {object : Option Schema}
      (hitems : ∀ s, items = some s → s.Dotless)
      (hobject : ∀ s, object = some s → Schema.Dotless s) :
      (FieldSchema.mk own items object).Dotless

/-- No name in a schema has a dot. -/
inductive Schema.Dotless : Schema → Prop
  | mk {s : Schema} (hrequired : ∀ name ∈ s.required, '.' ∉ name.toList)
      (hnames : ∀ name ∈ Fields.keys s.properties, '.' ∉ name.toList)
      (hproperties : ∀ e ∈ s.properties, e.2.Dotless) : Schema.Dotless s

end

namespace FieldSchema

theorem dotless_ofKinds (kinds : List Kind) : (ofKinds kinds).Dotless :=
  .mk (by simp) (by simp)

theorem Dotless.array {s : FieldSchema} (h : s.Dotless) : s.array.Dotless :=
  .mk (by simpa using h) (by simp)

theorem dotless_object {s : Schema} (h : s.Dotless) : (object s).Dotless :=
  .mk (by simp) (by simpa using h)

end FieldSchema

namespace Value

/-- Every path of names and indices leads to what stands there: no name in the value has a dot, and
no array has more items than there are indices. -/
inductive Addressable : Value → Prop
  | scalar {v : Value} (h : v.isContainer = false) : Addressable v
  | array {vs : List Value} (hlength : vs.length ≤ UInt64.size) (h : ∀ v ∈ vs, v.Addressable) :
      Addressable (.array vs)
  | object {fields : List (String × Value)}
      (hnames : ∀ name ∈ Fields.keys fields, '.' ∉ name.toList)
      (h : ∀ e ∈ fields, e.2.Addressable) : Addressable (.object fields)

variable {v : Value} {vs : List Value} {fields : Fields Value}

theorem Addressable.of_array (h : (Value.array vs).Addressable) :
    vs.length ≤ UInt64.size ∧ ∀ v ∈ vs, v.Addressable := by
  cases h with
  | scalar h => cases h
  | array hlength h => exact ⟨hlength, h⟩

theorem Addressable.of_object (h : (Value.object fields).Addressable) :
    (∀ name ∈ Fields.keys fields, '.' ∉ name.toList) ∧ ∀ e ∈ fields, e.2.Addressable := by
  cases h with
  | scalar h => cases h
  | object hnames h => exact ⟨hnames, h⟩

theorem eq_array (h : v.array? = some vs) : v = array vs := by
  cases v <;> cases h
  rfl

theorem eq_object (h : v.object? = some fields) : v = object fields := by
  cases v <;> cases h
  rfl

end Value

/-! ## The report leads to the offence -/

theorem failsOnly_checkItems {P : ValidationError → Prop} {check : Nat → Value → Verdict}
    {vs : List Value} {i : Nat} (h : ∀ j w, vs[j]? = some w → FailsOnly P (check (i + j) w)) :
    FailsOnly P (checkItems check i vs) := by
  induction vs generalizing i with
  | nil => exact failsOnly_ok ()
  | cons v rest ih =>
      refine (h 0 v rfl).bind fun _ => ih fun j w hw => ?_
      rw [Nat.add_right_comm]
      exact h (j + 1) w hw

theorem failsOnly_nestedUnder {field : String} {v : Value} {verdict : Verdict}
    (h : FailsOnly (fun e => e.OffendsAt (Segments.ofPath e.field) v) verdict) :
    FailsOnly (·.IsWithin field v) (verdict.nestedUnder field) := by
  cases verdict with
  | error e => exact failsOnly_error (ValidationError.isWithin_nestedUnder (h e rfl))
  | ok u => exact failsOnly_ok ()

mutual

/-- **The report of the check of a field** is about its value, or about something in it. -/
theorem FieldSchema.isWithin_check : (s : FieldSchema) → s.Dotless → (field : String) →
    (v : Value) → v.Addressable → FailsOnly (·.IsWithin field v) (s.check field v)
  | .mk own items object, .mk hitems hobject, field, v, hv => by
    rw [FieldSchema.check_eq]
    refine ValueConstraints.failsOnly_checkKind.bind fun _ => ?_
    refine (failsOnly_checkSome fun _ => ValueConstraints.failsOnly_checkString).bind fun _ => ?_
    refine (failsOnly_checkSome fun _ => ValueConstraints.failsOnly_checkNumber).bind fun _ => ?_
    refine ValueConstraints.failsOnly_checkAllowed.bind fun _ => ?_
    refine (failsOnly_checkSome fun _ => ValueConstraints.failsOnly_checkLength).bind fun _ => ?_
    refine (failsOnly_checkSome fun vs hvs => ?_).bind fun _ => ?_
    · -- The index of an item is put behind the path on the way down.
      obtain rfl := Value.eq_array hvs
      refine failsOnly_checkSome fun s hs => failsOnly_checkItems fun j w hw => ?_
      have hj : j < UInt64.size :=
        (List.getElem?_eq_some_iff.1 hw).1.trans_le hv.of_array.1
      rw [Nat.zero_add]
      exact (isWithin_items items s hs (hitems s hs) _ w
        (hv.of_array.2 w (List.mem_of_getElem? hw))).mono fun _ =>
          ValidationError.IsWithin.of_item hj hw
    refine (failsOnly_checkSome fun _ => ValueConstraints.failsOnly_checkUnique).bind fun _ => ?_
    -- The name of the field is put before the path on the way up.
    refine failsOnly_checkSome fun s hs => failsOnly_checkSome fun fields hfields => ?_
    obtain rfl := Value.eq_object hfields
    exact failsOnly_nestedUnder (offendsAt_object object s hs (hobject s hs) fields hv)

theorem isWithin_items : (items : Option FieldSchema) → ∀ s, items = some s → s.Dotless →
    ∀ field v, v.Addressable → FailsOnly (·.IsWithin field v) (s.check field v)
  | some s, _, rfl => FieldSchema.isWithin_check s

theorem offendsAt_object : (object : Option Schema) → ∀ s, object = some s → s.Dotless →
    ∀ fields, (Value.object fields).Addressable →
    FailsOnly (fun e => e.OffendsAt (Segments.ofPath e.field) (.object fields))
      (Schema.checkFields fields s)
  | some s, _, rfl => Schema.offendsAt_checkFields s

/-- **The report of the check of an object** names the path to what offends. -/
theorem Schema.offendsAt_checkFields : (s : Schema) → s.Dotless → (fields : Fields Value) →
    (Value.object fields).Addressable →
    FailsOnly (fun e => e.OffendsAt (Segments.ofPath e.field) (.object fields))
      (Schema.checkFields fields s)
  | { required, properties, additional }, .mk hrequired hnames hproperties, fields, hfields => by
    intro e he
    rcases Schema.checkFields_eq_error.1 he with @⟨before, after, name, hsplit, -, hname⟩ |
      @⟨before, after, name, f, v, e, -, hsplit, -, hv, he⟩ |
      @⟨before, after, name, v, -, -, -, hsplit, -, -, -⟩
    · have hmem : name ∈ required := by simp [show required = _ from hsplit]
      exact ValidationError.offendsAt_missingField (hrequired name hmem) hname
    · have hmem : (name, f) ∈ properties := by simp [show properties = _ from hsplit]
      obtain ⟨segments, hpath, hoffends⟩ :=
        isWithin_properties properties hproperties _ hmem name v
          (hfields.of_object.2 _ (Fields.mem_of_get? hv)) e he
      -- Without a dot the name is one segment, the one that leads to the field.
      rw [hpath, Segments.ofPath_of_not_mem (hnames name (Fields.mem_keys hmem))]
      exact hoffends.of_child hv
    · have hmem : name ∈ Fields.keys fields := by simp [Fields.keys, hsplit]
      exact ValidationError.offendsAt_unknownField (hfields.of_object.1 name hmem) hmem

theorem isWithin_properties : (properties : List (String × FieldSchema)) →
    (∀ a ∈ properties, a.2.Dotless) → ∀ a ∈ properties, ∀ field v, v.Addressable →
    FailsOnly (·.IsWithin field v) (a.2.check field v)
  | [], _, _, ha => absurd ha List.not_mem_nil
  | (name, f) :: rest, hdotless, a, ha => by
    obtain ⟨hf, hrest⟩ := List.forall_mem_cons.1 hdotless
    rcases List.mem_cons.1 ha with rfl | ha
    · exact FieldSchema.isWithin_check f hf
    · exact isWithin_properties rest hrest a ha

end

namespace Schema

/-- **A refused object is refused for its first violation**, and the path of the report leads to
what offends: required names come first, then declared fields, and then fields that are neither
declared nor the id. -/
theorem validate_eq_error_iff {s : Schema} {fields : Fields Value} (hs : s.Dotless)
    (hfields : (Value.object fields).Addressable) (e : ValidationError) :
    (s.validate (.object fields) = .error e ↔ s.FirstViolation fields e) ∧
      (s.validate (.object fields) = .error e →
        e.OffendsAt (Segments.ofPath e.field) (.object fields)) :=
  ⟨checkFields_eq_error, offendsAt_checkFields s hs fields hfields e⟩

theorem validate_eq_error_iff_order :
    let line : Schema := ⟨["sku"], [("sku", .string)], true⟩
    let order : Schema := ⟨[], [("lines", .array (.object line))], false⟩
    let book : Schema := ⟨["orders"], [("orders", .array (.object order))], false⟩
    let document : Value := .object [("orders", .array [.object [("lines", .array [
      .object [("sku", .string "P1")], .object [("sku", .int 5)]])]])]
    (book.Dotless ∧ document.Addressable) ∧
      book.validate document = .error (.wrongKind "orders.0.lines.1.sku" [.string] .int) ∧
      ∃ w, descend? (Segments.ofPath "orders.0.lines.1.sku") document = some w ∧ w.kind = .int ∧
        .int ∉ [Kind.string] := by
  intro line order book document
  have hline : line.Dotless := .mk (by decide) (by decide)
    (List.forall_mem_singleton.2 (FieldSchema.dotless_ofKinds _))
  have horder : order.Dotless := .mk (by decide) (by decide)
    (List.forall_mem_singleton.2 (FieldSchema.dotless_object hline).array)
  have hbook : book.Dotless := .mk (by decide) (by decide)
    (List.forall_mem_singleton.2 (FieldSchema.dotless_object horder).array)
  have hsku (v : Value) (hv : v.isContainer = false) :
      (Value.object [("sku", v)]).Addressable :=
    .object (by simp [Fields.keys]) (List.forall_mem_singleton.2 (.scalar hv))
  have hlines : (Value.array [.object [("sku", .string "P1")],
      .object [("sku", .int 5)]]).Addressable :=
    .array (by decide) (List.forall_mem_cons.2 ⟨hsku _ rfl,
      List.forall_mem_singleton.2 (hsku _ rfl)⟩)
  have hdocument : document.Addressable :=
    .object (by decide) (List.forall_mem_singleton.2 (.array (by decide)
      (List.forall_mem_singleton.2 (.object (by decide) (List.forall_mem_singleton.2 hlines)))))
  have herror : book.validate document =
      .error (.wrongKind "orders.0.lines.1.sku" [.string] .int) := rfl
  exact ⟨⟨hbook, hdocument⟩, herror, (validate_eq_error_iff hbook hdocument _).2 herror⟩

/-- The id is never refused, so the first field that is not declared need not be the one that is
reported. -/
theorem not_validate_unknownField_first :
    let s : Schema := ⟨[], [], false⟩
    let fields : List (String × Value) := [("_id", .int 1), ("x", .int 2)]
    (s.Dotless ∧ (Value.object fields).Addressable) ∧
      fields.find? (fun e => !Fields.contains s.properties e.1) = some ("_id", .int 1) ∧
      s.validate (.object fields) ≠ .error (.unknownField "_id") ∧
      s.validate (.object fields) = .error (.unknownField "x") := by
  intro s fields
  have hs : s.Dotless := .mk (by decide) (by decide) (by simp [s])
  have hfields : (Value.object fields).Addressable :=
    .object (by decide) (List.forall_mem_cons.2 ⟨.scalar rfl,
      List.forall_mem_singleton.2 (.scalar rfl)⟩)
  have herror : s.validate (.object fields) = .error (.unknownField "x") := rfl
  refine ⟨⟨hs, hfields⟩, rfl, ?_, herror⟩
  rw [herror]
  simp

end Schema

end DocStore
