import DocStore.Proofs.Expr.Distinct
import DocStore.Proofs.Pipeline.Reading
import DocStore.Proofs.Update.Again
import DocStore.Proofs.Update.Selected
import DocStore.Proofs.Value.Shuffled

/-!
# Fields computed at once

The stage `$addFields` computes all of its fields from the document that comes in, and then writes
them one after the other. Where the paths start with different fields, no write changes what another
one finds, so the fields are assigned at once: `ComputedFields.assigns_apply`. Their order counts
for the order of the fields that come out only: `ComputedFields.agree_apply_of_perm`.
-/

set_option autoImplicit false

namespace DocStore

namespace ComputedFields

open Fields (get? setPath? keys)

variable {fields fields' : ComputedFields} {m m' : Fields Value}
  {computed computed' : List (String × Value)} {doc out : Value}

/-! ## Values -/

theorem values_cons (f : String × Expr) (rest : ComputedFields) (doc : Value) :
    values (f :: rest) doc = (do
      let r ← f.2.eval? doc
      let more ← values rest doc
      return (r.map (f.1, ·)).toList ++ more) := by
  rw [values, List.mapM_cons]
  cases f.2.eval? doc with
  | error e => rfl
  | ok r =>
      rw [values]
      cases rest.mapM fun f => f.2.eval? doc with
      | error e => simp [bind, Except.bind]
      | ok vs => cases r <;> simp [bind, Except.bind, pure, Except.pure]

theorem values_cons_eq_ok {f : String × Expr} {rest : ComputedFields} :
    values (f :: rest) doc = .ok computed ↔ ∃ r more, f.2.eval? doc = .ok r ∧
      values rest doc = .ok more ∧ computed = (r.map (f.1, ·)).toList ++ more := by
  rw [values_cons]
  constructor
  · intro h
    obtain ⟨r, hr, h⟩ := bind_eq_ok.1 h
    obtain ⟨more, hmore, h⟩ := bind_eq_ok.1 h
    cases h
    exact ⟨r, more, hr, hmore, rfl⟩
  · rintro ⟨r, more, hr, hmore, rfl⟩
    exact bind_eq_ok.2 ⟨r, hr, bind_eq_ok.2 ⟨more, hmore, rfl⟩⟩

/-- The values are computed if each one is, in whatever order. -/
theorem exists_values_iff :
    (∃ computed, values fields doc = .ok computed) ↔
      ∀ f ∈ fields, ∃ r, f.2.eval? doc = .ok r := by
  induction fields with
  | nil => exact iff_of_true ⟨[], rfl⟩ (List.forall_mem_nil _)
  | cons f rest ih =>
      rw [List.forall_mem_cons, ← ih]
      constructor
      · rintro ⟨computed, h⟩
        obtain ⟨r, more, hr, hmore, -⟩ := values_cons_eq_ok.1 h
        exact ⟨⟨r, hr⟩, more, hmore⟩
      · rintro ⟨⟨r, hr⟩, more, hmore⟩
        exact ⟨_, values_cons_eq_ok.2 ⟨r, more, hr, hmore, rfl⟩⟩

/-- Each field that comes to a value gives it, and no other one. -/
theorem mem_values (h : values fields doc = .ok computed) {e : String × Value} :
    e ∈ computed ↔ ∃ f ∈ fields, f.1 = e.1 ∧ f.2.eval? doc = .ok (some e.2) := by
  induction fields generalizing computed with
  | nil =>
      cases h
      simp
  | cons f rest ih =>
      obtain ⟨r, more, hr, hmore, rfl⟩ := values_cons_eq_ok.1 h
      rw [List.exists_mem_cons_iff, ← ih hmore, List.mem_append, hr]
      refine or_congr_left ?_
      cases r with
      | none => simp
      | some v =>
          obtain ⟨path, w⟩ := e
          simp [eq_comm]

theorem sublist_values (h : values fields doc = .ok computed) :
    (computed.map (·.1)).Sublist (fields.map (·.1)) := by
  induction fields generalizing computed with
  | nil =>
      cases h
      exact .slnil
  | cons f rest ih =>
      obtain ⟨r, more, -, hmore, rfl⟩ := values_cons_eq_ok.1 h
      cases r with
      | none => exact (ih hmore).cons _
      | some v => exact (ih hmore).cons_cons _

/-! ## Writing -/

/-- The fields that paths start with. -/
def tops {α : Type} (fields : List (String × α)) : List String :=
  fields.map fun f => Segments.top f.1

theorem tops_eq {α : Type} (fields : List (String × α)) :
    tops fields = (fields.map (·.1)).map Segments.top := by
  rw [List.map_map]
  rfl

theorem top_ne_of_mem {e f : String × Value} {rest : List (String × Value)}
    (htops : (tops (e :: rest)).Nodup) (hf : f ∈ rest) : Segments.top f.1 ≠ Segments.top e.1 := by
  intro heq
  exact (List.nodup_cons.1 htops).1 (List.mem_map.2 ⟨f, hf, heq⟩)

/-- Values stand where each of them is put on its own, and nothing else changes. -/
structure Placed (computed : List (String × Value)) (m m' : Fields Value) : Prop where
  placed : ∀ e ∈ computed, ∃ w, setPath? m e.1 e.2 = .ok w ∧
    get? m' (Segments.top e.1) = get? w (Segments.top e.1)
  others : ∀ name, name ∉ tops computed → get? m' name = get? m name

theorem write_cons_eq_ok {e : String × Value} {rest : List (String × Value)} :
    write m (e :: rest) = .ok m' ↔
      ∃ m₁, setPath? m e.1 e.2 = .ok m₁ ∧ write m₁ rest = .ok m' := bind_eq_ok

theorem get?_setPath?_of_ne {path name : String} {v : Value} (h : setPath? m path v = .ok m')
    (hne : name ≠ Segments.top path) : get? m' name = get? m name :=
  (Fields.edits_setPath? h).get?_eq (mt List.mem_singleton.1 hne)

/-- **A write in turn is a write at once**, if the paths start with different fields. -/
theorem placed_write (htops : (tops computed).Nodup) (h : write m computed = .ok m') :
    Placed computed m m' := by
  induction computed generalizing m with
  | nil =>
      cases h
      exact ⟨List.forall_mem_nil _, fun _ _ => rfl⟩
  | cons e rest ih =>
      obtain ⟨m₁, hset, hwrite⟩ := write_cons_eq_ok.1 h
      obtain ⟨htop, hrest⟩ := List.nodup_cons.1 htops
      have hplaced := ih hrest hwrite
      refine ⟨List.forall_mem_cons.2 ⟨⟨m₁, hset, hplaced.others _ htop⟩, ?_⟩, ?_⟩
      · intro f hf
        -- The first write leaves the field alone that the other one finds.
        have hne := top_ne_of_mem htops hf
        obtain ⟨w₁, hw₁, hget⟩ := hplaced.placed f hf
        obtain ⟨w, hw, hsame⟩ :=
          Fields.exists_setPath?_congr (get?_setPath?_of_ne hset hne) hw₁
        exact ⟨w, hw, hget.trans hsame.symm⟩
      · intro name hname
        obtain ⟨hne, hnot⟩ := not_or.1 (mt List.mem_cons.2 hname)
        exact (hplaced.others name hnot).trans (get?_setPath?_of_ne hset hne)

theorem exists_write (htops : (tops computed).Nodup)
    (h : ∀ e ∈ computed, ∃ w, setPath? m e.1 e.2 = .ok w) : ∃ m', write m computed = .ok m' := by
  induction computed generalizing m with
  | nil => exact ⟨m, rfl⟩
  | cons e rest ih =>
      obtain ⟨⟨m₁, hset⟩, hothers⟩ := List.forall_mem_cons.1 h
      obtain ⟨-, hrest⟩ := List.nodup_cons.1 htops
      have hstill : ∀ f ∈ rest, ∃ w, setPath? m₁ f.1 f.2 = .ok w := by
        intro f hf
        have hne := top_ne_of_mem htops hf
        obtain ⟨w, hw⟩ := hothers f hf
        obtain ⟨w₁, hw₁, -⟩ :=
          Fields.exists_setPath?_congr (get?_setPath?_of_ne hset hne).symm hw
        exact ⟨w₁, hw₁⟩
      obtain ⟨m', hwrite⟩ := ih hrest hstill
      exact ⟨m', write_cons_eq_ok.2 ⟨m₁, hset, hwrite⟩⟩

theorem distinct_write (hm : (Value.object m).Distinct) (hcomputed : ∀ e ∈ computed, e.2.Distinct)
    (h : write m computed = .ok m') : (Value.object m').Distinct := by
  induction computed generalizing m with
  | nil =>
      cases h
      exact hm
  | cons e rest ih =>
      obtain ⟨m₁, hset, hwrite⟩ := write_cons_eq_ok.1 h
      obtain ⟨he, hrest⟩ := List.forall_mem_cons.1 hcomputed
      exact ih (Value.Everywhere.setPath? Value.editable_distinct hm he hset) hrest hwrite

theorem Placed.get?_eq {m₁ m₂ : Fields Value} (h : Placed computed m m₁)
    (h' : Placed computed' m m₂) (hsame : ∀ e, e ∈ computed ↔ e ∈ computed') (name : String) :
    get? m₁ name = get? m₂ name := by
  have htops (name : String) : name ∈ tops computed ↔ name ∈ tops computed' := by
    simp only [tops, List.mem_map, hsame]
  by_cases hname : name ∈ tops computed
  · obtain ⟨e, he, rfl⟩ := List.mem_map.1 hname
    obtain ⟨w, hw, hget⟩ := h.placed e he
    obtain ⟨w', hw', hget'⟩ := h'.placed e ((hsame e).1 he)
    rw [hw] at hw'
    cases hw'
    exact hget.trans hget'.symm
  · exact (h.others name hname).trans (h'.others name fun hmem => hname ((htops name).2 hmem)).symm

/-! ## Documents -/

theorem apply_object_eq_ok : fields.apply (.object m) = .ok out ↔
    ∃ computed m', values fields (.object m) = .ok computed ∧ write m computed = .ok m' ∧
      out = .object m' := by
  constructor
  · intro h
    obtain ⟨computed, hvalues, h⟩ := bind_eq_ok.1 h
    obtain ⟨m', hwrite, h⟩ := bind_eq_ok.1 h
    cases h
    exact ⟨computed, m', hvalues, hwrite, rfl⟩
  · rintro ⟨computed, m', hvalues, hwrite, rfl⟩
    exact bind_eq_ok.2 ⟨computed, hvalues, bind_eq_ok.2 ⟨m', hwrite, rfl⟩⟩

/-- No object in what comes out has two fields of one name. -/
theorem distinct_apply (hfields : ∀ f ∈ fields, f.2.KeepsDistinct) (hm : (Value.object m).Distinct)
    (h : fields.apply (.object m) = .ok out) : out.Distinct := by
  obtain ⟨computed, m', hvalues, hwrite, rfl⟩ := apply_object_eq_ok.1 h
  refine distinct_write hm (fun e he => ?_) hwrite
  obtain ⟨f, hf, -, hv⟩ := (mem_values hvalues).1 he
  exact hfields f hf _ hm e.2 hv

theorem nodup_tops_values (htops : (tops fields).Nodup) (h : values fields doc = .ok computed) :
    (tops computed).Nodup := by
  rw [tops_eq] at htops ⊢
  exact htops.sublist ((sublist_values h).map Segments.top)

/-- What fields that are assigned at once make of a document. -/
structure Assigns (fields : ComputedFields) (m m' : Fields Value) : Prop where
  /-- All fields are computed from the document that comes in. -/
  evaluated : ∀ f ∈ fields, ∃ r, f.2.eval? (.object m) = .ok r
  /-- Each path leads to what is computed for it. -/
  value : ∀ f ∈ fields, ∀ v, f.2.eval? (.object m) = .ok (some v) →
    Fields.getPath? m' f.1 = some v
  /-- A field that comes to nothing leaves its place alone. -/
  missing : ∀ f ∈ fields, f.2.eval? (.object m) = .ok none →
    get? m' (Segments.top f.1) = get? m (Segments.top f.1)
  others : ∀ name, name ∉ tops fields → get? m' name = get? m name

/-- **Fields are assigned at once**, if their paths start with different fields. -/
theorem assigns_apply (htops : (tops fields).Nodup)
    (h : fields.apply (.object m) = .ok (.object m')) : Assigns fields m m' := by
  obtain ⟨computed, m', hvalues, hwrite, ⟨⟩⟩ := apply_object_eq_ok.1 h
  have hplaced := placed_write (nodup_tops_values htops hvalues) hwrite
  refine ⟨exists_values_iff.1 ⟨computed, hvalues⟩, ?_, ?_, ?_⟩
  · intro f hf v hv
    obtain ⟨w, hset, hget⟩ := hplaced.placed (f.1, v) ((mem_values hvalues).2 ⟨f, hf, rfl, hv⟩)
    exact (Fields.getPath?_congr hget).trans (Fields.getPath?_setPath? hset)
  · intro f hf hnone
    refine hplaced.others _ fun hmem => ?_
    obtain ⟨e, he, htop⟩ := List.mem_map.1 hmem
    obtain ⟨g, hg, hpath, hv⟩ := (mem_values hvalues).1 he
    -- No other field has a path that starts like this one.
    obtain rfl : g = f := List.inj_on_of_nodup_map htops hg hf (by rw [hpath, htop])
    rw [hnone] at hv
    cases hv
  · intro name hname
    refine hplaced.others name fun hmem => hname ?_
    rw [tops_eq] at hmem ⊢
    exact ((sublist_values hvalues).map Segments.top).subset hmem

/-! ## Another order -/

theorem mem_values_perm (hperm : fields.Perm fields') (h : values fields doc = .ok computed)
    (h' : values fields' doc = .ok computed') (e : String × Value) :
    e ∈ computed ↔ e ∈ computed' := by
  rw [mem_values h, mem_values h']
  exact exists_congr fun f => and_congr_left fun _ => hperm.mem_iff

theorem exists_apply_of_perm (htops : (tops fields).Nodup) (hperm : fields.Perm fields')
    (h : ∃ out, fields.apply (.object m) = .ok out) :
    ∃ out, fields'.apply (.object m) = .ok out := by
  obtain ⟨out, h⟩ := h
  obtain ⟨computed, m', hvalues, hwrite, -⟩ := apply_object_eq_ok.1 h
  have hplaced := placed_write (nodup_tops_values htops hvalues) hwrite
  have htops' : (tops fields').Nodup := (hperm.map _).nodup_iff.1 htops
  obtain ⟨computed', hvalues'⟩ : ∃ computed', values fields' (.object m) = .ok computed' := by
    refine exists_values_iff.2 fun f hf => ?_
    exact exists_values_iff.1 ⟨computed, hvalues⟩ f (hperm.mem_iff.2 hf)
  obtain ⟨m'', hwrite'⟩ : ∃ m'', write m computed' = .ok m'' := by
    refine exists_write (nodup_tops_values htops' hvalues') fun e he => ?_
    obtain ⟨w, hset, -⟩ := hplaced.placed e ((mem_values_perm hperm hvalues hvalues' e).2 he)
    exact ⟨w, hset⟩
  exact ⟨_, apply_object_eq_ok.2 ⟨computed', m'', hvalues', hwrite', rfl⟩⟩

/-- Two documents with the same fields. -/
structure SameFields (out out' : Value) : Prop where
  perm : ∃ m m', out = .object m ∧ out' = .object m' ∧ m.Perm m'
  /-- They equal the same values. -/
  equal_same : ∀ v, Value.equal v out = Value.equal v out'
  /-- They equal each other iff no NaN stands in them, which would not even equal itself. -/
  equal_iff : Value.equal out out' = true ↔ ¬ out.HoldsNaN

theorem sameFields_of_perm (hm : (Value.object m).Distinct) (h : m.Perm m') :
    SameFields (.object m) (.object m') where
  perm := ⟨m, m', rfl, rfl, h⟩
  equal_same := (Value.shuffled_of_perm hm.1 h).equal_right
  equal_iff := by
    rw [← (Value.shuffled_of_perm hm.1 h).equal_right]
    exact Value.equal_self_iff hm

/-- **The order of the fields does not count**: a document comes through in every order or in none,
and with the same fields. -/
theorem agree_apply_of_perm (htops : (tops fields).Nodup) (hperm : fields.Perm fields')
    (hfields : ∀ f ∈ fields, f.2.KeepsDistinct) (hm : (Value.object m).Distinct) :
    Agree SameFields (fields.apply (.object m)) (fields'.apply (.object m)) := by
  have htops' : (tops fields').Nodup := (hperm.map _).nodup_iff.1 htops
  have hfields' : ∀ f ∈ fields', f.2.KeepsDistinct := fun f hf => hfields f (hperm.mem_iff.2 hf)
  cases h : fields.apply (.object m) with
  | error e =>
      cases h' : fields'.apply (.object m) with
      | error e' => exact .error e e'
      | ok out' =>
          obtain ⟨out, hout⟩ := exists_apply_of_perm htops' hperm.symm ⟨out', h'⟩
          rw [h] at hout
          cases hout
  | ok out =>
      obtain ⟨out', h'⟩ := exists_apply_of_perm htops hperm ⟨out, h⟩
      have hout : out.Distinct := distinct_apply hfields hm h
      have hout' : out'.Distinct := distinct_apply hfields' hm h'
      obtain ⟨computed, m₁, hvalues, hwrite, rfl⟩ := apply_object_eq_ok.1 h
      obtain ⟨computed', m₂, hvalues', hwrite', rfl⟩ := apply_object_eq_ok.1 h'
      have hplaced := placed_write (nodup_tops_values htops hvalues) hwrite
      have hplaced' := placed_write (nodup_tops_values htops' hvalues') hwrite'
      have hperm₁ : m₁.Perm m₂ := Fields.perm_of_get? hout.1 hout'.1
        (hplaced.get?_eq hplaced' (mem_values_perm hperm hvalues hvalues'))
      rw [h']
      exact .ok (sameFields_of_perm hout hperm₁)

/-! ## Reading -/

/-- The pipeline with nothing but a stage that computes fields. -/
def pipeline (specs : List (String × Json)) : Json :=
  .array [.object [("$addFields", .object specs)]]

/-- Each field has the path of an entry and the expression that is read there. -/
def ReadFrom (specs : List (String × Json)) (fields : ComputedFields) : Prop :=
  List.Forall₂ (fun s f => s.1 = f.1 ∧ Obtains (Expr.read s.2) f.2) specs fields

variable {specs specs' : List (String × Json)} {p p' : Pipeline}

theorem readFrom_of_obtains (h : Obtains (readFields specs) fields) : ReadFrom specs fields := by
  induction specs generalizing fields with
  | nil =>
      cases obtains_pure_iff.1 h
      exact .nil
  | cons s rest ih =>
      rw [readFields] at h
      split at h
      · obtain ⟨e, he, h⟩ := (compatible_steady.readExpr s.2).of_obtains_bind h
        obtain ⟨es, hes, h⟩ := (compatible_steady.readComputedFields rest).of_obtains_bind h
        cases obtains_pure_iff.1 h
        exact .cons ⟨rfl, he⟩ (ih hes)
      · exact absurd h not_obtains_fail

theorem read_pipeline {m : Type → Type} [Reading m] (specs : List (String × Json)) :
    (Pipeline.read (pipeline specs) : m Pipeline) = do
      let stage ← Reading.mapError (Pipeline.atStage 0) (do
        let s ← (do return Step.addFields (← ComputedFields.read (.object specs)) : m Step)
        return Stage.step s)
      let stages ← (pure [] : m Pipeline)
      return stage :: stages := by
  rw [pipeline, Pipeline.read, Pipeline.readStages, Pipeline.readStage, if_neg (by decide)]
  rfl

theorem exists_readFrom (h : Obtains (Pipeline.read (pipeline specs)) p) :
    ∃ fields, p = [.step (.addFields fields)] ∧ ReadFrom specs fields := by
  have hread := compatible_steady.readComputed (.object specs)
  have hstep := hread.bind fun fields => steady_pure (Step.addFields fields)
  have hstage := (hstep.bind fun s => steady_pure (Stage.step s)).mapError (Pipeline.atStage 0)
  rw [read_pipeline] at h
  obtain ⟨stage, h₀, h⟩ := hstage.of_obtains_bind h
  obtain ⟨stages, hnone, h⟩ := (steady_pure ([] : Pipeline)).of_obtains_bind h
  cases obtains_pure_iff.1 hnone
  cases obtains_pure_iff.1 h
  obtain ⟨s, hs, h₁⟩ := hstep.of_obtains_bind (obtains_mapError_iff.1 h₀)
  cases obtains_pure_iff.1 h₁
  obtain ⟨fields, hfields, h₂⟩ := hread.of_obtains_bind hs
  cases obtains_pure_iff.1 h₂
  refine ⟨fields, rfl, ?_⟩
  cases specs with
  | nil => exact absurd hfields not_obtains_fail
  | cons s rest => exact readFrom_of_obtains hfields

/-- Each field has the path of an entry and the expression that is read there with every cache. -/
def ReadAlways (specs : List (String × Json)) (fields : ComputedFields) : Prop :=
  List.Forall₂ (fun s f => s.1 = f.1 ∧ Segments.isFieldPath s.1 = true ∧
    Always (Expr.read s.2) f.2) specs fields

theorem always_readFields (h : ReadAlways specs fields) : Always (readFields specs) fields := by
  induction h with
  | nil => exact always_pure []
  | @cons s f rest fields head _ ih =>
      obtain ⟨path, j⟩ := s
      obtain ⟨_, e⟩ := f
      obtain ⟨rfl, hpath, he⟩ := head
      rw [readFields, if_pos hpath]
      exact he.bind (ih.bind (always_pure _))

theorem obtains_read_pipeline (hne : specs ≠ []) (h : ReadAlways specs fields) :
    Obtains (Pipeline.read (pipeline specs)) [.step (.addFields fields)] := by
  have hfields : Always (ComputedFields.read (.object specs)) fields := by
    cases specs with
    | nil => exact absurd rfl hne
    | cons s rest => exact always_readFields h
  have hstep : Always (do return Step.addFields (← ComputedFields.read (.object specs)))
      (Step.addFields fields) := hfields.bind (always_pure _)
  have hstage : Always (do
      let s ← (do return Step.addFields (← ComputedFields.read (.object specs)))
      return Stage.step s) (.step (.addFields fields)) := hstep.bind (always_pure _)
  have hnone : Always (pure []) ([] : Pipeline) := always_pure []
  rw [read_pipeline]
  exact ⟨.empty, .empty, congrArg Prod.fst
    (((hstage.mapError _).bind (hnone.bind (always_pure [Stage.step (.addFields fields)]))) .empty)⟩

theorem ReadFrom.keepsDistinct (h : ReadFrom specs fields) (hspecs : ∀ s ∈ specs, s.2.Distinct) :
    ∀ f ∈ fields, f.2.KeepsDistinct := by
  induction h with
  | nil => exact List.forall_mem_nil _
  | cons head _ ih =>
      obtain ⟨hs, hrest⟩ := List.forall_mem_cons.1 hspecs
      obtain ⟨cache, -, hread⟩ := head.2
      exact List.forall_mem_cons.2 ⟨Expr.gives_read _ hs cache _ hread, ih hrest⟩

theorem ReadFrom.tops_eq (h : ReadFrom specs fields) : tops fields = tops specs := by
  induction h with
  | nil => rfl
  | cons head _ ih => exact congrArg₂ List.cons (congrArg Segments.top head.1.symm) ih

/-- What is read does not depend on the order, or on what was cached. -/
theorem ReadFrom.perm (h : ReadFrom specs fields) (h' : ReadFrom specs' fields')
    (hperm : specs.Perm specs') : fields.Perm fields' := by
  obtain ⟨others, hothers, hfields⟩ := List.perm_comp_forall₂ hperm.symm h
  have hunique : Relator.RightUnique fun (s : String × Json) (f : String × Expr) =>
      s.1 = f.1 ∧ Obtains (Expr.read s.2) f.2 := by
    rintro s f g ⟨hpath, he⟩ ⟨hpath', he'⟩
    exact Prod.ext (hpath.symm.trans hpath')
      ((compatible_steady.readExpr s.2).obtains_unique he he')
  rw [hunique.forall₂ hothers h'] at hfields
  exact hfields.symm

/-- Fields are accepted one by one, if nothing is cached. -/
theorem exists_readFields_iff : (∃ fields, readFields specs = (.ok fields : Result _)) ↔
    ∀ s ∈ specs, Segments.isFieldPath s.1 = true ∧ ∃ e, Expr.read s.2 = (.ok e : Result _) := by
  induction specs with
  | nil => exact iff_of_true ⟨[], rfl⟩ (List.forall_mem_nil _)
  | cons s rest ih =>
      rw [List.forall_mem_cons, ← ih, readFields]
      split
      · rename_i hpath
        constructor
        · rintro ⟨fields, h⟩
          obtain ⟨e, he, h⟩ := bind_eq_ok.1 h
          obtain ⟨es, hes, -⟩ := bind_eq_ok.1 h
          exact ⟨⟨hpath, e, he⟩, es, hes⟩
        · rintro ⟨⟨-, e, he⟩, es, hes⟩
          exact ⟨_, bind_eq_ok.2 ⟨e, he, bind_eq_ok.2 ⟨es, hes, rfl⟩⟩⟩
      · rename_i hpath
        constructor
        · rintro ⟨fields, h⟩
          cases h
        · exact fun h => absurd h.1.1 hpath

theorem exists_read_pipeline_iff : (∃ p, Pipeline.read (pipeline specs) = (.ok p : Result _)) ↔
    ∃ fields, ComputedFields.read (.object specs) = (.ok fields : Result _) := by
  rw [read_pipeline, mapError_eq]
  cases ComputedFields.read (m := Except Error) (.object specs) with
  | error e =>
      constructor
      · rintro ⟨p, h⟩
        cases h
      · rintro ⟨fields, h⟩
        cases h
  | ok fields => exact iff_of_true ⟨_, rfl⟩ ⟨fields, rfl⟩

/-- A stage that is accepted with nothing cached is accepted in every order, whatever is cached. -/
theorem accepted_of_perm (h : ∃ p, Pipeline.read (pipeline specs) = (.ok p : Result _))
    (hperm : specs.Perm specs') {cache : PatternCache} (hcache : cache.Reached) :
    ∃ p, ((Pipeline.read (pipeline specs') : CachedReading Pipeline).run.run cache).1 = .ok p := by
  obtain ⟨fields, hfields⟩ := exists_read_pipeline_iff.1 h
  cases specs with
  | nil => cases hfields
  | cons s rest =>
      have heach := exists_readFields_iff.1 ⟨fields, hfields⟩
      cases specs' with
      | nil => cases hperm.length_eq
      | cons s' rest' =>
          obtain ⟨fields', hfields'⟩ := exists_readFields_iff.2 fun e he =>
            heach e (hperm.mem_iff.2 he)
          have hread' : ComputedFields.read (.object (s' :: rest')) = (.ok fields' : Result _) :=
            hfields'
          obtain ⟨p, hp⟩ := exists_read_pipeline_iff.2 ⟨fields', hread'⟩
          exact ⟨p, (Pipeline.steady_read _).total hcache hp⟩

/-- **A stage `$addFields` assigns at once.** Let a pipeline be read from such a stage, with
whatever patterns are cached, and let its paths start with different fields. Of each document that
comes through, the stage makes what `Assigns` says. If the fields are given in another order, the
same documents come through, with the same fields; and the other order is accepted too, unless the
first one needed a pattern from the cache. -/
theorem simultaneous_of_read (hread : Obtains (Pipeline.read (pipeline specs)) p)
    (hspecs : (pipeline specs).Distinct) (htops : (tops specs).Nodup)
    (hm : (Value.object m).Distinct) :
    ∃ fields, p = [.step (.addFields fields)] ∧ ReadFrom specs fields ∧
      (∀ out, fields.apply (.object m) = .ok out → ∃ m', out = .object m' ∧ Assigns fields m m') ∧
      ∀ specs', specs.Perm specs' →
        (∀ p', Obtains (Pipeline.read (pipeline specs')) p' →
          ∃ fields', p' = [.step (.addFields fields')] ∧ ReadFrom specs' fields' ∧
            Agree SameFields (fields.apply (.object m)) (fields'.apply (.object m))) ∧
        ((∃ q, Pipeline.read (pipeline specs) = (.ok q : Result _)) →
          ∀ cache : PatternCache, cache.Reached → ∃ p',
            ((Pipeline.read (pipeline specs') : CachedReading Pipeline).run.run cache).1 =
              .ok p') := by
  obtain ⟨fields, hp, hfields⟩ := exists_readFrom hread
  have htops' : (tops fields).Nodup := by rwa [hfields.tops_eq]
  have hkeeps : ∀ f ∈ fields, f.2.KeepsDistinct :=
    hfields.keepsDistinct (Json.distinctFields_iff.1 hspecs.1.2.1.2)
  refine ⟨fields, hp, hfields, fun out h => ?_, fun specs' hperm => ⟨fun p' hread' => ?_,
    fun haccepted _ hcache => accepted_of_perm haccepted hperm hcache⟩⟩
  · obtain ⟨computed, m', hvalues, hwrite, rfl⟩ := apply_object_eq_ok.1 h
    exact ⟨m', rfl, assigns_apply htops' h⟩
  · obtain ⟨fields', hp', hfields'⟩ := exists_readFrom hread'
    exact ⟨fields', hp', hfields',
      agree_apply_of_perm htops' (hfields.perm hfields' hperm) hkeeps hm⟩

/-- Two fields change their values, one is written into the array that it is read from, and one
comes to nothing. -/
def swap : List (String × Json) :=
  [("a", .string "$b"), ("b", .string "$a"), ("tags.1", .string "$tags.name"),
    ("owner.city", .string "$city")]

/-- The fields of `swap`. -/
def swapped : ComputedFields :=
  [("a", .field "b"), ("b", .field "a"), ("tags.1", .field "tags.name"),
    ("owner.city", .field "city")]

theorem readAlways_swap : ReadAlways swap swapped :=
  .cons ⟨rfl, by decide, Expr.always_read_text fun _ => rfl⟩ <|
    .cons ⟨rfl, by decide, Expr.always_read_text fun _ => rfl⟩ <|
      .cons ⟨rfl, by decide, Expr.always_read_text fun _ => rfl⟩ <|
        .cons ⟨rfl, by decide, Expr.always_read_text fun _ => rfl⟩ .nil

theorem simultaneous_of_read_swap :
    let d : Fields Value := [("_id", .int 1), ("a", .int 2), ("b", .null),
      ("tags", .array [.object [("name", .string "x")], .object [("name", .string "y")]]),
      ("owner", .string "Ann")]
    let d' : Fields Value := [("_id", .int 1), ("a", .null), ("b", .int 2),
      ("tags", .array [.object [("name", .string "x")], .array [.string "x", .string "y"]]),
      ("owner", .string "Ann")]
    Obtains (Pipeline.read (pipeline swap)) [.step (.addFields swapped)] ∧
      Obtains (Pipeline.read (pipeline swap.reverse)) [.step (.addFields swapped.reverse)] ∧
      (pipeline swap).Distinct ∧ (tops swap).Nodup ∧ (Value.object d).Distinct ∧
      swapped.apply (.object d) = .ok (.object d') ∧
      Assigns swapped d d' ∧
      Agree SameFields (swapped.apply (.object d)) (apply swapped.reverse (.object d)) := by
  intro d d'
  have hread : Obtains (Pipeline.read (pipeline swap)) [.step (.addFields swapped)] :=
    obtains_read_pipeline (List.cons_ne_nil _ _) readAlways_swap
  have hreversed : Obtains (Pipeline.read (pipeline swap.reverse))
      [.step (.addFields swapped.reverse)] :=
    obtains_read_pipeline (List.cons_ne_nil _ _) (List.rel_reverse readAlways_swap)
  have htops : (tops swap).Nodup := by decide
  have hswap : (pipeline swap).Distinct := by
    refine ⟨⟨List.nodup_singleton _, ⟨by decide, ?_⟩, trivial⟩, trivial⟩
    exact ⟨trivial, trivial, trivial, trivial, trivial⟩
  have hd : (Value.object d).Distinct := by
    refine ⟨by decide, trivial, trivial, trivial, ⟨?_, ?_, trivial⟩, trivial, trivial⟩
    · exact ⟨List.nodup_singleton _, trivial, trivial⟩
    · exact ⟨List.nodup_singleton _, trivial, trivial⟩
  have happly : swapped.apply (.object d) = .ok (.object d') := by cbv
  obtain ⟨fields, ⟨⟩, -, hassigns, horder⟩ := simultaneous_of_read hread hswap htops hd
  obtain ⟨_, ⟨⟩, hout⟩ := hassigns _ happly
  obtain ⟨hperm, -⟩ := horder _ swap.reverse_perm.symm
  obtain ⟨fields', ⟨⟩, -, hagree⟩ := hperm _ hreversed
  exact ⟨hread, hreversed, hswap, htops, hd, happly, hout, hagree⟩

/-- A double whose tenfold is beyond all of them. -/
def huge : Float := Float.ofBits 0x7FE1CCF385EBC8A0

/-- Ten times a double less ten times the double, and a number. -/
def difference (f : Float) : List (String × Json) :=
  let product : Json := .object [("$multiply", .array [.number (.double f), .number (.integer 10)])]
  [("a", .object [("$subtract", .array [product, product])]), ("b", .number (.integer 1))]

/-- The fields of `difference`. -/
def differences (f : Float) : ComputedFields :=
  let product : Expr := .multiply [.literal (.float f), .literal (.int 10)]
  [("a", .subtract product product), ("b", .literal (.int 1))]

theorem readAlways_difference (f : Float) : ReadAlways (difference f) (differences f) := by
  have hfactors : Always (Expr.readItems [.number (.double f), .number (.integer 10)])
      [.literal (.float f), .literal (.int 10)] :=
    Expr.always_readItems_cons (Expr.always_read_number _)
      (Expr.always_readItems_cons (Expr.always_read_number _) Expr.always_readItems_nil)
  have hproduct : Always (Expr.read (.object [("$multiply",
      .array [.number (.double f), .number (.integer 10)])]))
        (.multiply [.literal (.float f), .literal (.int 10)]) := by
    refine Expr.always_read_operator (by decide +kernel) ?_
    rw [Expr.readOperator, Expr.readArguments]
    exact hfactors.bind (always_pure _)
  have hpair := Expr.always_readItems_cons hproduct
    (Expr.always_readItems_cons hproduct Expr.always_readItems_nil)
  have ha : Segments.isFieldPath "a" = true := by decide
  have hb : Segments.isFieldPath "b" = true := by decide
  refine .cons ⟨rfl, ha, Expr.always_read_operator (by decide +kernel) ?_⟩
    (.cons ⟨rfl, hb, Expr.always_read_number _⟩ .nil)
  rw [Expr.readOperator, Expr.readExactly]
  exact hpair.bind ((always_pure _).bind (always_pure _))

theorem distinct_difference (f : Float) : (pipeline (difference f)).Distinct := by
  have hproduct : (Json.object [("$multiply",
      .array [.number (.double f), .number (.integer 10)])]).Distinct :=
    ⟨List.nodup_singleton _, ⟨trivial, trivial, trivial⟩, trivial⟩
  have hpair : (Json.object [("$subtract", .array [
      .object [("$multiply", .array [.number (.double f), .number (.integer 10)])],
      .object [("$multiply", .array [.number (.double f), .number (.integer 10)])]])]).Distinct :=
    ⟨List.nodup_singleton _, ⟨hproduct, hproduct, trivial⟩, trivial⟩
  have hnames : (keys (difference f)).Nodup := by simp [difference, keys]
  exact ⟨⟨List.nodup_singleton _, ⟨hnames, hpair, trivial, trivial⟩, trivial⟩, trivial⟩

/-- A NaN that is computed keeps what comes out from being equal to what comes out in another
order. -/
theorem not_equal_apply_nan :
    ∃ out out', Obtains (Pipeline.read (pipeline (difference huge)))
        [.step (.addFields (differences huge))] ∧
      Obtains (Pipeline.read (pipeline (difference huge).reverse))
        [.step (.addFields (differences huge).reverse)] ∧
      (pipeline (difference huge)).Distinct ∧ (tops (difference huge)).Nodup ∧
      (Value.object [("_id", .int 1)]).Distinct ∧
      (differences huge).apply (.object [("_id", .int 1)]) = .ok out ∧
      ComputedFields.apply (differences huge).reverse (.object [("_id", .int 1)]) = .ok out' ∧
      Value.equal out out' = false := by
  let nan : Value := .float (Float.ofBits 0x7FF8000000000000)
  have hread (f : Float) : Obtains (Pipeline.read (pipeline (difference f)))
      [.step (.addFields (differences f))] :=
    obtains_read_pipeline (List.cons_ne_nil _ _) (readAlways_difference f)
  have hreversed (f : Float) : Obtains (Pipeline.read (pipeline (difference f).reverse))
      [.step (.addFields (differences f).reverse)] :=
    obtains_read_pipeline (List.cons_ne_nil _ _) (List.rel_reverse (readAlways_difference f))
  have happly : (differences huge).apply (.object [("_id", .int 1)]) =
      .ok (.object [("_id", .int 1), ("a", nan), ("b", .int 1)]) := rfl
  have happly' : ComputedFields.apply (differences huge).reverse (.object [("_id", .int 1)]) =
      .ok (.object [("_id", .int 1), ("b", .int 1), ("a", nan)]) := rfl
  exact ⟨_, _, hread huge, hreversed huge, distinct_difference huge, by decide,
    ⟨List.nodup_singleton _, trivial, trivial⟩, happly, happly', by decide⟩

end ComputedFields

end DocStore
