import DocStore.Collection.Call
import DocStore.Proofs.Collection.Action
import DocStore.Proofs.Filter.Cached
import DocStore.Proofs.Pipeline.Project
import DocStore.Proofs.Pipeline.Run

/-!
# Searches as pipelines

The options of a search can be written as stages: `$sort`, `$skip`, `$limit` and `$project` behind
a `$match` with the filter. Both give the same documents, and the pipeline records no failure:
`Request.aggregate_pipeline_iff`. Since the filter is read again for the pipeline, a filter that is
let through by the cache of patterns alone may be refused the second time.
-/

set_option autoImplicit false

namespace DocStore

open DocStore.Action

/-! ## Options as stages -/

namespace FindOptions

/-- The options as stages, some of them absent. -/
def stages (o : FindOptions) : List (Option Json) :=
  [o.sort.map fun entries =>
      .object [("$sort", .object (entries.map fun e => (e.1, .ofInt e.2)))],
    o.skip.map fun n => .object [("$skip", .ofInt n)],
    o.limit.map fun n => .object [("$limit", .ofInt n)],
    o.projection.map fun j => .object [("$project", j)]]

/-- A search as a pipeline. -/
def pipeline (o : FindOptions) (filter : Json) : Json :=
  .array (.object [("$match", filter)] :: o.stages.reduceOption)

/-- Options that are accepted in both places. -/
structure Staged (o : FindOptions) : Prop where
  sort : ∀ entries, o.sort = some entries → entries ≠ [] ∧ ∀ e ∈ entries, e.2 = 1 ∨ e.2 = -1
  skip : ∀ n, o.skip = some n → n < UInt64.size
  limit : ∀ n, o.limit = some n → 0 < n ∧ n < UInt64.size
  projection : ∀ j, o.projection = some j →
    (∃ p, Projection.ofJson j = .ok p) ∧
      ∃ s, (ProjectStage.read j : Result ProjectStage) = .ok s
  maxTime : o.maxTime = none

end FindOptions

namespace Pipeline

open Run

/-! ### Sorting -/

/-- A direction is read from JSON as it is from options. -/
theorem exists_direction {n : Int} (h : n = 1 ∨ n = -1) :
    ∃ direction, SortDirection.ofInt? n = some direction ∧
      Binary64.isIntegral (Binary64.ofInt n) = true ∧
      Binary64.truncate (Binary64.ofInt n) = n := by
  rcases h with rfl | rfl
  · exact ⟨.ascending, rfl, rfl, rfl⟩
  · exact ⟨.descending, rfl, rfl, rfl⟩

theorem exists_sortKeys {entries : List (String × Int)} (h : ∀ e ∈ entries, e.2 = 1 ∨ e.2 = -1) :
    ∃ keys, FindOptions.sortKeys { sort := some entries } = .ok keys ∧
      Always (Step.readSortKeys (entries.map fun e => (e.1, .ofInt e.2))) keys := by
  induction entries with
  | nil => exact ⟨[], rfl, always_pure _⟩
  | cons e rest ih =>
      obtain ⟨path, n⟩ := e
      obtain ⟨hn, hrest⟩ := List.forall_mem_cons.1 h
      obtain ⟨keys, hkeys, hread⟩ := ih hrest
      obtain ⟨direction, hdirection, hintegral, htruncate⟩ := exists_direction hn
      have hflag : (if Binary64.isIntegral (Binary64.ofInt n) then
          SortDirection.ofInt? (Binary64.truncate (Binary64.ofInt n)) else none) =
          some direction := by
        rw [if_pos hintegral, htruncate, hdirection]
      refine ⟨{ path, direction } :: keys, ?_, ?_⟩
      · simp only [FindOptions.sortKeys, Option.getD_some] at hkeys ⊢
        rw [List.mapM_cons, hkeys, hdirection]
        rfl
      · exact (always_require hflag _).bind (hread.bind (always_pure _))

theorem mayCompute_sort {o : FindOptions} (h : o.Staged) :
    ∃ keys, o.sortKeys = .ok keys ∧
      MayCompute (o.sort.map fun entries =>
        .object [("$sort", .object (entries.map fun e => (e.1, .ofInt e.2)))])
        (SortKey.sort keys) := by
  cases hsort : o.sort with
  | none =>
      refine ⟨[], ?_, ?_⟩
      · rw [FindOptions.sortKeys, hsort]
        rfl
      · have hid : SortKey.sort [] = id := funext SortKey.sort_nil
        rw [hid]
        exact .absent
  | some entries =>
      obtain ⟨hne, hdirections⟩ := h.sort entries hsort
      obtain ⟨keys, hkeys, hread⟩ := exists_sortKeys hdirections
      refine ⟨keys, ?_, ?_⟩
      · rw [FindOptions.sortKeys, hsort]
        exact hkeys
      · obtain ⟨e, rest, rfl⟩ := List.exists_cons_of_ne_nil hne
        exact .present (s := .sort keys) (by decide) rfl (hread.bind (always_pure _))
          fun _ docs => clean_ok (SortKey.sort keys docs)

/-! ### Cutting -/

theorem toUInt64?_ofInt {n : Nat} (h : n < UInt64.size) : (Json.ofInt n).toUInt64? = some n := by
  have hrange : (0 : Int) ≤ n ∧ (n : Int).toNat < UInt64.size := ⟨Int.natCast_nonneg n, h⟩
  rw [Json.ofInt, Json.toUInt64?, Json.Number.toUInt64?, if_pos hrange, Int.toNat_natCast]

theorem mayCompute_skip {o : FindOptions} (h : o.Staged) :
    MayCompute (o.skip.map fun n => .object [("$skip", .ofInt n)])
      (List.drop (o.skip.getD 0)) := by
  cases hskip : o.skip with
  | none => exact .absent
  | some n =>
      have hread := always_require (toUInt64?_ofInt (h.skip n hskip)) (StageFault.toError .skip)
      exact .present (s := .skip n) (by decide) rfl (hread.bind (always_pure _))
        fun _ docs => clean_ok (docs.drop n)

/-- What is left of documents by a limit. -/
def limited (limit : Option Nat) (docs : List Value) : List Value :=
  match limit with
  | none => docs
  | some n => docs.take n

theorem mayCompute_limit {o : FindOptions} (h : o.Staged) :
    MayCompute (o.limit.map fun n => .object [("$limit", .ofInt n)]) (limited o.limit) := by
  cases hlimit : o.limit with
  | none => exact .absent
  | some n =>
      obtain ⟨hpos, hlt⟩ := h.limit n hlimit
      have hread : (Json.ofInt n).toUInt64?.filter (0 < ·) = some n := by
        rw [toUInt64?_ofInt hlt, Option.filter_some, if_pos (decide_eq_true hpos)]
      exact .present (s := .limit n) (by decide) rfl
        ((always_require hread _).bind (always_pure _)) fun _ docs => clean_ok (docs.take n)

/-! ### Projecting -/

/-- Documents as a projection gives them, if there is one. -/
def projected (projection : Option Projection) (docs : List Value) : List Value :=
  match projection with
  | none => docs
  | some p => docs.map p.apply

theorem mayCompute_project {o : FindOptions} (h : o.Staged) :
    ∃ projection, o.parsedProjection = .ok projection ∧
      MayCompute (o.projection.map fun j => .object [("$project", j)]) (projected projection) := by
  cases hprojection : o.projection with
  | none =>
      refine ⟨none, ?_, .absent⟩
      rw [FindOptions.parsedProjection, hprojection]
  | some j =>
      obtain ⟨⟨p, hp⟩, s, hs⟩ := h.projection j hprojection
      obtain ⟨hagrees, hread⟩ := ProjectStage.agrees_of_read hp hs
      refine ⟨some p, ?_, ?_⟩
      · rw [FindOptions.parsedProjection, hprojection]
        exact congrArg (Except.map some) hp
      · refine .present (s := .project s) (by decide) rfl (hread.bind (always_pure _))
          fun index docs => ?_
        have hall : docs.map s.apply = (docs.map p.apply).map .ok := by
          rw [List.map_map]
          exact List.map_congr_left fun v _ => hagrees v
        change (keepAll index "$project" (docs.map s.apply)).Clean (docs.map p.apply)
        rw [hall]
        exact clean_keepAll index "$project" _

/-- **The stages of a search arrange documents as the search does.** -/
theorem computes_stages {o : FindOptions} (h : o.Staged) :
    ∃ keys projection, o.sortKeys = .ok keys ∧ o.parsedProjection = .ok projection ∧
      Computes o.stages.reduceOption (Collection.arrange keys projection o) := by
  obtain ⟨keys, hkeys, hsort⟩ := mayCompute_sort h
  obtain ⟨projection, hprojection, hproject⟩ := mayCompute_project h
  refine ⟨keys, projection, hkeys, hprojection, ?_⟩
  have hall := computes_reduceOption (.cons hsort (.cons (mayCompute_skip h)
    (.cons (mayCompute_limit h) (.cons hproject .nil))))
  have harrange : Collection.arrange keys projection o = fun docs =>
      [SortKey.sort keys, List.drop (o.skip.getD 0), limited o.limit,
        projected projection].foldl (fun docs g => g docs) docs := by
    funext docs
    cases projection <;> rfl
  rw [harrange]
  exact hall

end Pipeline

/-! ## Running pipelines on collections -/

namespace Collection

theorem yields_aggregate {p : Pipeline} {c : Collection} {out : List Value}
    (h : (p.run (c.documents.map Document.toValue)).Clean out) :
    Yields (aggregate p) c (.ok (out, [])) c := by
  refine (yields_current c).bind ((yields_logAbout _ _ _ c).bind ((yields_logAll _ c).bind
    ((yields_ofResult h.result c).bind ?_)))
  simp only [h.failures, List.isEmpty_nil]
  exact yields_pure _ c

/-- The stage `$match` keeps the documents that a search finds. -/
theorem filter_isMatch (c : Collection) (f : Filter) :
    (c.documents.map Document.toValue).filter f.isMatch = (c.found f).map Document.toValue := by
  rw [List.filter_map]
  rfl

end Collection

namespace Request

/-- A filter that is accepted with what is in the cache. -/
def Accepts (cache : PatternCache) (filter : Json) : Prop :=
  ∃ f, ((Filter.read filter : CachedReading Filter).run.run cache).1 = .ok f

/-- The step of a `$match` stage is the filter. -/
theorem read?_match (filter : Json) :
    Step.read? (m := CachedReading) "$match" filter = some do
      return .filter (← Reading.mapError (.config <| .matchFilter ·) (Filter.read filter)) := rfl

/-- What a pipeline gives whose filter is accepted. -/
theorem answer_aggregate {filter : Json} {f : Filter} {js : List Json}
    {g : List Value → List Value} {cache cache' : PatternCache}
    (hread : (Filter.read filter : CachedReading Filter).run.run cache = (.ok f, cache'))
    (h : Pipeline.Computes js g) (c : Collection) :
    answer (aggregate (.array (.object [("$match", filter)] :: js))) cache c =
      .ok (g ((c.found f).map Document.toValue), []) := by
  obtain ⟨stages, hreads, hruns⟩ := h
  have hmatch : (Pipeline.readStage (.object [("$match", filter)]) :
      CachedReading Stage).run.run cache = (.ok (.step (.filter f)), cache') := by
    rw [Pipeline.readStage_step (by decide) (read?_match filter)]
    exact run_bind_of_eq (run_bind_of_eq (run_mapError_of_eq hread _))
  have hpipeline : (Pipeline.read (.array (.object [("$match", filter)] :: js)) :
      CachedReading Pipeline).run.run cache = (.ok (.step (.filter f) :: stages), cache') :=
    Pipeline.run_readStages_cons hmatch (hreads 1 cache')
  have hrun : ((aggregate (.array (.object [("$match", filter)] :: js))).run.run cache).1 =
      .ok (Collection.aggregate (.step (.filter f) :: stages)) := by
    rw [aggregate, run_bind_of_eq hpipeline]
    rfl
  have hclean : (Pipeline.run (.step (.filter f) :: stages)
      (c.documents.map Document.toValue)).Clean (g ((c.found f).map Document.toValue)) := by
    rw [← Collection.filter_isMatch]
    exact Pipeline.clean_runFrom_cons (Run.clean_ok _) (hruns 1 _)
  unfold answer
  rw [hrun]
  exact congrArg Prod.fst (Collection.yields_aggregate hclean).outcome

/-- A pipeline gives something only if its filter is accepted. -/
theorem accepts_of_answer_aggregate {filter : Json} {js : List Json} {cache : PatternCache}
    {c : Collection} {out : List Value × List StageFailure}
    (h : answer (aggregate (.array (.object [("$match", filter)] :: js))) cache c = .ok out) :
    Accepts cache filter := by
  unfold answer at h
  split at h
  · cases h
  · rename_i action haction
    obtain ⟨p, hp, -⟩ := run_bind_eq_ok.1 haction
    obtain ⟨stage, hstage, -⟩ := run_bind_eq_ok.1 hp
    have hstage := run_eq_ok_of_mapError hstage
    rw [Pipeline.readStage_step (by decide) (read?_match filter)] at hstage
    obtain ⟨step, hstep, -⟩ := run_bind_eq_ok.1 hstage
    obtain ⟨f, hf, -⟩ := run_bind_eq_ok.1 hstep
    exact ⟨f, run_eq_ok_of_mapError hf⟩

/-- **Searches and pipelines agree.** On every collection, with every two caches that compiling
patterns leads to: a search that is accepted gives documents, and the pipeline of the same filter
and options gives exactly these in the same order, with no failure recorded, iff it accepts the
filter too. It does so if the filter is accepted without a cache. -/
theorem aggregate_pipeline_iff (c : Collection) {cache cache' : PatternCache}
    (hcache : cache.Reached) (hcache' : cache'.Reached) {filter : Json} {o : FindOptions}
    (ho : o.Staged) (hfilter : Accepts cache filter) :
    ∃ docs, answer (find filter o) cache c = .ok docs ∧
      (answer (aggregate (o.pipeline filter)) cache' c = .ok (docs, []) ↔
        Accepts cache' filter) ∧
      ((∃ f, Filter.ofJson filter = .ok f) → Accepts cache' filter) := by
  obtain ⟨f, hf⟩ := hfilter
  obtain ⟨keys, projection, hkeys, hprojection, hstages⟩ := Pipeline.computes_stages ho
  have htime : o.maxTime ≠ some 0 := by simp [ho.maxTime]
  refine ⟨_, answer_find (Prod.ext hf rfl) hkeys hprojection htime c,
    ⟨accepts_of_answer_aggregate, ?_⟩, ?_⟩
  · rintro ⟨g, hg⟩
    obtain rfl := (Filter.steady_read filter).unique hcache hcache' hf hg
    exact answer_aggregate (Prod.ext hg rfl) hstages c
  · rintro ⟨g, hg⟩
    exact ⟨g, (Filter.steady_read filter).total hcache' hg⟩

theorem aggregate_pipeline_iff_pets :
    answer (aggregate (FindOptions.pipeline
        { sort := some [("age", -1)], skip := some 1, limit := some 1
          projection := some (.object [("_id", .bool false), ("name", .bool true)]) }
        (.object [("age", .object [("$lte", .number (.integer 9))])]))) .empty
      (Call.runAll (.empty "pets" none {} (.sequential 0)) [(.insertMany [
        .object [("name", .string "Rex"), ("age", .number (.integer 3))],
        .object [("name", .string "Tom"), ("age", .number (.integer 12))],
        .object [("name", .string "Kit"), ("age", .number (.integer 7))]], .empty)]) =
      .ok ([.object [("name", .string "Rex")]], []) := by
  have hstaged : FindOptions.Staged
      { sort := some [("age", -1)], skip := some 1, limit := some 1
        projection := some (.object [("_id", .bool false), ("name", .bool true)]) } := by
    refine ⟨?_, ?_, ?_, ?_, rfl⟩
    · rintro _ ⟨⟩
      exact ⟨by decide, by decide⟩
    · rintro _ ⟨⟩
      decide
    · rintro _ ⟨⟩
      decide
    · rintro _ ⟨⟩
      exact ⟨⟨_, rfl⟩, ⟨_, rfl⟩⟩
  have haccepted : Accepts .empty (.object [("age", .object [("$lte", .number (.integer 9))])]) :=
    ⟨_, rfl⟩
  obtain ⟨docs, hfind, hiff, hown⟩ := aggregate_pipeline_iff
    (Call.runAll (.empty "pets" none {} (.sequential 0)) [(.insertMany [
      .object [("name", .string "Rex"), ("age", .number (.integer 3))],
      .object [("name", .string "Tom"), ("age", .number (.integer 12))],
      .object [("name", .string "Kit"), ("age", .number (.integer 7))]], .empty)])
    .empty .empty hstaged haccepted
  rw [hiff.2 (hown ⟨_, rfl⟩)]
  cases hfind
  rfl

/-! ### A filter that is let through once -/

/-- The collection with one document, whose text is `:x`. -/
def marked : Collection :=
  Call.runAll (.empty "pets" none {} (.sequential 0))
    [(.insertOne (.object [("_id", .number (.integer 1)), ("a", .string ":x")]), .empty)]

/-- A filter that asks for the source `:x` with the option `s`. -/
def plain : Json := .object [("a", .object [("$regex", .string ":x"), ("$options", .string "s")])]

/-- The sources of as many patterns as a cache holds. -/
def fillers : List String := (List.range PatternCache.capacity).map fun n => "p" ++ n.repr

/-- A filter that asks for the source `x` with the options `s:`, and for other patterns after it. -/
def colliding : Json :=
  .object [("a", .object [("$regex", .string "x"), ("$options", .string "s:")]),
    ("$or", .array (fillers.map (Filter.matching "a") ++
      [.object [("_id", .number (.integer 1))]]))]

/-- The cache of patterns that a request leaves behind. -/
def cacheAfter {α : Type} (request : CachedReading (Action α)) (cache : PatternCache) :
    PatternCache :=
  (request.run.run cache).2

theorem exists_compileRegex_fillers :
    ∀ source ∈ fillers, ∃ regex, Pattern.compileRegex source "" = .ok regex := by
  have hall : fillers.all (fun source => (Pattern.compileRegex source "").isOk) = true := by
    decide +kernel
  intro source hsource
  have hok := List.all_eq_true.1 hall source hsource
  cases hregex : Pattern.compileRegex source "" with
  | ok regex => exact ⟨regex, rfl⟩
  | error e =>
      rw [hregex] at hok
      cases hok

theorem nodup_key_fillers : (fillers.map fun source => PatternCache.key source "").Nodup := by
  rw [fillers, List.map_map]
  refine List.nodup_range.map_on fun m _ n _ h => ?_
  have hplain : ':' ∉ "".toList := by simp
  have hsource := congrArg String.toList (PatternCache.key_inj hplain hplain h).1
  have hdigits : Nat.toDigits 10 m = Nat.toDigits 10 n := by simpa using hsource
  have hread := congrArg (Nat.ofDigitChars 10 · 0) hdigits
  rwa [Nat.ofDigitChars_ten_toDigits, Nat.ofDigitChars_ten_toDigits] at hread

/-- Both patterns have the same key. -/
theorem key_colliding : PatternCache.key "x" "s:" = PatternCache.key ":x" "s" := rfl

/-- The clause of a pattern for the field `a`. -/
theorem readClause_a (source options : String) :
    (Filter.readClause "a" (.object [("$regex", .string source), ("$options", .string options)]) :
      CachedReading (List Filter)) = do
        return [.field "a" (.regex (← Reading.pattern source options))] :=
  Filter.readClause_pattern rfl (by decide +kernel) (by decide +kernel) source options

/-- With the key in the cache the filter is read, and the other patterns come after it. -/
theorem exists_run_read_colliding {cache : PatternCache} {regex : Regex}
    (h : cache.entries.lookup (PatternCache.key "x" "s:") = some regex) :
    ∃ fs, (Filter.read colliding : CachedReading Filter).run.run cache =
      (.ok (.and [.field "a" (.regex { source := "x", options := "s:", regex }),
        .or (fs ++ [.field "_id" (.eq (.int 1))])]),
        (cache.compile "x" "s:").2.compileFrom (fillers.map fun source => (source, ""))) := by
  have hfirst : (Filter.readClause "a"
      (.object [("$regex", .string "x"), ("$options", .string "s:")]) :
        CachedReading (List Filter)).run.run cache =
      (.ok [.field "a" (.regex { source := "x", options := "s:", regex })],
        (cache.compile "x" "s:").2) := by
    have hcompile := PatternCache.compile_of_lookup h
    rw [readClause_a, hcompile]
    exact run_bind_of_eq hcompile
  have hid : Always (Filter.readItems [.object [("_id", .number (.integer 1))]])
      [.field "_id" (.eq (.int 1))] := fun _ => rfl
  have hpath : Segments.isPath "a" = true := by decide +kernel
  obtain ⟨fs, hfs⟩ := Filter.run_readItems_matching rfl hpath (by decide +kernel)
    exists_compileRegex_fillers hid (cache.compile "x" "s:").2
  refine ⟨fs, ?_⟩
  rw [colliding, Filter.read, Filter.readFields, Filter.readFields, Filter.readClause_or (by simp)]
  simp only [bind_assoc, pure_bind]
  rw [run_bind_of_eq hfirst, run_bind_of_eq hfs]
  rfl

/-- Without the key in the cache it is refused. -/
theorem not_accepts_colliding {cache : PatternCache}
    (h : cache.entries.lookup (PatternCache.key "x" "s:") = none) : ¬ Accepts cache colliding := by
  rintro ⟨f, hf⟩
  obtain ⟨fs, hfs, -⟩ := run_bind_eq_ok.1 hf
  obtain ⟨now, hnow, -⟩ := run_bind_eq_ok.1 hfs
  rw [readClause_a] at hnow
  obtain ⟨p, hp, -⟩ := run_bind_eq_ok.1 hnow
  have hcompile : (cache.compile "x" "s:").1 = .ok p := hp
  rw [PatternCache.compile_of_lookup_none h] at hcompile
  cases hcompile

/-- The other patterns push the key out of a cache. -/
theorem lookup_compileFrom_fillers {cache : PatternCache} (h : cache.Reached) :
    (cache.compileFrom (fillers.map fun source => (source, ""))).entries.lookup
      (PatternCache.key "x" "s:") = none := by
  have hcompiles : ∀ p ∈ fillers.map fun source => (source, ""),
      ∃ regex, Pattern.compileRegex p.1 p.2 = .ok regex :=
    List.forall_mem_map.2 exists_compileRegex_fillers
  have hnodup : ((fillers.map fun source => (source, "")).map fun p =>
      PatternCache.key p.1 p.2).Nodup := by
    rw [List.map_map]
    exact nodup_key_fillers
  have hlength : PatternCache.capacity ≤ (fillers.map fun source => (source, "")).length := by
    simp [fillers]
  have hkeys := h.keys_compileFrom hcompiles hnodup hlength
  refine List.lookup_eq_none_iff.2 fun e he => bne_iff_ne.2 fun heq => ?_
  have hmem : e.1 ∈ (cache.compileFrom (fillers.map fun source => (source, ""))).keys :=
    List.mem_map_of_mem he
  rw [hkeys, ← heq] at hmem
  have hmem := List.mem_reverse.1 (List.mem_of_mem_take hmem)
  rw [List.map_map] at hmem
  obtain ⟨source, -, hkey⟩ := List.mem_map.1 hmem
  have hcolon := congrArg (fun k : String => k.toList.head?) hkey
  simp [PatternCache.key] at hcolon

theorem cacheAfter_find (filter : Json) (o : FindOptions) (cache : PatternCache) :
    cacheAfter (find filter o) cache =
      ((Filter.read filter : CachedReading Filter).run.run cache).2 := by
  rw [cacheAfter, find, ExceptT.run_bind, StateT.run_bind]
  rcases (Filter.read filter : CachedReading Filter).run.run cache with ⟨r, cache'⟩
  cases r <;> rfl

theorem reached_cacheAfter_find {cache : PatternCache} (h : cache.Reached) (filter : Json)
    (o : FindOptions) : (cacheAfter (find filter o) cache).Reached := by
  rw [cacheAfter_find]
  exact (Filter.steady_read filter).reached h

/-- The first search puts an expression into the cache that matches the text. -/
theorem exists_lookup_plain : ∃ regex : Regex, regex.isMatch ":x" = true ∧
    (cacheAfter (find plain {}) .empty).entries.lookup (PatternCache.key "x" "s:") =
      some regex := by
  have hmatches : (Pattern.compileRegex ":x" "s").toOption.any (·.isMatch ":x") = true := by
    decide +kernel
  cases hregex : Pattern.compileRegex ":x" "s" with
  | error e =>
      rw [hregex] at hmatches
      cases hmatches
  | ok regex =>
      rw [hregex] at hmatches
      refine ⟨regex, hmatches, ?_⟩
      have hcompile : PatternCache.empty.compile ":x" "s" =
          (.ok { source := ":x", options := "s", regex },
            PatternCache.empty.touch (PatternCache.key ":x" "s") regex) :=
        PatternCache.compile_of_compileRegex rfl hregex
      have hread : (Filter.read plain : CachedReading Filter).run.run .empty =
          (.ok (.field "a" (.regex { source := ":x", options := "s", regex })),
            PatternCache.empty.touch (PatternCache.key ":x" "s") regex) := by
        rw [plain, Filter.read, Filter.readFields, readClause_a]
        simp only [bind_assoc, pure_bind]
        exact run_bind_of_eq hcompile
      rw [cacheAfter_find, hread, key_colliding]
      simp [PatternCache.touch, PatternCache.capacity, PatternCache.empty]

/-- What the filter is read as holds of the document. -/
theorem isMatch_colliding {p : Pattern} (h : p.isMatch ":x" = true) (fs : List Filter) :
    (Filter.and [.field "a" (.regex p), .or (fs ++ [.field "_id" (.eq (.int 1))])]).isMatch
      (.object [("_id", .int 1), ("a", .string ":x")]) = true := by
  have hid : Filter.holds [("_id", .int 1), ("a", .string ":x")] (.field "_id" (.eq (.int 1))) =
      true := by decide +kernel
  have ha : Filter.holds [("_id", .int 1), ("a", .string ":x")] (.field "a" (.regex p)) = true := by
    have hterminals : Value.fieldTerminals [("_id", .int 1), ("a", .string ":x")] "a" =
        [.string ":x"] := by rfl
    simp [Filter.holds, hterminals, Condition.holds, Condition.anyCandidate, Condition.candidates,
      Value.string?, h]
  have hor : Filter.holds [("_id", .int 1), ("a", .string ":x")]
      (.or (fs ++ [.field "_id" (.eq (.int 1))])) = true := by
    rw [Filter.holds, Filter.holdsAny_eq_any, List.any_append, List.any_cons, hid, Bool.true_or,
      Bool.or_true]
  rw [Filter.isMatch, Filter.holds, Filter.holdsAll, Filter.holdsAll, Filter.holdsAll, ha, hor]
  rfl

/-- Options with a colon are refused, but the key of the source `x` with the options `s:` is that of
the source `:x` with the option `s`. As long as this one is in the cache, a search lets the filter
through, and its other patterns push the key out of the cache, so that a pipeline refuses the
filter. -/
theorem not_aggregate_pipeline_cached :
    (cacheAfter (find plain {}) .empty).Reached ∧
    (cacheAfter (find colliding {}) (cacheAfter (find plain {}) .empty)).Reached ∧
    answer (find colliding {}) (cacheAfter (find plain {}) .empty) marked =
      .ok [.object [("_id", .int 1), ("a", .string ":x")]] ∧
    ∀ out, answer (aggregate (FindOptions.pipeline {} colliding))
      (cacheAfter (find colliding {}) (cacheAfter (find plain {}) .empty)) marked ≠ .ok out := by
  have hfirst := reached_cacheAfter_find .empty plain {}
  obtain ⟨regex, hmatches, hlookup⟩ := exists_lookup_plain
  obtain ⟨fs, hread⟩ := exists_run_read_colliding hlookup
  refine ⟨hfirst, reached_cacheAfter_find hfirst colliding {}, ?_, fun out hout => ?_⟩
  · have hkeys : FindOptions.sortKeys {} = .ok [] := rfl
    have hdocuments : marked.documents.map Document.toValue =
        [.object [("_id", .int 1), ("a", .string ":x")]] := rfl
    rw [answer_find (o := {}) hread hkeys rfl (by simp), ← Collection.filter_isMatch, hdocuments,
      List.filter_cons_of_pos (isMatch_colliding (p := { source := "x", options := "s:", regex })
        hmatches fs)]
    rfl
  · have haccepts : Accepts (cacheAfter (find colliding {}) (cacheAfter (find plain {}) .empty))
        colliding := accepts_of_answer_aggregate hout
    rw [cacheAfter_find colliding, hread] at haccepts
    dsimp only at haccepts
    exact not_accepts_colliding (lookup_compileFrom_fillers (hfirst.compile "x" "s:")) haccepts

end Request

end DocStore
