import DocStore.Proofs.Pipeline.Project
import DocStore.Proofs.Query.Part

/-!
# What a projection keeps

Paths are kept one after another: the part of each is merged into what was kept before. So what is
kept of a path stays as it is, until a later path takes along an array that both go through. That is
all that gets lost: `Projection.terminals_kept_iff`.
-/

set_option autoImplicit false

namespace DocStore

open Segments (Apart Names)

/-- Paths of names, none of which begins another. -/
structure Segments.Separate (paths : List String) : Prop where
  names : ∀ p ∈ paths, Names (ofPath p)
  apart : paths.Pairwise fun p q => Apart (ofPath p) (ofPath q)

theorem Segments.separate_cons {path : String} {paths : List String} : Separate (path :: paths) ↔
    Names (ofPath path) ∧ (∀ p ∈ paths, Apart (ofPath path) (ofPath p)) ∧ Separate paths := by
  constructor
  · intro h
    obtain ⟨hpath, hnames⟩ := List.forall_mem_cons.1 h.names
    obtain ⟨hapart, hpairs⟩ := List.pairwise_cons.1 h.apart
    exact ⟨hpath, hapart, hnames, hpairs⟩
  · rintro ⟨hpath, hapart, hpaths⟩
    exact ⟨List.forall_mem_cons.2 ⟨hpath, hpaths.names⟩,
      List.pairwise_cons.2 ⟨hapart, hpaths.apart⟩⟩

theorem Segments.Separate.filter {paths : List String} (h : Separate paths) (f : String → Bool) :
    Separate (paths.filter f) :=
  ⟨fun p hp => h.names p (List.mem_filter.1 hp).1, h.apart.filter f⟩

open Segments (Separate separate_cons)

namespace Projection

open Value (reach terminals SharesArray)

variable {d out : Fields Value} {path : String} {paths : List String}

/-! ## One path -/

/-- What was kept so far of a document, with paths to come: objects where the document has them,
and nothing of each path or all of it. -/
structure Growing (d out : Fields Value) (paths : List String) : Prop where
  follows : Follows (.object out) (.object d)
  ready : ∀ p ∈ paths, terminals (.object out) p = [] ∨
    terminals (.object out) p = terminals (.object d) p

/-- Keeping a path merges its part, if there is one. -/
theorem keepPaths_singleton (d out : Fields Value) (path : String) :
    partAlong (Segments.ofPath path) (.object d) = none ∧ keepPaths d out [path] = out ∨
      ∃ u, partAlong (Segments.ofPath path) (.object d) = some u ∧
        .object (keepPaths d out [path]) = mergeValue (some (.object out)) u := by
  obtain ⟨rest, hrest⟩ := Fields.ofPath_eq_top_cons path
  have hkept : kept? d path =
      (Fields.get? d (Segments.top path)).bind (partAlong rest) := by
    rw [kept?, hrest]
  have hpart : partAlong (Segments.ofPath path) (.object d) =
      (kept? d path).map fun v => .object [(Segments.top path, v)] := by
    rw [hkept, hrest, partAlong, part]
  rw [hpart]
  cases hv : kept? d path with
  | none => exact .inl ⟨rfl, by rw [keepPaths, List.foldl_cons, hv, List.foldl_nil]⟩
  | some v =>
      refine .inr ⟨_, rfl, ?_⟩
      rw [keepPaths, List.foldl_cons, hv, List.foldl_nil, mergeValue, mergeFields, mergeFields]
      rfl

/-- **Keeping a path** reaches what the document reaches there, and leaves objects where the
document has them. -/
theorem Growing.terminals_self (h : Growing d out (path :: paths)) (hd : (Value.object d).Distinct)
    (hpath : Names (Segments.ofPath path)) :
    terminals (.object (keepPaths d out [path])) path = terminals (.object d) path ∧
      Follows (.object (keepPaths d out [path])) (.object d) := by
  have hready := h.ready path List.mem_cons_self
  rcases keepPaths_singleton d out path with ⟨hnone, hsame⟩ | ⟨u, hu, hmerge⟩
  · have hnothing : terminals (.object d) path = [] := by
      rw [terminals, ← reach_partAlong hpath, hnone]
      rfl
    rw [hsame]
    rw [hnothing] at hready ⊢
    exact ⟨hready.elim id id, h.follows⟩
  · rw [hmerge]
    refine reach_mergeValue hpath hd (fun _ hw => Option.some.inj hw ▸ h.follows) hu ?_
    simpa [terminals] using hready

/-- **Keeping a path** changes nothing at paths that lie apart, unless they share an array. -/
theorem Growing.terminals_of_apart (h : Growing d out paths) {t : String}
    (ht : Names (Segments.ofPath t)) (hapart : Apart (Segments.ofPath path) (Segments.ofPath t)) :
    (SharesArray (Segments.ofPath path) (Segments.ofPath t) (.object d) →
      terminals (.object (keepPaths d out [path])) t = []) ∧
    (¬ SharesArray (Segments.ofPath path) (Segments.ofPath t) (.object d) →
      terminals (.object (keepPaths d out [path])) t = terminals (.object out) t) := by
  rcases keepPaths_singleton d out path with ⟨hnone, hsame⟩ | ⟨u, hu, hmerge⟩
  · refine ⟨?_, fun _ => by rw [hsame]⟩
    rintro ⟨c, items, hpart, -, hdescend⟩
    obtain ⟨u, hu⟩ := exists_partAlong hdescend hpart
    exact absurd (hnone.symm.trans hu) nofun
  · rw [hmerge]
    have hmerged := reach_mergeValue_of_apart ht hapart
      (fun _ hw => Option.some.inj hw ▸ h.follows) hu
    simpa [terminals] using hmerged

/-- Keeping a path leaves the paths to come as ready as they were. -/
theorem Growing.next (h : Growing d out (path :: paths)) (hd : (Value.object d).Distinct)
    (hpaths : Separate (path :: paths)) : Growing d (keepPaths d out [path]) paths := by
  obtain ⟨hpath, hapart, hrest⟩ := separate_cons.1 hpaths
  refine ⟨(h.terminals_self hd hpath).2, fun p hp => ?_⟩
  obtain ⟨hlost, hsame⟩ := h.terminals_of_apart (hrest.names p hp) (hapart p hp)
  by_cases hshares : SharesArray (Segments.ofPath path) (Segments.ofPath p) (.object d)
  · exact .inl (hlost hshares)
  · rw [hsame hshares]
    exact h.ready p (List.mem_cons_of_mem _ hp)

/-! ## Paths in turn -/

theorem keepPaths_cons (d out : Fields Value) (path : String) (paths : List String) :
    keepPaths d out (path :: paths) = keepPaths d (keepPaths d out [path]) paths := rfl

/-- Keeping paths changes nothing at paths that lie apart, unless one of them shares an array. -/
theorem Growing.terminals_keepPaths_of_apart (h : Growing d out paths)
    (hd : (Value.object d).Distinct) (hpaths : Separate paths) {t : String}
    (ht : Names (Segments.ofPath t))
    (hapart : ∀ p ∈ paths, Apart (Segments.ofPath p) (Segments.ofPath t)) :
    ((∃ p ∈ paths, SharesArray (Segments.ofPath p) (Segments.ofPath t) (.object d)) →
      terminals (.object (keepPaths d out paths)) t = []) ∧
    ((∀ p ∈ paths, ¬ SharesArray (Segments.ofPath p) (Segments.ofPath t) (.object d)) →
      terminals (.object (keepPaths d out paths)) t = terminals (.object out) t) := by
  induction paths generalizing out with
  | nil => exact ⟨by simp, fun _ => rfl⟩
  | cons path rest ih =>
      obtain ⟨hpath, hrest⟩ := List.forall_mem_cons.1 hapart
      obtain ⟨hlost, hsame⟩ := h.terminals_of_apart ht hpath
      obtain ⟨hlater, hnone⟩ := ih (h.next hd hpaths) (separate_cons.1 hpaths).2.2 hrest
      rw [keepPaths_cons]
      constructor
      · rintro ⟨p, hp, hshares⟩
        by_cases hsome : ∃ q ∈ rest, SharesArray (Segments.ofPath q) (Segments.ofPath t) (.object d)
        · exact hlater hsome
        · -- Only the first path shares an array, and what it takes does not come back.
          rcases List.mem_cons.1 hp with rfl | hp
          · rw [hnone fun q hq h => hsome ⟨q, hq, h⟩, hlost hshares]
          · exact absurd ⟨p, hp, hshares⟩ hsome
      · intro hall
        obtain ⟨hpathnot, hrestnot⟩ := List.forall_mem_cons.1 hall
        rw [hnone hrestnot, hsame hpathnot]

/-- **A path that is kept reaches what it reached**, unless it reaches something and a later one
shares an array with it: then it reaches nothing. -/
theorem Growing.terminals_keepPaths_iff {before after : List String}
    (h : Growing d out (before ++ path :: after)) (hd : (Value.object d).Distinct)
    (hpaths : Separate (before ++ path :: after)) :
    terminals (.object (keepPaths d out (before ++ path :: after))) path =
        terminals (.object d) path ↔
      terminals (.object d) path = [] ∨ ∀ q ∈ after,
        ¬ SharesArray (Segments.ofPath q) (Segments.ofPath path) (.object d) := by
  induction before generalizing out with
  | nil =>
      obtain ⟨hpath, hapart, hafter⟩ := separate_cons.1 hpaths
      obtain ⟨hlost, hsame⟩ := (h.next hd hpaths).terminals_keepPaths_of_apart hd hafter hpath
        fun p hp => (hapart p hp).symm
      rw [List.nil_append, keepPaths_cons]
      by_cases hnone : ∀ q ∈ after,
          ¬ SharesArray (Segments.ofPath q) (Segments.ofPath path) (.object d)
      · exact iff_of_true ((hsame hnone).trans (h.terminals_self hd hpath).1) (.inr hnone)
      · rw [hlost (by simpa only [not_forall, not_not, exists_prop] using hnone),
          or_iff_left hnone, eq_comm]
  | cons other before ih =>
      exact ih (h.next hd hpaths) (separate_cons.1 hpaths).2.2

/-! ## Reading what to keep -/

/-- The paths that a projection in JSON asks for. -/
def asked (spec : Fields Json) : List String :=
  (spec.filter fun e => flag? e.2 == some true).map (·.1)

theorem asked_of_readFlags {spec : List (String × Json)} {flags : List (String × Bool)}
    (h : readFlags spec = .ok flags) :
    asked spec = (flags.filter (·.2)).map (·.1) ∧ Fields.keys flags = Fields.keys spec := by
  induction spec generalizing flags with
  | nil =>
      cases h
      exact ⟨rfl, rfl⟩
  | cons e rest ih =>
      obtain ⟨path, j⟩ := e
      simp only [readFlags] at h
      split at h
      · cases h
      · rename_i on hon
        obtain ⟨more, hmore, h⟩ := bind_eq_ok.1 h
        cases h
        obtain ⟨hasked, hkeys⟩ := ih hmore
        refine ⟨?_, congrArg (path :: ·) hkeys⟩
        cases on with
        | true => simpa [asked, hon] using hasked
        | false => simpa [asked, hon] using hasked

/-- **What an accepted projection keeps** are the paths asked for, the id apart; the id is kept with
them if it is asked for. -/
theorem kept_of_ofJson {spec : Fields Json} {paths : List String} {withId : Bool}
    (h : ofJson (.object spec) = .ok (.keep paths withId)) (hkeys : (Fields.keys spec).Nodup) :
    paths = (asked spec).filter (· != idField) ∧ (idField ∈ asked spec → withId = true) := by
  obtain ⟨flags, hflags, h⟩ := bind_eq_ok.1 h
  obtain ⟨hasked, hnames⟩ := asked_of_readFlags hflags
  rw [← hnames] at hkeys
  rw [hasked]
  rcases ProjectStage.ofFlags_eq_ok h with ⟨hall, -, hkeep⟩ | ⟨-, -, hdrop⟩
  · obtain ⟨rfl, rfl⟩ := keep.inj hkeep
    constructor
    · rw [List.filter_map, List.filter_filter]
      refine congrArg (List.map Prod.fst) (List.filter_congr fun e he => ?_)
      cases hne : e.1 != idField with
      | false => simp [hne]
      | true =>
          have hon := List.all_eq_true.1 hall e (List.mem_filter.2 ⟨he, hne⟩)
          simp [hne, hon]
    · intro hid
      obtain ⟨⟨name, on⟩, he, rfl⟩ := List.mem_map.1 hid
      obtain ⟨hmem, rfl⟩ := List.mem_filter.1 he
      rw [bne_iff_ne]
      intro hoff
      obtain ⟨before, after, hflags', -⟩ := List.lookup_eq_some_iff.1 hoff
      have hmem' : (idField, false) ∈ flags := by
        rw [hflags']
        exact List.mem_append_right _ List.mem_cons_self
      cases (Fields.get?_of_mem hkeys hmem).symm.trans (Fields.get?_of_mem hkeys hmem')
  · cases hdrop

/-! ## Projecting -/

theorem ofPath_idField : Segments.ofPath idField = [idField] := by decide

/-- What lies apart from the id shares no array with it, as a document is an object. -/
theorem not_sharesArray_idField {path : String}
    (h : Apart (Segments.ofPath idField) (Segments.ofPath path)) :
    ¬ SharesArray (Segments.ofPath idField) (Segments.ofPath path) (.object d) := by
  obtain ⟨rest, hrest⟩ := Fields.ofPath_eq_top_cons path
  rw [ofPath_idField, hrest] at h ⊢
  rw [Value.sharesArray_object_iff]
  rintro ⟨htop, -⟩
  exact h.1 (List.cons_prefix_cons.2 ⟨htop, List.nil_prefix⟩)

/-- The id that is kept beforehand. -/
theorem keptId_cases (withId : Bool) (d : Fields Value) :
    keptId withId d = [] ∧ (withId = true → Fields.get? d idField = none) ∨
      ∃ id, Fields.get? d idField = some id ∧ keptId withId d = [(idField, id)] := by
  cases withId with
  | false => exact .inl ⟨rfl, nofun⟩
  | true =>
      cases hid : Fields.get? d idField with
      | none => exact .inl ⟨by simp [keptId, hid], fun _ => rfl⟩
      | some id => exact .inr ⟨id, rfl, by simp [keptId, hid]⟩

/-- With the id kept beforehand, paths are ready to be kept. -/
theorem growing_keptId (withId : Bool) (d : Fields Value) (paths : List String) :
    Growing d (keptId withId d) paths := by
  rcases keptId_cases withId d with ⟨hnone, -⟩ | ⟨id, hid, hsome⟩
  · rw [hnone]
    refine ⟨.object nofun, fun p _ => .inl ?_⟩
    obtain ⟨rest, hrest⟩ := Fields.ofPath_eq_top_cons p
    rw [terminals, hrest]
    rfl
  · rw [hsome]
    refine ⟨.object fun name w v hw hv => ?_, fun p _ => ?_⟩
    · by_cases hname : idField = name
      · subst hname
        simp only [Fields.get?, if_true, Option.some.injEq] at hw
        cases hid.symm.trans hv
        rw [← hw]
        exact follows_self id
      · simp [Fields.get?, hname] at hw
    · obtain ⟨rest, hrest⟩ := Fields.ofPath_eq_top_cons p
      rw [terminals, terminals, hrest, Value.reach_object, Value.reach_object]
      by_cases hname : idField = Segments.top p
      · exact .inr (by simp [Fields.get?, hname, ← hname ▸ hid])
      · exact .inl (by simp [Fields.get?, hname])

theorem terminals_keptId (d : Fields Value) :
    terminals (.object (keptId true d)) idField = terminals (.object d) idField := by
  rw [terminals, terminals, ofPath_idField, Value.reach_object, Value.reach_object]
  rcases keptId_cases true d with ⟨hnone, hmissing⟩ | ⟨id, hid, hsome⟩
  · rw [hnone, hmissing rfl]
    rfl
  · rw [hsome, hid]
    simp [Fields.get?]

/-- **The id that is asked for is kept**, as the other paths lie apart from it. -/
theorem terminals_keepPaths_idField (hd : (Value.object d).Distinct) (hpaths : Separate paths)
    (hapart : ∀ p ∈ paths, Apart (Segments.ofPath idField) (Segments.ofPath p)) :
    terminals (.object (keepPaths d (keptId true d) paths)) idField =
      terminals (.object d) idField := by
  have hid : Names (Segments.ofPath idField) := by
    rw [ofPath_idField]
    decide
  have hkept := (growing_keptId true d paths).terminals_keepPaths_of_apart hd hpaths hid
    fun p hp => (hapart p hp).symm
  rw [hkept.2 fun p hp hshares => not_sharesArray_idField (hapart p hp) hshares.symm]
  exact terminals_keptId d

/-- The id takes along no array, wherever it is listed. -/
theorem forall_filter_idField_iff
    (hapart : ∀ q ∈ paths, Apart (Segments.ofPath path) (Segments.ofPath q)) :
    (∀ q ∈ paths.filter (· != idField),
        ¬ SharesArray (Segments.ofPath q) (Segments.ofPath path) (.object d)) ↔
      ∀ q ∈ paths, ¬ SharesArray (Segments.ofPath q) (Segments.ofPath path) (.object d) := by
  refine ⟨fun h q hq => ?_, fun h q hq => h q (List.mem_filter.1 hq).1⟩
  by_cases hid : q = idField
  · subst hid
    exact not_sharesArray_idField (hapart _ hq).symm
  · exact h q (List.mem_filter.2 ⟨hq, by simpa using hid⟩)

/-- **Nothing that was asked for is lost, but for arrays that two paths go through.** A path of an
accepted projection, in which no path is a beginning of another, reaches in the projected document
what it reaches in the document, unless it reaches something and a path listed later shares an array
with it. -/
theorem terminals_kept_iff {spec : Fields Json} {withId : Bool}
    (hspec : ofJson (.object spec) = .ok (.keep paths withId)) (hkeys : (Fields.keys spec).Nodup)
    (hseparate : Separate (asked spec)) (hd : (Value.object d).Distinct)
    {before after : List String} (hasked : asked spec = before ++ path :: after) :
    terminals ((keep paths withId).apply (.object d)) path = terminals (.object d) path ↔
      terminals (.object d) path = [] ∨ ∀ q ∈ after,
        ¬ SharesArray (Segments.ofPath q) (Segments.ofPath path) (.object d) := by
  obtain ⟨hkept, hid⟩ := kept_of_ofJson hspec hkeys
  have hpaths : Separate paths := hkept ▸ hseparate.filter _
  obtain ⟨-, hpairs, hbefore⟩ := List.pairwise_append.1 (hasked ▸ hseparate.apart)
  have hafter := (List.pairwise_cons.1 hpairs).1
  rw [apply, applyFields]
  by_cases hpath : path = idField
  · -- The id is kept before the other paths, all of which lie apart from it.
    subst hpath
    obtain rfl := hid (by simp [hasked])
    have hall : ∀ p ∈ paths, Apart (Segments.ofPath idField) (Segments.ofPath p) := by
      intro p hp
      obtain ⟨hmem, hne⟩ : p ∈ asked spec ∧ p ≠ idField := by simpa [hkept] using hp
      rw [hasked] at hmem
      rcases List.mem_append.1 hmem with hmem | hmem
      · exact (hbefore p hmem _ List.mem_cons_self).symm
      · exact hafter p ((List.mem_cons.1 hmem).resolve_left hne)
    exact iff_of_true (terminals_keepPaths_idField hd hpaths hall)
      (.inr fun q hq hshares => not_sharesArray_idField (hafter q hq) hshares.symm)
  · have hsplit : paths = before.filter (· != idField) ++
        path :: after.filter (· != idField) := by
      rw [hkept, hasked, List.filter_append, List.filter_cons_of_pos (by simpa using hpath)]
    rw [hsplit] at hpaths ⊢
    rw [(growing_keptId withId d _).terminals_keepPaths_iff hd hpaths,
      forall_filter_idField_iff hafter]

theorem terminals_kept_iff_pets :
    let spec : Fields Json := [("tags.name", .bool true), ("owner.name", .bool true),
      ("owner.city", .bool true)]
    let pet : Fields Value := [("_id", .int 1),
      ("tags", .array [.object [("name", .string "dog"), ("rank", .int 2)]]),
      ("owner", .object [("name", .string "Ann"), ("city", .string "Ulm"), ("age", .int 40)])]
    ofJson (.object spec) = .ok (.keep ["tags.name", "owner.name", "owner.city"] true) ∧
      (Fields.keys spec).Nodup ∧ Separate (asked spec) ∧ (Value.object pet).Distinct ∧
      terminals (.object pet) "owner.name" = [.string "Ann"] ∧
      terminals ((keep ["tags.name", "owner.name", "owner.city"] true).apply (.object pet))
        "owner.name" = [.string "Ann"] := by
  intro spec pet
  have hspec : ofJson (.object spec) =
      .ok (.keep ["tags.name", "owner.name", "owner.city"] true) := by rfl
  have hkeys : (Fields.keys spec).Nodup := by decide
  have hseparate : Separate (asked spec) := ⟨by decide, by decide⟩
  have hpet : (Value.object pet).Distinct := by
    refine ⟨by decide, trivial, ⟨⟨by decide, trivial, trivial, trivial⟩, trivial⟩, ?_, trivial⟩
    exact ⟨by decide, trivial, trivial, trivial, trivial⟩
  have hasked : asked spec = ["tags.name"] ++ "owner.name" :: ["owner.city"] := by rfl
  have hcity : Segments.ofPath "owner.city" = ["owner", "city"] := by decide
  have hname : Segments.ofPath "owner.name" = ["owner", "name"] := by decide
  have hann : terminals (.object pet) "owner.name" = [.string "Ann"] := by
    rw [terminals, hname]
    rfl
  refine ⟨hspec, hkeys, hseparate, hpet, hann, ?_⟩
  rw [← hann]
  refine (terminals_kept_iff hspec hkeys hseparate hpet hasked).2 (.inr fun q hq => ?_)
  -- The owner is an object, and what the paths name in it lies apart.
  rw [List.mem_singleton.1 hq, hcity, hname, Value.sharesArray_object_iff]
  rintro ⟨-, w, ⟨⟩, hshares⟩
  exact absurd (Value.sharesArray_object_iff.1 hshares).1 (by decide)

/-- Of two paths through one array, the one listed first is lost. -/
theorem not_terminals_kept_tags :
    let spec : Fields Json := [("tags.name", .bool true), ("tags.rank", .bool true)]
    let pet : Fields Value := [("_id", .int 1),
      ("tags", .array [.object [("name", .string "dog"), ("rank", .int 2)]])]
    ofJson (.object spec) = .ok (.keep ["tags.name", "tags.rank"] true) ∧
      (Fields.keys spec).Nodup ∧ Separate (asked spec) ∧ (Value.object pet).Distinct ∧
      terminals (.object pet) "tags.name" = [.string "dog"] ∧
      terminals ((keep ["tags.name", "tags.rank"] true).apply (.object pet)) "tags.name" = [] := by
  intro spec pet
  have hname : Segments.ofPath "tags.name" = ["tags", "name"] := by decide
  have hpet : (Value.object pet).Distinct :=
    ⟨by decide, trivial, ⟨⟨by decide, trivial, trivial, trivial⟩, trivial⟩, trivial⟩
  have hrank : Segments.ofPath "tags.rank" = ["tags", "rank"] := by decide
  have hkept : (keep ["tags.name", "tags.rank"] true).apply (.object pet) =
      .object [("_id", .int 1), ("tags", .array [.object [("rank", .int 2)]])] := by
    simp [pet, apply, applyFields, keepPaths, keptId, kept?, addKept, Segments.top, hname, hrank,
      idField, Fields.get?, Fields.insert, partAlong, part, partItems, mergeValue_array]
  refine ⟨by rfl, by decide, ⟨by decide, by decide⟩, hpet, ?_, ?_⟩
  · rw [terminals, hname]
    rfl
  · rw [hkept, terminals, hname]
    rfl

end Projection

end DocStore
