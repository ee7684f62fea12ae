import DocStore.Pipeline.Project
import DocStore.Proofs.Fields
import DocStore.Proofs.Reading

/-!
# Projections in two places

A search and the stage `$project` read the same flags of paths, each in its own way. Where both
accept them they leave out the same paths or keep the same paths, in the same order:
`ProjectStage.agrees_of_read`.
-/

set_option autoImplicit false

namespace DocStore

/-- For a path of one name, what is removed is the field. -/
theorem Fields.erasePath_idField (m : Fields Value) :
    (Fields.erasePath m idField).1 = Fields.erase m idField := by
  have hremove : Value.remove? (Segments.ofPath idField) (.object m) =
      (Fields.get? m idField).map fun old => (.object (Fields.erase m idField), old) := rfl
  rw [Fields.erasePath, hremove]
  cases hget : Fields.get? m idField with
  | some old => rfl
  | none => exact (Fields.erase_of_get?_none hget).symm

namespace ProjectStage

/-! ## Projecting -/

/-- A stage gives what a projection gives, and never fails. -/
def Agrees (s : ProjectStage) (p : Projection) : Prop := ∀ v, s.apply v = .ok (p.apply v)

theorem agrees_drop (withoutId : Bool) (paths : List String) :
    (drop withoutId paths).Agrees (.drop (if withoutId then idField :: paths else paths)) := by
  intro v
  cases v with
  | object fields =>
      cases withoutId with
      | false => rfl
      | true =>
          have hdrop : Projection.dropPaths fields (idField :: paths) =
              Projection.dropPaths (Fields.erase fields idField) paths := by
            rw [Projection.dropPaths, List.foldl_cons, Fields.erasePath_idField]
            rfl
          exact congrArg (fun fields => Except.ok (Value.object fields)) hdrop.symm
  | _ => rfl

theorem addFields_kept (source : Fields Value) (paths : List String) (out : Fields Value) :
    addFields source out (paths.map fun path => (path, .kept)) =
      .ok (Projection.keepPaths source out paths) := by
  induction paths generalizing out with
  | nil => rfl
  | cons path rest ih =>
      have hfield : addField source out path .kept =
          .ok (Projection.keepPaths source out [path]) := by
        simp only [addField, Projection.keepPaths, List.foldl_cons, List.foldl_nil]
        cases Projection.kept? source path <;> rfl
      change (addField source out path .kept).bind
        (fun out => addFields source out (rest.map fun path => (path, .kept))) = _
      rw [hfield]
      exact ih _

theorem agrees_build (withId : Bool) (paths : List String) :
    (build withId (paths.map fun path => (path, .kept))).Agrees (.keep paths withId) := by
  intro v
  cases v with
  | object fields =>
      change (addFields fields (Projection.keptId withId fields) _).bind _ = _
      rw [addFields_kept]
      rfl
  | _ => rfl

/-! ## What flags stand for -/

/-- Flags as what a stage says about paths. -/
def flagEntries (flags : List (String × Bool)) : List (String × Entry) :=
  flags.map fun e => (e.1, .flag e.2)

theorem lookup_flagEntries (flags : List (String × Bool)) (name : String) :
    (flagEntries flags).lookup name = (flags.lookup name).map .flag := by
  induction flags with
  | nil => rfl
  | cons e rest ih =>
      rw [flagEntries, List.map_cons, List.lookup_cons, List.lookup_cons]
      cases name == e.1 with
      | true => rfl
      | false => exact ih

theorem filter_flagEntries (flags : List (String × Bool)) (p : String → Entry → Bool) :
    (flagEntries flags).filter (fun e => p e.1 e.2) =
      flagEntries (flags.filter fun e => p e.1 (.flag e.2)) := List.filter_map

/-- The flags of the paths other than the id. -/
def others (flags : List (String × Bool)) : List (String × Bool) :=
  flags.filter fun e => e.1 != idField

/-- Only flags of the id leave no others, so the id has one. -/
theorem lookup_of_others_eq_nil {flags : List (String × Bool)} (hne : flags ≠ [])
    (h : others flags = []) : ∃ on, flags.lookup idField = some on := by
  obtain ⟨⟨path, on⟩, rest, rfl⟩ := List.exists_cons_of_ne_nil hne
  have hid : path = idField := by
    simpa using List.filter_eq_nil_iff.1 h (path, on) List.mem_cons_self
  exact ⟨on, by rw [hid, List.lookup_cons_self]⟩

/-- What a stage makes of flags. -/
theorem ofEntries_flagEntries (flags : List (String × Bool)) :
    ofEntries (flagEntries flags) =
      let withoutId := flags.lookup idField == some false
      if (others flags).all (·.2) && !((others flags).isEmpty && withoutId) then
        some (build (!withoutId) ((others flags).map fun e => (e.1, .kept)))
      else if (others flags).all (!·.2) then some (drop withoutId ((others flags).map (·.1)))
      else none := by
  have hothers : (flagEntries flags).filter (fun e => e.1 != idField) =
      flagEntries (others flags) :=
    filter_flagEntries flags fun name _ => name != idField
  have hdropped : (flagEntries (others flags)).filter (fun e => e.2.isDropped) =
      flagEntries ((others flags).filter (!·.2)) :=
    filter_flagEntries (others flags) fun _ entry => entry.isDropped
  have hcomputed : ((flags.lookup idField).map Entry.flag).bind Entry.computed? = none := by
    cases flags.lookup idField <;> rfl
  have hwithout : ((flags.lookup idField).map Entry.flag).any Entry.isDropped =
      (flags.lookup idField == some false) := by
    rcases flags.lookup idField with _ | _ | _ <;> rfl
  simp only [ofEntries, hothers, hdropped, lookup_flagEntries, hcomputed, hwithout]
  have hempty : (flagEntries ((others flags).filter (!·.2))).isEmpty =
      (others flags).all (·.2) := by
    rw [flagEntries, List.isEmpty_map, Bool.eq_iff_iff, List.isEmpty_iff, List.filter_eq_nil_iff,
      List.all_eq_true]
    simp
  have hnone : (flagEntries (others flags)).isEmpty = (others flags).isEmpty := List.isEmpty_map
  have hfields : (flagEntries (others flags)).map (fun f => (f.1, f.2.field)) =
      (others flags).map fun e => (e.1, .kept) := by
    rw [flagEntries, List.map_map]
    rfl
  have hpaths : (flagEntries (others flags)).map (·.1) = (others flags).map (·.1) := by
    rw [flagEntries, List.map_map]
    rfl
  have hall : (flagEntries ((others flags).filter (!·.2))).length =
      (flagEntries (others flags)).length ↔ (others flags).all (!·.2) = true := by
    rw [flagEntries, flagEntries, List.length_map, List.length_map,
      List.length_filter_eq_length_iff, List.all_eq_true]
  simp only [hempty, hnone, hfields, hpaths, hall]

/-- If the other paths are kept, or the id alone is, the stage keeps them. -/
theorem ofEntries_of_kept {flags : List (String × Bool)} (hall : (others flags).all (·.2) = true)
    (hsome : others flags ≠ [] ∨ flags.lookup idField = some true) :
    ofEntries (flagEntries flags) = some (build (flags.lookup idField != some false)
      (((others flags).map (·.1)).map fun path => (path, .kept))) := by
  have hbuilt : (!((others flags).isEmpty && flags.lookup idField == some false)) = true := by
    rcases hsome with hsome | hsome
    · rw [List.isEmpty_eq_false_iff.2 hsome]
      rfl
    · simp [hsome]
  rw [ofEntries_flagEntries, List.map_map]
  simp only [hall, hbuilt, Bool.and_self, if_true]
  rfl

/-- If the other paths are left out, or the id alone is, the stage leaves them out. -/
theorem ofEntries_of_dropped {flags : List (String × Bool)} (hne : flags ≠ [])
    (hall : (others flags).all (!·.2) = true)
    (hsome : others flags ≠ [] ∨ flags.lookup idField ≠ some true) :
    ofEntries (flagEntries flags) =
      some (drop (flags.lookup idField == some false) ((others flags).map (·.1))) := by
  have hdropped : ((others flags).all (·.2) &&
      !((others flags).isEmpty && flags.lookup idField == some false)) = false := by
    by_cases hnil : others flags = []
    · -- Without other paths there is a flag of the id, which is not kept.
      obtain ⟨on, hon⟩ := lookup_of_others_eq_nil hne hnil
      have hoff : on = false := by
        rcases hsome with hsome | hsome
        · exact absurd hnil hsome
        · simpa [hon] using hsome
      rw [hnil, hon, hoff]
      rfl
    · obtain ⟨e, he⟩ := List.exists_mem_of_ne_nil _ hnil
      have hoff : e.2 = false := by simpa using List.all_eq_true.1 hall e he
      have hnot : (others flags).all (·.2) = false :=
        List.all_eq_false.2 ⟨e, he, by simp [hoff]⟩
      rw [hnot, Bool.false_and]
  rw [ofEntries_flagEntries]
  simp only [hdropped, hall, Bool.false_eq_true, if_false, if_true]

/-- What a search makes of flags. -/
theorem ofFlags_eq_ok {flags : List (String × Bool)} {p : Projection}
    (h : Projection.ofFlags flags = .ok p) :
    (others flags).all (·.2) = true ∧ (others flags ≠ [] ∨ flags.lookup idField = some true) ∧
        p = .keep ((others flags).map (·.1)) (flags.lookup idField != some false) ∨
      (others flags).all (!·.2) = true ∧ (others flags ≠ [] ∨ flags.lookup idField ≠ some true) ∧
        p = .drop (if flags.lookup idField == some false then
          idField :: (others flags).map (·.1) else (others flags).map (·.1)) := by
  have hpaths (on : Bool) : (flags.filter fun e => e.1 != idField && e.2 == on) =
      (others flags).filter (·.2 == on) := by
    rw [others, List.filter_filter]
    exact List.filter_congr fun e _ => Bool.and_comm _ _
  simp only [Projection.ofFlags, hpaths, List.isEmpty_map] at h
  generalize others flags = rest at h ⊢
  generalize flags.lookup idField = id at h ⊢
  by_cases hall : rest.all (·.2) = true
  · have hkept : rest.filter (·.2 == true) = rest :=
      List.filter_eq_self.2 (by simpa using hall)
    have hdropped : rest.filter (·.2 == false) = [] :=
      List.filter_eq_nil_iff.2 (by simpa using hall)
    simp only [hkept, hdropped, List.isEmpty_nil, Bool.not_true, Bool.and_false, Bool.and_true,
      Bool.false_eq_true, if_false] at h
    split at h
    · rename_i hsome
      cases h
      exact .inl ⟨hall, by simpa [List.isEmpty_iff] using hsome, rfl⟩
    · rename_i hnone
      cases h
      obtain ⟨rfl, hid⟩ : rest = [] ∧ id ≠ some true := by simpa [List.isEmpty_iff] using hnone
      exact .inr ⟨rfl, .inr hid, rfl⟩
  · -- A path is left out, so none may be kept.
    have hdropped : rest.filter (·.2 == false) ≠ [] := by
      rw [Ne, List.filter_eq_nil_iff]
      simpa using hall
    split at h
    · cases h
    · rename_i hmixed
      rw [Bool.and_eq_true, Bool.not_eq_true', Bool.not_eq_true', List.isEmpty_eq_false_iff,
        List.isEmpty_eq_false_iff] at hmixed
      have hkept : rest.filter (·.2 == true) = [] := not_not.1 fun hk => hmixed ⟨hk, hdropped⟩
      have hnone : rest.all (!·.2) = true := by
        simpa using List.filter_eq_nil_iff.1 hkept
      have hsame : rest.filter (·.2 == false) = rest :=
        List.filter_eq_self.2 (by simpa using hnone)
      rw [hsame] at hdropped
      have hempty : rest.isEmpty = false := by simpa using hdropped
      simp only [hkept, hsame, hempty, List.isEmpty_nil, Bool.not_true, Bool.false_or,
        Bool.and_false, Bool.false_eq_true, if_false] at h
      cases h
      exact .inr ⟨hnone, .inl hdropped, rfl⟩

/-- **A stage and a projection of the same flags agree**, if there is a flag at all. -/
theorem agrees_of_ofFlags {flags : List (String × Bool)} (hne : flags ≠ []) {p : Projection}
    (hp : Projection.ofFlags flags = .ok p) {s : ProjectStage}
    (hs : ofEntries (flagEntries flags) = some s) : s.Agrees p := by
  rcases ofFlags_eq_ok hp with ⟨hall, hsome, rfl⟩ | ⟨hall, hsome, rfl⟩
  · rw [ofEntries_of_kept hall hsome] at hs
    cases hs
    exact agrees_build _ _
  · rw [ofEntries_of_dropped hne hall hsome] at hs
    cases hs
    exact agrees_drop _ _

/-! ## Reading flags -/

/-- What is a flag to a projection is a flag to a stage, and no expression. -/
theorem readEntry_of_flag (path : String) {j : Json} {on : Bool}
    (h : Projection.flag? j = some on) :
    (readEntry path j : Result Entry) = .ok (.flag on) ∧ Always (readEntry path j) (.flag on) := by
  cases j with
  | bool b =>
      cases h
      exact ⟨rfl, always_pure _⟩
  | number n =>
      constructor
      · rw [readEntry, h]
        rfl
      · exact (always_require h _).bind (always_pure _)
  | _ => cases h

theorem readEntries_of_readFlags {fields : List (String × Json)} {flags : List (String × Bool)}
    (h : Projection.readFlags fields = .ok flags) {entries : List (String × Entry)}
    (hentries : (readEntries fields : Result (List (String × Entry))) = .ok entries) :
    entries = flagEntries flags ∧ Always (readEntries fields) (flagEntries flags) := by
  induction fields generalizing flags entries with
  | nil =>
      cases h
      cases hentries
      exact ⟨rfl, always_pure _⟩
  | cons field rest ih =>
      obtain ⟨path, j⟩ := field
      simp only [Projection.readFlags] at h
      split at h
      · cases h
      · rename_i on hon
        obtain ⟨more, hmore, h⟩ := bind_eq_ok.1 h
        cases h
        obtain ⟨hentry, halways⟩ := readEntry_of_flag path hon
        by_cases hpath : Segments.isFieldPath path = true
        · simp only [readEntries, hpath, if_true] at hentries
          obtain ⟨entry, hread, hentries⟩ := bind_eq_ok.1 hentries
          cases hentry.symm.trans hread
          obtain ⟨moreEntries, hreads, hentries⟩ := bind_eq_ok.1 hentries
          cases hentries
          obtain ⟨rfl, hrest⟩ := ih hmore hreads
          refine ⟨rfl, ?_⟩
          simp only [readEntries, hpath, if_true]
          exact halways.bind (hrest.bind (always_pure _))
        · simp only [readEntries, hpath] at hentries
          cases hentries

/-- **A projection that is accepted in both places** is the same in both, and reading it as a stage
asks for no pattern. -/
theorem agrees_of_read {j : Json} {p : Projection} (hp : Projection.ofJson j = .ok p)
    {s : ProjectStage} (hs : (read j : Result ProjectStage) = .ok s) :
    s.Agrees p ∧ Always (read j) s := by
  cases j with
  | object fields =>
      cases fields with
      | nil => cases hs
      | cons field rest =>
          obtain ⟨flags, hflags, hp⟩ := bind_eq_ok.1 hp
          obtain ⟨entries, hentries, hs⟩ := bind_eq_ok.1 hs
          obtain ⟨rfl, halways⟩ := readEntries_of_readFlags hflags hentries
          have hne : flags ≠ [] := by
            rintro rfl
            simp only [Projection.readFlags] at hflags
            split at hflags
            · cases hflags
            · obtain ⟨_, -, hflags⟩ := bind_eq_ok.1 hflags
              cases hflags
          cases hstage : ofEntries (flagEntries flags) with
          | none =>
              rw [hstage] at hs
              cases hs
          | some stage =>
              rw [hstage] at hs
              cases hs
              exact ⟨agrees_of_ofFlags hne hp hstage, halways.bind (always_require hstage _)⟩
  | _ => cases hp

end ProjectStage

end DocStore
