import DocStore.Proofs.Pattern

/-!
# Reading with a cache

Statements about readings that are made with a cache of patterns. `Gives` says what holds of
whatever is read. `Steady` says that what is read without a cache is read with every one that
patterns were compiled with, and that no two of them read different things; `Obtains` is what some
of them reads. `Always` is for readings that ask for no pattern. Each has its rules for the ways of
building readings, and no proof about a reader looks into the monad again.
-/

set_option autoImplicit false

namespace DocStore

variable {α β : Type}

/-- A reading that goes on succeeds iff both parts do, the second one with the cache that the first
one leaves. -/
theorem run_bind_eq_ok {x : CachedReading α} {f : α → CachedReading β} {cache : PatternCache}
    {b : β} : ((x >>= f).run.run cache).1 = .ok b ↔
      ∃ a, (x.run.run cache).1 = .ok a ∧ ((f a).run.run (x.run.run cache).2).1 = .ok b := by
  rw [ExceptT.run_bind, StateT.run_bind]
  rcases x.run.run cache with ⟨r, cache'⟩
  cases r with
  | error e =>
      constructor
      · exact nofun
      · rintro ⟨a, ⟨⟩, -⟩
  | ok a =>
      constructor
      · exact fun h => ⟨a, rfl, h⟩
      · rintro ⟨a, ⟨⟩, h⟩
        exact h

/-! ## What holds of whatever is read -/

section Gives

variable {P : α → Prop} {Q : β → Prop}

/-- Whatever is read, with any cache of patterns, has a property. -/
def Gives (x : CachedReading α) (P : α → Prop) : Prop :=
  ∀ cache a, (x.run.run cache).1 = .ok a → P a

theorem gives_pure {a : α} (h : P a) : Gives (pure a) P := by
  rintro cache _ ⟨⟩
  exact h

theorem gives_fail (e : Error) : Gives (Reading.fail e) P := fun _ _ h => nomatch h

theorem gives_any (x : CachedReading α) : Gives x fun _ => True := fun _ _ _ => trivial

theorem gives_bind {x : CachedReading α} {f : α → CachedReading β} (hx : Gives x P)
    (hf : ∀ a, P a → Gives (f a) Q) : Gives (x >>= f) Q := by
  intro cache b h
  obtain ⟨a, ha, hb⟩ := run_bind_eq_ok.1 h
  exact hf a (hx cache a ha) _ b hb

theorem gives_map {x : CachedReading α} {f : α → β} (h : Gives x fun a => Q (f a)) :
    Gives (f <$> x) Q := by
  intro cache b hb
  rw [ExceptT.run_map, StateT.run_map] at hb
  obtain ⟨a, ha, rfl⟩ := map_eq_ok.1 hb
  exact h cache a ha

theorem gives_ofResult {r : Result α} (h : ∀ a, r = .ok a → P a) :
    Gives (Reading.ofResult r) P := by
  cases r with
  | error e => exact gives_fail e
  | ok a => exact gives_pure (h a rfl)

theorem gives_require {v : Option α} (h : ∀ a, v = some a → P a) (e : Error) :
    Gives (Reading.require v e) P := by
  cases v with
  | none => exact gives_fail e
  | some a => exact gives_pure (h a rfl)

end Gives

/-! ## Readings that caches do not change -/

/-- What is read without a cache and with one agree. -/
structure Steady (x : Result α) (y : CachedReading α) : Prop where
  /-- Reading only compiles patterns. -/
  reached : ∀ {cache}, PatternCache.Reached cache → (y.run.run cache).2.Reached
  /-- What is read without a cache is read with every one. -/
  total : ∀ {cache a}, PatternCache.Reached cache → x = .ok a → (y.run.run cache).1 = .ok a
  /-- If something is read with two caches, it is the same. -/
  unique : ∀ {cache cache' a b}, PatternCache.Reached cache → PatternCache.Reached cache' →
    (y.run.run cache).1 = .ok a → (y.run.run cache').1 = .ok b → a = b

theorem steady_pure (a : α) : Steady (pure a) (pure a) where
  reached h := h
  total := by
    rintro cache _ - ⟨⟩
    rfl
  unique := by
    rintro cache cache' _ _ - - ⟨⟩ ⟨⟩
    rfl

theorem steady_fail (e : Error) : Steady (α := α) (Reading.fail e) (Reading.fail e) where
  reached h := h
  total _ h := nomatch h
  unique _ _ h := nomatch h

theorem Steady.bind {x : Result α} {y : CachedReading α} {f : α → Result β}
    {g : α → CachedReading β} (h : Steady x y) (hnext : ∀ a, Steady (f a) (g a)) :
    Steady (x >>= f) (y >>= g) where
  reached := by
    intro cache hcache
    have hreached := h.reached hcache
    rw [ExceptT.run_bind, StateT.run_bind]
    rcases hrun : y.run.run cache with ⟨r, cache'⟩
    rw [hrun] at hreached
    cases r with
    | error e => exact hreached
    | ok a => exact (hnext a).reached hreached
  total := by
    intro cache b hcache hb
    obtain ⟨a, ha, hb⟩ := bind_eq_ok.1 hb
    exact run_bind_eq_ok.2 ⟨a, h.total hcache ha, (hnext a).total (h.reached hcache) hb⟩
  unique := by
    intro cache cache' b b' hcache hcache' hb hb'
    obtain ⟨a, ha, hb⟩ := run_bind_eq_ok.1 hb
    obtain ⟨a', ha', hb'⟩ := run_bind_eq_ok.1 hb'
    obtain rfl := h.unique hcache hcache' ha ha'
    exact (hnext a).unique (h.reached hcache) (h.reached hcache') hb hb'

theorem Steady.map {x : Result α} {y : CachedReading α} (h : Steady x y) (f : α → β) :
    Steady (f <$> x) (f <$> y) := by
  have hbind := h.bind fun a => steady_pure (f a)
  rwa [bind_pure_comp, bind_pure_comp] at hbind

theorem steady_require (v : Option α) (e : Error) :
    Steady (Reading.require v e) (Reading.require v e) := by
  cases v with
  | none => exact steady_fail e
  | some a => exact steady_pure a

/-- The key of a pattern leaves no choice of the expression that is found under it. -/
theorem steady_pattern (source options : String) :
    Steady (Reading.pattern source options) (Reading.pattern source options) where
  reached h := h.compile source options
  total h hp := h.sound.compile_eq_ok hp
  unique := by
    intro cache cache' p q hcache hcache' hp hq
    obtain ⟨hsource, hoptions, hregex⟩ := (hcache.sound.compile source options).2 p hp
    obtain ⟨hsource', hoptions', hregex'⟩ := (hcache'.sound.compile source options).2 q hq
    cases p
    cases q
    cases hsource
    cases hoptions
    cases hsource'
    cases hoptions'
    cases hregex.unique hregex'
    rfl

/-! ## What is read with some cache -/

section Obtains

variable {x : CachedReading α} {f : α → CachedReading β} {a : α} {b : β}

/-- There is a cache that patterns were compiled with, with which a value is read. -/
def Obtains (x : CachedReading α) (a : α) : Prop :=
  ∃ cache, PatternCache.Reached cache ∧ (x.run.run cache).1 = .ok a

theorem obtains_pure_iff {a' : α} : Obtains (pure a) a' ↔ a' = a := by
  constructor
  · rintro ⟨cache, -, ⟨⟩⟩
    rfl
  · rintro rfl
    exact ⟨.empty, .empty, rfl⟩

theorem not_obtains_fail {e : Error} : ¬ Obtains (Reading.fail e) a := by
  rintro ⟨cache, -, h⟩
  cases h

theorem obtains_map_iff {f : α → β} : Obtains (f <$> x) b ↔ ∃ a, Obtains x a ∧ f a = b := by
  have hrun (cache : PatternCache) : ((f <$> x).run.run cache).1 = .ok b ↔
      ∃ a, (x.run.run cache).1 = .ok a ∧ f a = b := by
    rw [ExceptT.run_map, StateT.run_map]
    exact map_eq_ok
  constructor
  · rintro ⟨cache, hcache, h⟩
    obtain ⟨a, ha, hb⟩ := (hrun cache).1 h
    exact ⟨a, ⟨cache, hcache, ha⟩, hb⟩
  · rintro ⟨a, ⟨cache, hcache, ha⟩, hb⟩
    exact ⟨cache, hcache, (hrun cache).2 ⟨a, ha, hb⟩⟩

/-- Of a reading that goes on, both parts are read with some cache. -/
theorem Steady.of_obtains_bind {r : Result α} (h : Steady r x) (hb : Obtains (x >>= f) b) :
    ∃ a, Obtains x a ∧ Obtains (f a) b := by
  obtain ⟨cache, hcache, hb⟩ := hb
  obtain ⟨a, ha, hb⟩ := run_bind_eq_ok.1 hb
  exact ⟨a, ⟨cache, hcache, ha⟩, _, h.reached hcache, hb⟩

theorem Steady.obtains_unique {r : Result α} (h : Steady r x) {a' : α} (ha : Obtains x a)
    (ha' : Obtains x a') : a = a' := by
  obtain ⟨cache, hcache, ha⟩ := ha
  obtain ⟨cache', hcache', ha'⟩ := ha'
  exact h.unique hcache hcache' ha ha'

end Obtains

/-! ## Readings without patterns -/

/-- Whatever cache there is, the reading gives the value and leaves the cache as it is. -/
def Always (x : CachedReading α) (a : α) : Prop := ∀ cache, x.run.run cache = (.ok a, cache)

theorem always_pure (a : α) : Always (pure a) a := fun _ => rfl

theorem always_require {v : Option α} {a : α} (h : v = some a) (e : Error) :
    Always (Reading.require v e) a := by
  subst h
  exact always_pure a

theorem always_ofResult {r : Result α} {a : α} (h : r = .ok a) :
    Always (Reading.ofResult r) a := by
  subst h
  exact always_pure a

/-- Going on from a reading that succeeded. -/
theorem run_bind_of_eq {x : CachedReading α} {f : α → CachedReading β}
    {cache cache' : PatternCache} {a : α} (h : x.run.run cache = (.ok a, cache')) :
    (x >>= f).run.run cache = (f a).run.run cache' := by
  rw [ExceptT.run_bind, StateT.run_bind, h]
  rfl

theorem Always.bind {x : CachedReading α} {f : α → CachedReading β} {a : α} {b : β}
    (h : Always x a) (hnext : Always (f a) b) : Always (x >>= f) b :=
  fun cache => (run_bind_of_eq (h cache)).trans (hnext cache)

/-- A failure that is caught is the result of the reading. -/
theorem run_attempt_of_eq {x : CachedReading α} {cache cache' : PatternCache} {r : Result α}
    (h : x.run.run cache = (r, cache')) :
    (Reading.attempt x : CachedReading (Result α)).run.run cache = (.ok r, cache') := by
  change (ExceptT.run (ExceptT.lift x.run)).run cache = _
  rw [ExceptT.run_lift, StateT.run_map, h]
  rfl

/-- Another error in place of its own changes nothing else in a reading. -/
theorem run_mapError (x : CachedReading α) (f : Error → Error) (cache : PatternCache) :
    (Reading.mapError f x).run.run cache =
      ((x.run.run cache).1.mapError f, (x.run.run cache).2) := by
  rcases hrun : x.run.run cache with ⟨r, cache'⟩
  rw [Reading.mapError, run_bind_of_eq (run_attempt_of_eq hrun)]
  cases r with
  | ok a => rfl
  | error e => rfl

/-- A reading that succeeds does not need another error. -/
theorem run_mapError_of_eq {x : CachedReading α} {cache cache' : PatternCache} {a : α}
    (h : x.run.run cache = (.ok a, cache')) (f : Error → Error) :
    (Reading.mapError f x).run.run cache = (.ok a, cache') := by
  rw [run_mapError, h]
  rfl

/-- Without a cache, the error is the only thing that changes. -/
theorem mapError_eq (f : Error → Error) (r : Result α) : Reading.mapError f r = r.mapError f := by
  cases r with
  | ok a => rfl
  | error e => rfl

theorem mapError_eq_ok {r : Result α} {f : Error → Error} {a : α} :
    r.mapError f = .ok a ↔ r = .ok a := by
  cases r with
  | ok b => rfl
  | error e => simp [Except.mapError]

/-- With another error in place of its own, a reading succeeds only if it does. -/
theorem run_eq_ok_of_mapError {x : CachedReading α} {cache : PatternCache} {a : α}
    {f : Error → Error} (h : ((Reading.mapError f x).run.run cache).1 = .ok a) :
    (x.run.run cache).1 = .ok a := by
  rw [run_mapError] at h
  exact mapError_eq_ok.1 h

theorem gives_mapError {x : CachedReading α} {f : Error → Error} {P : α → Prop} (h : Gives x P) :
    Gives (Reading.mapError f x) P := fun cache a ha => h cache a (run_eq_ok_of_mapError ha)

theorem obtains_mapError_iff {x : CachedReading α} {f : Error → Error} {a : α} :
    Obtains (Reading.mapError f x) a ↔ Obtains x a := by
  refine exists_congr fun cache => and_congr_right fun _ => ?_
  rw [run_mapError]
  exact mapError_eq_ok

theorem Always.mapError {x : CachedReading α} {a : α} (h : Always x a) (f : Error → Error) :
    Always (Reading.mapError f x) a := fun cache => run_mapError_of_eq (h cache) f

end DocStore
