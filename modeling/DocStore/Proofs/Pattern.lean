import Mathlib.Data.List.Induction
import DocStore.Pattern
import DocStore.Proofs.Except
import DocStore.Proofs.Text.Quoted

/-!
# Cached patterns

The key of a pattern is its options, a colon and its source. Options that are accepted hold no
colon, so of the patterns that can be compiled each has a key of its own, and the expression that
was compiled for a key is the only one (`PatternCache.Compiled.unique`). A cache that compiling
leads to holds such expressions only (`PatternCache.Reached.sound`). Options that are not accepted
may still have the key of an expression in the cache, and are let through with it; this is all that
a cache changes (`PatternCache.compile_compileAll_iff`).
-/

set_option autoImplicit false

namespace DocStore

namespace Pattern

/-- Options are accepted only if they are all letters of options. -/
theorem colon_notMem_options {source options : String} {regex : Regex}
    (h : compileRegex source options = .ok regex) : ':' ∉ options.toList := by
  intro hcolon
  unfold compileRegex at h
  split at h
  · cases h
  · rename_i hletters
    have hletter := List.find?_eq_none.1 hletters _ hcolon
    exact hletter (by decide)

end Pattern

namespace PatternCache

/-- Options without a colon and the source can be told from the key. -/
theorem key_inj {source options source' options' : String} (ho : ':' ∉ options.toList)
    (ho' : ':' ∉ options'.toList) (h : key source options = key source' options') :
    source = source' ∧ options = options' := by
  have hchars : options.toList ++ ':' :: source.toList =
      options'.toList ++ ':' :: source'.toList := by
    simpa [key] using congrArg String.toList h
  have hplain {cs : List Char} (hcs : ':' ∉ cs) : ∀ c ∈ cs, (c != ':') = true := by
    rintro c hc
    exact bne_iff_ne.2 fun heq => hcs (heq ▸ hc)
  have hcolon {cs : List Char} : ∀ c ∈ (':' :: cs).head?, (c != ':') = false := by
    rintro _ ⟨⟩
    rfl
  obtain ⟨hoptions, hsource⟩ :=
    Quoted.run_append_inj (hplain ho) (hplain ho') hcolon hcolon hchars
  exact ⟨String.toList_inj.1 (List.cons.inj hsource).2, String.toList_inj.1 hoptions⟩

/-! ## Expressions of a key -/

/-- The expression was compiled from a pattern with the key. -/
def Compiled (k : String) (regex : Regex) : Prop :=
  ∃ source options, key source options = k ∧ Pattern.compileRegex source options = .ok regex

/-- **A key has one expression only.** -/
theorem Compiled.unique {k : String} {regex regex' : Regex} (h : Compiled k regex)
    (h' : Compiled k regex') : regex = regex' := by
  obtain ⟨source, options, hkey, hregex⟩ := h
  obtain ⟨source', options', hkey', hregex'⟩ := h'
  obtain ⟨rfl, rfl⟩ := key_inj (Pattern.colon_notMem_options hregex)
    (Pattern.colon_notMem_options hregex') (hkey.trans hkey'.symm)
  exact Except.ok.inj (hregex.symm.trans hregex')

/-! ## Caches -/

/-- Every expression in the cache was compiled from a pattern with its key. -/
def Sound (cache : PatternCache) : Prop := ∀ e ∈ cache.entries, Compiled e.1 e.2

theorem sound_empty : Sound .empty := List.forall_mem_nil _

theorem Sound.touch {cache : PatternCache} (h : Sound cache) {k : String} {regex : Regex}
    (hregex : Compiled k regex) : Sound (cache.touch k regex) := by
  intro e he
  rcases List.mem_cons.1 (List.mem_of_mem_take he) with rfl | he
  · exact hregex
  · exact h e (List.mem_of_mem_filter he)

theorem Sound.compiled_of_lookup {cache : PatternCache} (h : Sound cache) {k : String}
    {regex : Regex} (hlookup : cache.entries.lookup k = some regex) : Compiled k regex := by
  obtain ⟨before, after, hentries, -⟩ := List.lookup_eq_some_iff.1 hlookup
  exact h (k, regex) (hentries ▸ List.mem_append_right before List.mem_cons_self)

theorem compile_of_lookup {cache : PatternCache} {source options : String} {regex : Regex}
    (h : cache.entries.lookup (key source options) = some regex) :
    cache.compile source options =
      (.ok { source, options, regex }, cache.touch (key source options) regex) := by
  simp only [PatternCache.compile, h]

theorem compile_of_compileRegex {cache : PatternCache} {source options : String} {regex : Regex}
    (h : cache.entries.lookup (key source options) = none)
    (hregex : Pattern.compileRegex source options = .ok regex) :
    cache.compile source options =
      (.ok { source, options, regex }, cache.touch (key source options) regex) := by
  simp only [PatternCache.compile, h, hregex]

/-- A failure leaves the cache as it is. -/
theorem compile_of_error {cache : PatternCache} {source options : String} {e : Error}
    (h : cache.entries.lookup (key source options) = none)
    (herror : Pattern.compileRegex source options = .error e) :
    cache.compile source options = (.error e, cache) := by
  simp only [PatternCache.compile, h, herror]

/-- **What compiling with a cache gives** has the expression of its key, and the cache stays
sound. -/
theorem Sound.compile {cache : PatternCache} (h : Sound cache) (source options : String) :
    Sound (cache.compile source options).2 ∧
      ∀ p, (cache.compile source options).1 = .ok p →
        p.source = source ∧ p.options = options ∧ Compiled (key source options) p.regex := by
  have hgiven {regex : Regex} (hregex : Compiled (key source options) regex)
      (hcompile : cache.compile source options =
        (.ok { source, options, regex }, cache.touch (key source options) regex)) :
      Sound (cache.compile source options).2 ∧
        ∀ p, (cache.compile source options).1 = .ok p →
          p.source = source ∧ p.options = options ∧ Compiled (key source options) p.regex := by
    rw [hcompile]
    refine ⟨h.touch hregex, ?_⟩
    rintro p ⟨⟩
    exact ⟨rfl, rfl, hregex⟩
  cases hlookup : cache.entries.lookup (key source options) with
  | some regex => exact hgiven (h.compiled_of_lookup hlookup) (compile_of_lookup hlookup)
  | none =>
      cases hregex : Pattern.compileRegex source options with
      | ok regex => exact hgiven ⟨_, _, rfl, hregex⟩ (compile_of_compileRegex hlookup hregex)
      | error e =>
          rw [compile_of_error hlookup hregex]
          exact ⟨h, nofun⟩

/-- A pattern whose key is not in the cache is compiled from its own source. -/
theorem compile_of_lookup_none {cache : PatternCache} {source options : String}
    (h : cache.entries.lookup (key source options) = none) :
    (cache.compile source options).1 = Pattern.compile source options := by
  cases hregex : Pattern.compileRegex source options with
  | ok regex =>
      rw [compile_of_compileRegex h hregex, Pattern.compile, hregex]
      rfl
  | error e =>
      rw [compile_of_error h hregex, Pattern.compile, hregex]
      rfl

/-- With options that hold no colon, what is found under the key was compiled from the same
pattern. -/
theorem Sound.compile_of_notMem {cache : PatternCache} (h : Sound cache) {source options : String}
    (hcolon : ':' ∉ options.toList) :
    (cache.compile source options).1 = Pattern.compile source options := by
  cases hlookup : cache.entries.lookup (key source options) with
  | none => exact compile_of_lookup_none hlookup
  | some regex =>
      obtain ⟨source', options', hkey, hregex⟩ := h.compiled_of_lookup hlookup
      obtain ⟨rfl, rfl⟩ := key_inj (Pattern.colon_notMem_options hregex) hcolon hkey
      rw [compile_of_lookup hlookup, Pattern.compile, hregex]
      rfl

/-- A pattern that can be compiled from its own source is the one that the cache gives. -/
theorem Sound.compile_eq_ok {cache : PatternCache} (h : Sound cache) {source options : String}
    {p : Pattern} (hp : Pattern.compile source options = .ok p) :
    (cache.compile source options).1 = .ok p := by
  obtain ⟨regex, hregex, -⟩ := map_eq_ok.1 hp
  exact (h.compile_of_notMem (Pattern.colon_notMem_options hregex)).trans hp

/-- The caches that compiling patterns leads to. -/
inductive Reached : PatternCache → Prop
  | empty : Reached .empty
  | compile {cache : PatternCache} (source options : String) (h : Reached cache) :
      Reached (cache.compile source options).2

theorem Reached.sound {cache : PatternCache} (h : Reached cache) : Sound cache := by
  induction h with
  | empty => exact sound_empty
  | compile source options _ ih => exact (ih.compile source options).1

/-! ## What a cache changes -/

/-- The cache that compiling patterns in order leads to, each of them given by its source and its
options. -/
def compileAll (patterns : List (String × String)) : PatternCache :=
  patterns.foldl (fun cache p => (cache.compile p.1 p.2).2) .empty

/-- The cache that compiling patterns in order leads to from another one. -/
def compileFrom (cache : PatternCache) (patterns : List (String × String)) : PatternCache :=
  patterns.foldl (fun cache p => (cache.compile p.1 p.2).2) cache

theorem Reached.compileFrom {cache : PatternCache} (h : Reached cache)
    (patterns : List (String × String)) : Reached (cache.compileFrom patterns) := by
  induction patterns generalizing cache with
  | nil => exact h
  | cons p rest ih => exact ih (h.compile p.1 p.2)

theorem reached_compileAll (patterns : List (String × String)) :
    Reached (compileAll patterns) :=
  Reached.empty.compileFrom patterns

/-- **A cache changes nothing but for options with a colon.** Without a cache a pattern is compiled
from its own source and options. Whatever patterns were compiled before, the outcome is the same,
the error included, iff the options hold no colon or the key is not in the cache. -/
theorem compile_compileAll_iff (patterns : List (String × String)) (source options : String) :
    (empty.compile source options).1 = Pattern.compile source options ∧
      (((compileAll patterns).compile source options).1 = (empty.compile source options).1 ↔
        ':' ∉ options.toList ∨
          (compileAll patterns).entries.lookup (key source options) = none) := by
  have hempty : (empty.compile source options).1 = Pattern.compile source options :=
    compile_of_lookup_none rfl
  refine ⟨hempty, ?_⟩
  rw [hempty]
  constructor
  · intro h
    by_cases hcolon : ':' ∈ options.toList
    · -- What is found is an expression, but these options are refused.
      refine .inr (Option.eq_none_iff_forall_ne_some.2 fun regex hlookup => ?_)
      rw [compile_of_lookup hlookup] at h
      obtain ⟨regex', hregex, -⟩ := map_eq_ok.1 h.symm
      exact Pattern.colon_notMem_options hregex hcolon
    · exact .inl hcolon
  · rintro (hcolon | hlookup)
    · exact (reached_compileAll patterns).sound.compile_of_notMem hcolon
    · exact compile_of_lookup_none hlookup

/-- The options `s:` are refused, but with the source `x` they have the key of the source `:x` with
the option `s`, which is found once that was compiled. -/
theorem not_compile_compileAll_colon :
    ((compileAll [(":x", "s")]).compile "x" "s:").1 ≠ (empty.compile "x" "s:").1 := by
  intro h
  have hok : ((compileAll [(":x", "s")]).compile "x" "s:").1.isOk =
      (empty.compile "x" "s:").1.isOk := congrArg Except.isOk h
  revert hok
  decide +kernel

/-! ## What drops out of a cache -/

/-- The keys in a cache, the last used first. -/
def keys (cache : PatternCache) : List String := cache.entries.map (·.1)

theorem keys_touch (cache : PatternCache) (k : String) (regex : Regex) :
    (cache.touch k regex).keys = (k :: cache.keys.filter (· != k)).take capacity := by
  rw [keys, touch, List.map_take, List.map_cons, keys, List.filter_map]
  rfl

/-- A pattern that can be compiled is the last used one afterwards. -/
theorem exists_compile_eq (cache : PatternCache) {source options : String} {regex : Regex}
    (h : Pattern.compileRegex source options = .ok regex) :
    ∃ regex', cache.compile source options =
      (.ok { source, options, regex := regex' }, cache.touch (key source options) regex') := by
  cases hlookup : cache.entries.lookup (key source options) with
  | some regex' => exact ⟨regex', compile_of_lookup hlookup⟩
  | none => exact ⟨regex, compile_of_compileRegex hlookup h⟩

theorem length_keys_touch_le (cache : PatternCache) (k : String) (regex : Regex) :
    (cache.touch k regex).keys.length ≤ capacity := by
  rw [keys_touch]
  exact List.length_take_le _ _

theorem Reached.length_keys_le {cache : PatternCache} (h : Reached cache) :
    cache.keys.length ≤ capacity := by
  induction h with
  | empty => exact Nat.zero_le _
  | @compile cache source options h ih =>
      cases hlookup : cache.entries.lookup (key source options) with
      | some regex =>
          rw [compile_of_lookup hlookup]
          exact length_keys_touch_le _ _ _
      | none =>
          cases hregex : Pattern.compileRegex source options with
          | ok regex =>
              rw [compile_of_compileRegex hlookup hregex]
              exact length_keys_touch_le _ _ _
          | error e =>
              rw [compile_of_error hlookup hregex]
              exact ih

section Evicted

variable {patterns : List (String × String)}
  (hcompiles : ∀ p ∈ patterns, ∃ regex, Pattern.compileRegex p.1 p.2 = .ok regex)
  (hnodup : (patterns.map fun p => key p.1 p.2).Nodup)
include hcompiles hnodup

/-- Patterns with different keys are in front, the last one first, as far as there is room. -/
theorem take_reverse_prefix_keys (cache : PatternCache) :
    (patterns.map fun p => key p.1 p.2).reverse.take capacity <+:
      (cache.compileFrom patterns).keys := by
  induction patterns using List.reverseRecOn with
  | nil => exact List.nil_prefix
  | append_singleton rest p ih =>
      rw [List.map_append, List.map_singleton,
        (List.perm_append_singleton _ _).nodup_iff] at hnodup
      obtain ⟨hnew, hnodup⟩ := List.nodup_cons.1 hnodup
      have ih := ih (fun q hq => hcompiles q (List.mem_append_left _ hq)) hnodup
      obtain ⟨regex, hregex⟩ := hcompiles p (List.mem_append_right _ List.mem_cons_self)
      obtain ⟨regex', hcompile⟩ := exists_compile_eq (cache.compileFrom rest) hregex
      have hlast : cache.compileFrom (rest ++ [p]) =
          (cache.compileFrom rest).touch (key p.1 p.2) regex' := by
        rw [compileFrom, List.foldl_concat]
        exact congrArg Prod.snd hcompile
      have hothers : (rest.map fun p => key p.1 p.2).reverse.take capacity <+:
          (cache.compileFrom rest).keys.filter (· != key p.1 p.2) := by
        have hall : ∀ k ∈ (rest.map fun p => key p.1 p.2).reverse.take capacity,
            (k != key p.1 p.2) = true := fun k hk => bne_iff_ne.2 fun heq => by
          rw [heq] at hk
          exact hnew (List.mem_reverse.1 (List.mem_of_mem_take hk))
        have hfilter := ih.filter (· != key p.1 p.2)
        rwa [List.filter_eq_self.2 hall] at hfilter
      have hfront : ((rest ++ [p]).map fun p => key p.1 p.2).reverse.take capacity =
          key p.1 p.2 :: (rest.map fun p => key p.1 p.2).reverse.take (capacity - 1) := by
        rw [List.map_append, List.reverse_append]
        rfl
      rw [hlast, keys_touch, List.prefix_take_iff]
      refine ⟨?_, List.length_take_le _ _⟩
      rw [hfront, List.prefix_cons_inj]
      exact (List.take_prefix_take_left (Nat.sub_le _ _)).trans hothers

/-- **The least recently used drop out.** Once as many patterns with different keys were compiled
as a cache holds, it holds the last of them and nothing else. -/
theorem Reached.keys_compileFrom {cache : PatternCache} (h : Reached cache)
    (hlength : capacity ≤ patterns.length) : (cache.compileFrom patterns).keys =
      (patterns.map fun p => key p.1 p.2).reverse.take capacity := by
  refine ((take_reverse_prefix_keys hcompiles hnodup cache).eq_of_length_le ?_).symm
  rw [List.length_take_of_le (by simpa using hlength)]
  exact (h.compileFrom patterns).length_keys_le

end Evicted

end PatternCache

end DocStore
