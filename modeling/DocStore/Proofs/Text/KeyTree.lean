import DocStore.Proofs.Text.Quoted

/-!
# Texts with brackets

A `KeyTree` is what the key of a value looks like: words, quoted texts, and items and named entries
in brackets, with commas between them. A tree can be read off its text (`render_append_inj`), since
a word holds no bracket and no comma, and a quoted text ends at its quote.
-/

set_option autoImplicit false

namespace DocStore

/-- A character that is no quote, no comma and no bracket. -/
def isWordChar (c : Char) : Bool :=
  c != '"' && c != ',' && c != '[' && c != ']' && c != '\x7b' && c != '\x7d'

/-- A text that is a word. -/
def WordText (text : String) : Prop := text.toList ≠ [] ∧ ∀ c ∈ text.toList, isWordChar c = true

instance (text : String) : Decidable (WordText text) :=
  @instDecidableAnd _ _ _ (List.decidableBAll _ text.toList)

/-- A word. -/
structure Word where
  text : String
  isWord : WordText text

/-- The parts of a key. -/
inductive KeyTree where
  | word (w : Word)
  | string (s : String)
  | array (items : List KeyTree)
  | object (fields : List (String × KeyTree))

namespace KeyTree

/-! ## Texts -/

mutual

/-- The text of a tree. -/
def render : KeyTree → List Char
  | word w => w.text.toList
  | string s => 's' :: ':' :: (Quoted.encode s).toList
  | array items => '[' :: ([','].intercalate (renderItems items) ++ [']'])
  | object fields => '\x7b' :: ([','].intercalate (renderFields fields) ++ ['\x7d'])

/-- The texts of items. -/
def renderItems : List KeyTree → List (List Char)
  | [] => []
  | t :: rest => render t :: renderItems rest

/-- The texts of named entries. -/
def renderFields : List (String × KeyTree) → List (List Char)
  | [] => []
  | (k, t) :: rest => ((Quoted.encode k).toList ++ ':' :: render t) :: renderFields rest

end

/-- The text of a named entry. -/
def renderField (e : String × KeyTree) : List Char :=
  (Quoted.encode e.1).toList ++ ':' :: render e.2

theorem renderItems_eq_map : ∀ items : List KeyTree, renderItems items = items.map render
  | [] => by rw [renderItems, List.map_nil]
  | t :: rest => by rw [renderItems, List.map_cons, renderItems_eq_map rest]

theorem renderFields_eq_map : ∀ fields : List (String × KeyTree),
    renderFields fields = fields.map renderField
  | [] => by rw [renderFields, List.map_nil]
  | (k, t) :: rest => by
    rw [renderFields, List.map_cons, renderFields_eq_map rest, renderField]

/-! ## Ends -/

/-- What may follow a tree: nothing, a comma or a closing bracket. -/
def Ends (cs : List Char) : Prop := ∀ c ∈ cs.head?, c = ',' ∨ c = ']' ∨ c = '\x7d'

theorem ends_cons {c : Char} {cs : List Char} (h : c = ',' ∨ c = ']' ∨ c = '\x7d') :
    Ends (c :: cs) := by
  rintro d hd
  cases hd
  exact h

theorem Ends.not_wordChar {cs : List Char} (h : Ends cs) :
    ∀ c ∈ cs.head?, isWordChar c = false := by
  intro c hc
  rcases h c hc with rfl | rfl | rfl <;> rfl

/-! ## Commas -/

section Commas

variable {α : Type} {f : α → List Char} {close : Char} {r s : List Char}

theorem intercalate_comma_cons (x : List Char) (xs : List (List Char)) :
    [','].intercalate (x :: xs) = x ++ xs.flatMap (',' :: ·) := by
  induction xs generalizing x with
  | nil => simp
  | cons y ys ih => simp [List.intercalate_cons_cons, ih]

/-- What follows a text in a list of texts. -/
theorem ends_flatMap_comma (hclose : close = ',' ∨ close = ']' ∨ close = '\x7d')
    (xs : List (List Char)) (r : List Char) : Ends (xs.flatMap (',' :: ·) ++ close :: r) := by
  cases xs with
  | nil => exact ends_cons hclose
  | cons x xs => exact ends_cons (.inl rfl)

/-- Further texts, a comma before each, are told apart if each of them is. -/
theorem flatMap_comma_append_inj (hclose : close = ']' ∨ close = '\x7d') {xs ys : List α}
    (hf : ∀ x ∈ xs, ∀ y r s, Ends r → Ends s → f x ++ r = f y ++ s → x = y ∧ r = s)
    (h : (xs.map f).flatMap (',' :: ·) ++ close :: r =
      (ys.map f).flatMap (',' :: ·) ++ close :: s) : xs = ys ∧ r = s := by
  have hcomma : close ≠ ',' := by
    rintro rfl
    exact absurd hclose (by decide)
  induction xs generalizing ys with
  | nil =>
      cases ys with
      | nil => exact ⟨rfl, (List.cons.inj h).2⟩
      | cons y ys => exact absurd (List.cons.inj h).1 hcomma
  | cons x xs ih =>
      cases ys with
      | nil => exact absurd (List.cons.inj h).1.symm hcomma
      | cons y ys =>
          -- A comma or the bracket follows the first text, and both end it.
          obtain ⟨hx, hxs⟩ := List.forall_mem_cons.1 hf
          rw [List.map_cons, List.map_cons, List.flatMap_cons, List.flatMap_cons, List.append_assoc,
            List.append_assoc] at h
          obtain ⟨rfl, hmore⟩ := hx y _ _ (ends_flatMap_comma (.inr hclose) _ r)
            (ends_flatMap_comma (.inr hclose) _ s) (List.cons.inj h).2
          obtain ⟨rfl, rfl⟩ := ih hxs hmore
          exact ⟨rfl, rfl⟩

/-- **Lists of texts**, with commas between them and a bracket after them, are told apart if the
texts are, and none of them starts with the bracket. -/
theorem intercalate_comma_append_inj (hclose : close = ']' ∨ close = '\x7d')
    (hstart : ∀ a, ∃ c cs, f a = c :: cs ∧ c ≠ close) {xs ys : List α}
    (hf : ∀ x ∈ xs, ∀ y r s, Ends r → Ends s → f x ++ r = f y ++ s → x = y ∧ r = s)
    (h : [','].intercalate (xs.map f) ++ close :: r =
      [','].intercalate (ys.map f) ++ close :: s) : xs = ys ∧ r = s := by
  cases xs with
  | nil =>
      cases ys with
      | nil => exact ⟨rfl, (List.cons.inj h).2⟩
      | cons y ys =>
          obtain ⟨c, cs, hy, hc⟩ := hstart y
          rw [List.map_cons, intercalate_comma_cons, hy] at h
          exact absurd (List.cons.inj h).1.symm hc
  | cons x xs =>
      cases ys with
      | nil =>
          obtain ⟨c, cs, hx, hc⟩ := hstart x
          rw [List.map_cons, intercalate_comma_cons, hx] at h
          exact absurd (List.cons.inj h).1 hc
      | cons y ys =>
          obtain ⟨hx, hxs⟩ := List.forall_mem_cons.1 hf
          rw [List.map_cons, List.map_cons, intercalate_comma_cons, intercalate_comma_cons,
            List.append_assoc, List.append_assoc] at h
          obtain ⟨rfl, hmore⟩ := hx y _ _ (ends_flatMap_comma (.inr hclose) _ r)
            (ends_flatMap_comma (.inr hclose) _ s) h
          obtain ⟨rfl, rfl⟩ := flatMap_comma_append_inj hclose hxs hmore
          exact ⟨rfl, rfl⟩

end Commas

/-! ## Reading -/

/-- No tree starts with a closing bracket. -/
theorem exists_render (t : KeyTree) : ∃ c cs, render t = c :: cs ∧ c ≠ ']' := by
  cases t with
  | word w =>
      obtain ⟨hnonempty, hchars⟩ := w.isWord
      obtain ⟨c, cs, htext⟩ := List.exists_cons_of_ne_nil hnonempty
      refine ⟨c, cs, htext, ?_⟩
      rintro rfl
      exact absurd (hchars ']' (htext ▸ List.mem_cons_self)) (by decide)
  | string s => exact ⟨'s', _, rfl, by decide⟩
  | array items => exact ⟨'[', _, rfl, by decide⟩
  | object fields => exact ⟨'\x7b', _, rfl, by decide⟩

/-- Every named entry starts with a quote. -/
theorem exists_renderField (e : String × KeyTree) :
    ∃ c cs, renderField e = c :: cs ∧ c ≠ '\x7d' := by
  obtain ⟨cs, hquoted⟩ := Quoted.exists_encode e.1
  refine ⟨'"', cs ++ ':' :: render e.2, ?_, by decide⟩
  rw [renderField, hquoted]
  rfl

/-- A word is told apart from what follows it, and from every other kind of tree. -/
theorem word_append_inj (w : Word) (t : KeyTree) {r s : List Char} (hr : Ends r) (hs : Ends s)
    (h : w.text.toList ++ r = render t ++ s) : word w = t ∧ r = s := by
  obtain ⟨hnonempty, hchars⟩ := w.isWord
  cases t with
  | word w' =>
      obtain ⟨htext, hrest⟩ := Quoted.run_append_inj hchars w'.isWord.2 hr.not_wordChar
        hs.not_wordChar h
      cases w
      cases w'
      cases String.toList_injective htext
      exact ⟨rfl, hrest⟩
  | string s' =>
      -- After the letter and the colon the word would have to end, but not with a quote.
      obtain ⟨cs, hquoted⟩ := Quoted.exists_encode s'
      rw [render, hquoted] at h
      have hmark : WordText "s:" := by decide
      obtain ⟨-, hrest⟩ := Quoted.run_append_inj (y := ['s', ':']) (s := '"' :: cs ++ s) hchars
        hmark.2 hr.not_wordChar (by intro c hc; cases hc; rfl) h
      subst hrest
      rcases hr '"' rfl with heq | heq | heq <;> cases heq
  | array items =>
      rw [render] at h
      have hempty := Quoted.run_append_inj (y := [])
        (s := '[' :: ([','].intercalate (renderItems items) ++ [']']) ++ s)
        hchars (by simp) hr.not_wordChar (by intro c hc; cases hc; rfl) h
      exact absurd hempty.1 hnonempty
  | object fields =>
      rw [render] at h
      have hempty := Quoted.run_append_inj (y := [])
        (s := '\x7b' :: ([','].intercalate (renderFields fields) ++ ['\x7d']) ++ s)
        hchars (by simp) hr.not_wordChar (by intro c hc; cases hc; rfl) h
      exact absurd hempty.1 hnonempty

mutual

/-- **A tree can be read off its text**, whatever may follow it. -/
theorem render_append_inj : (x y : KeyTree) → {r s : List Char} → Ends r → Ends s →
    render x ++ r = render y ++ s → x = y ∧ r = s
  | word w, y, _, _, hr, hs, h => word_append_inj w y hr hs h
  | string a, y, r, s, hr, hs, h => by
    cases y with
    | word w =>
        obtain ⟨heq, hrest⟩ := word_append_inj w (string a) hs hr h.symm
        exact ⟨heq.symm, hrest.symm⟩
    | string b =>
        rw [render, render] at h
        have hquoted : (Quoted.encode a).toList ++ r = (Quoted.encode b).toList ++ s :=
          (List.cons.inj (List.cons.inj h).2).2
        obtain ⟨rfl, rfl⟩ := Quoted.encode_append_inj hquoted
        exact ⟨rfl, rfl⟩
    | array | object =>
        rw [render, render] at h
        exact absurd (List.cons.inj h).1 (by decide)
  | array as, y, r, s, hr, hs, h => by
    cases y with
    | word w =>
        obtain ⟨heq, hrest⟩ := word_append_inj w (array as) hs hr h.symm
        exact ⟨heq.symm, hrest.symm⟩
    | array bs =>
        rw [render, render, renderItems_eq_map, renderItems_eq_map, List.cons_append,
          List.cons_append, List.append_assoc, List.append_assoc] at h
        obtain ⟨rfl, rfl⟩ := intercalate_comma_append_inj (.inl rfl) exists_render
          (render_append_inj_of_mem as) (List.cons.inj h).2
        exact ⟨rfl, rfl⟩
    | string | object =>
        rw [render, render] at h
        exact absurd (List.cons.inj h).1 (by decide)
  | object as, y, r, s, hr, hs, h => by
    cases y with
    | word w =>
        obtain ⟨heq, hrest⟩ := word_append_inj w (object as) hs hr h.symm
        exact ⟨heq.symm, hrest.symm⟩
    | object bs =>
        rw [render, render, renderFields_eq_map, renderFields_eq_map, List.cons_append,
          List.cons_append, List.append_assoc, List.append_assoc] at h
        obtain ⟨rfl, rfl⟩ := intercalate_comma_append_inj (.inr rfl) exists_renderField
          (renderField_append_inj_of_mem as) (List.cons.inj h).2
        exact ⟨rfl, rfl⟩
    | string | array =>
        rw [render, render] at h
        exact absurd (List.cons.inj h).1 (by decide)

theorem render_append_inj_of_mem : (items : List KeyTree) → ∀ x ∈ items, ∀ y r s, Ends r →
    Ends s → render x ++ r = render y ++ s → x = y ∧ r = s
  | [] => List.forall_mem_nil _
  | x :: rest => List.forall_mem_cons.2
    ⟨fun y _ _ hr hs h => render_append_inj x y hr hs h, render_append_inj_of_mem rest⟩

theorem renderField_append_inj_of_mem : (fields : List (String × KeyTree)) → ∀ e ∈ fields,
    ∀ f r s, Ends r → Ends s → renderField e ++ r = renderField f ++ s → e = f ∧ r = s
  | [] => List.forall_mem_nil _
  | (k, x) :: rest => by
    refine List.forall_mem_cons.2 ⟨?_, renderField_append_inj_of_mem rest⟩
    rintro ⟨l, y⟩ r s hr hs h
    rw [renderField, renderField, List.append_assoc, List.append_assoc] at h
    obtain ⟨rfl, htree⟩ := Quoted.encode_append_inj h
    obtain ⟨rfl, rfl⟩ := render_append_inj x y hr hs (List.cons.inj htree).2
    exact ⟨rfl, rfl⟩

end

theorem render_injective {x y : KeyTree} (h : render x = render y) : x = y :=
  (render_append_inj x y (r := []) (s := []) nofun nofun (by rw [h])).1

end KeyTree

end DocStore
