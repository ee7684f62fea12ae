import Mathlib.Data.List.Forall2
import DocStore.Fields

/-!
# Computations that may fail

A computation that consists of others succeeds iff they do, each on what those before it gave. It
fails with errors of a kind only if they do: `FailsOnly`, with a rule for each way of building
computations. A condition `Settles` a computation if it tells whether the computation succeeds.
Two computations `Agree` if both of them fail, or neither does and their results are related; the
order in which the items of a list are computed does not count then.
-/

set_option autoImplicit false

namespace DocStore

variable {ε α β : Type}

theorem bind_eq_ok {x : Except ε α} {f : α → Except ε β} {b : β} :
    x.bind f = .ok b ↔ ∃ a, x = .ok a ∧ f a = .ok b := by
  cases x with
  | error e => simp [Except.bind]
  | ok a => simp [Except.bind]

theorem map_eq_ok {x : Except ε α} {f : α → β} {b : β} :
    x.map f = .ok b ↔ ∃ a, x = .ok a ∧ f a = b := by
  cases x with
  | error e => simp [Except.map]
  | ok a => simp [Except.map]

/-- Each item of a list gives one result. -/
theorem length_eq_of_mapM {f : α → Except ε β} {as : List α} {bs : List β}
    (h : as.mapM f = .ok bs) : as.length = bs.length := by
  induction as generalizing bs with
  | nil =>
      cases h
      rfl
  | cons a rest ih =>
      rw [List.mapM_cons] at h
      obtain ⟨b, -, h⟩ := bind_eq_ok.1 h
      obtain ⟨more, hmore, h⟩ := bind_eq_ok.1 h
      cases h
      exact congrArg Nat.succ (ih hmore)

/-- Two checks one after the other. -/
theorem andThen_eq_ok {x y : Except ε Unit} :
    (do x; y) = .ok () ↔ x = .ok () ∧ y = .ok () := by
  cases x with
  | error e => simp [bind, Except.bind]
  | ok u => simp [bind, Except.bind]

/-! ## Errors -/

/-- The error of two checks one after the other is the first one's, if there is one. -/
theorem andThen_eq_error {x y : Except ε Unit} {e : ε} :
    (do x; y) = .error e ↔ x = .error e ∨ x = .ok () ∧ y = .error e := by
  cases x with
  | error d => simp [bind, Except.bind]
  | ok u => simp [bind, Except.bind]

/-- **The error of checks one after the other is that of the first that fails.** -/
theorem forM_eq_error {check : α → Except ε Unit} {as : List α} {e : ε} :
    as.forM check = .error e ↔ ∃ before a after, as = before ++ a :: after ∧
      (∀ b ∈ before, check b = .ok ()) ∧ check a = .error e := by
  induction as with
  | nil => simp [pure, Except.pure]
  | cons a rest ih =>
      have hcons : (a :: rest).forM check = (do check a; rest.forM check) := rfl
      rw [hcons, andThen_eq_error, ih]
      constructor
      · rintro (ha | ⟨ha, before, b, after, rfl, hbefore, hb⟩)
        · exact ⟨[], a, rest, rfl, List.forall_mem_nil _, ha⟩
        · exact ⟨a :: before, b, after, rfl, List.forall_mem_cons.2 ⟨ha, hbefore⟩, hb⟩
      · rintro ⟨before, b, after, heq, hbefore, hb⟩
        cases before with
        | nil =>
            obtain ⟨rfl, -⟩ := List.cons.inj heq
            exact .inl hb
        | cons _ before =>
            obtain ⟨rfl, hrest⟩ := List.cons.inj heq
            obtain ⟨ha, hbefore⟩ := List.forall_mem_cons.1 hbefore
            exact .inr ⟨ha, before, b, after, hrest, hbefore, hb⟩

section FailsOnly

variable {P Q : ε → Prop} {x : Except ε α}

/-- Every error that a computation ends in has a property. -/
def FailsOnly (P : ε → Prop) (x : Except ε α) : Prop := ∀ e, x = .error e → P e

theorem failsOnly_ok (a : α) : FailsOnly P (.ok a : Except ε α) := nofun

theorem failsOnly_error {e : ε} (h : P e) : FailsOnly P (.error e : Except ε α) := by
  rintro _ ⟨⟩
  exact h

theorem FailsOnly.mono (h : FailsOnly P x) (hsub : ∀ e, P e → Q e) : FailsOnly Q x :=
  fun e he => hsub e (h e he)

theorem FailsOnly.bind_of_eq {f : α → Except ε β} (h : FailsOnly P x)
    (hnext : ∀ a, x = .ok a → FailsOnly P (f a)) : FailsOnly P (x >>= f) := by
  cases x with
  | error e => exact failsOnly_error (h e rfl)
  | ok a => exact hnext a rfl

theorem FailsOnly.bind {f : α → Except ε β} (h : FailsOnly P x) (hnext : ∀ a, FailsOnly P (f a)) :
    FailsOnly P (x >>= f) := h.bind_of_eq fun a _ => hnext a

theorem FailsOnly.map (h : FailsOnly P x) (f : α → β) : FailsOnly P (x.map f) := by
  cases x with
  | error e => exact failsOnly_error (h e rfl)
  | ok a => exact failsOnly_ok (f a)

theorem failsOnly_forM {check : α → Except ε PUnit} {as : List α}
    (h : ∀ a ∈ as, FailsOnly P (check a)) : FailsOnly P (as.forM check) := by
  induction as with
  | nil => exact failsOnly_ok _
  | cons a rest ih =>
      obtain ⟨ha, hrest⟩ := List.forall_mem_cons.1 h
      exact ha.bind fun _ => ih hrest

theorem failsOnly_mapM {f : α → Except ε β} {as : List α} (h : ∀ a ∈ as, FailsOnly P (f a)) :
    FailsOnly P (as.mapM f) := by
  induction as with
  | nil => exact failsOnly_ok _
  | cons a rest ih =>
      obtain ⟨ha, hrest⟩ := List.forall_mem_cons.1 h
      rw [List.mapM_cons]
      exact ha.bind fun b => (ih hrest).bind fun bs => failsOnly_ok (b :: bs)

theorem failsOnly_mapEntriesM {f : String → α → Except ε β} {m : Fields α}
    (h : ∀ e ∈ m, FailsOnly P (f e.1 e.2)) : FailsOnly P (Fields.mapEntriesM f m) := by
  induction m with
  | nil => exact failsOnly_ok _
  | cons e rest ih =>
      obtain ⟨he, hrest⟩ := List.forall_mem_cons.1 h
      exact he.bind fun w => (ih hrest).bind fun tail => failsOnly_ok ((e.1, w) :: tail)

end FailsOnly

/-! ## Conditions of success -/

section Settles

variable {P : ε → Prop} {p q : Prop} {x : Except ε α}

/-- A computation succeeds if a condition holds, and otherwise fails with an error of a kind. -/
def Settles (P : ε → Prop) (p : Prop) (x : Except ε α) : Prop :=
  (p ∧ ∃ a, x = .ok a) ∨ (¬ p ∧ ∃ e, x = .error e ∧ P e)

theorem settles_ok (h : p) (a : α) : Settles P p (.ok a : Except ε α) := .inl ⟨h, a, rfl⟩

theorem settles_error (h : ¬ p) {e : ε} (he : P e) : Settles P p (.error e : Except ε α) :=
  .inr ⟨h, e, rfl, he⟩

/-- A computation settles itself. -/
theorem settles_self (x : Except ε α) : Settles (fun _ => True) (∃ a, x = .ok a) x := by
  cases x with
  | error e => exact settles_error (by simp) trivial
  | ok a => exact settles_ok ⟨a, rfl⟩ a

theorem Settles.exists_ok_iff (h : Settles P p x) : (∃ a, x = .ok a) ↔ p := by
  obtain ⟨hp, a, rfl⟩ | ⟨hp, e, rfl, -⟩ := h
  · exact iff_of_true ⟨a, rfl⟩ hp
  · exact iff_of_false (by simp) hp

theorem Settles.congr (h : Settles P p x) (hpq : p ↔ q) : Settles P q x := by
  rwa [Settles, ← hpq]

theorem Settles.bind {f : α → Except ε β} (h : Settles P p x) (hnext : ∀ a, Settles P q (f a)) :
    Settles P (p ∧ q) (x >>= f) := by
  obtain ⟨hp, a, rfl⟩ | ⟨hp, e, rfl, he⟩ := h
  · exact (hnext a).congr ⟨fun hq => ⟨hp, hq⟩, fun hpq => hpq.2⟩
  · exact settles_error (fun hpq => hp hpq.1) he

theorem Settles.map (h : Settles P p x) (f : α → β) : Settles P p (f <$> x) := by
  obtain ⟨hp, a, rfl⟩ | ⟨hp, e, rfl, he⟩ := h
  · exact settles_ok hp (f a)
  · exact settles_error hp he

/-- Nothing that follows fails. -/
theorem Settles.bind_ok {f : α → β} (h : Settles P p x) :
    Settles P p (x >>= fun a => .ok (f a)) :=
  (h.bind fun a => settles_ok trivial (f a)).congr (and_iff_left trivial)

/-- Computing the items of a list succeeds iff each of them does. -/
theorem settles_mapM {r : α → Prop} {f : α → Except ε β} {as : List α}
    (h : ∀ a ∈ as, Settles P (r a) (f a)) : Settles P (∀ a ∈ as, r a) (as.mapM f) := by
  induction as with
  | nil => exact settles_ok (List.forall_mem_nil r) []
  | cons a rest ih =>
      obtain ⟨ha, hrest⟩ := List.forall_mem_cons.1 h
      rw [List.mapM_cons]
      refine (ha.bind fun b => (ih hrest).map (b :: ·)).congr ?_
      exact List.forall_mem_cons.symm

end Settles

/-! ## Lists up to order -/

section UpToOrder

variable {R : α → β → Prop} {as : List α} {bs : List β} {p : α → Bool} {q : β → Bool}

/-- Lists whose items are related one to one, in whatever order. -/
def UpToOrder (R : α → β → Prop) (as : List α) (bs : List β) : Prop :=
  ∃ cs, List.Forall₂ R as cs ∧ cs.Perm bs

theorem upToOrder_of_forall₂ (h : List.Forall₂ R as bs) : UpToOrder R as bs := ⟨bs, h, .refl bs⟩

theorem UpToOrder.all_eq (h : UpToOrder R as bs) (hpq : ∀ a b, R a b → p a = q b) :
    as.all p = bs.all q := by
  obtain ⟨cs, h, hperm⟩ := h
  rw [← hperm.all_eq]
  induction h generalizing bs with
  | nil => rfl
  | cons head _ ih => rw [List.all_cons, List.all_cons, hpq _ _ head, ih (.refl _)]

theorem UpToOrder.any_eq (h : UpToOrder R as bs) (hpq : ∀ a b, R a b → p a = q b) :
    as.any p = bs.any q := by
  obtain ⟨cs, h, hperm⟩ := h
  rw [← hperm.any_eq]
  induction h generalizing bs with
  | nil => rfl
  | cons head _ ih => rw [List.any_cons, List.any_cons, hpq _ _ head, ih (.refl _)]

end UpToOrder

/-! ## Agreement -/

section Agree

variable {γ δ ζ : Type} {R : α → β → Prop}

/-- Both computations fail, or neither does and their results are related. -/
inductive Agree (R : α → β → Prop) : Except ε α → Except δ β → Prop
  | ok {a : α} {b : β} (h : R a b) : Agree R (.ok a) (.ok b)
  | error (e : ε) (f : δ) : Agree R (.error e) (.error f)

variable {x : Except ε α} {y : Except δ β}

theorem Agree.ok_iff (h : Agree R x y) : (∃ a, x = .ok a) ↔ ∃ b, y = .ok b := by
  cases h with
  | ok => exact ⟨fun _ => ⟨_, rfl⟩, fun _ => ⟨_, rfl⟩⟩
  | error => exact ⟨nofun, nofun⟩

theorem Agree.rel {a : α} {b : β} (h : Agree R x y) (ha : x = .ok a) (hb : y = .ok b) : R a b := by
  subst ha hb
  cases h with
  | ok h => exact h

theorem agree_refl {S : α → α → Prop} (h : ∀ a, S a a) (x : Except ε α) : Agree S x x := by
  cases x with
  | error e => exact .error e e
  | ok a => exact .ok (h a)

theorem Agree.trans {S : β → γ → Prop} {z : Except ζ γ} (h : Agree R x y) (h' : Agree S y z) :
    Agree (fun a c => ∃ b, R a b ∧ S b c) x z := by
  cases h with
  | error e f =>
      cases h' with
      | error _ g => exact .error e g
  | ok h =>
      cases h' with
      | ok h' => exact .ok ⟨_, h, h'⟩

theorem Agree.mono {S : α → β → Prop} (h : Agree R x y) (hsub : ∀ a b, R a b → S a b) :
    Agree S x y := by
  cases h with
  | error e f => exact .error e f
  | ok h => exact .ok (hsub _ _ h)

theorem Agree.bind {S : γ → ζ → Prop} {f : α → Except ε γ} {g : β → Except δ ζ} (h : Agree R x y)
    (hnext : ∀ a b, R a b → Agree S (f a) (g b)) : Agree S (x >>= f) (y >>= g) := by
  cases h with
  | error e f => exact .error e f
  | ok h => exact hnext _ _ h

theorem Agree.map {S : γ → ζ → Prop} {f : α → γ} {g : β → ζ} (h : Agree R x y)
    (hnext : ∀ a b, R a b → S (f a) (g b)) : Agree S (f <$> x) (g <$> y) := by
  cases h with
  | error e f => exact .error e f
  | ok h => exact .ok (hnext _ _ h)

theorem agree_mapM {f : α → Except ε γ} {g : β → Except δ ζ} {S : γ → ζ → Prop} {as : List α}
    {bs : List β} (h : List.Forall₂ (fun a b => Agree S (f a) (g b)) as bs) :
    Agree (List.Forall₂ S) (as.mapM f) (bs.mapM g) := by
  induction h with
  | nil => exact .ok .nil
  | cons head _ ih =>
      rw [List.mapM_cons, List.mapM_cons]
      exact head.bind fun _ _ hc => ih.bind fun _ _ hcs => .ok (.cons hc hcs)

/-- Computing the items of a list in another order gives the results in that order. -/
theorem agree_mapM_perm {f : α → Except ε γ} {as bs : List α} (h : as.Perm bs) :
    Agree List.Perm (as.mapM f) (bs.mapM f) := by
  induction h with
  | nil => exact .ok .nil
  | cons a _ ih =>
      rw [List.mapM_cons, List.mapM_cons]
      exact (agree_refl (fun _ => rfl) (f a)).bind fun _ _ hc =>
        ih.bind fun _ _ hcs => .ok (hc ▸ hcs.cons _)
  | swap a b rest =>
      simp only [List.mapM_cons]
      cases f a with
      | error e =>
          cases f b with
          | error e' => exact .error _ _
          | ok d => exact .error _ _
      | ok c =>
          cases f b with
          | error e' => exact .error _ _
          | ok d =>
              cases rest.mapM f with
              | error e => exact .error _ _
              | ok cs => exact .ok (.swap c d cs)
  | trans _ _ ih ih' => exact (ih.trans ih').mono fun _ _ ⟨_, h, h'⟩ => h.trans h'

/-- Items that are computed alike, in whatever order, have results that are related so. -/
theorem agree_mapM_upToOrder {f : α → Except ε γ} {g : β → Except δ ζ} {S : γ → ζ → Prop}
    {as : List α} {bs cs : List β} (h : List.Forall₂ (fun a b => Agree S (f a) (g b)) as bs)
    (hperm : bs.Perm cs) : Agree (UpToOrder S) (as.mapM f) (cs.mapM g) :=
  (agree_mapM h).trans (agree_mapM_perm hperm)

end Agree

end DocStore
