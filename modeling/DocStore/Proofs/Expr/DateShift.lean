import DocStore.Proofs.Calendar.Rfc3339
import DocStore.Proofs.Number.Exact
import DocStore.Proofs.Number.Sum

/-!
# Dates moved by milliseconds

A date and numbers of milliseconds add up to the instant that lies exactly so far from the date, or
to an error: `Operators.Shifted`. Integers are taken as they are and doubles as the nearest integer.
The difference of the two dates is the sum again, and taking milliseconds off a date is adding their
negative. Outside leap seconds an instant is its number of nanoseconds, which carries the proofs.
-/

set_option autoImplicit false

namespace DocStore

open Checked (Fits)

/-! ## Instants -/

namespace Instant

variable {d u : Instant} {ms : Int}

/-- The instant lies exactly so many milliseconds after another one, within the range of dates and
outside leap seconds. -/
structure After (d u : Instant) (ms : Int) : Prop where
  inRange : u.inRange = true
  notLeap : u.isLeap = false
  exact : u.toNanos = d.toNanos + ms * 1000000

theorem nanos_lt_of_not_leap (h : u.isLeap = false) : u.nanos < 1000000000 := by
  have hlt : ¬ 1000000000 ≤ u.nanos := of_decide_eq_false h
  omega

theorem isLeap_ofNanos (n : Int) : (ofNanos n).isLeap = false := by
  have hlt : (n % second).toNat < second := by
    unfold second
    omega
  exact decide_eq_false (Nat.not_le.2 hlt)

theorem toNanos_ofNanos (n : Int) : (ofNanos n).toNanos = n := by
  show n / second * second + ((n % second).toNat : Int) = n
  unfold second
  omega

/-- Outside leap seconds an instant is its number of nanoseconds. -/
theorem ofNanos_toNanos (h : u.isLeap = false) : ofNanos u.toNanos = u := by
  have hnanos := nanos_lt_of_not_leap h
  obtain ⟨seconds, nanos⟩ := u
  simp only [ofNanos, toNanos, second, Instant.mk.injEq] at hnanos ⊢
  omega

/-- **A move by milliseconds** is exact where it succeeds. -/
theorem addMillis?_eq_some_iff (hleap : d.isLeap = false) :
    d.addMillis? ms = some u ↔ d.After u ms := by
  have hmove : d.addMillis? ms = checked? (ofNanos (d.toNanos + ms * 1000000)) := by
    rw [addMillis?, hleap]
    rfl
  rw [hmove, checked?_eq_some]
  constructor
  · rintro ⟨hrange, rfl⟩
    exact ⟨hrange, isLeap_ofNanos _, toNanos_ofNanos _⟩
  · intro h
    have hsame : ofNanos (d.toNanos + ms * 1000000) = u := by
      rw [← h.exact, ofNanos_toNanos h.notLeap]
    exact ⟨hsame ▸ h.inRange, hsame⟩

/-- What lies below the millisecond is kept. -/
theorem After.nanos_mod (h : d.After u ms) : u.nanos % 1000000 = d.nanos % 1000000 := by
  have hexact := h.exact
  unfold toNanos second at hexact
  omega

/-- The milliseconds are counted again. -/
theorem After.millisSince_eq (h : d.After u ms) (hleap : d.isLeap = false) :
    u.millisSince d = ms := by
  have hbetween : leapBetween u d = 0 := by simp [leapBetween, hleap, h.notLeap]
  have hnanos : u.toNanos - d.toNanos + leapBetween u d * second = ms * millisecond := by
    rw [hbetween, h.exact]
    unfold millisecond
    omega
  rw [millisSince, hnanos]
  exact Int.mul_tdiv_cancel ms (by decide)

/-- No two dates are 10^17 milliseconds apart. -/
theorem not_after_of_far (hrange : d.inRange = true) (hleap : d.isLeap = false)
    (hfar : ms ≤ -10 ^ 17 ∨ 10 ^ 17 ≤ ms) : ¬ d.After u ms := by
  intro h
  have hexact := h.exact
  have hnanos := nanos_lt_of_not_leap hleap
  have hnanos' := nanos_lt_of_not_leap h.notLeap
  -- All dates lie within 10^8 days of 1970, so that a move takes less than 2 * 10^16 milliseconds.
  have hdays (t : Instant) (ht : t.inRange = true) :
      -100000000 ≤ t.seconds / 86400 ∧ t.seconds / 86400 ≤ 100000000 := by
    rw [inRange, Bool.and_eq_true, decide_eq_true_eq, decide_eq_true_eq] at ht
    exact ⟨le_trans (by decide) ht.1, le_trans ht.2 (by decide)⟩
  have hfrom := hdays d hrange
  have hto := hdays u h.inRange
  unfold toNanos second at hexact
  omega

end Instant

/-! ## Milliseconds -/

namespace Operators

/-- The milliseconds that a number stands for beside a date. A double stands for the nearest
integer, of two for the one farther from zero. -/
inductive Millis : Value → Int64 → Prop where
  | int (n : Int64) : Millis (.int n) n
  | float {f : Float} {n : Int64} (hfinite : Binary64.isFinite f = true)
      (hnearest : Binary64.NearestInteger (Binary64.scaled f) Binary64.unit n.toInt) :
      Millis (.float f) n

theorem wholeMillis_eq_ok_iff {f : Float} {n : Int64} : wholeMillis f = .ok n ↔
    Binary64.isFinite f = true ∧ n.toInt = Binary64.roundHalfAway f := by
  rw [← Checked.ofInt?_eq_some_iff, wholeMillis]
  cases Binary64.isFinite f with
  | false => simp
  | true => cases Checked.ofInt? (Binary64.roundHalfAway f) <;> simp

theorem wholeMillis_cases (f : Float) : (∃ n, wholeMillis f = .ok n) ∨
    wholeMillis f = .error (.arithmetic .dateRange) := by
  unfold wholeMillis
  split
  · exact .inl ⟨_, rfl⟩
  · exact .inr rfl

/-- **One number.** It stands for milliseconds, or there is an error. -/
theorem offset_cases {v : Value} (hv : v.isNumber = true) :
    (∃ n, Millis v n ∧ offset v = .ok (some n)) ∨
      (∀ n, ¬ Millis v n) ∧ offset v = .error (.arithmetic .dateRange) := by
  cases v with
  | int n => exact .inl ⟨n, .int n, rfl⟩
  | float f =>
      rcases wholeMillis_cases f with ⟨n, hn⟩ | herror
      · obtain ⟨hfinite, hround⟩ := wholeMillis_eq_ok_iff.1 hn
        refine .inl ⟨n, .float hfinite (Binary64.nearestInteger_iff.2 hround), ?_⟩
        rw [offset, hn]
        rfl
      · refine .inr ⟨?_, ?_⟩
        · rintro n (_ | ⟨hfinite, hnearest⟩)
          have hok := wholeMillis_eq_ok_iff.2 ⟨hfinite, Binary64.nearestInteger_iff.1 hnearest⟩
          cases hok.symm.trans herror
        · rw [offset, herror]
          rfl
  | _ => cases hv

theorem Millis.offset_eq {v : Value} {n : Int64} (h : Millis v n) : offset v = .ok (some n) := by
  cases h with
  | int n => rfl
  | float hfinite hnearest =>
      rw [offset, wholeMillis_eq_ok_iff.2 ⟨hfinite, Binary64.nearestInteger_iff.1 hnearest⟩]
      rfl

section Total

variable {v : Value} {values : List Value} {total n : Int64}

theorem totalOffset_cons_of_error {e : Error} (h : offset v = .error e) :
    totalOffset total (v :: values) = .error e := by
  simp [totalOffset, h, bind, Except.bind]

theorem totalOffset_cons_of_some {total' : Int64} (h : offset v = .ok (some n))
    (hadd : Checked.add? total n = some total') :
    totalOffset total (v :: values) = totalOffset total' values := by
  simp [totalOffset, h, hadd, bind, Except.bind]

theorem totalOffset_cons_of_none (h : offset v = .ok (some n))
    (hadd : Checked.add? total n = none) :
    totalOffset total (v :: values) = .error (.arithmetic .dateRange) := by
  simp [totalOffset, h, hadd, bind, Except.bind]

/-- Either all numbers stand for milliseconds or there is one that does not. -/
theorem exists_millis_or (hnumbers : ∀ v ∈ values, v.isNumber = true) :
    (∃ ns, List.Forall₂ Millis values ns) ∨ ∃ v ∈ values, ∀ n, ¬ Millis v n := by
  induction values with
  | nil => exact .inl ⟨[], .nil⟩
  | cons v rest ih =>
      obtain ⟨hv, hrest⟩ := List.forall_mem_cons.1 hnumbers
      rcases offset_cases hv with ⟨n, hn, -⟩ | ⟨hnone, -⟩
      · rcases ih hrest with ⟨ns, hns⟩ | ⟨w, hw, hnone⟩
        · exact .inl ⟨n :: ns, .cons hn hns⟩
        · exact .inr ⟨w, List.mem_cons_of_mem v hw, hnone⟩
      · exact .inr ⟨v, List.mem_cons_self, hnone⟩

theorem totalOffset_of_not_millis (hnumbers : ∀ v ∈ values, v.isNumber = true)
    (h : ∃ v ∈ values, ∀ n, ¬ Millis v n) (total : Int64) :
    totalOffset total values = .error (.arithmetic .dateRange) := by
  induction values generalizing total with
  | nil =>
      obtain ⟨v, hv, -⟩ := h
      cases hv
  | cons v rest ih =>
      obtain ⟨hv, hrest⟩ := List.forall_mem_cons.1 hnumbers
      rcases offset_cases hv with ⟨n, hn, hoffset⟩ | ⟨-, herror⟩
      · obtain ⟨w, hw, hnone⟩ := h
        have hlater : w ∈ rest := by
          rcases List.mem_cons.1 hw with rfl | hw
          · exact absurd hn (hnone n)
          · exact hw
        -- An overflow on the way to that number is the same error.
        cases hadd : Checked.add? total n with
        | none => exact totalOffset_cons_of_none hoffset hadd
        | some total' =>
            rw [totalOffset_cons_of_some hoffset hadd]
            exact ih hrest ⟨w, hlater, hnone⟩ total'
      · exact totalOffset_cons_of_error herror

/-- **All numbers.** After others whose sums fit, the sum is the exact one if all sums on the way
fit, and an error otherwise. -/
theorem totalOffset_cases {before ns : List Int64} {total : Int64}
    (hbefore : Arithmetic.add.Fit before) (htotal : total.toInt = (before.map (·.toInt)).sum)
    (h : List.Forall₂ Millis values ns) :
    (∃ ms, totalOffset total values = .ok (some ms) ∧ Arithmetic.add.Fit (before ++ ns) ∧
        ms.toInt = ((before ++ ns).map (·.toInt)).sum) ∨
      totalOffset total values = .error (.arithmetic .dateRange) ∧
        ¬ Arithmetic.add.Fit (before ++ ns) := by
  -- Whether the rest fits depends on the total that it starts from, so what came before varies.
  induction h generalizing before total with
  | nil =>
      rw [List.append_nil]
      exact .inl ⟨total, rfl, hbefore, htotal⟩
  | @cons v n rest ns hn _ ih =>
      have hsum : total.toInt + n.toInt = ((before ++ [n]).map (·.toInt)).sum := by
        simp [htotal]
      have hfit : Arithmetic.add.Fit (before ++ [n]) ↔ Fits (total.toInt + n.toInt) := by
        rw [Arithmetic.fit_concat, hsum]
        exact and_iff_right hbefore
      rw [List.append_cons]
      cases hadd : Checked.add? total n with
      | some total' =>
          have htotal' := Checked.ofInt?_eq_some_iff.1 hadd
          rw [totalOffset_cons_of_some hn.offset_eq hadd]
          exact ih (hfit.2 (htotal' ▸ Checked.fits_toInt total')) (htotal'.trans hsum)
      | none =>
          refine .inr ⟨totalOffset_cons_of_none hn.offset_eq hadd, fun hall => ?_⟩
          have hfits : Fits (total.toInt + n.toInt) := hsum ▸ hall.left
          obtain ⟨k, hk⟩ := hfits.exists_toInt
          rw [Checked.add?, Checked.ofInt?_eq_some_iff.2 hk] at hadd
          cases hadd

end Total

/-! ## Sums with a date -/

theorem takeDate?_append {before : List Value} (h : ∀ v ∈ before, v.isNumber = true) (d : Instant)
    (after : List Value) : takeDate? (before ++ .date d :: after) = some (d, before ++ after) := by
  induction before with
  | nil => rfl
  | cons v rest ih =>
      obtain ⟨hv, hrest⟩ := List.forall_mem_cons.1 h
      cases v with
      | int _ | float _ =>
          show (takeDate? (rest ++ .date d :: after)).map _ = _
          rw [ih hrest]
          rfl
      | _ => cases hv

section Sum

variable {d : Instant} {before after : List Value}

/-- A sum with a date moves the date by the sum of the numbers. -/
theorem sum_of_ok (hbefore : ∀ v ∈ before, v.isNumber = true) {ms : Int64}
    (h : totalOffset 0 (before ++ after) = .ok (some ms)) :
    sum (before ++ .date d :: after) = shift d ms.toInt := by
  rw [sum, takeDate?_append hbefore]
  show totalOffset 0 (before ++ after) >>= _ = _
  rw [h]
  rfl

theorem sum_of_error (hbefore : ∀ v ∈ before, v.isNumber = true) {e : Error}
    (h : totalOffset 0 (before ++ after) = .error e) :
    sum (before ++ .date d :: after) = .error e := by
  rw [sum, takeDate?_append hbefore]
  show totalOffset 0 (before ++ after) >>= _ = _
  rw [h]
  rfl

theorem sum_of_not_millis (hnumbers : ∀ v ∈ before ++ after, v.isNumber = true)
    (h : ∃ v ∈ before ++ after, ∀ n, ¬ Millis v n) :
    sum (before ++ .date d :: after) = .error (.arithmetic .dateRange) :=
  sum_of_error (List.forall_mem_append.1 hnumbers).1 (totalOffset_of_not_millis hnumbers h 0)

/-- **A date among numbers** is moved by their sum, if the sums on the way fit. -/
theorem sum_cases (hnumbers : ∀ v ∈ before ++ after, v.isNumber = true) {ns : List Int64}
    (h : List.Forall₂ Millis (before ++ after) ns) :
    Arithmetic.add.Fit ns ∧
        sum (before ++ .date d :: after) = shift d (ns.map (·.toInt)).sum ∨
      ¬ Arithmetic.add.Fit ns ∧
        sum (before ++ .date d :: after) = .error (.arithmetic .dateRange) := by
  have hbefore := (List.forall_mem_append.1 hnumbers).1
  have hzero : (0 : Int64).toInt = (([] : List Int64).map (·.toInt)).sum := rfl
  rcases totalOffset_cases (Arithmetic.fit_nil .add) hzero h with
    ⟨ms, htotal, hfit, hms⟩ | ⟨herror, hfit⟩
  · rw [List.nil_append] at hfit hms
    rw [← hms]
    exact .inl ⟨hfit, sum_of_ok hbefore htotal⟩
  · exact .inr ⟨hfit, sum_of_error hbefore herror⟩

end Sum

theorem shift_eq_ok_iff {d : Instant} {ms : Int} (hleap : d.isLeap = false) {u : Instant} :
    shift d ms = .ok (.date u) ↔ d.After u ms := by
  rw [← Instant.addMillis?_eq_some_iff hleap, shift]
  cases d.addMillis? ms <;> simp

theorem shift_eq_error {d : Instant} {ms : Int} (hleap : d.isLeap = false)
    (h : ∀ u, ¬ d.After u ms) : shift d ms = .error (.arithmetic .dateRange) := by
  have hnone : d.addMillis? ms = none := Option.eq_none_iff_forall_ne_some.2 fun u hu =>
    h u ((Instant.addMillis?_eq_some_iff hleap).1 hu)
  rw [shift, hnone]

/-- **A date moved by numbers of milliseconds.** The result is the date that lies exactly the sum of
the numbers later if every sum on the way is a machine integer and there is such a date, and an
error in just the other cases. -/
structure Shifted (d : Instant) (numbers : List Value) (result : Result Value) : Prop where
  date : ∀ u, result = .ok (.date u) ↔ ∃ ns : List Int64, List.Forall₂ Millis numbers ns ∧
    Arithmetic.add.Fit ns ∧ d.After u (ns.map (·.toInt)).sum
  error : result = .error (.arithmetic .dateRange) ↔ (∃ v ∈ numbers, ∀ n, ¬ Millis v n) ∨
    ∃ ns : List Int64, List.Forall₂ Millis numbers ns ∧
      (¬ Arithmetic.add.Fit ns ∨ ∀ u, ¬ d.After u (ns.map (·.toInt)).sum)
  /-- What lies below the millisecond stays. -/
  finer : ∀ u, result = .ok (.date u) → u.nanos % 1000000 = d.nanos % 1000000
  /-- The difference of the dates is the sum. -/
  back : ∀ u, result = .ok (.date u) → ∀ ns : List Int64, List.Forall₂ Millis numbers ns →
    ∃ n : Int64, n.toInt = (ns.map (·.toInt)).sum ∧ ∀ (doc : Value) (a b : Expr),
      a.eval doc = .ok (.date u) → b.eval doc = .ok (.date d) →
        (Expr.subtract a b).eval doc = .ok (.int n)

theorem difference_of_after {d u : Instant} (hleap : d.isLeap = false) {n : Int64}
    (h : d.After u n.toInt) : difference (.date u) (.date d) = .ok (.int n) := by
  rw [difference, h.millisSince_eq hleap, Int64.ofInt_toInt]

section Shifted

variable {d u : Instant} (hleap : d.isLeap = false) {before after : List Value}
  (hnumbers : ∀ v ∈ before ++ after, v.isNumber = true)
include hleap hnumbers

section Millis

variable {ns : List Int64} (h : List.Forall₂ Millis (before ++ after) ns)
include h

theorem sum_eq_ok_iff : sum (before ++ .date d :: after) = .ok (.date u) ↔
    Arithmetic.add.Fit ns ∧ d.After u (ns.map (·.toInt)).sum := by
  rcases sum_cases hnumbers h with ⟨hfit, hsum⟩ | ⟨hfit, herror⟩
  · rw [hsum, shift_eq_ok_iff hleap]
    exact (and_iff_right hfit).symm
  · rw [herror]
    exact ⟨nofun, fun hmoved => absurd hmoved.1 hfit⟩

theorem sum_eq_error_iff : sum (before ++ .date d :: after) = .error (.arithmetic .dateRange) ↔
    ¬ Arithmetic.add.Fit ns ∨ ∀ u, ¬ d.After u (ns.map (·.toInt)).sum := by
  rcases sum_cases hnumbers h with ⟨hfit, hsum⟩ | ⟨hfit, herror⟩
  · rw [hsum, or_iff_right (not_not.2 hfit)]
    refine ⟨fun herror u hafter => ?_, shift_eq_error hleap⟩
    cases ((shift_eq_ok_iff hleap).2 hafter).symm.trans herror
  · exact iff_of_true herror (.inl hfit)

end Millis

omit hleap in
theorem exists_millis_of_sum (h : sum (before ++ .date d :: after) = .ok (.date u)) :
    ∃ ns, List.Forall₂ Millis (before ++ after) ns := by
  refine (exists_millis_or hnumbers).resolve_right fun hnone => ?_
  cases (sum_of_not_millis hnumbers hnone).symm.trans h

/-- **A date at any place among numbers** is moved by them. -/
theorem shifted_sum : Shifted d (before ++ after) (sum (before ++ .date d :: after)) where
  date u := by
    constructor
    · intro h
      obtain ⟨ns, hns⟩ := exists_millis_of_sum hnumbers h
      exact ⟨ns, hns, (sum_eq_ok_iff hleap hnumbers hns).1 h⟩
    · rintro ⟨ns, hns, hmoved⟩
      exact (sum_eq_ok_iff hleap hnumbers hns).2 hmoved
  error := by
    constructor
    · intro h
      rcases exists_millis_or hnumbers with ⟨ns, hns⟩ | hnone
      · exact .inr ⟨ns, hns, (sum_eq_error_iff hleap hnumbers hns).1 h⟩
      · exact .inl hnone
    · rintro (hnone | ⟨ns, hns, hfails⟩)
      · exact sum_of_not_millis hnumbers hnone
      · exact (sum_eq_error_iff hleap hnumbers hns).2 hfails
  finer u h := by
    obtain ⟨ns, hns⟩ := exists_millis_of_sum hnumbers h
    exact ((sum_eq_ok_iff hleap hnumbers hns).1 h).2.nanos_mod
  back u h ns hns := by
    obtain ⟨hfit, hafter⟩ := (sum_eq_ok_iff hleap hnumbers hns).1 h
    obtain ⟨n, hn⟩ := hfit.total.exists_toInt
    refine ⟨n, hn, fun doc a b ha hb => ?_⟩
    rw [Expr.eval_subtract ha hb]
    exact difference_of_after hleap (hn ▸ hafter)

end Shifted

/-! ## Differences -/

/-- A number with its negative. -/
inductive Negative : Value → Value → Prop where
  | int {n m : Int64} (h : m.toInt = -n.toInt) : Negative (.int n) (.int m)
  | float (f : Float) : Negative (.float f) (.float (-f))

theorem sum_pair_of_ok (d : Instant) {v : Value} {n : Int64} (h : offset v = .ok (some n)) :
    sum [.date d, v] = shift d n.toInt := by
  have hadd : Checked.add? 0 n = some n := by
    rw [Checked.add?, Checked.ofInt?_eq_some_iff]
    exact (Int.zero_add n.toInt).symm
  show sum ([] ++ .date d :: [v]) = _
  exact sum_of_ok (List.forall_mem_nil _) (totalOffset_cons_of_some h hadd)

theorem sum_pair_of_error (d : Instant) {v : Value} {e : Error} (h : offset v = .error e) :
    sum [.date d, v] = .error e := by
  show sum ([] ++ .date d :: [v]) = _
  exact sum_of_error (List.forall_mem_nil _) (totalOffset_cons_of_error h)

theorem sum_float (d : Instant) (f : Float) :
    sum [.date d, .float f] = (do shift d (← wholeMillis f).toInt) := by
  have hoffset : offset (.float f) = (wholeMillis f).map some := rfl
  cases h : wholeMillis f with
  | ok n =>
      rw [h] at hoffset
      exact sum_pair_of_ok d hoffset
  | error e =>
      rw [h] at hoffset
      exact sum_pair_of_error d hoffset

theorem shift_of_far {d : Instant} (hrange : d.inRange = true) (hleap : d.isLeap = false) {ms : Int}
    (hfar : ms ≤ -10 ^ 17 ∨ 10 ^ 17 ≤ ms) : shift d ms = .error (.arithmetic .dateRange) :=
  shift_eq_error hleap fun _ => Instant.not_after_of_far hrange hleap hfar

/-- The least integer is the only one whose negative stands for no milliseconds. -/
theorem toInt_of_opposite {f : Float} {n : Int64} (hfinite : Binary64.isFinite f = true)
    (hround : Binary64.roundHalfAway f = -n.toInt)
    (h : wholeMillis f = .error (.arithmetic .dateRange)) : n.toInt = -2 ^ 63 := by
  have hleast : -2 ^ 63 ≤ n.toInt := n.le_toInt
  by_contra hne
  have hfits : Fits (-n.toInt) := by
    have hmin : Int64.minValue.toInt = -2 ^ 63 := rfl
    have hmax : Int64.maxValue.toInt = 2 ^ 63 - 1 := rfl
    have hgreatest := n.toInt_lt
    unfold Fits
    omega
  obtain ⟨m, hm⟩ := hfits.exists_toInt
  cases (wholeMillis_eq_ok_iff.2 ⟨hfinite, hm.trans hround.symm⟩).symm.trans h

section Difference

variable {d : Instant} (hrange : d.inRange = true) (hleap : d.isLeap = false)
include hrange hleap

theorem difference_float_eq_sum (f : Float) :
    difference (.date d) (.float f) = sum [.date d, .float (-f)] := by
  have hdifference : difference (.date d) (.float f) =
      (do shift d (-(← wholeMillis f).toInt)) := rfl
  have hround (hfinite : Binary64.isFinite f = true) :
      Binary64.roundHalfAway (-f) = -Binary64.roundHalfAway f :=
    Binary64.roundHalfAway_neg (Binary64.isNaN_eq_false_of_isFinite hfinite)
  have hsign : Binary64.isFinite (-f) = Binary64.isFinite f := Binary64.isFinite_neg f
  rw [hdifference, sum_float]
  rcases wholeMillis_cases f with ⟨n, hn⟩ | hf <;>
    rcases wholeMillis_cases (-f) with ⟨m, hm⟩ | hf'
  · obtain ⟨hfinite, hn'⟩ := wholeMillis_eq_ok_iff.1 hn
    obtain ⟨-, hm'⟩ := wholeMillis_eq_ok_iff.1 hm
    rw [hround hfinite, ← hn'] at hm'
    rw [hn, hm]
    exact congrArg (shift d) hm'.symm
  · -- The least integer would be taken off, and no date lies so far ahead.
    obtain ⟨hfinite, hn'⟩ := wholeMillis_eq_ok_iff.1 hn
    have hround' : Binary64.roundHalfAway (-f) = -n.toInt := by rw [hround hfinite, hn']
    have hleast := toInt_of_opposite (hsign.trans hfinite) hround' hf'
    rw [hn, hf']
    exact shift_of_far hrange hleap (.inr (by omega))
  · -- The least integer would be added, and no date lies so far back.
    obtain ⟨hfinite, hm'⟩ := wholeMillis_eq_ok_iff.1 hm
    rw [hsign] at hfinite
    have hround' : Binary64.roundHalfAway f = -m.toInt := by
      rw [hm', hround hfinite, Int.neg_neg]
    have hleast := toInt_of_opposite hfinite hround' hf
    rw [hf, hm]
    exact (shift_of_far hrange hleap (.inl (by omega))).symm
  · rw [hf, hf']
    rfl

/-- **Taking a number of milliseconds off a date** is adding its negative. -/
theorem difference_eq_sum {x y : Value} (h : Negative x y) :
    difference (.date d) x = sum [.date d, y] := by
  cases h with
  | @int n m hm =>
      have hsum : sum [.date d, .int m] = shift d m.toInt := sum_pair_of_ok d rfl
      rw [hsum, hm]
      rfl
  | float f => exact difference_float_eq_sum hrange hleap f

end Difference

end Operators

/-! ## Expressions -/

open Operators (Negative Shifted)

/-- **Date arithmetic is exact or an error.** The sum of a date outside leap seconds, at any place
among numbers of milliseconds, is the date moved by exactly these, and the difference of a date and
a number is the sum of the date and the negative number. -/
theorem exact_dateArithmetic {d : Instant} (hrange : d.inRange = true) (hleap : d.isLeap = false)
    (doc : Value) :
    (∀ (args : List Expr) (before after : List Value),
      Expr.evalItems doc args = .ok (before ++ .date d :: after) →
        (∀ v ∈ before ++ after, v.isNumber = true) →
          Shifted d (before ++ after) ((Expr.add args).eval doc)) ∧
    ∀ (a b : Expr) (args : List Expr) (x y : Value), a.eval doc = .ok (.date d) →
      b.eval doc = .ok x → Expr.evalItems doc args = .ok [.date d, y] → Negative x y →
        (Expr.subtract a b).eval doc = (Expr.add args).eval doc := by
  refine ⟨fun args before after hargs hnumbers => ?_, fun a b args x y ha hb hargs h => ?_⟩
  · rw [Expr.eval_add hargs]
    exact Operators.shifted_sum hleap hnumbers
  · rw [Expr.eval_subtract ha hb, Expr.eval_add hargs]
    exact Operators.difference_eq_sum hrange hleap h

/-- An afternoon in March, half a microsecond past the hour. Half a millisecond counts as a whole
one, an overflow and a date too far ahead are errors, and a minute is taken off by adding its
negative. -/
theorem exact_dateArithmetic_march :
    let d : Instant := ⟨1741269600, 500⟩
    let half : Value := .float (Float.ofBits 0x3FE0000000000000)
    let constants (vs : List Value) : List Expr := vs.map .literal
    (Expr.add (constants [.int 90000, .date d, .int (-500), half])).eval .null =
        .ok (.date ⟨1741269689, 501000500⟩) ∧
      (Expr.add (constants [.date d, .int Int64.maxValue, .int 1])).eval .null =
        .error (.arithmetic .dateRange) ∧
      (Expr.add (constants [.int 100000000000000000, .date d])).eval .null =
        .error (.arithmetic .dateRange) ∧
      (Expr.subtract (.literal (.date d)) (.literal (.int 60000))).eval .null =
        (Expr.add (constants [.date d, .int (-60000)])).eval .null := by
  intro d half constants
  have hrange : d.inRange = true := by decide
  have hleap : d.isLeap = false := by decide
  obtain ⟨hadd, hsubtract⟩ := exact_dateArithmetic hrange hleap .null
  have hhalf : Operators.Millis half 1 :=
    .float (by decide) (Binary64.nearestInteger_iff.2 (by decide))
  have hmoved := hadd (constants [.int 90000, .date d, .int (-500), half]) [.int 90000]
    [.int (-500), half] rfl (by simp [half, Value.isNumber])
  have hoverflow := hadd (constants [.date d, .int Int64.maxValue, .int 1]) []
    [.int Int64.maxValue, .int 1] rfl (by simp [Value.isNumber])
  have hfar := hadd (constants [.int 100000000000000000, .date d]) [.int 100000000000000000] []
    rfl (by simp [Value.isNumber])
  refine ⟨(hmoved.date _).2 ⟨[90000, -500, 1], ?_, by decide, ?_⟩, hoverflow.error.2 (.inr ?_),
    hfar.error.2 (.inr ?_), hsubtract _ _ _ _ _ rfl rfl rfl (.int (by decide))⟩
  · exact .cons (.int _) (.cons (.int _) (.cons hhalf .nil))
  · exact ⟨by decide, by decide, by decide⟩
  · exact ⟨[Int64.maxValue, 1], .cons (.int _) (.cons (.int _) .nil), .inl (by decide)⟩
  · exact ⟨[100000000000000000], .cons (.int _) .nil, .inr fun u =>
      Instant.not_after_of_far hrange hleap (.inr (by decide))⟩

end DocStore
