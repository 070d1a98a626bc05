import GeoRules.Text.Integer
import Mathlib.Data.List.Induction
import Mathlib.Data.Nat.Notation
import Mathlib.Data.Nat.Digits.Defs
import Mathlib.Tactic.IntervalCases

/-! # Numbers are read back from their digits

The digits of a number are those of its quotient by the base and one more (`toDigits_rec`), and the
readers of numbers go through a text digit by digit. So each of them reads the number back from its
digits: `natural?_decimal` without a sign, `integer_decimalInt` with one and within 64 bits. A text
that is read as a number without a sign is made of digits that denote it (`denotes_iff`). -/

namespace GeoRules.Text

/-- An induction along the digits of a number, the last one last. -/
theorem toDigits_rec {base : ℕ} (hbase : 1 < base) {P : ℕ → List Char → Prop}
    (one : ∀ n < base, P n [n.digitChar])
    (more : ∀ n, base ≤ n → P (n / base) (Nat.toDigits base (n / base)) →
      P n (Nat.toDigits base (n / base) ++ [(n % base).digitChar])) (n : ℕ) :
    P n (Nat.toDigits base n) := by
  induction n using Nat.strongRecOn with
  | ind n ih =>
    rw [Nat.toDigits_eq_if hbase]
    split
    · next hn => exact one n hn
    · next hn =>
      have hlt : n / base < n := Nat.div_lt_self (by omega) hbase
      exact more n (Nat.not_lt.mp hn) (ih _ hlt)

theorem digit?_digitChar {d : ℕ} (hd : d < 10) : digit? d.digitChar = some d := by
  interval_cases d <;> rfl

/-! ### Without a sign -/

theorem natural?_append (s : List Char) (c : Char) :
    natural? (s ++ [c]) = (natural? s).bind fun n => (digit? c).map (10 * n + ·) := by
  simp [natural?, List.foldlM_append]

theorem natural?_decimal (n : ℕ) : natural? (decimal n) = some n := by
  refine toDigits_rec (P := fun n s => natural? s = some n) (by decide) (fun n hn => ?_)
    (fun n _ ih => ?_) n
  · rw [← List.nil_append [n.digitChar], natural?_append, digit?_digitChar hn]
    simp [natural?]
  · rw [natural?_append, ih, digit?_digitChar (Nat.mod_lt n (by decide))]
    simp only [Option.bind_some, Option.map_some, Nat.div_add_mod]

/-- The digits of a text denote the number: at least one of them and nothing else, with or without
zeros at the start. -/
structure Denotes (s : List Char) (n : ℕ) : Prop where
  ne_nil : s ≠ []
  digits : ∀ c ∈ s, c.isDigit = true
  value : Nat.ofDigits 10 (s.reverse.map fun c => c.toNat - '0'.toNat) = n

theorem digit?_eq_ite (c : Char) :
    digit? c = if c.isDigit then some (c.toNat - '0'.toNat) else none := by
  have hdigit : ('0' ≤ c ∧ c ≤ '9') ↔ c.isDigit = true := by
    rw [Char.isDigit, Bool.and_eq_true, decide_eq_true_eq, decide_eq_true_eq]
    rfl
  simp only [digit?, hdigit]

theorem natural?_eq_some_iff {s : List Char} {n : ℕ} : natural? s = some n ↔
    (∀ c ∈ s, c.isDigit = true) ∧
      Nat.ofDigits 10 (s.reverse.map fun c => c.toNat - '0'.toNat) = n := by
  -- the last digit is the lowest one
  induction s using List.reverseRecOn generalizing n with
  | nil => simp [natural?]
  | append_singleton s c ih =>
    rw [natural?_append, Option.bind_eq_some_iff]
    simp only [ih, digit?_eq_ite, List.reverse_append, List.reverse_singleton,
      List.singleton_append, List.map_cons, Nat.ofDigits_cons, List.forall_mem_append,
      List.forall_mem_singleton]
    by_cases hc : c.isDigit = true
    · simp [hc, Nat.add_comm]
    · simp [hc]

theorem natural?_eq_none_iff {s : List Char} :
    natural? s = none ↔ ∃ c ∈ s, c.isDigit = false := by
  constructor
  · intro h
    by_contra hall
    have hdigits : ∀ c ∈ s, c.isDigit = true := by simpa using hall
    cases h.symm.trans (natural?_eq_some_iff.mpr ⟨hdigits, rfl⟩)
  · rintro ⟨c, hc, hdigit⟩
    refine Option.eq_none_iff_forall_ne_some.mpr fun n hn => ?_
    cases hdigit.symm.trans ((natural?_eq_some_iff.mp hn).1 c hc)

/-- **The reader of numbers without a sign takes digits for what they denote.** -/
theorem denotes_iff {s : List Char} {n : ℕ} : Denotes s n ↔ s ≠ [] ∧ natural? s = some n := by
  rw [natural?_eq_some_iff]
  constructor
  · exact fun h => ⟨h.ne_nil, h.digits, h.value⟩
  · exact fun ⟨hne, hdigits, hvalue⟩ => ⟨hne, hdigits, hvalue⟩

theorem decimal_ne_nil (n : ℕ) : decimal n ≠ [] := Nat.toDigits_ne_nil

/-! ### Within 64 bits -/

section
variable {limit : ℕ} {beyond : IntegerError}

theorem digitsAfter_append (n : ℕ) (s : List Char) (c : Char) :
    digitsAfter limit beyond n (s ++ [c]) =
      (digitsAfter limit beyond n s).bind fun m => digitsAfter limit beyond m [c] := by
  induction s generalizing n with
  | nil => rfl
  | cons d s ih =>
    rw [List.cons_append, digitsAfter, digitsAfter]
    split
    · rfl
    · split
      · rfl
      · exact ih _

theorem digitsAfter_digitChar {n d : ℕ} (hd : d < 10) (h : 10 * n + d ≤ limit) :
    digitsAfter limit beyond n [d.digitChar] = .ok (10 * n + d) := by
  simp only [digitsAfter, digit?_digitChar hd, if_neg (Nat.not_lt.mpr h)]

theorem digitsAfter_decimal {n : ℕ} (h : n ≤ limit) :
    digitsAfter limit beyond 0 (decimal n) = .ok n := by
  refine toDigits_rec (P := fun n s => n ≤ limit → digitsAfter limit beyond 0 s = .ok n)
    (by decide) (fun n hn hle => ?_) (fun n _ ih hle => ?_) n h
  · have hdigit : digitsAfter limit beyond 0 [n.digitChar] = .ok (10 * 0 + n) :=
      digitsAfter_digitChar hn (by omega)
    rwa [Nat.mul_zero, Nat.zero_add] at hdigit
  · have hquotient : n / 10 ≤ limit := (Nat.div_le_self n 10).trans hle
    have hn : 10 * (n / 10) + n % 10 = n := Nat.div_add_mod n 10
    have hdigit : digitsAfter limit beyond (n / 10) [(n % 10).digitChar] =
        .ok (10 * (n / 10) + n % 10) := digitsAfter_digitChar (Nat.mod_lt n (by decide)) (by omega)
    rw [digitsAfter_append, ih hquotient]
    rwa [hn] at hdigit

end

theorem isDigit_of_mem_decimal {n : ℕ} {c : Char} (h : c ∈ decimal n) : c.isDigit = true :=
  Nat.isDigit_of_mem_toDigits (by decide) (by decide) h

/-- The digits of a number start with no sign. -/
theorem integer_decimal {n : ℕ} (h : n ≤ 0x7fffffffffffffff) :
    integer (decimal n) = .ok (n : ℤ) := by
  rcases hdecimal : decimal n with _ | ⟨c, cs⟩
  · exact absurd hdecimal (decimal_ne_nil n)
  · have hdigit : c.isDigit = true := isDigit_of_mem_decimal (hdecimal ▸ List.mem_cons_self)
    have hplus : c ≠ '+' := by rintro rfl; cases hdigit
    have hminus : c ≠ '-' := by rintro rfl; cases hdigit
    simp only [integer, hplus, hminus, or_self, false_and, if_false]
    rw [← hdecimal, digitsAfter_decimal h]
    rfl

/-- **An integer of 64 bits is read back from its decimal text.** -/
theorem integer_decimalInt {x : ℤ} (hmin : -0x8000000000000000 ≤ x)
    (hmax : x ≤ 0x7fffffffffffffff) : integer (decimalInt x) = .ok x := by
  cases x with
  | ofNat n => exact integer_decimal (Int.ofNat_le.mp hmax)
  | negSucc n =>
    have hle : n + 1 ≤ 0x8000000000000000 := by omega
    simp only [decimalInt, integer, decimal_ne_nil, and_false, if_false, if_true]
    rw [digitsAfter_decimal hle]
    rfl

end GeoRules.Text
