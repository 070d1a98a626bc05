import GeoRules.Proofs.Text.Decimal
import Mathlib.Tactic.SplitIfs

/-! # What is read where a 64-bit number is asked for

A text is a sign, which may be missing, and a body (`SignedBy`); it denotes an integer if the body
is made of digits (`DenotesInt`). An integer of 64 bits is read for every text that denotes it,
however many zeros it starts with (`integer_eq_ok_iff`). In every other text something fails first
(`IntegerFault`): there is no digit to be read, or digits of a number within 64 bits are followed by
a character that is no digit or by a digit that takes the number out of the range. This alone is
reported (`integer_eq_error_iff`).

The reader of digits goes on from a number to the next one, so that a run of it is cut in two at any
place (`digitsAfter_append`); what fails is then a matter of a single character
(`digitsAfter_eq_error_iff`). -/

namespace GeoRules.Text

/-! ### Signs -/

/-- What may stand before the digits of a number. -/
inductive Sign
  | none
  | plus
  | minus
  deriving DecidableEq

namespace Sign

/-- The integer with the sign whose digits denote `n`. -/
def apply : Sign → ℕ → ℤ
  | none, n => n
  | plus, n => n
  | minus, n => -n

/-- The largest number whose integer with the sign has 64 bits. -/
def limit : Sign → ℕ
  | none => 2 ^ 63 - 1
  | plus => 2 ^ 63 - 1
  | minus => 2 ^ 63

/-- How the range is left with the sign. -/
def beyond : Sign → IntegerError
  | none => .tooLarge
  | plus => .tooLarge
  | minus => .tooSmall

theorem le_limit_iff (sign : Sign) (n : ℕ) :
    n ≤ sign.limit ↔ -2 ^ 63 ≤ sign.apply n ∧ sign.apply n ≤ 2 ^ 63 - 1 := by
  cases sign with
  | none | plus | minus => simp only [limit, apply]; omega

end Sign

/-- The text is the sign with the body behind it. -/
inductive SignedBy : List Char → Sign → List Char → Prop
  | plus (body : List Char) : SignedBy ('+' :: body) .plus body
  | minus (body : List Char) : SignedBy ('-' :: body) .minus body
  | bare {s : List Char} (hplus : s.head? ≠ some '+') (hminus : s.head? ≠ some '-') :
      SignedBy s .none s

/-- The text denotes the integer: an optional sign, and digits behind it. -/
def DenotesInt (s : List Char) (x : ℤ) : Prop :=
  ∃ sign body n, SignedBy s sign body ∧ Denotes body n ∧ x = sign.apply n

/-- The text is empty or denotes a number up to the limit. -/
def Within (limit : ℕ) (s : List Char) : Prop := s ≠ [] → ∃ n, Denotes s n ∧ n ≤ limit

/-- What fails first where the text is read. -/
inductive IntegerFault (s : List Char) : IntegerError → Prop
  | empty (h : s = []) : IntegerFault s .empty
  | loneSign {sign : Sign} (h : SignedBy s sign []) (hne : s ≠ []) : IntegerFault s .invalidDigit
  | noDigit {sign : Sign} {before after : List Char} {c : Char}
      (h : SignedBy s sign (before ++ c :: after)) (hbefore : Within sign.limit before)
      (hc : c.isDigit = false) : IntegerFault s .invalidDigit
  | beyond {sign : Sign} {before after : List Char} {c : Char} {n : ℕ}
      (h : SignedBy s sign (before ++ c :: after)) (hbefore : Within sign.limit before)
      (hn : Denotes (before ++ [c]) n) (hlimit : sign.limit < n) : IntegerFault s sign.beyond

theorem exists_signedBy (s : List Char) : ∃ sign body, SignedBy s sign body := by
  by_cases hplus : s.head? = some '+'
  · obtain ⟨body, rfl⟩ := List.head?_eq_some_iff.mp hplus
    exact ⟨_, _, .plus body⟩
  by_cases hminus : s.head? = some '-'
  · obtain ⟨body, rfl⟩ := List.head?_eq_some_iff.mp hminus
    exact ⟨_, _, .minus body⟩
  exact ⟨_, _, .bare hplus hminus⟩

/-! ### Digits up to a limit -/

section
variable {limit m n : ℕ} {beyond e : IntegerError} {s before : List Char} {c : Char}

theorem within_iff : Within limit s ↔ ∃ n, natural? s = some n ∧ n ≤ limit := by
  by_cases hs : s = []
  · subst hs
    exact ⟨fun _ => ⟨0, rfl, Nat.zero_le _⟩, fun _ hne => absurd rfl hne⟩
  · have hdenotes : ∀ n, Denotes s n ↔ natural? s = some n := fun n =>
      denotes_iff.trans (and_iff_right hs)
    unfold Within
    simp only [hdenotes]
    exact forall_prop_of_true hs

theorem natural?_singleton (n : ℕ) (hs : natural? s = some m) :
    natural? (s ++ [c]) = some n ↔ ∃ d, digit? c = some d ∧ n = 10 * m + d := by
  rw [natural?_append, hs, Option.bind_some, Option.map_eq_some_iff]
  simp only [eq_comm]

theorem digitsAfter_cons (n : ℕ) (c : Char) (s : List Char) : digitsAfter limit beyond n (c :: s) =
    (digitsAfter limit beyond n [c]).bind fun m => digitsAfter limit beyond m s := by
  rw [digitsAfter, digitsAfter]
  rcases digit? c with _ | d
  · rfl
  · dsimp only
    split_ifs
    · rfl
    · rfl

theorem digitsAfter_singleton_eq_ok_iff : digitsAfter limit beyond m [c] = .ok n ↔
    ∃ d, digit? c = some d ∧ n = 10 * m + d ∧ n ≤ limit := by
  unfold digitsAfter
  rcases digit? c with _ | d
  · simp
  · by_cases hlimit : limit < 10 * m + d
    · simp only [if_pos hlimit, Option.some.injEq, reduceCtorEq, false_iff]
      rintro ⟨d', rfl, rfl, hle⟩
      omega
    · simp only [if_neg hlimit, digitsAfter, Option.some.injEq, Except.ok.injEq]
      constructor
      · intro h
        exact ⟨d, rfl, h.symm, by omega⟩
      · rintro ⟨d', rfl, rfl, -⟩
        rfl

theorem digitsAfter_singleton_eq_error_iff : digitsAfter limit beyond m [c] = .error e ↔
    (digit? c = none ∧ e = .invalidDigit) ∨
      ∃ d, digit? c = some d ∧ limit < 10 * m + d ∧ e = beyond := by
  unfold digitsAfter
  rcases digit? c with _ | d
  · simp [eq_comm]
  · by_cases hlimit : limit < 10 * m + d
    · simp [hlimit, eq_comm]
    · simp [hlimit, digitsAfter]

/-- **The reader of digits** reads a number if the text is its digits and it is up to the limit. -/
theorem digitsAfter_eq_ok_iff :
    digitsAfter limit beyond 0 s = .ok n ↔ natural? s = some n ∧ n ≤ limit := by
  -- along the text, the last digit last: the number before it is within the limit as well
  induction s using List.reverseRecOn generalizing n with
  | nil =>
    have hzero : natural? [] = some 0 := rfl
    simp only [digitsAfter, hzero, Except.ok.injEq, Option.some.injEq]
    omega
  | append_singleton s c ih =>
    rw [digitsAfter_append]
    rcases h : digitsAfter limit beyond 0 s with e | m
    · have hnone : ∀ m, natural? s = some m → limit < m := by
        intro m hm
        by_contra hle
        rw [ih.mpr ⟨hm, Nat.not_lt.mp hle⟩] at h
        cases h
      refine iff_of_false (fun hbind => by cases hbind) ?_
      rintro ⟨hread, hle⟩
      rw [natural?_append] at hread
      obtain ⟨m, hm, hdigit⟩ := Option.bind_eq_some_iff.mp hread
      obtain ⟨d, -, rfl⟩ := Option.map_eq_some_iff.mp hdigit
      have := hnone m hm
      omega
    · obtain ⟨hm, -⟩ := ih.mp h
      rw [natural?_singleton n hm]
      change digitsAfter limit beyond m [c] = .ok n ↔ _
      rw [digitsAfter_singleton_eq_ok_iff]
      constructor
      · rintro ⟨d, hd, hn, hle⟩
        exact ⟨⟨d, hd, hn⟩, hle⟩
      · rintro ⟨⟨d, hd, hn⟩, hle⟩
        exact ⟨d, hd, hn, hle⟩

/-- **The first character that fails decides** what the reader of digits reports. -/
theorem digitsAfter_eq_error_iff : digitsAfter limit beyond n s = .error e ↔
    ∃ before c after m, s = before ++ c :: after ∧ digitsAfter limit beyond n before = .ok m ∧
      digitsAfter limit beyond m [c] = .error e := by
  induction s generalizing n with
  | nil => simp [digitsAfter]
  | cons c s ih =>
    rw [digitsAfter_cons]
    rcases hc : digitsAfter limit beyond n [c] with e' | m
    · constructor
      · intro h
        obtain rfl : e' = e := Except.error.inj h
        exact ⟨[], c, s, n, rfl, rfl, hc⟩
      · rintro ⟨before, c', after, m, hs, hbefore, hfail⟩
        rcases before with _ | ⟨d, before⟩
        · obtain ⟨rfl, rfl⟩ := List.cons.inj hs
          obtain rfl : n = m := Except.ok.inj hbefore
          exact hc.symm.trans hfail
        · obtain ⟨rfl, -⟩ := List.cons.inj hs
          rw [digitsAfter_cons, hc] at hbefore
          cases hbefore
    · change digitsAfter limit beyond m s = .error e ↔ _
      rw [ih]
      constructor
      · rintro ⟨before, c', after, m', rfl, hbefore, hfail⟩
        refine ⟨c :: before, c', after, m', rfl, ?_, hfail⟩
        rw [digitsAfter_cons, hc]
        exact hbefore
      · rintro ⟨before, c', after, m', hs, hbefore, hfail⟩
        rcases before with _ | ⟨d, before⟩
        · obtain ⟨rfl, rfl⟩ := List.cons.inj hs
          obtain rfl : n = m' := Except.ok.inj hbefore
          cases hc.symm.trans hfail
        · obtain ⟨rfl, rfl⟩ := List.cons.inj hs
          rw [digitsAfter_cons, hc] at hbefore
          exact ⟨before, c', after, m', rfl, hbefore, hfail⟩

/-- From the start of a text: the characters before the one that fails are digits of a number up to
the limit, and it is no digit, or the number with it is beyond the limit. -/
theorem digitsAfter_zero_eq_error_iff : digitsAfter limit beyond 0 s = .error e ↔
    ∃ before c after, s = before ++ c :: after ∧ Within limit before ∧
      ((c.isDigit = false ∧ e = .invalidDigit) ∨
        ∃ n, Denotes (before ++ [c]) n ∧ limit < n ∧ e = beyond) := by
  have hnone : ∀ c : Char, digit? c = none ↔ c.isDigit = false := by
    intro c
    rw [digit?_eq_ite]
    by_cases hc : c.isDigit = true
    · simp [hc]
    · simp [hc]
  -- one character, behind digits that denote `m`
  have hone : ∀ {before c m}, natural? before = some m →
      (digitsAfter limit beyond m [c] = .error e ↔ (c.isDigit = false ∧ e = .invalidDigit) ∨
        ∃ n, Denotes (before ++ [c]) n ∧ limit < n ∧ e = beyond) := by
    intro before c m hm
    have hdenotes : ∀ n, Denotes (before ++ [c]) n ↔ ∃ d, digit? c = some d ∧ n = 10 * m + d := by
      intro n
      rw [denotes_iff, natural?_singleton n hm]
      exact and_iff_right (by simp)
    rw [digitsAfter_singleton_eq_error_iff, hnone]
    simp only [hdenotes]
    refine or_congr Iff.rfl ⟨?_, ?_⟩
    · rintro ⟨d, hd, hlimit, he⟩
      exact ⟨_, ⟨d, hd, rfl⟩, hlimit, he⟩
    · rintro ⟨n, ⟨d, hd, rfl⟩, hlimit, he⟩
      exact ⟨d, hd, hlimit, he⟩
  rw [digitsAfter_eq_error_iff]
  simp only [digitsAfter_eq_ok_iff, within_iff]
  constructor
  · rintro ⟨before, c, after, m, hs, hm, hfail⟩
    exact ⟨before, c, after, hs, ⟨m, hm⟩, (hone hm.1).mp hfail⟩
  · rintro ⟨before, c, after, hs, ⟨m, hm⟩, hfail⟩
    exact ⟨before, c, after, m, hs, hm, (hone hm.1).mpr hfail⟩

end

/-! ### Integers -/

section
variable {s body : List Char} {sign : Sign} {x : ℤ} {e : IntegerError}

theorem map_bind_pure {f : ℤ → ℤ} {g : ℕ → ℤ} (h : ∀ n : ℕ, f n = g n)
    (r : Except IntegerError ℕ) : Except.map f (r >>= fun n => pure (n : ℤ)) = r.map g := by
  rcases r with e | n
  · rfl
  · exact congrArg Except.ok (h n)

/-- Whatever the sign, the digits behind it are read up to its limit. -/
theorem integer_of_signedBy (h : SignedBy s sign body) (hne : body ≠ []) :
    integer s = (digitsAfter sign.limit sign.beyond 0 body).map sign.apply := by
  cases h with
  | plus =>
    have hminus : '+' ≠ '-' := by decide
    simp only [integer, hne, hminus, and_false, if_false, if_true]
    exact map_bind_pure (fun _ => rfl) _
  | minus =>
    simp only [integer, hne, and_false, if_false, if_true]
    exact map_bind_pure (fun _ => rfl) _
  | bare hplus hminus =>
    obtain ⟨c, cs, rfl⟩ := List.exists_cons_of_ne_nil hne
    have hc : c ≠ '+' ∧ c ≠ '-' := by
      rw [List.head?_cons] at hplus hminus
      exact ⟨fun heq => hplus (congrArg some heq), fun heq => hminus (congrArg some heq)⟩
    simp only [integer, hc.1, hc.2, or_self, false_and, if_false]
    exact map_bind_pure (fun _ => rfl) _

/-- A sign without a body behind it is no number. -/
theorem integer_of_loneSign (h : SignedBy s sign []) (hne : s ≠ []) :
    integer s = .error .invalidDigit := by
  cases h with
  | plus | minus => rfl
  | bare => exact absurd rfl hne

/-- **An integer is read** for the texts that denote one of 64 bits, and for no other. -/
theorem integer_eq_ok_iff :
    integer s = .ok x ↔ DenotesInt s x ∧ -2 ^ 63 ≤ x ∧ x ≤ 2 ^ 63 - 1 := by
  constructor
  · intro hread
    obtain ⟨sign, body, h⟩ := exists_signedBy s
    by_cases hbody : body = []
    · subst hbody
      by_cases hs : s = []
      · subst hs
        cases hread
      · rw [integer_of_loneSign h hs] at hread
        cases hread
    · rw [integer_of_signedBy h hbody] at hread
      rcases hdigits : digitsAfter sign.limit sign.beyond 0 body with e | n
      · rw [hdigits] at hread
        cases hread
      · rw [hdigits] at hread
        obtain rfl : sign.apply n = x := Except.ok.inj hread
        obtain ⟨hn, hlimit⟩ := digitsAfter_eq_ok_iff.mp hdigits
        exact ⟨⟨sign, body, n, h, denotes_iff.mpr ⟨hbody, hn⟩, rfl⟩,
          (sign.le_limit_iff n).mp hlimit⟩
  · rintro ⟨⟨sign, body, n, h, hn, rfl⟩, hrange⟩
    have hdigits : digitsAfter sign.limit sign.beyond 0 body = .ok n :=
      digitsAfter_eq_ok_iff.mpr ⟨(denotes_iff.mp hn).2, (sign.le_limit_iff n).mpr hrange⟩
    rw [integer_of_signedBy h hn.ne_nil, hdigits]
    rfl

/-- **What fails first is reported**, and nothing else. -/
theorem integer_eq_error_iff : integer s = .error e ↔ IntegerFault s e := by
  have hmap : ∀ {r : Except IntegerError ℕ} {f : ℕ → ℤ},
      r.map f = .error e ↔ r = .error e := by
    intro r f
    rcases r with e' | n
    · exact ⟨fun h => congrArg _ (Except.error.inj h), fun h => congrArg _ (Except.error.inj h)⟩
    · exact iff_of_false (fun h => by cases h) (fun h => by cases h)
  constructor
  · intro hread
    obtain ⟨sign, body, h⟩ := exists_signedBy s
    by_cases hs : s = []
    · subst hs
      obtain rfl : IntegerError.empty = e := Except.error.inj hread
      exact .empty rfl
    by_cases hbody : body = []
    · subst hbody
      rw [integer_of_loneSign h hs] at hread
      obtain rfl : IntegerError.invalidDigit = e := Except.error.inj hread
      exact .loneSign h hs
    · rw [integer_of_signedBy h hbody, hmap] at hread
      obtain ⟨before, c, after, rfl, hbefore, ⟨hc, rfl⟩ | ⟨n, hn, hlimit, rfl⟩⟩ :=
        digitsAfter_zero_eq_error_iff.mp hread
      · exact .noDigit h hbefore hc
      · exact .beyond h hbefore hn hlimit
  · intro hfault
    cases hfault with
    | empty h =>
      subst h
      rfl
    | loneSign h hne => exact integer_of_loneSign h hne
    | noDigit h hbefore hc =>
      rw [integer_of_signedBy h (by simp), hmap]
      exact digitsAfter_zero_eq_error_iff.mpr ⟨_, _, _, rfl, hbefore, Or.inl ⟨hc, rfl⟩⟩
    | beyond h hbefore hn hlimit =>
      rw [integer_of_signedBy h (by simp), hmap]
      exact digitsAfter_zero_eq_error_iff.mpr
        ⟨_, _, _, rfl, hbefore, Or.inr ⟨_, hn, hlimit, rfl⟩⟩

end

end GeoRules.Text
