import GeoRules.Proofs.Text.Cut
import GeoRules.Proofs.Text.Integer
import GeoRules.Rule.Line
import Mathlib.Data.List.Basic

/-! # The tokens that make attributes

A token is the key of a flag, or a key and a number with an equals sign between them. The key starts
with its sign and has no equals sign, so that a token is cut at its first one (`cases_of_sign`).
Which attribute a token makes is said by the token alone (`Attribute.Spelled`), and so is why
another one makes none (`Attribute.Refused`); the two cover all tokens
(`Attribute.ofToken_eq_ok_iff`, `Attribute.ofToken_eq_error_iff`).

Main statement: `Attribute.ofToken_number_outcome`, on numbers up to the limits of 64 bits. -/

namespace GeoRules.Attribute

open Text

variable {token : List Char} {a : Attribute} {e : LineError}

/-! ### Which tokens make attributes -/

/-- The token spells the attribute: the key of a flag, or a key and a number of 64 bits. -/
inductive Spelled : List Char → Attribute → Prop
  | flag {key : List Char} (hsign : key.head? = some '@') (hequals : '=' ∉ key) :
      Spelled key ⟨String.ofList (lower key), .flag true⟩
  | number {key t : List Char} {n : Int64} (hsign : key.head? = some '@') (hequals : '=' ∉ key)
      (hn : DenotesInt t n.toInt) :
      Spelled (key ++ '=' :: t) ⟨String.ofList (lower key), .number n⟩

/-- Why a token makes no attribute: there is no sign before it, or no number behind its first equals
sign. -/
inductive Refused (token : List Char) : LineError → Prop
  | noSign (h : token.head? ≠ some '@') : Refused token (.badAttribute (String.ofList token))
  | noNumber {key t : List Char} {reason : IntegerError} (htoken : token = key ++ '=' :: t)
      (hsign : key.head? = some '@') (hequals : '=' ∉ key) (hfault : IntegerFault t reason) :
      Refused token (.badNumber (String.ofList token) reason)

/-- The token starts with its sign, and if it has an equals sign, then a number of 64 bits stands
behind the first one. -/
def WellFormed (token : List Char) : Prop :=
  token.head? = some '@' ∧ ('=' ∉ token ∨ ∃ key t x, token = key ++ '=' :: t ∧ '=' ∉ key ∧
    DenotesInt t x ∧ -2 ^ 63 ≤ x ∧ x ≤ 2 ^ 63 - 1)

theorem head?_of_append {key t : List Char} (h : (key ++ '=' :: t).head? = some '@') :
    key.head? = some '@' := by
  rcases key with _ | ⟨c, key⟩
  · simp at h
  · exact h

/-- A token with its sign is a key, or a key and what stands behind the first equals sign. -/
theorem cases_of_sign (hsign : token.head? = some '@') : '=' ∉ token ∨
    ∃ key t, token = key ++ '=' :: t ∧ key.head? = some '@' ∧ '=' ∉ key := by
  by_cases hmem : '=' ∈ token
  · obtain ⟨key, t, rfl, hequals⟩ := List.eq_append_cons_of_mem hmem
    exact Or.inr ⟨key, t, rfl, head?_of_append hsign, hequals⟩
  · exact Or.inl hmem

theorem Spelled.head? (h : Spelled token a) : token.head? = some '@' := by
  cases h with
  | flag hsign => exact hsign
  | number hsign => exact List.mem_head?_append_of_mem_head? hsign

/-- The key keeps its sign. -/
theorem Spelled.head?_key (h : Spelled token a) : a.key.toList.head? = some '@' := by
  have hlower : ∀ key : List Char, key.head? = some '@' →
      (String.ofList (lower key)).toList.head? = some '@' := by
    intro key hsign
    obtain ⟨rest, rfl⟩ := List.head?_eq_some_iff.mp hsign
    have hat : lowerChar '@' = ['@'] := by decide +kernel
    rw [String.toList_ofList]
    simp [lower, lowerAfter, hat]
  cases h with
  | flag hsign => exact hlower _ hsign
  | number hsign => exact hlower _ hsign

/-- **The well-formed tokens** are those that spell an attribute. -/
theorem exists_spelled_iff : (∃ a, Spelled token a) ↔ WellFormed token := by
  constructor
  · rintro ⟨a, h⟩
    refine ⟨h.head?, ?_⟩
    cases h with
    | flag hsign hequals => exact Or.inl hequals
    | @number key t n hsign hequals hn =>
      have hmin := n.le_toInt
      have hmax := n.toInt_lt
      exact Or.inr ⟨key, t, n.toInt, rfl, hequals, hn, by omega, by omega⟩
  · rintro ⟨hsign, hequals | ⟨key, t, x, rfl, hequals, hx, hmin, hmax⟩⟩
    · exact ⟨_, .flag hsign hequals⟩
    · have hint : (Int64.ofInt x).toInt = x := Int64.toInt_ofInt_of_le hmin (by omega)
      exact ⟨_, .number (n := Int64.ofInt x) (head?_of_append hsign) hequals (by rwa [hint])⟩

/-! ### Keys and numbers -/

section
variable {key t : List Char} (hsign : key.head? = some '@') (hequals : '=' ∉ key)
include hsign hequals

theorem ofToken_of_key : ofToken key = .ok ⟨String.ofList (lower key), .flag true⟩ := by
  unfold ofToken
  simp only [hsign, takeWhile_of_not_mem hequals, dropWhile_of_not_mem hequals, ne_eq, not_true,
    if_false]

theorem ofToken_of_number : ofToken (key ++ '=' :: t) = match integer t with
    | .ok n => .ok ⟨String.ofList (lower key), .number (Int64.ofInt n)⟩
    | .error reason => .error (.badNumber (String.ofList (key ++ '=' :: t)) reason) := by
  have hhead : (key ++ '=' :: t).head? = some '@' := List.mem_head?_append_of_mem_head? hsign
  unfold ofToken
  rcases hnumber : integer t with reason | n
  · simp only [hhead, dropWhile_cut hequals, hnumber, ne_eq, not_true, if_false]
  · simp only [hhead, takeWhile_cut hequals, dropWhile_cut hequals, hnumber, ne_eq, not_true,
      if_false]

/-- The texts behind the equals sign that make a number. -/
theorem ofToken_number_eq_ok_iff : ofToken (key ++ '=' :: t) = .ok a ↔
    ∃ n : Int64, DenotesInt t n.toInt ∧ a = ⟨String.ofList (lower key), .number n⟩ := by
  rw [ofToken_of_number hsign hequals]
  constructor
  · intro h
    rcases hread : integer t with e | x
    · rw [hread] at h
      cases h
    · rw [hread] at h
      obtain ⟨hx, hmin, hmax⟩ := integer_eq_ok_iff.mp hread
      have hint : (Int64.ofInt x).toInt = x := Int64.toInt_ofInt_of_le hmin (by omega)
      exact ⟨Int64.ofInt x, by rwa [hint], (Except.ok.inj h).symm⟩
  · rintro ⟨n, hn, rfl⟩
    have hread : integer t = .ok n.toInt := by
      have hmin := n.le_toInt
      have hmax := n.toInt_lt
      exact integer_eq_ok_iff.mpr ⟨hn, by omega, by omega⟩
    rw [hread]
    simp

/-- What is reported of the others. -/
theorem ofToken_number_eq_error_iff : ofToken (key ++ '=' :: t) = .error e ↔
    ∃ reason, IntegerFault t reason ∧
      e = .badNumber (String.ofList (key ++ '=' :: t)) reason := by
  rw [ofToken_of_number hsign hequals]
  constructor
  · intro h
    rcases hread : integer t with reason | x
    · rw [hread] at h
      exact ⟨reason, integer_eq_error_iff.mp hread, (Except.error.inj h).symm⟩
    · rw [hread] at h
      cases h
  · rintro ⟨reason, hfault, rfl⟩
    rw [integer_eq_error_iff.mpr hfault]

/-- The decimal text of a number of 64 bits is read as the number. -/
theorem ofToken_of_decimalInt (n : Int64) : ofToken (key ++ '=' :: decimalInt n.toInt) =
    .ok ⟨String.ofList (lower key), .number n⟩ := by
  have hread : integer (decimalInt n.toInt) = .ok n.toInt := by
    have hmin := n.le_toInt
    have hmax := n.toInt_lt
    exact integer_decimalInt (by omega) (by omega)
  rw [ofToken_of_number hsign hequals, hread]
  simp

/-- **A number behind a key** is read for the texts that denote one of 64 bits, with or without a
sign and with any zeros before it. Of every other text it is reported what fails in it first. In
particular the decimal text of any number of 64 bits is read as the number. -/
theorem ofToken_number_outcome :
    (∀ a, ofToken (key ++ '=' :: t) = .ok a ↔
      ∃ n : Int64, DenotesInt t n.toInt ∧ a = ⟨String.ofList (lower key), .number n⟩) ∧
    (∀ e, ofToken (key ++ '=' :: t) = .error e ↔ ∃ reason, IntegerFault t reason ∧
      e = .badNumber (String.ofList (key ++ '=' :: t)) reason) ∧
    ∀ n : Int64, ofToken (key ++ '=' :: decimalInt n.toInt) =
      .ok ⟨String.ofList (lower key), .number n⟩ := by
  refine ⟨fun a => ?_, fun e => ?_, fun n => ?_⟩
  · exact ofToken_number_eq_ok_iff hsign hequals
  · exact ofToken_number_eq_error_iff hsign hequals
  · exact ofToken_of_decimalInt hsign hequals n

end

/-- Zeros before the least number, the first number above the greatest one with a letter behind it,
and a letter before the range is left. -/
theorem ofToken_number_outcome_limits :
    "@Score".toList.head? = some '@' ∧ '=' ∉ "@Score".toList ∧
    ofToken "@Score=-0009223372036854775808".toList = .ok ⟨"@score", .number Int64.minValue⟩ ∧
    ofToken "@Score=9223372036854775808x".toList =
      .error (.badNumber "@Score=9223372036854775808x" .tooLarge) ∧
    ofToken "@Score=-9x223372036854775809".toList =
      .error (.badNumber "@Score=-9x223372036854775809" .invalidDigit) := by
  have hsign : "@Score".toList.head? = some '@' := by decide
  have hequals : '=' ∉ "@Score".toList := by decide
  have hleast : DenotesInt "-0009223372036854775808".toList Int64.minValue.toInt :=
    ⟨.minus, _, 9223372036854775808, .minus _, denotes_iff.mpr ⟨by decide, by decide +kernel⟩, rfl⟩
  have hlarge : IntegerFault "9223372036854775808x".toList .tooLarge :=
    @IntegerFault.beyond _ .none "922337203685477580".toList "x".toList '8' 9223372036854775808
      (.bare (by decide) (by decide))
      (within_iff.mpr ⟨922337203685477580, by decide +kernel, by decide⟩)
      (denotes_iff.mpr ⟨by decide, by decide +kernel⟩) (by decide)
  have hletter : IntegerFault "-9x223372036854775809".toList .invalidDigit :=
    @IntegerFault.noDigit _ .minus "9".toList "223372036854775809".toList 'x' (.minus _)
      (within_iff.mpr ⟨9, by decide, by decide⟩) (by decide)
  have hkey : String.ofList (lower "@Score".toList) = "@score" := by decide +kernel
  refine ⟨hsign, hequals, ?_, ?_, ?_⟩
  · exact ((ofToken_number_outcome hsign hequals).1 _).mpr ⟨_, hleast, by rw [hkey]⟩
  · exact ((ofToken_number_outcome hsign hequals).2.1 _).mpr ⟨_, hlarge, rfl⟩
  · exact ((ofToken_number_outcome hsign hequals).2.1 _).mpr ⟨_, hletter, rfl⟩

/-! ### All tokens -/

/-- **The attribute that a token makes** is the one that it spells. -/
theorem ofToken_eq_ok_iff : ofToken token = .ok a ↔ Spelled token a := by
  constructor
  · intro h
    by_cases hsign : token.head? = some '@'
    · rcases cases_of_sign hsign with hequals | ⟨key, t, rfl, hkey, hequals⟩
      · rw [ofToken_of_key hsign hequals] at h
        obtain rfl := Except.ok.inj h
        exact .flag hsign hequals
      · obtain ⟨n, hn, rfl⟩ := (ofToken_number_eq_ok_iff hkey hequals).mp h
        exact .number hkey hequals hn
    · unfold ofToken at h
      rw [if_pos hsign] at h
      cases h
  · intro h
    cases h with
    | flag hsign hequals => exact ofToken_of_key hsign hequals
    | number hsign hequals hn => exact (ofToken_number_eq_ok_iff hsign hequals).mpr ⟨_, hn, rfl⟩

/-- **What is reported of a token** is why it is refused. -/
theorem ofToken_eq_error_iff : ofToken token = .error e ↔ Refused token e := by
  constructor
  · intro h
    by_cases hsign : token.head? = some '@'
    · rcases cases_of_sign hsign with hequals | ⟨key, t, rfl, hkey, hequals⟩
      · rw [ofToken_of_key hsign hequals] at h
        cases h
      · obtain ⟨reason, hfault, rfl⟩ := (ofToken_number_eq_error_iff hkey hequals).mp h
        exact .noNumber rfl hkey hequals hfault
    · unfold ofToken at h
      rw [if_pos hsign] at h
      obtain rfl := Except.error.inj h
      exact .noSign hsign
  · intro h
    cases h with
    | noSign hsign =>
      unfold ofToken
      rw [if_pos hsign]
    | noNumber htoken hsign hequals hfault =>
      subst htoken
      exact (ofToken_number_eq_error_iff hsign hequals).mpr ⟨_, hfault, rfl⟩

end GeoRules.Attribute
