import GeoRules.Proofs.Text.Letters
import GeoRules.Rule.Line

/-! # Lines that differ in the case of plain letters

A line with small letters is cut where the line with capitals is cut, and makes the same rule: what
stands in a rule is in lower case anyway, and a number has no letters. Where a line makes no rule,
the report of the line with small letters is that of the line with capitals, put in small letters
(`LineError.small`): the same error of the same word.

Main statement: `Rule.ofLine_small`. -/

namespace GeoRules

open Text

/-- The error with the words that it names in small letters. -/
def LineError.small : LineError → LineError
  | badFormat text => badFormat (smallText text)
  | badAttribute token => badAttribute (smallText token)
  | badNumber token reason => badNumber (smallText token) reason

/-! ### Words -/

theorem cleanLine_small (line : List Char) :
    cleanLine (small line) = (cleanLine line).map small := by
  unfold cleanLine
  rw [takeWhile_small (ne_toLower (by decide)), trim_small]
  rcases trim (line.takeWhile (· ≠ '#')) with _ | ⟨c, cs⟩
  · rfl
  · rfl

theorem words_small (line : List Char) : words (small line) = (words line).map small := by
  unfold words
  rw [trim_small, splitOn_small (by decide)]

theorem firstWord_small (line : List Char) : firstWord (small line) = small (firstWord line) := by
  unfold firstWord
  simp only [words_small, List.head_map]

/-! ### Attributes and patterns -/

theorem Attribute.ofToken_small (token : List Char) :
    ofToken (small token) = (ofToken token).mapError LineError.small := by
  have hsign : (small token).head? = some '@' ↔ token.head? = some '@' := by
    rcases token with _ | ⟨c, token⟩
    · exact Iff.rfl
    · rw [small_cons, List.head?_cons, List.head?_cons, Option.some.injEq, Option.some.injEq]
      exact toLower_eq_iff (by decide) c
  unfold ofToken
  by_cases hhead : token.head? = some '@'
  · rw [if_neg (not_not.mpr hhead), if_neg (not_not.mpr (hsign.mpr hhead))]
    dsimp only
    rw [takeWhile_small (ne_toLower (by decide)), lower_small,
      dropWhile_small (ne_toLower (by decide)), ← smallText_ofList]
    rcases token.dropWhile (· ≠ '=') with _ | ⟨c, number⟩
    · rfl
    · rw [small_cons]
      dsimp only
      rw [integer_small]
      rcases integer number with reason | n
      · rfl
      · rfl
  · rw [if_pos hhead, if_pos (mt hsign.mp hhead), ← smallText_ofList]
    rfl

theorem mapM_ofToken_small (tokens : List (List Char)) :
    (tokens.map small).mapM Attribute.ofToken =
      (tokens.mapM Attribute.ofToken).mapError LineError.small := by
  induction tokens with
  | nil => rfl
  | cons token tokens ih =>
    rw [List.map_cons, List.mapM_cons, List.mapM_cons, ih, Attribute.ofToken_small]
    rcases Attribute.ofToken token with e | a
    · rfl
    · rcases tokens.mapM Attribute.ofToken with e | attributes
      · rfl
      · rfl

theorem RuleKind.ofLabel_small (label : List Char) :
    ofLabel (String.ofList (small label)) = ofLabel (String.ofList label) := by
  unfold ofLabel lowercase
  rw [String.toList_ofList, String.toList_ofList, lower_small]

namespace Rule

theorem ofPattern_small (pattern : List Char) :
    ofPattern (small pattern) = (ofPattern pattern).mapError LineError.small := by
  unfold ofPattern
  rw [splitOn_small (by decide), ← smallText_ofList]
  rcases pattern.splitOn ':' with _ | ⟨label, _ | ⟨value, _ | ⟨third, parts⟩⟩⟩
  · rfl
  · simp only [List.map_cons, List.map_nil, lower_small]
    rfl
  · simp only [List.map_cons, List.map_nil, lower_small, RuleKind.ofLabel_small]
    rfl
  · rfl

/-! ### Lines -/

theorem ofSiteLine_small (line : List Char) :
    ofSiteLine (small line) = (ofSiteLine line).mapError LineError.small := by
  unfold ofSiteLine
  rw [firstWord_small, ofPattern_small, words_small, ← List.map_tail, mapM_ofToken_small]
  rcases ofPattern (firstWord line) with e | rule
  · rfl
  · rcases (words line).tail.mapM Attribute.ofToken with e | attributes
    · rfl
    · rfl

theorem ofIpLine_small (line : List Char) :
    ofIpLine (small line) = (ofIpLine line).mapError LineError.small := by
  unfold ofIpLine
  rw [firstWord_small, splitOn_small (by decide), ← smallText_ofList]
  rcases (firstWord line).splitOn ':' with _ | ⟨label, _ | ⟨name, _ | ⟨third, parts⟩⟩⟩
  · rfl
  · simp only [List.map_cons, List.map_nil, lower_small]
    rfl
  · simp only [List.map_cons, List.map_nil, lower_small]
    rfl
  · rfl

/-- **A line with small letters** makes the rule of the line with capitals, or fails as this one
does. -/
theorem ofLine_small (family : Family) (line : List Char) :
    ofLine family (small line) = (ofLine family line).mapError LineError.small := by
  cases family with
  | site => exact ofSiteLine_small line
  | ip => exact ofIpLine_small line

end Rule

end GeoRules
