import GeoRules.Address.Printer
import GeoRules.Proofs.Address.Reader
import GeoRules.Proofs.Text.Decimal
import Mathlib.Data.List.TakeWhile

/-! # Printed addresses are read back

Digits are read back from a text that goes on with something else than a digit (`digits?_toDigits`),
and so are octets and groups. A run of groups reads the groups that are printed with colons, up to
the end of the text or to a double colon (`groupRun_colonText`). Whichever zeros the printer leaves
out, the groups before and behind them are read back, and as many zeros are put between them as are
missing (`eightGroups?_compressedText`).

Four bytes are read back from their text, and sixteen unless they stand for four
(`ofText?_of_text?`). -/

namespace GeoRules.Address

/-! ### Digits -/

theorem hexDigit?_digitChar {d : ℕ} (hd : d < 16) : hexDigit? d.digitChar = some d := by
  interval_cases d <;> rfl

section
variable {base : ℕ} (hbase : 1 < base) (hhex : base ≤ 16)
include hbase hhex

theorem isDigitIn_of_mem {n : ℕ} {c : Char} (h : c ∈ Nat.toDigits base n) :
    isDigitIn base c = true := by
  have hdigit : ∀ d < base, isDigitIn base d.digitChar = true := by
    intro d hd
    rw [isDigitIn, hexDigit?_digitChar (hd.trans_le hhex)]
    simpa using hd
  refine Text.toDigits_rec (P := fun _ s => ∀ c ∈ s, isDigitIn base c = true) hbase
    (fun n hn c hc => ?_) (fun n _ ih c hc => ?_) n c h
  · rw [List.mem_singleton.mp hc]
    exact hdigit n hn
  · rcases List.mem_append.mp hc with hc | hc
    · exact ih c hc
    · rw [List.mem_singleton.mp hc]
      exact hdigit _ (Nat.mod_lt n (by omega))

theorem valueIn_toDigits (n : ℕ) : valueIn base (Nat.toDigits base n) = n := by
  have hsnoc : ∀ s (c : Char), valueIn base (s ++ [c]) =
      base * valueIn base s + (hexDigit? c).getD 0 := by
    intro s c
    simp [valueIn]
  refine Text.toDigits_rec (P := fun n s => valueIn base s = n) hbase (fun n hn => ?_)
    (fun n _ ih => ?_) n
  · rw [← List.nil_append [n.digitChar], hsnoc, hexDigit?_digitChar (by omega)]
    simp [valueIn]
  · have hmod := Nat.mod_lt n (show 0 < base by omega)
    rw [hsnoc, ih, hexDigit?_digitChar (by omega), Option.getD_some, Nat.div_add_mod]

/-- **The digits of a number are read** from a text that goes on with no digit. -/
theorem digits?_toDigits {n most : ℕ} (hmost : 0 < most) (hn : n < base ^ most)
    {rest : List Char} (hrest : ∀ c ∈ rest.head?, isDigitIn base c = false) :
    digits? base most (Nat.toDigits base n ++ rest) = some (Nat.toDigits base n, rest) := by
  have hall : ∀ c ∈ Nat.toDigits base n, isDigitIn base c = true :=
    fun _ => isDigitIn_of_mem hbase hhex
  have hstop : rest.takeWhile (isDigitIn base) = [] ∧ rest.dropWhile (isDigitIn base) = rest := by
    rcases rest with _ | ⟨c, rest⟩
    · exact ⟨rfl, rfl⟩
    · have hc : isDigitIn base c = false := hrest c rfl
      simp [hc]
  have hlength : ¬ most < (Nat.toDigits base n).length :=
    Nat.not_lt.mpr ((Nat.length_toDigits_le_iff hbase hmost).mpr hn)
  unfold digits?
  rw [List.takeWhile_append_of_pos hall, List.dropWhile_append_of_pos hall, hstop.1, hstop.2,
    List.append_nil]
  simp [Nat.toDigits_ne_nil, hlength]

end

/-- A number other than zero has no zero before its digits. -/
theorem head?_toDigits {base n : ℕ} (hbase : 1 < base) (hhex : base ≤ 16) (hn : n ≠ 0) :
    (Nat.toDigits base n).head? ≠ some '0' := by
  have hzero : ∀ d < 16, d ≠ 0 → d.digitChar ≠ '0' := by
    intro d hd hne
    interval_cases d <;> simp_all
  refine Text.toDigits_rec (P := fun n s => n ≠ 0 → s.head? ≠ some '0') hbase
    (fun n hlt hne => ?_) (fun n hle ih _ => ?_) n hn
  · simpa using hzero n (by omega) hne
  · have hquotient : n / base ≠ 0 := by
      rw [Nat.div_ne_zero_iff]
      omega
    rw [List.head?_append_of_ne_nil _ Nat.toDigits_ne_nil]
    exact ih hquotient

theorem octet?_decimal (b : UInt8) {rest : List Char}
    (hrest : ∀ c ∈ rest.head?, isDigitIn 10 c = false) :
    octet? (Text.decimal b.toNat ++ rest) = some (b, rest) := by
  have hb := b.toNat_lt
  have hdigits : digits? 10 3 (Text.decimal b.toNat ++ rest) = some (Text.decimal b.toNat, rest) :=
    digits?_toDigits (by decide) (by decide) (by decide) (by omega) hrest
  have hlead : ¬ ((Text.decimal b.toNat).head? = some '0' ∧ Text.decimal b.toNat ≠ ['0']) := by
    rintro ⟨hhead, hne⟩
    by_cases hzero : b.toNat = 0
    · exact hne (by rw [hzero]; rfl)
    · exact head?_toDigits (by decide) (by decide) hzero hhead
  have hvalue : valueIn 10 (Text.decimal b.toNat) = b.toNat :=
    valueIn_toDigits (by decide) (by decide) _
  unfold octet?
  rw [hdigits]
  dsimp only
  rw [if_neg hlead, hvalue, if_neg (by omega), UInt8.ofNat_toNat]

theorem group?_toDigits {g : ℕ} (hg : g < 65536) {rest : List Char}
    (hrest : ∀ c ∈ rest.head?, isDigitIn 16 c = false) :
    group? (Nat.toDigits 16 g ++ rest) = some (g, rest) := by
  have hvalue : valueIn 16 (Nat.toDigits 16 g) = g := valueIn_toDigits (by decide) (by decide) g
  rw [group?, digits?_toDigits (by decide) (by decide) (by decide) hg hrest]
  simp only [Option.map_some, hvalue]

/-! ### Four bytes -/

theorem dottedText_cons (b b' : UInt8) (bytes : List UInt8) :
    dottedText (b :: b' :: bytes) = Text.decimal b.toNat ++ '.' :: dottedText (b' :: bytes) := by
  simp [dottedText, List.intercalate_cons_cons]

theorem octets?_dottedText (b : UInt8) (bytes : List UInt8) {rest : List Char}
    (hrest : ∀ c ∈ rest.head?, isDigitIn 10 c = false) :
    octets? bytes.length (dottedText (b :: bytes) ++ rest) = some (b :: bytes, rest) := by
  induction bytes generalizing b with
  | nil =>
    have hone : dottedText [b] = Text.decimal b.toNat := by simp [dottedText]
    rw [hone, List.length_nil, octets?, octet?_decimal b hrest]
    rfl
  | cons b' bytes ih =>
    have hdot : ∀ c ∈ ('.' :: (dottedText (b' :: bytes) ++ rest)).head?,
        isDigitIn 10 c = false := by
      intro c hc
      obtain rfl : '.' = c := by simpa using hc
      decide
    rw [dottedText_cons, List.append_assoc, List.cons_append, List.length_cons, octets?,
      octet?_decimal b hdot]
    simp only [ih b', Option.map_some]

theorem dotted?_dottedText {bytes : List UInt8} (h : bytes.length = 4) :
    dotted? (dottedText bytes) = some (bytes, []) := by
  rcases bytes with _ | ⟨b, bytes⟩
  · cases h
  · have hlength : bytes.length = 3 := by simpa using h
    have hoctets : octets? bytes.length (dottedText (b :: bytes) ++ []) = some (b :: bytes, []) :=
      octets?_dottedText b bytes (by simp)
    rwa [hlength, List.append_nil] at hoctets

/-- A dotted address has dots. -/
theorem dotted?_eq_none {s : List Char} (h : '.' ∉ s) : dotted? s = none := by
  rw [dotted?, octets?]
  split
  · next b rest hoctet =>
    have hmem : '.' ∈ '.' :: rest := List.mem_cons_self
    exact absurd ((suffix_of_octet? hoctet).mem hmem) h
  · rfl

/-! ### Groups -/

/-- Where a run of groups ends: with the text, or at a double colon. -/
def RunEnd (rest : List Char) : Prop := rest = [] ∨ ∃ t, rest = ':' :: ':' :: t

/-- The groups with a colon before each. -/
def colonsText (groups : List ℕ) : List Char :=
  groups.flatMap fun g => ':' :: Nat.toDigits 16 g

theorem colonText_cons (g : ℕ) (groups : List ℕ) :
    colonText (g :: groups) = Nat.toDigits 16 g ++ colonsText groups := by
  induction groups generalizing g with
  | nil => simp [colonText, colonsText]
  | cons g' groups ih =>
    have hstep : colonText (g :: g' :: groups) =
        Nat.toDigits 16 g ++ ':' :: colonText (g' :: groups) := by
      simp [colonText, List.intercalate_cons_cons]
    rw [hstep, ih]
    rfl

section
variable {groups : List ℕ} {room : ℕ} {rest : List Char}

theorem RunEnd.head? (h : RunEnd rest) : ∀ c ∈ rest.head?, c = ':' := by
  rcases h with rfl | ⟨t, rfl⟩
  · simp
  · simp

/-- Behind a group stands a colon, if anything. -/
theorem head?_colonsText (h : RunEnd rest) :
    ∀ c ∈ (colonsText groups ++ rest).head?, isDigitIn 16 c = false := by
  intro c hc
  have hcolon : c = ':' := by
    rcases groups with _ | ⟨g, groups⟩
    · exact h.head? c hc
    · simpa [colonsText, eq_comm] using hc
  rw [hcolon]
  decide

theorem groupRun_end (h : RunEnd rest) (first : Bool) :
    groupRun room first rest = ⟨[], false, rest⟩ := by
  rcases room with _ | room
  · rfl
  · rcases h with rfl | ⟨t, rfl⟩
    · cases first <;> cases room <;> rfl
    · cases first <;> cases room <;> rfl

/-- A group without a dot behind it is read, and the run goes on behind it. -/
theorem groupRun_group {first : Bool} {s after : List Char} {g : ℕ}
    (hs : (first = true ∧ s = Nat.toDigits 16 g ++ after) ∨
      (first = false ∧ s = ':' :: (Nat.toDigits 16 g ++ after)))
    (hg : g < 65536) (hdots : '.' ∉ Nat.toDigits 16 g ++ after)
    (hafter : ∀ c ∈ after.head?, isDigitIn 16 c = false) :
    groupRun (room + 1) first s =
      { groupRun room false after with groups := g :: (groupRun room false after).groups } := by
  have htext : (if first then some s else if s.head? = some ':' then some s.tail else none) =
      some (Nat.toDigits 16 g ++ after) := by
    rcases hs with ⟨rfl, rfl⟩ | ⟨rfl, rfl⟩
    · rfl
    · rfl
  rw [groupRun, htext]
  simp only [dotted?_eq_none hdots, ite_self, group?_toDigits hg hafter]

theorem groupRun_colonsText (hgroups : ∀ g ∈ groups, g < 65536) (hroom : groups.length ≤ room)
    (hend : RunEnd rest) (hdots : '.' ∉ colonsText groups ++ rest) :
    groupRun room false (colonsText groups ++ rest) = ⟨groups, false, rest⟩ := by
  induction groups generalizing room with
  | nil => exact groupRun_end hend false
  | cons g groups ih =>
    obtain ⟨hg, hgroups⟩ := List.forall_mem_cons.mp hgroups
    obtain ⟨room, rfl⟩ := Nat.exists_eq_add_of_lt hroom
    have hs : colonsText (g :: groups) ++ rest =
        ':' :: (Nat.toDigits 16 g ++ (colonsText groups ++ rest)) := by
      simp [colonsText]
    rw [hs, List.mem_cons, not_or] at hdots
    have hafter : '.' ∉ colonsText groups ++ rest :=
      fun hmem => hdots.2 (List.mem_append_right _ hmem)
    rw [groupRun_group (Or.inr ⟨rfl, hs⟩) hg hdots.2 (head?_colonsText hend),
      ih hgroups (by omega) hafter]

/-- **A run reads the groups that are printed**, up to its end. -/
theorem groupRun_colonText (hgroups : ∀ g ∈ groups, g < 65536) (hroom : groups.length ≤ room)
    (hend : RunEnd rest) (hdots : '.' ∉ colonText groups ++ rest) :
    groupRun room true (colonText groups ++ rest) = ⟨groups, false, rest⟩ := by
  rcases groups with _ | ⟨g, groups⟩
  · exact groupRun_end hend true
  · obtain ⟨hg, hgroups⟩ := List.forall_mem_cons.mp hgroups
    obtain ⟨room, rfl⟩ := Nat.exists_eq_add_of_lt hroom
    rw [colonText_cons, List.append_assoc] at hdots ⊢
    have hafter : '.' ∉ colonsText groups ++ rest :=
      fun hmem => hdots (List.mem_append_right _ hmem)
    rw [groupRun_group (Or.inl ⟨rfl, rfl⟩) hg hdots (head?_colonsText hend),
      groupRun_colonsText hgroups (by omega) hend hafter]

end

/-! ### Sixteen bytes -/

/-- The characters of a text of groups. -/
theorem mem_colonText {groups : List ℕ} {c : Char} (h : c ∈ colonText groups) :
    isDigitIn 16 c = true ∨ c = ':' := by
  have hdigits : ∀ g, c ∈ Nat.toDigits 16 g → isDigitIn 16 c = true :=
    fun g => isDigitIn_of_mem (by decide) (by decide)
  rcases groups with _ | ⟨g, groups⟩
  · simp [colonText] at h
  · rw [colonText_cons, List.mem_append, colonsText, List.mem_flatMap] at h
    rcases h with h | ⟨g', -, h⟩
    · exact Or.inl (hdigits g h)
    · rcases List.mem_cons.mp h with rfl | h
      · exact Or.inr rfl
      · exact Or.inl (hdigits g' h)

theorem mem_compressedText {groups : List ℕ} {c : Char} (h : c ∈ compressedText groups) :
    isDigitIn 16 c = true ∨ c = ':' := by
  unfold compressedText at h
  dsimp only at h
  split at h
  · exact mem_colonText h
  · rcases List.mem_append.mp h with h | h
    · rcases List.mem_append.mp h with h | h
      · exact mem_colonText h
      · exact Or.inr (by simpa using h)
    · exact mem_colonText h

theorem ne_dot {c : Char} (h : isDigitIn 16 c = true ∨ c = ':') : c ≠ '.' := by
  rintro rfl
  revert h
  decide

theorem not_mem_colonText (groups : List ℕ) : '.' ∉ colonText groups :=
  fun h => ne_dot (mem_colonText h) rfl

theorem not_mem_compressedText (groups : List ℕ) : '.' ∉ compressedText groups :=
  fun h => ne_dot (mem_compressedText h) rfl

/-- A run reads the groups that a text ends with. -/
theorem groupRun_lastGroups {groups : List ℕ} {room : ℕ} (hgroups : ∀ g ∈ groups, g < 65536)
    (hroom : groups.length ≤ room) :
    groupRun room true (colonText groups) = ⟨groups, false, []⟩ := by
  have hdots := not_mem_colonText groups
  rw [← List.append_nil (colonText groups)] at hdots ⊢
  exact groupRun_colonText hgroups hroom (Or.inl rfl) hdots

/-- A run of zeros stands between the groups before and behind it. -/
theorem take_zeros_drop (groups : List ℕ) (i : ℕ) :
    groups.take i ++ List.replicate (zerosFrom groups i) 0 ++
      groups.drop (i + zerosFrom groups i) = groups := by
  have hzeros : (groups.drop i).takeWhile (· = 0) = List.replicate (zerosFrom groups i) 0 := by
    refine List.eq_replicate_iff.mpr ⟨rfl, fun g hg => ?_⟩
    simpa using List.mem_takeWhile_imp hg
  have hbehind : groups.drop (i + zerosFrom groups i) = (groups.drop i).dropWhile (· = 0) := by
    rw [← List.drop_drop]
    nth_rewrite 1 [← List.takeWhile_append_dropWhile (p := (· = 0)) (l := groups.drop i)]
    exact List.drop_left' rfl
  rw [hbehind, ← hzeros, List.append_assoc, List.takeWhile_append_dropWhile, List.take_append_drop]

theorem zerosFrom_le (groups : List ℕ) (i : ℕ) : zerosFrom groups i ≤ groups.length - i := by
  rw [zerosFrom, ← List.length_drop]
  exact (List.takeWhile_sublist _).length_le

theorem eightGroups?_colonText {groups : List ℕ} (h : groups.length = 8)
    (hgroups : ∀ g ∈ groups, g < 65536) : eightGroups? (colonText groups) = some (groups, []) := by
  unfold eightGroups?
  simp only [groupRun_lastGroups hgroups h.le, h, if_true]

/-- A double colon stands for as many zeros as are missing. -/
theorem eightGroups?_doubleColon {before behind : List ℕ}
    (h : before.length + behind.length ≤ 7) (hbefore : ∀ g ∈ before, g < 65536)
    (hbehind : ∀ g ∈ behind, g < 65536) :
    eightGroups? (colonText before ++ ':' :: ':' :: colonText behind) =
      some (before ++ List.replicate (8 - before.length - behind.length) 0 ++ behind, []) := by
  have hdots : '.' ∉ colonText before ++ ':' :: ':' :: colonText behind := by
    simp [not_mem_colonText]
  have hhead : groupRun 8 true (colonText before ++ ':' :: ':' :: colonText behind) =
      ⟨before, false, ':' :: ':' :: colonText behind⟩ :=
    groupRun_colonText hbefore (by omega) (Or.inr ⟨_, rfl⟩) hdots
  have htail : groupRun (7 - before.length) true (colonText behind) = ⟨behind, false, []⟩ :=
    groupRun_lastGroups hbehind (by omega)
  have hnot : before.length ≠ 8 := by omega
  unfold eightGroups?
  simp only [hhead, hnot, if_false, htail, Bool.false_eq_true]

/-- **Eight groups are read back**, whichever zeros were left out. -/
theorem eightGroups?_compressedText {groups : List ℕ} (h : groups.length = 8)
    (hgroups : ∀ g ∈ groups, g < 65536) :
    eightGroups? (compressedText groups) = some (groups, []) := by
  unfold compressedText
  dsimp only
  -- the place of the zeros does not matter, so long as there are any
  generalize longestZeros groups = start
  split
  · exact eightGroups?_colonText h hgroups
  · next hmany =>
    have hzeros := zerosFrom_le groups start
    have hall := take_zeros_drop groups start
    have hbefore : (groups.take start).length = start := by rw [List.length_take]; omega
    have hbehind : (groups.drop (start + zerosFrom groups start)).length =
        8 - (start + zerosFrom groups start) := by rw [List.length_drop, h]
    have hmissing : 8 - start - (8 - (start + zerosFrom groups start)) =
        zerosFrom groups start := by omega
    have hfew : (groups.take start).length +
        (groups.drop (start + zerosFrom groups start)).length ≤ 7 := by omega
    have hread := eightGroups?_doubleColon hfew
      (fun g hg => hgroups g (List.mem_of_mem_take hg))
      (fun g hg => hgroups g (List.mem_of_mem_drop hg))
    rw [hbefore, hbehind, hmissing, hall] at hread
    rwa [List.append_assoc]

/-! ### Bytes -/

theorem lt_of_mem_groups {bytes : List UInt8} {g : ℕ} (h : g ∈ groupsOfBytes bytes) :
    g < 65536 := by
  fun_induction groupsOfBytes bytes with
  | case1 high low bytes ih =>
    rcases List.mem_cons.mp h with rfl | h
    · have := high.toNat_lt
      have := low.toNat_lt
      omega
    · exact ih h
  | case2 => exact absurd h List.not_mem_nil

theorem bytesOfGroups_groupsOfBytes {bytes : List UInt8} (h : bytes.length % 2 = 0) :
    bytesOfGroups (groupsOfBytes bytes) = bytes := by
  fun_induction groupsOfBytes bytes with
  | case1 high low bytes ih =>
    have hlow := low.toNat_lt
    have hquotient : (256 * high.toNat + low.toNat) / 256 = high.toNat := by omega
    have hrest : (256 * high.toNat + low.toNat) % 256 = low.toNat := by omega
    rw [bytesOfGroups, List.flatMap_cons, hquotient, hrest, UInt8.ofNat_toNat, UInt8.ofNat_toNat,
      ← bytesOfGroups, ih (by simp only [List.length_cons] at h; omega)]
    rfl
  | case2 bytes hshort =>
    rcases bytes with _ | ⟨high, _ | ⟨low, bytes⟩⟩
    · rfl
    · cases h
    · exact absurd rfl (hshort high low bytes)

/-- **An address is read back from its text**, unless it is of sixteen bytes that stand for four. -/
theorem ofText?_of_text? {bytes : List UInt8} {s : List Char} (hs : text? bytes = some s)
    (h : bytes.length = 4 ∨ mapped? bytes = none) : ofText? s = some bytes := by
  unfold text? at hs
  split at hs
  · next hfour =>
    obtain rfl := Option.some.inj hs
    simp only [ofText?, dotted?_dottedText hfour, if_true]
  · next hfour =>
    split at hs
    · next hsixteen =>
      rw [h.resolve_left hfour] at hs
      obtain rfl := Option.some.inj hs
      have height : (groupsOfBytes bytes).length = 8 := by rw [length_groupsOfBytes, hsixteen]
      have hgroups := eightGroups?_compressedText height fun _ => lt_of_mem_groups
      simp only [ofText?, dotted?_eq_none (not_mem_compressedText _), hgroups,
        bytesOfGroups_groupsOfBytes (show bytes.length % 2 = 0 by rw [hsixteen])]
    · cases hs

end GeoRules.Address
