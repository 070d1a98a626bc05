import GeoRules.Proofs.Wire.RoundTrip

/-! # The bytes that a reader takes

`Takes read used a` says that the reader takes the bytes `used` for `a`, whatever follows them. The
readers of numbers, keys, payloads and unknown fields are frugal: what they return depends on the
bytes that they take only (`Frugal`), so that it is the same in the whole input and in a piece of it
that holds these bytes.

For each reader one lemma says when it yields a value (`yields_number_iff` to
`yields_skipGroup_iff`). From these, a reader that reads one thing after another is frugal if its
parts are (`Frugal.andThen`). -/

namespace GeoRules.Wire

section
variable {ε α β : Type} {bound bound' : ℕ} {a : α} {rest : Input}

@[simp] theorem yields_ok {r : Read α bound} :
    Yields (.ok r : Except ε (Read α bound)) a rest ↔ r.value = a ∧ r.rest = rest := by
  constructor
  · rintro ⟨lt, h⟩
    obtain rfl := Except.ok.inj h
    exact ⟨rfl, rfl⟩
  · rintro ⟨rfl, rfl⟩
    exact ⟨r.lt, rfl⟩

@[simp] theorem not_yields_error {e : ε} :
    ¬ Yields (.error e : Except ε (Read α bound)) a rest := by
  rintro ⟨lt, h⟩
  cases h

/-- Another value read with the same rest. -/
theorem yields_map_iff {x : Except ε (Read α bound)} {g : Read α bound → Read β bound'} {f : α → β}
    (hg : ∀ r, (g r).value = f r.value ∧ (g r).rest = r.rest) {b : β} :
    Yields (x.map g) b rest ↔ ∃ a, Yields x a rest ∧ f a = b := by
  rcases x with e | r
  · simp [Except.map]
  · simp [Except.map, hg, and_comm]

end

/-! ### Frugal readers -/

section
variable {ε α β : Type} {bound bound' bound'' : Input → ℕ}

/-- The reader takes the bytes for `a`, whatever follows them. -/
def Takes (read : (c : Input) → Except ε (Read α (bound c))) (used : List UInt8) (a : α) : Prop :=
  ∀ rest, Yields (read (.ofBytes (used ++ rest))) a (.ofBytes rest)

/-- **The reader looks at the bytes that it takes and at no others.** -/
def Frugal (read : (c : Input) → Except ε (Read α (bound c))) : Prop :=
  ∀ c a rest, Yields (read c) a rest → ∃ used, c.bytes = used ++ rest.bytes ∧ Takes read used a

/-- A reader that reads one thing and then another takes the bytes of both. -/
theorem Takes.andThen {first : (c : Input) → Except ε (Read α (bound c))}
    {next : (c : Input) → Except ε (Read β (bound' c))}
    {both : (c : Input) → Except ε (Read β (bound'' c))} {u v : List UInt8} {a : α} {b : β}
    (h : ∀ {c c₁ rest}, Yields (first c) a c₁ → Yields (next c₁) b rest → Yields (both c) b rest)
    (hu : Takes first u a) (hv : Takes next v b) : Takes both (u ++ v) b := by
  intro rest
  rw [List.append_assoc]
  exact h (hu (v ++ rest)) (hv rest)

/-- So is a reader that makes another value of what it reads, or fails. -/
theorem Frugal.of_iff {read : (c : Input) → Except ε (Read α (bound c))}
    {read' : (c : Input) → Except ε (Read β (bound' c))} {P : α → β → Prop}
    (h : ∀ {c b rest}, Yields (read' c) b rest ↔ ∃ a, Yields (read c) a rest ∧ P a b)
    (hread : Frugal read) : Frugal read' := by
  intro c b rest hb
  obtain ⟨a, ha, hab⟩ := h.mp hb
  obtain ⟨used, hc, ht⟩ := hread _ _ _ ha
  exact ⟨used, hc, fun rest' => h.mpr ⟨a, ht rest', hab⟩⟩

theorem Frugal.map {read : (c : Input) → Except ε (Read α (bound c))}
    {read' : (c : Input) → Except ε (Read β (bound' c))}
    {g : (c : Input) → Read α (bound c) → Read β (bound' c)} (f : α → β) (hread : Frugal read)
    (h : ∀ c, read' c = (read c).map (g c))
    (hg : ∀ c r, (g c r).value = f r.value ∧ (g c r).rest = r.rest) : Frugal read' :=
  hread.of_iff fun {c b rest} => by rw [h c]; exact yields_map_iff (hg c)

theorem Frugal.andThen {first : (c : Input) → Except ε (Read α (bound c))}
    {next : α → (c : Input) → Except ε (Read β (bound' c))}
    {both : (c : Input) → Except ε (Read β (bound'' c))}
    (h : ∀ {c b rest}, Yields (both c) b rest ↔
      ∃ a c₁, Yields (first c) a c₁ ∧ Yields (next a c₁) b rest)
    (hfirst : Frugal first) (hnext : ∀ a, Frugal (next a)) : Frugal both := by
  intro c b rest hboth
  obtain ⟨a, c₁, h₁, h₂⟩ := h.mp hboth
  obtain ⟨u, hu, htu⟩ := hfirst _ _ _ h₁
  obtain ⟨v, hv, htv⟩ := hnext a _ _ _ h₂
  refine ⟨u ++ v, by rw [hu, hv, List.append_assoc], ?_⟩
  exact htu.andThen (fun hy hz => h.mpr ⟨a, _, hy, hz⟩) htv

end

/-! ### Numbers and keys -/

theorem varintWithin?_take {more : ℕ} {bytes : List UInt8} {v : Varint}
    (h : varintWithin? more bytes = some v) (rest : List UInt8) :
    varintWithin? more (bytes.take v.size ++ rest) = some v := by
  fun_induction varintWithin? more bytes generalizing v with
  | case1 => cases h
  | case2 b bytes hb =>
    obtain rfl := Option.some.inj h
    simp [varintWithin?, hb]
  | case3 b bytes hb => cases h
  | case4 more b bytes hb =>
    obtain rfl := Option.some.inj h
    simp [varintWithin?, hb]
  | case5 more b bytes hb ih =>
    obtain ⟨w, hw, rfl⟩ := Option.map_eq_some_iff.mp h
    rw [List.take_succ_cons, List.cons_append, varintWithin?, if_neg hb, ih hw]
    rfl

theorem yields_number_iff {c rest : Input} {n : ℕ} : Yields c.number n rest ↔
    ∃ size, varint? c.bytes = some ⟨n, size⟩ ∧ rest.bytes = c.bytes.drop size := by
  unfold Input.number
  split
  · next hnone => simp [hnone]
  · next v hsome =>
    rw [yields_ok]
    constructor
    · rintro ⟨rfl, rfl⟩
      exact ⟨v.size, hsome, rfl⟩
    · rintro ⟨size, hv, hrest⟩
      obtain rfl := Option.some.inj (hsome.symm.trans hv)
      exact ⟨rfl, Input.ext hrest.symm⟩

theorem frugal_number : Frugal Input.number := by
  intro c n rest h
  obtain ⟨size, hv, hrest⟩ := yields_number_iff.mp h
  refine ⟨c.bytes.take size, by rw [hrest, List.take_append_drop], fun rest' => ?_⟩
  have hsize : size ≤ c.bytes.length := (size_of_varintWithin? hv).2
  refine yields_number_iff.mpr ⟨size, varintWithin?_take hv rest', ?_⟩
  have hlength : (c.bytes.take size).length = size := by rw [List.length_take]; omega
  exact (List.drop_left' hlength).symm

theorem yields_take_iff {c rest : Input} {n : ℕ} {bytes : List UInt8} :
    Yields (c.take n) bytes rest ↔ bytes.length = n ∧ c.bytes = bytes ++ rest.bytes := by
  have hsize := c.size_eq
  rw [Input.take]
  split
  · next hle =>
    rw [yields_ok]
    constructor
    · rintro ⟨rfl, rfl⟩
      refine ⟨?_, (List.take_append_drop n c.bytes).symm⟩
      rw [List.length_take]
      omega
    · rintro ⟨rfl, hc⟩
      refine ⟨?_, Input.ext ?_⟩
      · simp [hc]
      · simp [hc]
  · next hlt =>
    simp only [not_yields_error, false_iff]
    rintro ⟨rfl, hc⟩
    rw [hsize, hc, List.length_append] at hlt
    omega

theorem frugal_take (n : ℕ) : Frugal (Input.take n) := by
  intro c bytes rest h
  obtain ⟨hn, hc⟩ := yields_take_iff.mp h
  exact ⟨bytes, hc, fun rest' => yields_take_iff.mpr ⟨hn, rfl⟩⟩

theorem yields_delimited_iff {c rest : Input} {bytes : List UInt8} : Yields c.delimited bytes rest ↔
    ∃ n c₁, Yields c.number n c₁ ∧ Yields (c₁.take n) bytes rest := by
  rw [Input.delimited]
  rcases c.number with e | r
  · simp
  · have hboth : (∃ n c₁, Yields (.ok r : Except Fault _) n c₁ ∧ Yields (c₁.take n) bytes rest) ↔
        Yields (r.rest.take r.value) bytes rest := by simp
    rw [hboth]
    dsimp only
    rcases r.rest.take r.value with e | s
    · simp
    · simp [Read.weaken]

theorem frugal_delimited : Frugal Input.delimited :=
  frugal_number.andThen yields_delimited_iff frugal_take

theorem yields_key_iff {c rest : Input} {key : Key} : Yields c.key key rest ↔
    ∃ n, Yields c.number n rest ∧ Key.ofNat n = .ok key := by
  rw [Input.key]
  rcases c.number with e | r
  · simp
  · have hboth : (∃ n, Yields (.ok r : Except Fault _) n rest ∧ Key.ofNat n = .ok key) ↔
        Key.ofNat r.value = .ok key ∧ r.rest = rest := by simp [and_comm]
    rw [hboth]
    dsimp only
    rcases Key.ofNat r.value with e | k
    · simp
    · simp [Read.map]

theorem frugal_key : Frugal Input.key := frugal_number.of_iff yields_key_iff

/-! ### Payloads of known fields -/

theorem yields_text_iff {ι : Type} {c rest : Input} {value : Value} :
    Yields (readScalar (.text : FieldType ι) c) value rest ↔
      ∃ bytes, Yields c.delimited bytes rest ∧ ∃ s, Text.ofUtf8? bytes = some s ∧
        .text s = value := by
  rw [readScalar]
  rcases c.delimited with e | r
  · simp
  · have hboth : (∃ bytes, Yields (.ok r : Except Fault _) bytes rest ∧
        ∃ s, Text.ofUtf8? bytes = some s ∧ Value.text s = value) ↔
          (∃ s, Text.ofUtf8? r.value = some s ∧ Value.text s = value) ∧ r.rest = rest := by
      simp [and_comm]
    rw [hboth]
    dsimp only
    rcases Text.ofUtf8? r.value with _ | s
    · simp
    · simp [Read.map, Read.weaken]

theorem frugal_readScalar {ι : Type} (type : FieldType ι) : Frugal (readScalar type) := by
  cases type with
  | number => exact frugal_number.map Value.number (fun _ => rfl) fun _ _ => ⟨rfl, rfl⟩
  | text => exact frugal_delimited.of_iff yields_text_iff
  | bytes => exact frugal_delimited.map Value.bytes (fun _ => rfl) fun _ _ => ⟨rfl, rfl⟩
  | message i => exact frugal_delimited.map Value.bytes (fun _ => rfl) fun _ _ => ⟨rfl, rfl⟩

/-! ### Unknown fields -/

theorem frugal_skipPayload (type : WireType) : Frugal (skipPayload type) := by
  cases type with
  | varint => exact frugal_number.map (fun _ => ()) (fun _ => rfl) fun _ _ => ⟨rfl, rfl⟩
  | fixed64 => exact (frugal_take 8).map (fun _ => ()) (fun _ => rfl) fun _ _ => ⟨rfl, rfl⟩
  | fixed32 => exact (frugal_take 4).map (fun _ => ()) (fun _ => rfl) fun _ _ => ⟨rfl, rfl⟩
  | delimited => exact frugal_delimited.map (fun _ => ()) (fun _ => rfl) fun _ _ => ⟨rfl, rfl⟩
  | groupStart => exact fun _ _ _ h => absurd h not_yields_error
  | groupEnd => exact fun _ _ _ h => absurd h not_yields_error

/-- What comes of the rest of a group behind the key of a field in it. -/
def skipFrom (room number : ℕ) (outer : List ℕ) (key : Key) (c : Input) (rest : Input) : Prop :=
  (key.type = .groupEnd ∧ key.number = number ∧
    ((outer = [] ∧ c = rest) ∨ ∃ enclosing outer', outer = enclosing :: outer' ∧
      Yields (skipGroup room enclosing outer' c) () rest)) ∨
  (key.type = .groupStart ∧ outer.length + 1 < room ∧
    Yields (skipGroup room key.number (number :: outer) c) () rest) ∨
  (key.type ≠ .groupEnd ∧ key.type ≠ .groupStart ∧ outer.length + 1 < room ∧
    ∃ c₁, Yields (skipPayload key.type c) () c₁ ∧ Yields (skipGroup room number outer c₁) () rest)

theorem yields_skipGroup_iff {room number : ℕ} {outer : List ℕ} {c rest : Input} :
    Yields (skipGroup room number outer c) () rest ↔
      ∃ key c₁, Yields c.key key c₁ ∧ skipFrom room number outer key c₁ rest := by
  rw [skipGroup]
  rcases c.key with e | ⟨⟨k, type⟩, c₁, lt⟩
  · simp
  · have hboth : (∃ key c₂,
        Yields (.ok ⟨⟨k, type⟩, c₁, lt⟩ : Except Fault (Read Key c.size)) key c₂ ∧
          skipFrom room number outer key c₂ rest) ↔
        skipFrom room number outer ⟨k, type⟩ c₁ rest := by
      simp
    rw [hboth]
    unfold skipFrom
    cases type with
    | groupEnd =>
      by_cases hk : k = number
      · subst hk
        rcases outer with _ | ⟨enclosing, outer⟩
        · simp [Read.map, Read.weaken]
        · simp only [ne_eq, not_true_eq_false, if_false]
          rcases hskip : skipGroup room enclosing outer c₁ with e | r
          · simp [hskip]
          · simp [hskip, Read.weaken]
      · simp [hk]
    | groupStart =>
      by_cases hroom : room ≤ outer.length + 1
      · simp [hroom, Nat.not_lt.mpr hroom]
      · simp only [if_neg hroom]
        rcases skipGroup room k (number :: outer) c₁ with e | r
        · simp
        · simp [Read.weaken, Nat.not_le.mp hroom]
    | varint | fixed64 | delimited | fixed32 =>
      by_cases hroom : room ≤ outer.length + 1
      · simp [hroom, Nat.not_lt.mpr hroom]
      · simp only [if_neg hroom]
        rcases skipPayload _ c₁ with e | r
        · simp
        · rcases hskip : skipGroup room number outer r.rest with e | r'
          · simp [hskip]
          · simp [hskip, Read.weaken, Nat.not_le.mp hroom]

theorem frugal_skipGroup (room number : ℕ) (outer : List ℕ) :
    Frugal (skipGroup room number outer) := by
  intro c u rest h
  -- the bytes of a group are those of a key, perhaps of a payload, and of the rest of the group
  induction hn : c.size using Nat.strongRecOn generalizing number outer c with
  | ind n ih =>
    obtain ⟨key, c₁, hkey, hfrom⟩ := yields_skipGroup_iff.mp h
    obtain ⟨u₁, hc, hk⟩ := frugal_key _ _ _ hkey
    have hlt : c₁.size < n := hn ▸ hkey.1
    have hall : ∀ v, c₁.bytes = v ++ rest.bytes →
        (∀ rest', skipFrom room number outer key (.ofBytes (v ++ rest')) (.ofBytes rest')) →
        ∃ used, c.bytes = used ++ rest.bytes ∧ Takes (skipGroup room number outer) used () := by
      intro v hv hfrom
      refine ⟨u₁ ++ v, by rw [hc, hv, List.append_assoc], fun rest' => ?_⟩
      rw [List.append_assoc]
      exact yields_skipGroup_iff.mpr ⟨key, _, hk (v ++ rest'), hfrom rest'⟩
    rcases hfrom with ⟨hend, hnumber, ⟨houter, rfl⟩ | ⟨enclosing, outer', houter, hrest⟩⟩ |
      ⟨hstart, hroom, hrest⟩ | ⟨hend, hstart, hroom, c₂, hpayload, hrest⟩
    · exact hall [] rfl fun rest' => Or.inl ⟨hend, hnumber, Or.inl ⟨houter, rfl⟩⟩
    · obtain ⟨v, hv, ht⟩ := ih _ hlt enclosing outer' _ hrest rfl
      exact hall v hv fun rest' =>
        Or.inl ⟨hend, hnumber, Or.inr ⟨enclosing, outer', houter, ht rest'⟩⟩
    · obtain ⟨v, hv, ht⟩ := ih _ hlt key.number (number :: outer) _ hrest rfl
      exact hall v hv fun rest' => Or.inr (Or.inl ⟨hstart, hroom, ht rest'⟩)
    · obtain ⟨u₂, hc₁, hp⟩ := frugal_skipPayload key.type _ _ _ hpayload
      have hlt₂ : c₂.size < n := by have := hpayload.1; omega
      obtain ⟨v, hv, ht⟩ := ih _ hlt₂ number outer _ hrest rfl
      refine hall (u₂ ++ v) (by rw [hc₁, hv, List.append_assoc]) fun rest' => ?_
      rw [List.append_assoc]
      exact Or.inr (Or.inr ⟨hend, hstart, hroom, _, hp (v ++ rest'), ht rest'⟩)

/-- A field is skipped as a group or as a payload. -/
theorem skipField_cases {room : ℕ} (hroom : room ≠ 0) (key : Key) :
    (key.type = .groupStart ∧ skipField room key = skipGroup room key.number []) ∨
      (key.type ≠ .groupStart ∧ skipField room key = skipPayload key.type) := by
  obtain ⟨k, type⟩ := key
  cases type with
  | groupStart => exact Or.inl ⟨rfl, funext fun c => if_neg hroom⟩
  | varint => exact Or.inr ⟨by simp, funext fun c => if_neg hroom⟩
  | fixed64 => exact Or.inr ⟨by simp, funext fun c => if_neg hroom⟩
  | delimited => exact Or.inr ⟨by simp, funext fun c => if_neg hroom⟩
  | groupEnd => exact Or.inr ⟨by simp, funext fun c => if_neg hroom⟩
  | fixed32 => exact Or.inr ⟨by simp, funext fun c => if_neg hroom⟩

theorem frugal_skipField (room : ℕ) (key : Key) : Frugal (skipField room key) := by
  by_cases hroom : room = 0
  · intro c u rest h
    rw [skipField, if_pos hroom] at h
    exact absurd h not_yields_error
  · rcases skipField_cases hroom key with ⟨-, hskip⟩ | ⟨-, hskip⟩
    · rw [hskip]
      exact frugal_skipGroup room key.number []
    · rw [hskip]
      exact frugal_skipPayload key.type

end GeoRules.Wire
