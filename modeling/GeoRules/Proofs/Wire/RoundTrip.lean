import GeoRules.Wire.Reader
import GeoRules.Wire.Writer
import Mathlib.Data.Nat.Notation
import Mathlib.Tactic.Ring

/-! # Encoded fields are read back

`Yields x a rest` says that a reader returns `a` and leaves `rest`. A number of 64 bits, a key and a
payload each yield what was written, whatever follows them, and one step of `readFields` yields the
field at the head of its input.

`Represents schema m depth fields values` says that the schema reads the fields of a message as the
values: the number of every field is known, its payload is of the type of the field, and messages
nest at most `depth` deep. Encoded, such fields decode to the values (`decode_encode`). -/

namespace GeoRules.Wire

/-- The reader returns `a` and leaves `rest`. -/
def Yields {ε α : Type} {bound : ℕ} (x : Except ε (Read α bound)) (a : α) (rest : Input) : Prop :=
  ∃ lt, x = .ok ⟨a, rest, lt⟩

theorem Yields.intro {ε α : Type} {bound : ℕ} {x : Except ε (Read α bound)} {r : Read α bound}
    {rest : Input} (h : x = .ok r) (hrest : r.rest.bytes = rest.bytes) :
    Yields x r.value rest := by
  obtain rfl := Input.ext hrest
  exact ⟨r.lt, h⟩

/-- The number has at most 64 bits, as all numbers and lengths of a message. -/
def Fits (n : ℕ) : Prop := n < 2 ^ 64

instance (n : ℕ) : Decidable (Fits n) := inferInstanceAs (Decidable (n < 2 ^ 64))

theorem Fits.of_le {n k : ℕ} (h : Fits k) (hle : n ≤ k) : Fits n := Nat.lt_of_le_of_lt hle h

/-! ### Numbers and keys -/

theorem varintWithin?_varint (more : ℕ) {n : ℕ} (h : n < 2 * 128 ^ more) (rest : List UInt8) :
    varintWithin? more (varint n ++ rest) = some ⟨n, (varint n).length⟩ := by
  induction more generalizing n with
  | zero =>
    have hn : (UInt8.ofNat n).toNat = n := by rw [UInt8.toNat_ofNat']; omega
    have hb : UInt8.ofNat n < 2 := by rw [UInt8.lt_iff_toNat_lt, hn]; simpa using h
    rw [varint, if_pos (by omega), List.singleton_append, varintWithin?, if_pos hb, hn]
    rfl
  | succ more ih =>
    rw [varint]
    split
    · have hn : (UInt8.ofNat n).toNat = n := by rw [UInt8.toNat_ofNat']; omega
      have hb : UInt8.ofNat n < 128 := by rw [UInt8.lt_iff_toNat_lt, hn]; assumption
      rw [List.singleton_append, varintWithin?, if_pos hb, hn]
      rfl
    · have hn : (UInt8.ofNat (n % 128 + 128)).toNat = n % 128 + 128 := by
        rw [UInt8.toNat_ofNat']; omega
      have hb : ¬ UInt8.ofNat (n % 128 + 128) < 128 := by
        rw [UInt8.lt_iff_toNat_lt, hn]
        exact Nat.not_lt.mpr (Nat.le_add_left ..)
      have hlt : n / 128 < 2 * 128 ^ more := by
        rw [Nat.div_lt_iff_lt_mul (by omega)]
        calc n < 2 * 128 ^ (more + 1) := h
          _ = 2 * 128 ^ more * 128 := by ring
      rw [List.cons_append, varintWithin?, if_neg hb, ih hlt, hn]
      simp only [Option.map_some, List.length_cons]
      congr 2
      omega

theorem number_yields {n : ℕ} (h : Fits n) (rest : List UInt8) :
    Yields (Input.ofBytes (varint n ++ rest)).number n (.ofBytes rest) := by
  have hv : varint? (varint n ++ rest) = some ⟨n, (varint n).length⟩ :=
    varintWithin?_varint 9 (lt_of_lt_of_eq h (by norm_num)) rest
  unfold Input.number
  split
  · next hnone =>
    rw [Input.bytes_ofBytes, hv] at hnone
    cases hnone
  · next v hsome =>
    rw [Input.bytes_ofBytes, hv] at hsome
    obtain rfl := Option.some.inj hsome
    exact Yields.intro rfl List.drop_left

theorem take_yields (bytes rest : List UInt8) :
    Yields ((Input.ofBytes (bytes ++ rest)).take bytes.length) bytes (.ofBytes rest) := by
  have hle : bytes.length ≤ (Input.ofBytes (bytes ++ rest)).size := by simp
  obtain ⟨lt, h⟩ : Yields ((Input.ofBytes (bytes ++ rest)).take bytes.length)
      ((bytes ++ rest).take bytes.length) (.ofBytes rest) := by
    rw [Input.take, if_pos hle]
    exact Yields.intro rfl List.drop_left
  rw [h, List.take_left]
  exact ⟨lt, rfl⟩

theorem delimited_yields {bytes : List UInt8} (h : Fits bytes.length) (rest : List UInt8) :
    Yields (Input.ofBytes (varint bytes.length ++ (bytes ++ rest))).delimited bytes
      (.ofBytes rest) := by
  obtain ⟨_, hn⟩ := number_yields h (bytes ++ rest)
  obtain ⟨_, ht⟩ := take_yields bytes rest
  rw [Input.delimited, hn]
  simp only [ht]
  exact ⟨_, rfl⟩

/-- A number that a field can go by. -/
def FieldNumber (k : ℕ) : Prop := 0 < k ∧ k < 2 ^ 29

instance (k : ℕ) : Decidable (FieldNumber k) := inferInstanceAs (Decidable (0 < k ∧ k < 2 ^ 29))

theorem ofNat_key {key : Key} (h : FieldNumber key.number) :
    Key.ofNat (8 * key.number + key.type.code) = .ok key := by
  obtain ⟨hpos, hlt⟩ := h
  have hcode := key.type.code_lt
  have hsize : ¬ UInt32.size ≤ 8 * key.number + key.type.code := by
    simp only [UInt32.size]; omega
  have hmod : (8 * key.number + key.type.code) % 8 = key.type.code := by omega
  have hdiv : (8 * key.number + key.type.code) / 8 = key.number := by omega
  rw [Key.ofNat, if_neg hsize, hmod, WireType.ofCode?_code, hdiv]
  simp only [if_neg (Nat.ne_of_gt hpos)]

theorem key_yields {key : Key} (h : FieldNumber key.number) (rest : List UInt8) :
    Yields (Input.ofBytes (key.encode ++ rest)).key key (.ofBytes rest) := by
  obtain ⟨-, hlt⟩ := id h
  have hcode := key.type.code_lt
  obtain ⟨_, hn⟩ := number_yields (n := 8 * key.number + key.type.code)
    (by unfold Fits; omega) rest
  rw [Input.key, Key.encode, hn]
  simp only [ofNat_key h]
  exact ⟨_, rfl⟩

/-! ### One field -/

section Step
variable {ι : Type} {schema : Schema ι} {m : ι} {room limit k : ℕ} {label : String}
  {c c₁ c₂ c₃ c₄ : Input} {fields inner : List (ℕ × Value)}

theorem readFields_end (h : c.size = limit) : Yields (readFields schema m room limit c) [] c := by
  rw [readFields, if_pos (Nat.le_of_eq h), if_pos h]
  exact ⟨_, rfl⟩

/-- A message that was read to its end starts before it. -/
theorem limit_le_of_readFields {r : Read (List (ℕ × Value)) (c.size + 1)}
    (h : readFields schema m room limit c = .ok r) : limit ≤ c.size := by
  by_contra hlt
  rw [readFields, if_pos (by omega), if_neg (by omega)] at h
  cases h

theorem readFields_scalar {type : FieldType ι}
    (hkey : Yields c.key ⟨k, type.wireType⟩ c₁) (hfield : schema.field? m k = some ⟨label, type⟩)
    (htype : ∀ i, type ≠ .message i) {value : Value} (hvalue : Yields (readScalar type c₁) value c₂)
    (hfields : Yields (readFields schema m room limit c₂) fields c₃) :
    Yields (readFields schema m room limit c) ((k, value) :: fields) c₃ := by
  obtain ⟨_, hk⟩ := hkey
  obtain ⟨_, hv⟩ := hvalue
  obtain ⟨_, hf⟩ := hfields
  have hlimit := limit_le_of_readFields hf
  rw [readFields, if_neg (by omega), hk]
  simp only [hfield, expect, if_true]
  cases type with
  | message i => exact absurd rfl (htype i)
  | number | bytes | text =>
    simp only [hv, hf]
    exact ⟨_, rfl⟩

theorem readFields_message {i : ι}
    (hkey : Yields c.key ⟨k, .delimited⟩ c₁)
    (hfield : schema.field? m k = some ⟨label, .message i⟩) {bound : ℕ}
    (hbound : Yields (readLimit room c₁) bound c₂)
    (hinner : Yields (readFields schema i (room - 1) bound c₂) inner c₃)
    (hfields : Yields (readFields schema m room limit c₃) fields c₄) :
    Yields (readFields schema m room limit c) ((k, .message inner) :: fields) c₄ := by
  obtain ⟨_, hk⟩ := hkey
  obtain ⟨_, hb⟩ := hbound
  obtain ⟨_, hi⟩ := hinner
  obtain ⟨_, hf⟩ := hfields
  have hlimit := limit_le_of_readFields hf
  rw [readFields, if_neg (by omega), hk]
  simp only [hfield, expect, FieldType.wireType, if_true, hb, hi, hf]
  exact ⟨_, rfl⟩

end Step

section Scalar
variable {ι : Type} {c c₁ : Input}

theorem readScalar_number {n : ℕ} (h : Yields c.number n c₁) :
    Yields (readScalar (.number : FieldType ι) c) (.number n) c₁ := by
  obtain ⟨_, h⟩ := h
  rw [readScalar, h]
  exact ⟨_, rfl⟩

theorem readScalar_text {s : String} (h : Yields c.delimited (Text.utf8 s) c₁) :
    Yields (readScalar (.text : FieldType ι) c) (.text s) c₁ := by
  obtain ⟨_, h⟩ := h
  rw [readScalar, h]
  simp only [Text.ofUtf8?_utf8]
  exact ⟨_, rfl⟩

theorem readScalar_bytes {bytes : List UInt8} (h : Yields c.delimited bytes c₁) :
    Yields (readScalar (.bytes : FieldType ι) c) (.bytes bytes) c₁ := by
  obtain ⟨_, h⟩ := h
  rw [readScalar, h]
  exact ⟨_, rfl⟩

end Scalar

theorem readLimit_yields {room : ℕ} (hroom : 0 < room) {bytes : List UInt8}
    (h : Fits bytes.length) (rest : List UInt8) :
    Yields (readLimit room (.ofBytes (varint bytes.length ++ (bytes ++ rest)))) rest.length
      (.ofBytes (bytes ++ rest)) := by
  obtain ⟨lt, hn⟩ := number_yields h (bytes ++ rest)
  have hle : bytes.length ≤ (Input.ofBytes (bytes ++ rest)).size := by simp
  have hbound : (Input.ofBytes (bytes ++ rest)).size - bytes.length = rest.length := by simp
  rw [readLimit, if_neg (Nat.ne_of_gt hroom), hn]
  simp only [if_pos hle, Read.map, hbound]
  exact ⟨lt, rfl⟩

/-! ### Messages -/

/-- The fields of all messages go by numbers that keys can hold. -/
def Schema.Numbered {ι : Type} (schema : Schema ι) : Prop :=
  ∀ {m k field}, schema.field? m k = some field → FieldNumber k

/-- The schema reads the fields of the message as the values. -/
inductive Represents {ι : Type} (schema : Schema ι) :
    ι → ℕ → List (ℕ × Payload) → List (ℕ × Value) → Prop
  | nil {m depth} : Represents schema m depth [] []
  | number {m depth k label n fields values}
      (hfield : schema.field? m k = some ⟨label, .number⟩) (hn : Fits n)
      (h : Represents schema m depth fields values) :
      Represents schema m depth ((k, .number n) :: fields) ((k, .number n) :: values)
  | text {m depth k label s fields values}
      (hfield : schema.field? m k = some ⟨label, .text⟩) (hs : Fits (Text.utf8 s).length)
      (h : Represents schema m depth fields values) :
      Represents schema m depth ((k, .delimited (Text.utf8 s)) :: fields) ((k, .text s) :: values)
  | bytes {m depth k label bytes fields values}
      (hfield : schema.field? m k = some ⟨label, .bytes⟩) (hb : Fits bytes.length)
      (h : Represents schema m depth fields values) :
      Represents schema m depth ((k, .delimited bytes) :: fields) ((k, .bytes bytes) :: values)
  | message {m depth k label i inner innerValues fields values}
      (hfield : schema.field? m k = some ⟨label, .message i⟩) (hi : Fits (encode inner).length)
      (hinner : Represents schema i depth inner innerValues)
      (h : Represents schema m (depth + 1) fields values) :
      Represents schema m (depth + 1) ((k, .delimited (encode inner)) :: fields)
        ((k, .message innerValues) :: values)

section
variable {ι : Type} {schema : Schema ι} {m : ι} {depth : ℕ} {fields : List (ℕ × Payload)}
  {values : List (ℕ × Value)}

theorem Represents.append {fields' : List (ℕ × Payload)} {values' : List (ℕ × Value)}
    (h : Represents schema m depth fields values) (h' : Represents schema m depth fields' values') :
    Represents schema m depth (fields ++ fields') (values ++ values') := by
  induction h with
  | nil => exact h'
  | number hfield hn _ ih => exact .number hfield hn (ih h')
  | text hfield hs _ ih => exact .text hfield hs (ih h')
  | bytes hfield hb _ ih => exact .bytes hfield hb (ih h')
  | message hfield hi hinner _ _ ih => exact .message hfield hi hinner (ih h')

theorem encode_cons (field : ℕ × Payload) (fields : List (ℕ × Payload)) (rest : List UInt8) :
    encode (field :: fields) ++ rest =
      Key.encode ⟨field.1, field.2.wireType⟩ ++ (field.2.encode ++ (encode fields ++ rest)) := by
  simp [encode, encodeField]

theorem fits_append {f g : List (ℕ × Payload)} (h : Fits (encode (f ++ g)).length) :
    Fits (encode f).length ∧ Fits (encode g).length := by
  have hlen : (encode (f ++ g)).length = (encode f).length + (encode g).length := by
    simp [encode]
  exact ⟨h.of_le (by omega), h.of_le (by omega)⟩

/-- A payload is no longer than the message that it stands in. -/
theorem length_le_of_mem {k : ℕ} {bytes : List UInt8} (h : (k, .delimited bytes) ∈ fields) :
    bytes.length ≤ (encode fields).length := by
  obtain ⟨before, after, rfl⟩ := List.append_of_mem h
  simp only [encode, List.flatMap_append, List.flatMap_cons, encodeField, Payload.encode,
    List.length_append]
  omega

/-- **Fields that represent values are read as the values**, up to the end of their message. -/
theorem Represents.readFields (hschema : schema.Numbered)
    (h : Represents schema m depth fields values) {room : ℕ} (hroom : depth ≤ room)
    (rest : List UInt8) :
    Yields (readFields schema m room rest.length (.ofBytes (encode fields ++ rest))) values
      (.ofBytes rest) := by
  induction h generalizing room rest with
  | nil => exact readFields_end rfl
  | number hfield hn _ ih =>
    rw [encode_cons]
    exact readFields_scalar (key_yields (hschema hfield) _) hfield (by simp)
      (readScalar_number (number_yields hn _)) (ih hroom rest)
  | text hfield hs _ ih =>
    rw [encode_cons, Payload.encode, List.append_assoc]
    exact readFields_scalar (key_yields (hschema hfield) _) hfield (by simp)
      (readScalar_text (delimited_yields hs _)) (ih hroom rest)
  | bytes hfield hb _ ih =>
    rw [encode_cons, Payload.encode, List.append_assoc]
    exact readFields_scalar (key_yields (hschema hfield) _) hfield (by simp)
      (readScalar_bytes (delimited_yields hb _)) (ih hroom rest)
  | @message _ depth _ _ _ inner _ fields _ hfield hi hinner _ ihi ih =>
    rw [encode_cons, Payload.encode, List.append_assoc]
    have hpos : 0 < room := Nat.lt_of_lt_of_le (Nat.succ_pos depth) hroom
    have hless : depth ≤ room - 1 := by omega
    exact readFields_message (key_yields (hschema hfield) _) hfield (readLimit_yields hpos hi _)
      (ihi hless (encode fields ++ rest)) (ih hroom rest)

/-- **A message that represents values decodes to them.** -/
theorem decode_encode (hschema : schema.Numbered) (h : Represents schema m depth fields values)
    (hdepth : depth ≤ maxDepth) :
    decode schema m (encode fields) = .ok values := by
  have hr := h.readFields hschema hdepth []
  rw [List.append_nil] at hr
  obtain ⟨_, hr⟩ := hr
  rw [List.length_nil] at hr
  rw [decode, hr]
  rfl

end

end GeoRules.Wire
