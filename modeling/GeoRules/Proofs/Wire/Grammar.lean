import GeoRules.Proofs.Wire.Prefix

/-! # Bytes that hold the fields of a message

`Holds schema m room bytes fields` is the grammar of messages: the bytes are those of the fields,
one after the other. A message inside another one has its length before it and is made of just so
many bytes, so it ends inside the message around it. Decoding follows this grammar, although it
reads every field from all that is left of the input: a field that goes on behind the end of its
message leaves too few bytes, and no later field gives them back (`holds_of_readFields`,
`decode_eq_ok_iff`). -/

namespace GeoRules.Wire

/-- **The bytes hold the fields of the message `m`**; messages and groups nest in as many levels as
there is room for. -/
inductive Holds {ι : Type} (schema : Schema ι) :
    ι → ℕ → List UInt8 → List (ℕ × Value) → Prop
  | nil {m room} : Holds schema m room [] []
  | unknown {m room key u v rest fields}
      (hkey : Takes Input.key u key) (hfield : schema.field? m key.number = none)
      (hskip : Takes (skipField room key) v ()) (h : Holds schema m room rest fields) :
      Holds schema m room (u ++ (v ++ rest)) fields
  | scalar {m room k label type u v value rest fields}
      (hkey : Takes Input.key u ⟨k, type.wireType⟩)
      (hfield : schema.field? m k = some ⟨label, type⟩) (htype : ∀ i, type ≠ .message i)
      (hvalue : Takes (readScalar type) v value) (h : Holds schema m room rest fields) :
      Holds schema m room (u ++ (v ++ rest)) ((k, value) :: fields)
  | message {m room k label i u v body inner rest fields}
      (hkey : Takes Input.key u ⟨k, .delimited⟩)
      (hfield : schema.field? m k = some ⟨label, .message i⟩)
      (hlength : Takes Input.number v body.length) (hinner : Holds schema i room body inner)
      (h : Holds schema m (room + 1) rest fields) :
      Holds schema m (room + 1) (u ++ (v ++ (body ++ rest))) ((k, .message inner) :: fields)

variable {ι : Type} {schema : Schema ι} {m : ι} {room limit : ℕ} {c rest : Input}
  {fields : List (ℕ × Value)}

/-! ### One field -/

theorem yields_readLimit_iff {bound : ℕ} : Yields (readLimit room c) bound rest ↔
    room ≠ 0 ∧ ∃ length, Yields c.number length rest ∧ length ≤ rest.size ∧
      rest.size - length = bound := by
  rw [readLimit]
  by_cases hroom : room = 0
  · simp [hroom]
  · rw [if_neg hroom]
    rcases c.number with e | r
    · simp
    · dsimp only
      by_cases hle : r.value ≤ r.rest.size
      · simp only [if_pos hle, yields_ok, Read.map]
        constructor
        · rintro ⟨hbound, rfl⟩
          exact ⟨hroom, r.value, ⟨rfl, rfl⟩, hle, hbound⟩
        · rintro ⟨-, length, ⟨rfl, rfl⟩, -, hbound⟩
          exact ⟨hbound, rfl⟩
      · simp only [if_neg hle, not_yields_error, yields_ok, false_iff]
        rintro ⟨-, length, ⟨rfl, rfl⟩, hle', -⟩
        exact hle hle'

/-- The end of a message is as far off as the bytes behind it are many. -/
theorem readLimit_of_takes {v body : List UInt8} (h : Takes Input.number v body.length)
    (behind : List UInt8) :
    Yields (readLimit (room + 1) (.ofBytes (v ++ (body ++ behind)))) behind.length
      (.ofBytes (body ++ behind)) := by
  refine yields_readLimit_iff.mpr ⟨by omega, body.length, h _, ?_, ?_⟩
  · simp
  · simp

theorem readFields_unknown {key : Key} {c₁ c₂ : Input} (hkey : Yields c.key key c₁)
    (hfield : schema.field? m key.number = none) (hskip : Yields (skipField room key c₁) () c₂)
    (hfields : Yields (readFields schema m room limit c₂) fields rest) :
    Yields (readFields schema m room limit c) fields rest := by
  obtain ⟨_, hk⟩ := hkey
  obtain ⟨_, hs⟩ := hskip
  obtain ⟨_, hf⟩ := hfields
  have hlimit := limit_le_of_readFields hf
  rw [readFields, if_neg (by omega), hk]
  simp only [hfield, hs, hf]
  exact ⟨_, rfl⟩

/-- What the fields of a message start with: nothing at its end, else an unknown field that is
skipped, or a known one that holds a message or some other value. -/
theorem readFields_cases (h : Yields (readFields schema m room limit c) fields rest) :
    (c.size = limit ∧ fields = [] ∧ c = rest) ∨
    ∃ key c₁ c₂, Yields c.key key c₁ ∧
      ((schema.field? m key.number = none ∧ Yields (skipField room key c₁) () c₂ ∧
          Yields (readFields schema m room limit c₂) fields rest) ∨
        ∃ label type value more, schema.field? m key.number = some ⟨label, type⟩ ∧
          key.type = type.wireType ∧ fields = (key.number, value) :: more ∧
          Yields (readFields schema m room limit c₂) more rest ∧
          (((∀ i, type ≠ .message i) ∧ Yields (readScalar type c₁) value c₂) ∨
            ∃ i bound inner c', type = .message i ∧ value = .message inner ∧
              Yields (readLimit room c₁) bound c' ∧
              Yields (readFields schema i (room - 1) bound c') inner c₂)) := by
  rw [readFields] at h
  by_cases hend : c.size ≤ limit
  · rw [if_pos hend] at h
    by_cases heq : c.size = limit
    · rw [if_pos heq, yields_ok] at h
      exact Or.inl ⟨heq, h.1.symm, h.2⟩
    · rw [if_neg heq] at h
      exact absurd h not_yields_error
  · rw [if_neg hend] at h
    right
    rcases hk : c.key with e | key
    · rw [hk] at h
      exact absurd h not_yields_error
    rw [hk] at h
    dsimp only at h
    rcases hfield : schema.field? m key.value.number with _ | ⟨label, type⟩
    · rw [hfield] at h
      rcases hs : skipField room key.value key.rest with e | skipped
      · simp [hs] at h
      rcases hf : readFields schema m room limit skipped.rest with e | r
      · simp [hs, hf] at h
      · simp only [hs, hf, yields_ok] at h
        obtain ⟨rfl, rfl⟩ := h
        exact ⟨key.value, key.rest, skipped.rest, by simp, Or.inl
          ⟨hfield, by simp [hs], by simp [hf, Read.weaken]⟩⟩
    · rw [hfield] at h
      by_cases htype : key.value.type = type.wireType
      swap
      · simp [expect, htype] at h
      simp only [expect, htype, if_true] at h
      split at h
      · next i =>
        rcases hl : readLimit room key.rest with e | bound
        · simp [hl] at h
        rcases hi : readFields schema i (room - 1) bound.value bound.rest with e | inner
        · simp [hl, hi] at h
        rcases hf : readFields schema m room limit inner.rest with e | r
        · simp [hl, hi, hf] at h
        · simp only [hl, hi, hf, yields_ok] at h
          obtain ⟨rfl, rfl⟩ := h
          exact ⟨key.value, key.rest, inner.rest, by simp, Or.inr
            ⟨label, .message i, _, r.value, hfield, htype, rfl, by simp [hf, Read.weaken, Read.map],
              Or.inr ⟨i, bound.value, inner.value, bound.rest, rfl, rfl, by simp [hl],
                by simp [hi]⟩⟩⟩
      · next hscalar =>
        rcases hv : readScalar type key.rest with e | value
        · simp [hv] at h
        rcases hf : readFields schema m room limit value.rest with e | r
        · simp [hv, hf] at h
        · simp only [hv, hf, yields_ok] at h
          obtain ⟨rfl, rfl⟩ := h
          exact ⟨key.value, key.rest, value.rest, by simp, Or.inr
            ⟨label, type, _, r.value, hfield, htype, rfl, by simp [hf, Read.weaken, Read.map],
              Or.inl ⟨hscalar, by simp [hv]⟩⟩⟩

/-! ### All fields -/

/-- Bytes that hold fields are read as the fields, whatever follows them. -/
theorem Holds.readFields {bytes : List UInt8} (h : Holds schema m room bytes fields)
    (rest : List UInt8) :
    Yields (readFields schema m room rest.length (.ofBytes (bytes ++ rest))) fields
      (.ofBytes rest) := by
  induction h generalizing rest with
  | nil => exact readFields_end rfl
  | unknown hkey hfield hskip _ ih =>
    rw [List.append_assoc, List.append_assoc]
    exact readFields_unknown (hkey _) hfield (hskip _) (ih rest)
  | scalar hkey hfield htype hvalue _ ih =>
    rw [List.append_assoc, List.append_assoc]
    exact readFields_scalar (hkey _) hfield htype (hvalue _) (ih rest)
  | @message m room k label i u v body inner after fields hkey hfield hlength _ _ ihi ih =>
    rw [List.append_assoc, List.append_assoc, List.append_assoc]
    exact readFields_message (hkey _) hfield (readLimit_of_takes hlength (after ++ rest))
      (ihi (after ++ rest)) (ih rest)

/-- Fields that are read end where their message does, and the bytes that were read hold them. -/
theorem holds_of_readFields (h : Yields (readFields schema m room limit c) fields rest) :
    rest.size = limit ∧ ∃ used, c.bytes = used ++ rest.bytes ∧ Holds schema m room used fields := by
  induction hn : c.size using Nat.strongRecOn generalizing m room limit c fields rest with
  | ind n ih =>
    rcases readFields_cases h with ⟨hend, rfl, rfl⟩ | ⟨key, c₁, c₂, hkey, hcase⟩
    · exact ⟨hend, [], rfl, .nil⟩
    obtain ⟨u, hc, hu⟩ := frugal_key _ _ _ hkey
    have hlt₁ : c₁.size < n := hn ▸ hkey.1
    rcases hcase with ⟨hfield, hskip, hfields⟩ |
      ⟨label, type, value, more, hfield, htype, rfl, hfields, ⟨hscalar, hvalue⟩ |
        ⟨i, bound, inner, c', rfl, rfl, hlimit, hinner⟩⟩
    · obtain ⟨v, hc₁, hv⟩ := frugal_skipField room key _ _ _ hskip
      have hlt₂ : c₂.size < n := by have := hskip.1; omega
      obtain ⟨hsize, used, hused, hholds⟩ := ih _ hlt₂ hfields rfl
      refine ⟨hsize, u ++ (v ++ used), ?_, .unknown hu hfield hv hholds⟩
      rw [hc, hc₁, hused, List.append_assoc, List.append_assoc]
    · obtain ⟨v, hc₁, hv⟩ := frugal_readScalar type _ _ _ hvalue
      have hlt₂ : c₂.size < n := by have := hvalue.1; omega
      obtain ⟨hsize, used, hused, hholds⟩ := ih _ hlt₂ hfields rfl
      have hu' : Takes Input.key u ⟨key.number, type.wireType⟩ := htype ▸ hu
      refine ⟨hsize, u ++ (v ++ used), ?_, .scalar hu' hfield hscalar hv hholds⟩
      rw [hc, hc₁, hused, List.append_assoc, List.append_assoc]
    · obtain ⟨hroom, length, hnumber, hle, rfl⟩ := yields_readLimit_iff.mp hlimit
      obtain ⟨room, rfl⟩ := Nat.exists_eq_succ_of_ne_zero hroom
      obtain ⟨v, hc₁, hv⟩ := frugal_number _ _ _ hnumber
      have hlt' : c'.size < n := by have := hnumber.1; omega
      have hlt₂ : c₂.size < n := by have := hinner.1; omega
      obtain ⟨hsize', body, hbody, hholds'⟩ := ih _ hlt' hinner rfl
      obtain ⟨hsize, used, hused, hholds⟩ := ih _ hlt₂ hfields rfl
      -- the message ends where its length says, so that its length is that of its bytes
      have hlength : length = body.length := by
        have hsizes := congrArg List.length hbody
        rw [List.length_append, ← c'.size_eq, ← c₂.size_eq] at hsizes
        omega
      have hu' : Takes Input.key u ⟨key.number, (FieldType.message i).wireType⟩ := htype ▸ hu
      refine ⟨hsize, u ++ (v ++ (body ++ used)), ?_,
        .message hu' hfield (hlength ▸ hv) hholds' hholds⟩
      rw [hc, hc₁, hbody, hused, List.append_assoc, List.append_assoc, List.append_assoc]

/-- **Decoding follows the grammar.** -/
theorem decode_eq_ok_iff {bytes : List UInt8} :
    decode schema m bytes = .ok fields ↔ Holds schema m maxDepth bytes fields := by
  constructor
  · intro h
    rcases hr : readFields schema m maxDepth 0 (.ofBytes bytes) with e | r
    · rw [decode, hr] at h
      cases h
    · rw [decode, hr] at h
      obtain rfl := Except.ok.inj h
      have hyields : Yields (readFields schema m maxDepth 0 (.ofBytes bytes)) r.value r.rest := by
        rw [hr]
        exact yields_ok.mpr ⟨rfl, rfl⟩
      obtain ⟨hsize, used, hused, hholds⟩ := holds_of_readFields hyields
      have hrest : r.rest.bytes = [] := List.eq_nil_of_length_eq_zero (r.rest.size_eq ▸ hsize)
      rw [hrest, List.append_nil, Input.bytes_ofBytes] at hused
      exact hused ▸ hholds
  · intro h
    have hr := h.readFields []
    rw [List.append_nil] at hr
    obtain ⟨_, hr⟩ := hr
    rw [List.length_nil] at hr
    rw [decode, hr]
    rfl

end GeoRules.Wire
