import WorkloadIdentity.Encoding.Percent
import WorkloadIdentity.Proofs.Text.Utf8

/-! Percent decoding undoes percent encoding, as long as the percent sign itself is escaped. -/

set_option autoImplicit false

namespace WorkloadIdentity.Percent

def ascii (text : List Char) : Bytes := text.map fun c => UInt8.ofNat c.toNat

@[simp]
theorem ascii_append (text more : List Char) : ascii (text ++ more) = ascii text ++ ascii more :=
  List.map_append

theorem decode_cons_of_ne {b : UInt8} (h : b ≠ 0x25) (rest : Bytes) :
    decode (b :: rest) = b :: decode rest := by
  have other : (b == 0x25) = false := by simpa using h
  match rest with
  | [] => rfl
  | [_] => rfl
  | _ :: _ :: _ => simp only [decode, other]

theorem upper_digit_small : ∀ n < 16, (Hex.upperDigit n).toNat < 0x80 := by decide

theorem digit_upper {n : Nat} (h : n < 16) :
    digit? (UInt8.ofNat (Hex.upperDigit n).toNat) = some n := by
  have small := upper_digit_small n h
  rw [digit?, Utf8.toNat_ofNat_small (by omega), Char.ofNat_toNat]
  exact Hex.value?_upperDigit n h

theorem decode_escape (b : UInt8) (rest : Bytes) :
    decode (ascii (escape b) ++ rest) = b :: decode rest := by
  have bound := b.toNat_lt
  have high : digit? (UInt8.ofNat (Hex.upperDigit (b.toNat / 16)).toNat) = some (b.toNat / 16) :=
    digit_upper (by omega)
  have low : digit? (UInt8.ofNat (Hex.upperDigit (b.toNat % 16)).toNat) = some (b.toNat % 16) :=
    digit_upper (by omega)
  have sign : (UInt8.ofNat '%'.toNat == 0x25) = true := by decide
  show decode (UInt8.ofNat '%'.toNat :: UInt8.ofNat (Hex.upperDigit (b.toNat / 16)).toNat ::
    UInt8.ofNat (Hex.upperDigit (b.toNat % 16)).toNat :: rest) = _
  simp only [decode, sign, high, low]
  rw [show b.toNat / 16 * 16 + b.toNat % 16 = b.toNat by omega, UInt8.ofNat_toNat]

theorem escape_ascii (b : UInt8) : ∀ c ∈ escape b, c.toNat < 0x80 := by
  have bound := b.toNat_lt
  intro c hc
  simp only [escape, List.mem_cons, List.not_mem_nil, or_false] at hc
  obtain rfl | rfl | rfl := hc
  · decide
  · exact upper_digit_small _ (by omega)
  · exact upper_digit_small _ (by omega)

theorem kept_char {b : UInt8} (h : b < 0x80) : (Char.ofNat b.toNat).toNat = b.toNat := by
  have small : b.toNat < 0x80 := h
  have valid : b.toNat.isValidChar := Or.inl (by omega)
  rw [Char.ofNat, dif_pos valid]
  rfl

theorem encode_byte_ascii (keep : UInt8 → Bool) (b : UInt8) :
    ∀ c ∈ encodeByte keep b, c.toNat < 0x80 := by
  unfold encodeByte
  split
  · rename_i kept
    have small : b < 0x80 := by simp_all
    intro c hc
    rw [List.mem_singleton.mp hc, kept_char small]
    exact small
  · exact escape_ascii b

theorem decode_encode_byte {keep : UInt8 → Bool} (h : keep 0x25 = false) (b : UInt8)
    (rest : Bytes) : decode (ascii (encodeByte keep b) ++ rest) = b :: decode rest := by
  unfold encodeByte
  split
  · rename_i kept
    have other : b ≠ 0x25 := by
      rintro rfl
      simp [h] at kept
    have small : b < 0x80 := by simp_all
    rw [ascii, List.map_singleton, kept_char small, UInt8.ofNat_toNat, List.singleton_append]
    exact decode_cons_of_ne other rest
  · exact decode_escape b rest

theorem encode_ascii (keep : UInt8 → Bool) (bytes : Bytes) :
    ∀ c ∈ encode keep bytes, c.toNat < 0x80 := by
  intro c hc
  obtain ⟨b, _, hb⟩ := List.mem_flatMap.mp hc
  exact encode_byte_ascii keep b c hb

theorem decode_encode {keep : UInt8 → Bool} (h : keep 0x25 = false) (bytes : Bytes) :
    decode (Utf8.encode (encode keep bytes)) = bytes := by
  rw [Utf8.encode_ascii _ (encode_ascii keep bytes)]
  show decode (ascii (encode keep bytes)) = bytes
  induction bytes with
  | nil => rfl
  | cons b bytes ih =>
    rw [encode, List.flatMap_cons, ascii_append, decode_encode_byte h]
    exact congrArg (b :: ·) ih

theorem encode_inj {keep : UInt8 → Bool} (h : keep 0x25 = false) {bytes other : Bytes} :
    encode keep bytes = encode keep other ↔ bytes = other := by
  constructor
  · intro same
    rw [← decode_encode h bytes, same, decode_encode h]
  · exact congrArg (encode keep)

theorem mem_encode {keep : UInt8 → Bool} {bytes : Bytes} {c : Char} (h : c ∈ encode keep bytes) :
    (∃ b ∈ bytes, keep b = true ∧ b.toNat < 0x80 ∧ c = Char.ofNat b.toNat) ∨ c = '%' ∨
      ∃ n < 16, c = Hex.upperDigit n := by
  obtain ⟨b, among, hb⟩ := List.mem_flatMap.mp h
  have bound := b.toNat_lt
  unfold encodeByte at hb
  split at hb
  · rename_i kept
    obtain ⟨stands, small⟩ : keep b = true ∧ b < 0x80 := by simpa using kept
    exact .inl ⟨b, among, stands, small, List.mem_singleton.mp hb⟩
  · simp only [escape, List.mem_cons, List.not_mem_nil, or_false] at hb
    obtain sign | high | low := hb
    · exact .inr (.inl sign)
    · exact .inr (.inr ⟨_, by omega, high⟩)
    · exact .inr (.inr ⟨_, by omega, low⟩)

theorem encode_free {keep : UInt8 → Bool} {c : Char} (unkept : keep (UInt8.ofNat c.toNat) = false)
    (sign : c ≠ '%') (digit : ∀ n < 16, c ≠ Hex.upperDigit n) (bytes : Bytes) :
    c ∉ encode keep bytes := by
  intro written
  obtain ⟨b, -, kept, small, rfl⟩ | same | ⟨n, bound, same⟩ := mem_encode written
  · rw [kept_char small, UInt8.ofNat_toNat, kept] at unkept
    cases unkept
  · exact sign same
  · exact digit n bound same

end WorkloadIdentity.Percent
