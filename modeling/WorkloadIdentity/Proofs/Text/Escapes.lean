import WorkloadIdentity.Proofs.Text.Percent

/-! Escapes that are written again. An encoding that keeps percent signs and digits leaves every
escape as it is, so nothing changes for who resolves escapes. Bytes that are part of no escape
outlast their resolution. -/

set_option autoImplicit false

namespace WorkloadIdentity.Percent

def pair? : Bytes → Option (UInt8 × Bytes)
  | c :: d :: rest => do return (UInt8.ofNat ((← digit? c) * 16 + (← digit? d)), rest)
  | _ => none

theorem pair_digits {c d : UInt8} {high low : Nat} (first : digit? c = some high)
    (second : digit? d = some low) (rest : Bytes) :
    pair? (c :: d :: rest) = some (UInt8.ofNat (high * 16 + low), rest) := by
  simp [pair?, first, second]

theorem pair_first {c : UInt8} (h : digit? c = none) (rest : Bytes) : pair? (c :: rest) = none := by
  cases rest <;> simp [pair?, h]

theorem pair_second {d : UInt8} (h : digit? d = none) (c : UInt8) (rest : Bytes) :
    pair? (c :: d :: rest) = none := by
  simp [pair?, h]

theorem decode_sign (bytes : Bytes) : decode (0x25 :: bytes) = match pair? bytes with
    | some (b, rest) => b :: decode rest
    | none => 0x25 :: decode bytes := by
  match bytes with
  | [] => rfl
  | [_] => rfl
  | c :: d :: rest =>
    rcases high : digit? c with _ | h <;> rcases low : digit? d with _ | l <;>
      simp [decode, pair?, high, low]

theorem escape_induction {motive : Bytes → Prop} (nil : motive [])
    (other : ∀ b rest, b ≠ 0x25 → motive rest → motive (b :: rest))
    (escaped : ∀ c d rest high low, digit? c = some high → digit? d = some low → motive rest →
      motive (0x25 :: c :: d :: rest))
    (sign : ∀ rest, pair? rest = none → motive rest → motive (0x25 :: rest)) (bytes : Bytes) :
    motive bytes := by
  induction h : bytes.length using Nat.strongRecOn generalizing bytes with
  | _ n ih =>
    subst h
    rcases bytes with _ | ⟨b, rest⟩
    · exact nil
    by_cases percent : b = 0x25
    · subst percent
      have later := sign rest
      match rest with
      | [] => exact later rfl nil
      | [c] => exact later rfl (ih _ (by simp) _ rfl)
      | c :: d :: rest =>
        rcases first : digit? c with _ | high
        · exact later (pair_first first _) (ih _ (by simp) _ rfl)
        rcases second : digit? d with _ | low
        · exact later (pair_second second c _) (ih _ (by simp) _ rfl)
        · exact escaped c d rest high low first second (ih _ (by simp; omega) _ rfl)
    · exact other b rest percent (ih _ (by simp) _ rfl)

theorem encode_cons (keep : UInt8 → Bool) (b : UInt8) (bytes : Bytes) :
    encode keep (b :: bytes) = encodeByte keep b ++ encode keep bytes := List.flatMap_cons

theorem encode_append (keep : UInt8 → Bool) (bytes more : Bytes) :
    encode keep (bytes ++ more) = encode keep bytes ++ encode keep more := List.flatMap_append

theorem kept_byte {keep : UInt8 → Bool} {b : UInt8} (kept : keep b = true) (small : b < 0x80) :
    ascii (encodeByte keep b) = [b] := by
  rw [encodeByte, kept, if_pos (by simpa using small), ascii, List.map_singleton, kept_char small,
    UInt8.ofNat_toNat]

theorem escaped_byte {keep : UInt8 → Bool} {b : UInt8} (h : ¬ (keep b = true ∧ b < 0x80)) :
    encodeByte keep b = escape b := by
  rw [encodeByte, if_neg (by simpa using h)]

/-- Percent signs and digits are kept, so every escape stays one. -/
structure Stays (keep : UInt8 → Bool) : Prop where
  sign : keep 0x25 = true
  digit : ∀ b n, digit? b = some n → keep b = true

section Staying

variable {keep : UInt8 → Bool}

theorem digit_small {b : UInt8} {n : Nat} (h : digit? b = some n) : b < 0x80 := by
  have all : ∀ m < 256, (Hex.value? (Char.ofNat m)).isSome = true → m < 128 := by decide +kernel
  exact all b.toNat b.toNat_lt (Option.isSome_iff_exists.mpr ⟨n, h⟩)

theorem digit_stays (stays : Stays keep) {b : UInt8} {n : Nat} (h : digit? b = some n) :
    ascii (encodeByte keep b) = [b] := kept_byte (stays.digit b n h) (digit_small h)

theorem other_front (keep : UInt8 → Bool) {b : UInt8} (h : digit? b = none) :
    ∃ x rest, ascii (encodeByte keep b) = x :: rest ∧ digit? x = none := by
  by_cases kept : keep b = true ∧ b < 0x80
  · exact ⟨b, [], kept_byte kept.1 kept.2, h⟩
  · rw [escaped_byte kept]
    exact ⟨_, _, rfl, by decide⟩

theorem pair_encode (stays : Stays keep) {bytes : Bytes} (h : pair? bytes = none) :
    pair? (ascii (encode keep bytes)) = none := by
  rcases bytes with _ | ⟨c, rest⟩
  · rfl
  rw [encode_cons, ascii_append]
  rcases first : digit? c with _ | high
  · obtain ⟨x, more, front, other⟩ := other_front keep first
    rw [front]
    exact pair_first other _
  rw [digit_stays stays first]
  rcases rest with _ | ⟨d, rest⟩
  · rfl
  rw [encode_cons, ascii_append]
  rcases second : digit? d with _ | low
  · obtain ⟨x, more, front, other⟩ := other_front keep second
    rw [front]
    exact pair_second other c _
  · rw [pair_digits first second] at h
    cases h

theorem decode_other_byte {b : UInt8} (h : b ≠ 0x25) (rest : Bytes) :
    decode (ascii (encodeByte keep b) ++ rest) = b :: decode rest := by
  by_cases kept : keep b = true ∧ b < 0x80
  · rw [kept_byte kept.1 kept.2]
    exact decode_cons_of_ne h rest
  · rw [escaped_byte kept]
    exact decode_escape b rest

/-- Decoding sees through an encoding that keeps the escapes. -/
theorem decode_reencode (stays : Stays keep) (bytes : Bytes) :
    decode (Utf8.encode (encode keep bytes)) = decode bytes := by
  rw [Utf8.encode_ascii _ (encode_ascii keep bytes)]
  show decode (ascii (encode keep bytes)) = decode bytes
  have sign := kept_byte stays.sign (by decide)
  induction bytes using escape_induction with
  | nil => rfl
  | other b rest h ih => rw [encode_cons, ascii_append, decode_other_byte h, ih, decode_cons_of_ne h]
  | escaped c d rest high low first second ih =>
    simp only [encode_cons, ascii_append, sign, digit_stays stays first, digit_stays stays second]
    show decode (0x25 :: c :: d :: ascii (encode keep rest)) = _
    rw [decode_sign, decode_sign, pair_digits first second, pair_digits first second]
    exact congrArg _ ih
  | sign rest h ih =>
    rw [encode_cons, ascii_append, sign]
    show decode (0x25 :: ascii (encode keep rest)) = _
    rw [decode_sign, decode_sign, h, pair_encode stays h]
    exact congrArg _ ih

end Staying

theorem decode_signless {bytes : Bytes} (h : 0x25 ∉ bytes) : decode bytes = bytes := by
  induction bytes with
  | nil => rfl
  | cons b rest ih =>
    rw [List.mem_cons, not_or] at h
    obtain ⟨here, later⟩ := h
    rw [decode_cons_of_ne (Ne.symm here), ih later]

theorem mem_decode {b : UInt8} (apart : b ≠ 0x25) (plain : digit? b = none) {bytes : Bytes}
    (h : b ∈ bytes) : b ∈ decode bytes := by
  induction bytes using escape_induction with
  | nil => cases h
  | other x rest other ih =>
    rw [decode_cons_of_ne other]
    obtain rfl | later := List.mem_cons.mp h
    · exact List.mem_cons_self ..
    · exact List.mem_cons_of_mem _ (ih later)
  | escaped c d rest high low first second ih =>
    rw [decode_sign, pair_digits first second]
    simp only [List.mem_cons] at h
    obtain same | rfl | rfl | later := h
    · exact absurd same apart
    · rw [plain] at first
      cases first
    · rw [plain] at second
      cases second
    · exact List.mem_cons_of_mem _ (ih later)
  | sign rest none ih =>
    rw [decode_sign, none]
    obtain same | later := List.mem_cons.mp h
    · exact absurd same apart
    · exact List.mem_cons_of_mem _ (ih later)

end WorkloadIdentity.Percent
