import WorkloadIdentity.Text.Utf8

/-! Reading what was written. The encoding of a character is one well-formed sequence, whose
length its lead byte tells; so a text in UTF-8 reads as that text, strictly and lossily. What can
be read strictly is the encoding of what was read. -/

set_option autoImplicit false

namespace WorkloadIdentity.Utf8

theorem tails_of_toNat (b : UInt8) :
    tails b = if b.toNat < 0x80 then some 0
      else if 0xC2 ≤ b.toNat ∧ b.toNat ≤ 0xDF then some 1
      else if 0xE0 ≤ b.toNat ∧ b.toNat ≤ 0xEF then some 2
      else if 0xF0 ≤ b.toNat ∧ b.toNat ≤ 0xF4 then some 3
      else none := by
  simp only [tails, UInt8.lt_iff_toNat_lt, UInt8.le_iff_toNat_le, Bool.and_eq_true, decide_eq_true_eq]
  rfl

theorem isTail_of_toNat (b : UInt8) : isTail b = true ↔ 0x80 ≤ b.toNat ∧ b.toNat ≤ 0xBF := by
  simp [isTail, UInt8.le_iff_toNat_le]

theorem isSecond_of_toNat (b c : UInt8) : isSecond b c = true ↔
    0x80 ≤ c.toNat ∧ c.toNat ≤ 0xBF ∧ (b.toNat = 0xE0 → 0xA0 ≤ c.toNat) ∧
      (b.toNat = 0xED → c.toNat ≤ 0x9F) ∧ (b.toNat = 0xF0 → 0x90 ≤ c.toNat) ∧
      (b.toNat = 0xF4 → c.toNat ≤ 0x8F) := by
  simp only [isSecond, isTail, beq_iff_eq, ← UInt8.toNat_inj, UInt8.le_iff_toNat_le,
    UInt8.reduceToNat]
  split
  · simp only [Bool.and_eq_true, decide_eq_true_eq]
    omega
  split
  · simp only [Bool.and_eq_true, decide_eq_true_eq]
    omega
  split
  · simp only [Bool.and_eq_true, decide_eq_true_eq]
    omega
  split
  · simp only [Bool.and_eq_true, decide_eq_true_eq]
    omega
  · simp only [Bool.and_eq_true, decide_eq_true_eq]
    omega

theorem toNat_ofNat_small {n : Nat} (h : n < 256) : (UInt8.ofNat n).toNat = n := by
  rw [UInt8.toNat_ofNat']
  omega

theorem char_bounds (c : Char) :
    c.toNat < 0xD800 ∨ (0xDFFF < c.toNat ∧ c.toNat < 0x110000) := c.valid

section Front

variable {c : Char} (rest : Bytes)

theorem front_one (h : c.toNat < 0x80) :
    front (UInt8.ofNat c.toNat) rest = (some c, 0) := by
  have small := toNat_ofNat_small (show c.toNat < 256 by omega)
  have lead : tails (UInt8.ofNat c.toNat) = some 0 := by
    rw [tails_of_toNat, small, if_pos h]
  simp only [front, lead, small, Char.ofNat_toNat]

theorem front_two (h₁ : 0x80 ≤ c.toNat) (h₂ : c.toNat < 0x800) :
    front (UInt8.ofNat (c.toNat / 0x40 % 0x20 + 0xC0))
      (UInt8.ofNat (c.toNat % 0x40 + 0x80) :: rest) = (some c, 1) := by
  have first := toNat_ofNat_small (show c.toNat / 0x40 % 0x20 + 0xC0 < 256 by omega)
  have second := toNat_ofNat_small (show c.toNat % 0x40 + 0x80 < 256 by omega)
  have lead : tails (UInt8.ofNat (c.toNat / 0x40 % 0x20 + 0xC0)) = some 1 := by
    rw [tails_of_toNat, first, if_neg (by omega), if_pos (by omega)]
  have follows : isSecond (UInt8.ofNat (c.toNat / 0x40 % 0x20 + 0xC0))
      (UInt8.ofNat (c.toNat % 0x40 + 0x80)) = true := by
    rw [isSecond_of_toNat, first, second]
    omega
  have value : (c.toNat / 0x40 % 0x20 + 0xC0) % 0x20 * 0x40 + (c.toNat % 0x40 + 0x80) % 0x40 =
      c.toNat := by
    omega
  simp only [front, lead, follows, if_true, low, first, second, value, Char.ofNat_toNat]

theorem front_three (h₁ : 0x800 ≤ c.toNat) (h₂ : c.toNat < 0x10000) :
    front (UInt8.ofNat (c.toNat / 0x1000 % 0x10 + 0xE0))
      (UInt8.ofNat (c.toNat / 0x40 % 0x40 + 0x80) ::
        UInt8.ofNat (c.toNat % 0x40 + 0x80) :: rest) = (some c, 2) := by
  have scalar := char_bounds c
  have first := toNat_ofNat_small (show c.toNat / 0x1000 % 0x10 + 0xE0 < 256 by omega)
  have second := toNat_ofNat_small (show c.toNat / 0x40 % 0x40 + 0x80 < 256 by omega)
  have third := toNat_ofNat_small (show c.toNat % 0x40 + 0x80 < 256 by omega)
  have lead : tails (UInt8.ofNat (c.toNat / 0x1000 % 0x10 + 0xE0)) = some 2 := by
    rw [tails_of_toNat, first, if_neg (by omega), if_neg (by omega), if_pos (by omega)]
  have follows : isSecond (UInt8.ofNat (c.toNat / 0x1000 % 0x10 + 0xE0))
      (UInt8.ofNat (c.toNat / 0x40 % 0x40 + 0x80)) = true := by
    rw [isSecond_of_toNat, first, second]
    omega
  have tail : isTail (UInt8.ofNat (c.toNat % 0x40 + 0x80)) = true := by
    rw [isTail_of_toNat, third]
    omega
  have value : (c.toNat / 0x1000 % 0x10 + 0xE0) % 0x10 * 0x1000 +
      (c.toNat / 0x40 % 0x40 + 0x80) % 0x40 * 0x40 + (c.toNat % 0x40 + 0x80) % 0x40 =
      c.toNat := by
    omega
  simp only [front, lead, follows, tail, if_true, low, first, second, third, value,
    Char.ofNat_toNat]

theorem front_four (h : 0x10000 ≤ c.toNat) :
    front (UInt8.ofNat (c.toNat / 0x40000 % 8 + 0xF0))
      (UInt8.ofNat (c.toNat / 0x1000 % 0x40 + 0x80) ::
        UInt8.ofNat (c.toNat / 0x40 % 0x40 + 0x80) ::
        UInt8.ofNat (c.toNat % 0x40 + 0x80) :: rest) = (some c, 3) := by
  have scalar := char_bounds c
  have first := toNat_ofNat_small (show c.toNat / 0x40000 % 8 + 0xF0 < 256 by omega)
  have second := toNat_ofNat_small (show c.toNat / 0x1000 % 0x40 + 0x80 < 256 by omega)
  have third := toNat_ofNat_small (show c.toNat / 0x40 % 0x40 + 0x80 < 256 by omega)
  have fourth := toNat_ofNat_small (show c.toNat % 0x40 + 0x80 < 256 by omega)
  have lead : tails (UInt8.ofNat (c.toNat / 0x40000 % 8 + 0xF0)) = some 3 := by
    rw [tails_of_toNat, first, if_neg (by omega), if_neg (by omega), if_neg (by omega),
      if_pos (by omega)]
  have follows : isSecond (UInt8.ofNat (c.toNat / 0x40000 % 8 + 0xF0))
      (UInt8.ofNat (c.toNat / 0x1000 % 0x40 + 0x80)) = true := by
    rw [isSecond_of_toNat, first, second]
    omega
  have tail₁ : isTail (UInt8.ofNat (c.toNat / 0x40 % 0x40 + 0x80)) = true := by
    rw [isTail_of_toNat, third]
    omega
  have tail₂ : isTail (UInt8.ofNat (c.toNat % 0x40 + 0x80)) = true := by
    rw [isTail_of_toNat, fourth]
    omega
  have value : (c.toNat / 0x40000 % 8 + 0xF0) % 8 * 0x40000 +
      (c.toNat / 0x1000 % 0x40 + 0x80) % 0x40 * 0x1000 +
      (c.toNat / 0x40 % 0x40 + 0x80) % 0x40 * 0x40 + (c.toNat % 0x40 + 0x80) % 0x40 =
      c.toNat := by
    omega
  simp only [front, lead, follows, tail₁, tail₂, if_true, low, first, second, third, fourth, value,
    Char.ofNat_toNat]

theorem units_char (c : Char) : units (String.utf8EncodeChar c ++ rest) = some c :: units rest := by
  have size : c.val.toNat = c.toNat := rfl
  unfold String.utf8EncodeChar
  rw [size]
  dsimp only
  split
  · rw [List.singleton_append, units, front_one rest (by omega)]
    rfl
  split
  · rw [List.cons_append, List.singleton_append, units, front_two rest (by omega) (by omega)]
    rfl
  split
  · rw [List.cons_append, List.cons_append, List.singleton_append, units,
      front_three rest (by omega) (by omega)]
    rfl
  · rw [List.cons_append, List.cons_append, List.cons_append, List.singleton_append, units,
      front_four rest (by omega)]
    rfl

end Front

@[simp]
theorem encode_cons (c : Char) (text : List Char) :
    encode (c :: text) = String.utf8EncodeChar c ++ encode text := rfl

theorem encode_append (text more : List Char) : encode (text ++ more) = encode text ++ encode more :=
  List.flatMap_append

theorem units_encode (text : List Char) : units (encode text) = text.map some := by
  induction text with
  | nil => rw [encode, List.flatMap_nil, units, List.map_nil]
  | cons c text ih => rw [encode_cons, units_char, ih, List.map_cons]

/-- Strict reading gives back what was written. -/
theorem decode_encode (text : List Char) : decode? (encode text) = some text := by
  rw [decode?, units_encode, List.mapM_map]
  induction text with
  | nil => rfl
  | cons c text ih => simp_all

theorem text_ofString (text : String) : text? (ofString text) = some text := by
  rw [text?, ofString, decode_encode, Option.map_some, String.ofList_toList]

theorem decodeLossy_encode (text : List Char) : decodeLossy (encode text) = text := by
  rw [decodeLossy, units_encode, List.map_map]
  exact List.map_id text

theorem encode_ascii (text : List Char) (h : ∀ c ∈ text, c.toNat < 0x80) :
    encode text = text.map fun c => UInt8.ofNat c.toNat := by
  induction text with
  | nil => rfl
  | cons c text ih =>
    have small : c.val.toNat ≤ 0x7F := Nat.lt_succ_iff.mp (h c (List.mem_cons_self ..))
    rw [encode_cons, ih fun d hd => h d (List.mem_cons_of_mem _ hd), String.utf8EncodeChar,
      if_pos small]
    rfl

theorem encode_inj {text other : List Char} : encode text = encode other ↔ text = other := by
  constructor
  · intro h
    have same := congrArg decode? h
    rwa [decode_encode, decode_encode, Option.some.injEq] at same
  · exact congrArg encode

theorem encoded_large {c : Char} (h : 0x80 ≤ c.toNat) :
    ∀ b ∈ String.utf8EncodeChar c, 0x80 ≤ b.toNat := by
  have size : c.val.toNat = c.toNat := rfl
  have byte : ∀ n, 0x80 ≤ n → n < 0x100 → 0x80 ≤ (UInt8.ofNat n).toNat := by
    intro n low high
    rwa [toNat_ofNat_small high]
  simp only [String.utf8EncodeChar, size]
  rw [if_neg (by omega)]
  split
  · simp only [List.forall_mem_cons]
    exact ⟨byte _ (by omega) (by omega), byte _ (by omega) (by omega), nofun⟩
  split
  · simp only [List.forall_mem_cons]
    exact ⟨byte _ (by omega) (by omega), byte _ (by omega) (by omega),
      byte _ (by omega) (by omega), nofun⟩
  · simp only [List.forall_mem_cons]
    exact ⟨byte _ (by omega) (by omega), byte _ (by omega) (by omega),
      byte _ (by omega) (by omega), byte _ (by omega) (by omega), nofun⟩

theorem mem_of_encode {c : Char} {text : List Char} (small : c.toNat < 0x80)
    (h : UInt8.ofNat c.toNat ∈ encode text) : c ∈ text := by
  obtain ⟨d, among, hd⟩ := List.mem_flatMap.mp h
  have byte := toNat_ofNat_small (show c.toNat < 256 by omega)
  by_cases large : 0x80 ≤ d.toNat
  · have wide := encoded_large large _ hd
    omega
  · have own : String.utf8EncodeChar d = [UInt8.ofNat d.toNat] := by
      have alone := encode_ascii [d] (by simpa using large)
      simpa [encode] using alone
    rw [own, List.mem_singleton, ← UInt8.toNat_inj, byte, toNat_ofNat_small (by omega)] at hd
    rwa [Char.toNat_inj.mp hd]

theorem toNat_ofNat_scalar {n : Nat} (h : n < 0xD800 ∨ (0xDFFF < n ∧ n < 0x110000)) :
    (Char.ofNat n).toNat = n := by
  have valid : n.isValidChar := h
  rw [Char.ofNat, dif_pos valid]
  rfl

theorem byte_of_toNat {b : UInt8} {n : Nat} (h : n = b.toNat) : UInt8.ofNat n = b := by
  rw [h, UInt8.ofNat_toNat]

theorem written_one {b : UInt8} (h : b.toNat < 0x80) :
    String.utf8EncodeChar (Char.ofNat b.toNat) = [b] := by
  have size : (Char.ofNat b.toNat).val.toNat = b.toNat := toNat_ofNat_scalar (by omega)
  simp only [String.utf8EncodeChar, size]
  rw [if_pos (by omega), UInt8.ofNat_toNat]

theorem written_two {b c : UInt8} (lead : 0xC2 ≤ b.toNat ∧ b.toNat ≤ 0xDF)
    (follows : isSecond b c = true) :
    String.utf8EncodeChar (Char.ofNat (b.toNat % 0x20 * 0x40 + low c)) = [b, c] := by
  rw [isSecond_of_toNat] at follows
  simp only [low]
  generalize hn : b.toNat % 0x20 * 0x40 + c.toNat % 0x40 = n
  have size : (Char.ofNat n).val.toNat = n := toNat_ofNat_scalar (by omega)
  simp only [String.utf8EncodeChar, size]
  rw [if_neg (by omega), if_pos (by omega), byte_of_toNat (b := b) (by omega),
    byte_of_toNat (b := c) (by omega)]

theorem written_three {b c d : UInt8} (lead : 0xE0 ≤ b.toNat ∧ b.toNat ≤ 0xEF)
    (follows : isSecond b c = true) (tail : isTail d = true) :
    String.utf8EncodeChar
      (Char.ofNat (b.toNat % 0x10 * 0x1000 + low c * 0x40 + low d)) = [b, c, d] := by
  rw [isSecond_of_toNat] at follows
  rw [isTail_of_toNat] at tail
  simp only [low]
  generalize hn : b.toNat % 0x10 * 0x1000 + c.toNat % 0x40 * 0x40 + d.toNat % 0x40 = n
  have size : (Char.ofNat n).val.toNat = n := toNat_ofNat_scalar (by omega)
  simp only [String.utf8EncodeChar, size]
  rw [if_neg (by omega), if_neg (by omega), if_pos (by omega), byte_of_toNat (b := b) (by omega),
    byte_of_toNat (b := c) (by omega), byte_of_toNat (b := d) (by omega)]

theorem written_four {b c d e : UInt8} (lead : 0xF0 ≤ b.toNat ∧ b.toNat ≤ 0xF4)
    (follows : isSecond b c = true) (tail : isTail d = true) (last : isTail e = true) :
    String.utf8EncodeChar (Char.ofNat
      (b.toNat % 8 * 0x40000 + low c * 0x1000 + low d * 0x40 + low e)) = [b, c, d, e] := by
  rw [isSecond_of_toNat] at follows
  rw [isTail_of_toNat] at tail last
  simp only [low]
  generalize hn : b.toNat % 8 * 0x40000 + c.toNat % 0x40 * 0x1000 + d.toNat % 0x40 * 0x40 +
    e.toNat % 0x40 = n
  have size : (Char.ofNat n).val.toNat = n := toNat_ofNat_scalar (by omega)
  simp only [String.utf8EncodeChar, size]
  rw [if_neg (by omega), if_neg (by omega), if_neg (by omega), byte_of_toNat (b := b) (by omega),
    byte_of_toNat (b := c) (by omega), byte_of_toNat (b := d) (by omega),
    byte_of_toNat (b := e) (by omega)]

theorem tails_some {b : UInt8} {n : Nat} (h : tails b = some n) :
    (n = 0 ∧ b.toNat < 0x80) ∨ (n = 1 ∧ 0xC2 ≤ b.toNat ∧ b.toNat ≤ 0xDF) ∨
      (n = 2 ∧ 0xE0 ≤ b.toNat ∧ b.toNat ≤ 0xEF) ∨ (n = 3 ∧ 0xF0 ≤ b.toNat ∧ b.toNat ≤ 0xF4) := by
  rw [tails_of_toNat] at h
  grind

theorem front_written {b : UInt8} {rest : Bytes} {c : Char} (h : (front b rest).1 = some c) :
    String.utf8EncodeChar c ++ rest.drop (front b rest).2 = b :: rest := by
  rcases lead : tails b with _ | n
  · simp [front, lead] at h
  obtain ⟨rfl, small⟩ | ⟨rfl, bounds⟩ | ⟨rfl, bounds⟩ | ⟨rfl, bounds⟩ := tails_some lead
  · simp only [front, lead, Option.some.injEq] at h ⊢
    rw [← h, written_one small, List.singleton_append, List.drop_zero]
  · match rest with
    | [] => simp [front, lead] at h
    | second :: rest =>
      by_cases follows : isSecond b second = true
      · simp only [front, lead, if_pos follows, Option.some.injEq] at h ⊢
        rw [← h, written_two bounds follows]
        rfl
      · simp [front, lead, follows] at h
  · match rest with
    | [] => simp [front, lead] at h
    | [second] =>
      simp only [front, lead] at h
      split at h <;> cases h
    | second :: third :: rest =>
      by_cases follows : isSecond b second = true ∧ isTail third = true
      · simp only [front, lead, if_pos follows.1, if_pos follows.2, Option.some.injEq] at h ⊢
        rw [← h, written_three bounds follows.1 follows.2]
        rfl
      · simp [front, lead] at h
        grind
  · match rest with
    | [] => simp [front, lead] at h
    | [second] =>
      simp only [front, lead] at h
      split at h <;> cases h
    | [second, third] =>
      simp only [front, lead] at h
      split at h
      · split at h <;> cases h
      · cases h
    | second :: third :: fourth :: rest =>
      by_cases follows : isSecond b second = true ∧ isTail third = true ∧ isTail fourth = true
      · obtain ⟨second, third, fourth⟩ := follows
        simp only [front, lead, if_pos second, if_pos third, if_pos fourth, Option.some.injEq] at h ⊢
        rw [← h, written_four bounds second third fourth]
        rfl
      · simp [front, lead] at h
        grind

/-- Strict reading is possible of what was written only. -/
theorem encode_decode {bytes : Bytes} {text : List Char} (h : decode? bytes = some text) :
    encode text = bytes := by
  induction bytes using units.induct generalizing text with
  | case1 =>
    rw [decode?, units] at h
    cases h
    rfl
  | case2 b rest ih =>
    rw [decode?, units, List.mapM_cons] at h
    obtain ⟨c, first, h⟩ := Option.bind_eq_some_iff.mp h
    obtain ⟨others, read, h⟩ := Option.bind_eq_some_iff.mp h
    cases h
    rw [encode_cons, ih read, front_written first]

theorem text_iff {bytes : Bytes} {text : String} :
    text? bytes = some text ↔ bytes = ofString text := by
  constructor
  · intro h
    obtain ⟨read, decoded, rfl⟩ := Option.map_eq_some_iff.mp h
    rw [ofString, String.toList_ofList, encode_decode decoded]
  · rintro rfl
    exact text_ofString text

end WorkloadIdentity.Utf8
