import WorkloadIdentity.Encoding.Form
import WorkloadIdentity.Proofs.Text.Percent

/-! Form decoding of a form-encoded text gives that text, and of encoded pairs those pairs. A plus
sign in a text is escaped, so every plus sign that is written stands for a space; what separates
names, values and pairs is escaped too, so it never stands within one. -/

set_option autoImplicit false

namespace WorkloadIdentity.Form

open Percent (ascii ascii_append)

/-- What is read for a written byte before escapes are resolved. -/
def spaced (bytes : Bytes) : Bytes := bytes.map fun b => if b == 0x2B then 0x20 else b

theorem spaced_append (bytes more : Bytes) : spaced (bytes ++ more) = spaced bytes ++ spaced more :=
  List.map_append

theorem byte_ne {c d : Char} (hc : c.toNat < 0x80) (hd : d.toNat < 0x80) (h : c ≠ d) :
    UInt8.ofNat c.toNat ≠ UInt8.ofNat d.toNat := by
  rw [Ne, ← UInt8.toNat_inj, Utf8.toNat_ofNat_small (by omega), Utf8.toNat_ofNat_small (by omega)]
  intro same
  exact h (Char.ext (UInt32.toNat_inj.mp same))

theorem spaced_of_no_plus {text : List Char} (h : ∀ c ∈ text, c.toNat < 0x80 ∧ c ≠ '+') :
    spaced (ascii text) = ascii text := by
  induction text with
  | nil => rfl
  | cons c text ih =>
    obtain ⟨small, other⟩ := h c (List.mem_cons_self ..)
    have differ : (UInt8.ofNat c.toNat == 0x2B) = false :=
      beq_eq_false_iff_ne.mpr (byte_ne small (show '+'.toNat < 0x80 by decide) other)
    have rest := ih fun d hd => h d (List.mem_cons_of_mem _ hd)
    simp only [ascii, spaced, List.map_cons, differ] at rest ⊢
    rw [rest]
    rfl

/-- Characters that stand for themselves, and those of an escape. -/
def isPlain (c : Char) : Bool := c == '%' || (c.toNat < 0x80 && isKept (UInt8.ofNat c.toNat))

theorem upper_digit_plain : ∀ n < 16, isPlain (Hex.upperDigit n) = true := by decide

theorem percent_plain (b : UInt8) : ∀ c ∈ Percent.encodeByte isKept b, isPlain c = true := by
  have bound := b.toNat_lt
  intro c hc
  unfold Percent.encodeByte at hc
  split at hc
  · rename_i kept
    obtain ⟨stands, small⟩ : isKept b = true ∧ b < 0x80 := by simpa using kept
    have low : b.toNat < 0x80 := small
    rw [List.mem_singleton.mp hc, isPlain, Percent.kept_char small, UInt8.ofNat_toNat, stands]
    simp [low]
  · simp only [Percent.escape, List.mem_cons, List.not_mem_nil, or_false] at hc
    obtain rfl | rfl | rfl := hc
    · rfl
    · exact upper_digit_plain _ (by omega)
    · exact upper_digit_plain _ (by omega)

theorem encode_byte_plain (b : UInt8) : ∀ c ∈ encodeByte b, c = '+' ∨ isPlain c = true := by
  unfold encodeByte
  split
  · exact fun c hc => .inl (List.mem_singleton.mp hc)
  · exact fun c hc => .inr (percent_plain b c hc)

theorem encode_byte_no_plus {b : UInt8} (h : b ≠ 0x20) :
    ∀ c ∈ encodeByte b, c.toNat < 0x80 ∧ c ≠ '+' := by
  have other : (b == 0x20) = false := by simpa using h
  intro c hc
  simp only [encodeByte, other, Bool.false_eq_true, if_false] at hc
  refine ⟨Percent.encode_byte_ascii isKept b c hc, ?_⟩
  rintro rfl
  exact absurd (percent_plain b _ hc) (by decide)

theorem decode_encode_byte (b : UInt8) (rest : Bytes) :
    Percent.decode (spaced (ascii (encodeByte b)) ++ rest) = b :: Percent.decode rest := by
  by_cases space : b = 0x20
  · subst space
    exact Percent.decode_cons_of_ne (by decide) rest
  · have other : (b == 0x20) = false := by simpa using space
    rw [spaced_of_no_plus (encode_byte_no_plus space), encodeByte, other]
    exact Percent.decode_encode_byte (by decide) b rest

theorem encode_byte_ascii (b : UInt8) : ∀ c ∈ encodeByte b, c.toNat < 0x80 := by
  unfold encodeByte
  split
  · intro c hc
    rw [List.mem_singleton.mp hc]
    decide
  · exact Percent.encode_byte_ascii isKept b

theorem encode_text_ascii (text : List Char) : ∀ c ∈ encodeText text, c.toNat < 0x80 := by
  intro c hc
  obtain ⟨b, _, hb⟩ := List.mem_flatMap.mp hc
  exact encode_byte_ascii b c hb

theorem decode_encode_bytes (bytes : Bytes) :
    Percent.decode (spaced (ascii (bytes.flatMap encodeByte))) = bytes := by
  induction bytes with
  | nil => rfl
  | cons b bytes ih =>
    rw [List.flatMap_cons, ascii_append, spaced_append, decode_encode_byte, ih]

theorem utf8_encode_text (text : List Char) :
    Utf8.encode (encodeText text) = ascii (encodeText text) :=
  Utf8.encode_ascii _ (encode_text_ascii text)

theorem decodeText_encodeText (text : List Char) :
    decodeText (Utf8.encode (encodeText text)) = text := by
  show Utf8.decodeLossy (Percent.decode (spaced (Utf8.encode (encodeText text)))) = text
  rw [utf8_encode_text, encodeText, decode_encode_bytes, Utf8.decodeLossy_encode]

theorem encode_text_free {separator : Char} (small : separator.toNat < 0x80)
    (special : separator ≠ '+') (unwritten : isPlain separator = false) (text : List Char) :
    UInt8.ofNat separator.toNat ∉ Utf8.encode (encodeText text) := by
  rw [utf8_encode_text]
  intro among
  obtain ⟨c, hc, same⟩ := List.mem_map.mp among
  refine byte_ne (encode_text_ascii text c hc) small ?_ same
  rintro rfl
  obtain ⟨b, _, hb⟩ := List.mem_flatMap.mp hc
  obtain plus | plain := encode_byte_plain b c hb
  · exact special plus
  · exact absurd plain (by simp [unwritten])

theorem utf8_encode_pair (pair : String × String) :
    Utf8.encode (encodePair pair) = Utf8.encode (encodeText pair.1.toList) ++
      0x3D :: Utf8.encode (encodeText pair.2.toList) := Utf8.encode_append _ _

theorem cut_first {b : UInt8} {name : Bytes} (h : b ∉ name) (value : Bytes) :
    cut b (name ++ b :: value) = (name, value) := by
  induction name with
  | nil => simp [cut]
  | cons c name ih =>
    simp only [List.mem_cons, not_or] at h
    have differ : (c == b) = false := beq_eq_false_iff_ne.mpr (Ne.symm h.1)
    simp [cut, differ, ih h.2]

theorem decode_encode_pair (pair : String × String) :
    decodePair (Utf8.encode (encodePair pair)) = pair := by
  have free : 0x3D ∉ Utf8.encode (encodeText pair.1.toList) :=
    encode_text_free (show '='.toNat < 0x80 by decide) (by decide) (by decide) _
  rw [utf8_encode_pair, decodePair, cut_first free]
  simp only [decodeText_encodeText, String.ofList_toList]

theorem pair_free (pair : String × String) : 0x26 ∉ Utf8.encode (encodePair pair) := by
  have free : ∀ text, 0x26 ∉ Utf8.encode (encodeText text) :=
    encode_text_free (show '&'.toNat < 0x80 by decide) (by decide) (by decide)
  rw [utf8_encode_pair, List.mem_append, List.mem_cons]
  rintro (among | same | among)
  · exact free _ among
  · cases same
  · exact free _ among

theorem utf8_intercalate (separator : Char) (texts : List (List Char)) :
    Utf8.encode ([separator].intercalate texts) =
      (Utf8.encode [separator]).intercalate (texts.map Utf8.encode) := by
  induction texts with
  | nil => rfl
  | cons text rest ih =>
    rcases rest with _ | ⟨next, rest⟩
    · simp
    · simp only [List.map_cons, List.intercalate_cons_cons, Utf8.encode_append] at ih ⊢
      rw [ih]

theorem parts_encode (pairs : List (String × String)) :
    parts (Utf8.encode (encode pairs)) = pairs.map fun pair => Utf8.encode (encodePair pair) := by
  rcases pairs with _ | ⟨pair, rest⟩
  · rfl
  unfold parts encode
  rw [utf8_intercalate, List.map_map]
  show (([0x26].intercalate ((pair :: rest).map fun p => Utf8.encode (encodePair p))).splitOn
    0x26).filter (!·.isEmpty) = _
  rw [List.splitOn_intercalate 0x26 ?_ (by simp), List.filter_eq_self]
  · intro part among
    obtain ⟨p, _, rfl⟩ := List.mem_map.mp among
    simp [utf8_encode_pair]
  · intro part among
    obtain ⟨p, _, rfl⟩ := List.mem_map.mp among
    exact pair_free p

/-- The pairs that were written are the ones that are read, in their order. -/
theorem decode_encode (pairs : List (String × String)) :
    decode (Utf8.encode (encode pairs)) = pairs := by
  rw [decode, parts_encode, List.map_map]
  exact (List.map_congr_left fun pair _ => decode_encode_pair pair).trans (List.map_id pairs)

end WorkloadIdentity.Form
