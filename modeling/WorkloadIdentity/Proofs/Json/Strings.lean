import WorkloadIdentity.Json.Parser
import WorkloadIdentity.Json.Printer

/-! Strings of printed JSON read as the strings that they were printed from. Each character
is one piece of the printed string, whichever way it is escaped. -/

set_option autoImplicit false

namespace WorkloadIdentity.Tree

open Json (escapeChar)

def hasShortEscape (c : Char) : Bool := ['\n', '\r', '\t', '\x08', '\x0c'].contains c

def pieceOf (c : Char) : Piece :=
  if c.toNat < 0x20 ∧ hasShortEscape c = false then .escape c.toNat else .scalar c

theorem pieces_short {e c : Char} (rest : Text) (unlike : e ≠ 'u') (short : shortEscape? e = some c) :
    pieces? (some '\\' :: some e :: rest) = (pieces? rest).map fun r => (.scalar c :: r.1, r.2) := by
  rw [pieces?]
  · rw [short]
    rcases pieces? rest with _ | ⟨ps, r⟩ <;> rfl
  · simp [unlike]

theorem hex_digit {n : Nat} (h : n < 16) : hexValue? (some (Hex.lowerDigit n)) = some n :=
  Hex.value?_lowerDigit n h

theorem pieces_control (n : Nat) (rest : Text) (h : n < 0x20) :
    pieces? (some '\\' :: some 'u' :: some '0' :: some '0' :: some (Hex.lowerDigit (n / 16)) ::
      some (Hex.lowerDigit (n % 16)) :: rest) =
        (pieces? rest).map fun r => (.escape n :: r.1, r.2) := by
  have zero : hexValue? (some '0') = some 0 := rfl
  rw [pieces?, zero, hex_digit (show n / 16 < 16 by omega), hex_digit (show n % 16 < 16 by omega)]
  simp only [Option.bind_eq_bind, Option.bind_some, Nat.zero_mul, Nat.zero_add,
    show n / 16 * 16 + n % 16 = n by omega]
  rcases pieces? rest with _ | ⟨ps, r⟩ <;> rfl

theorem pieces_plain {c : Char} (rest : Text) (quotes : c ≠ '"') (slash : c ≠ '\\')
    (high : ¬ c.toNat < 0x20) :
    pieces? (some c :: rest) = (pieces? rest).map fun r => (.scalar c :: r.1, r.2) := by
  rw [pieces?]
  · rw [if_neg high]
    rcases pieces? rest with _ | ⟨ps, r⟩ <;> rfl
  · simpa using quotes
  · intro a b c' d rest' hc
    simp_all
  · intro e rest' hc
    simp_all
  · simpa using slash

theorem pieces_escape (c : Char) (rest : Text) :
    pieces? ((escapeChar c).map some ++ rest) =
      (pieces? rest).map fun r => (pieceOf c :: r.1, r.2) := by
  by_cases short : c ∈ ['"', '\\', '\n', '\r', '\t', '\x08', '\x0c']
  · simp only [List.mem_cons, List.not_mem_nil, or_false] at short
    obtain rfl | rfl | rfl | rfl | rfl | rfl | rfl := short <;>
      exact pieces_short rest (by decide) rfl
  · have long : hasShortEscape c = false := by simp_all [hasShortEscape]
    simp only [List.mem_cons, List.not_mem_nil, or_false, not_or] at short
    obtain ⟨quotes, slash, newline, return_, tab, backspace, feed⟩ := short
    rw [escapeChar, if_neg quotes, if_neg slash, if_neg newline, if_neg return_, if_neg tab,
      if_neg backspace, if_neg feed]
    by_cases low : c.toNat < 0x20
    · rw [if_pos low, pieceOf, if_pos ⟨low, long⟩]
      exact pieces_control c.toNat rest low
    · rw [if_neg low, pieceOf, if_neg (fun h => low h.1)]
      exact pieces_plain rest quotes slash low

theorem pieces_quoted (text : List Char) (rest : Text) :
    pieces? ((text.flatMap escapeChar).map some ++ some '"' :: rest) =
      some (text.map pieceOf, rest) := by
  induction text with
  | nil => rw [List.flatMap_nil, List.map_nil, List.nil_append, pieces?, List.map_nil]
  | cons c text ih =>
    rw [List.flatMap_cons, List.map_append, List.append_assoc, pieces_escape, ih]
    rfl

theorem text_unit {code : Nat} (high : isHigh code = false) (low : isLow code = false)
    (rest : List Piece) :
    text? (.escape code :: rest) = (text? rest).map (Char.ofNat code :: ·) := by
  match rest with
  | .escape _ :: _ => simp [text?, high, low]
  | [] => simp [text?, high, low]
  | .scalar _ :: _ => simp [text?, high, low]
  | .stray :: _ => simp [text?, high, low]

theorem text_escape {code : Nat} (low : code < 0x20) (rest : List Piece) :
    text? (.escape code :: rest) = (text? rest).map (Char.ofNat code :: ·) :=
  text_unit (by simp [isHigh]; omega) (by simp [isLow]; omega) rest

theorem text_pieces (text : List Char) : text? (text.map pieceOf) = some text := by
  induction text with
  | nil => rfl
  | cons c text ih =>
    rw [List.map_cons, pieceOf]
    split
    · rename_i h
      rw [text_escape h.1, ih, Option.map_some, Char.ofNat_toNat]
    · rw [text?, ih, Option.map_some]

theorem string_quoted (s : String) (rest : Text) :
    string? ((s.toList.flatMap escapeChar).map some ++ some '"' :: rest) = some (some s, rest) := by
  rw [string?, pieces_quoted, Option.map_some]
  dsimp only
  rw [text_pieces, Option.map_some, String.ofList_toList]

end WorkloadIdentity.Tree
