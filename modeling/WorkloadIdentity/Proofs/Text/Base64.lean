import WorkloadIdentity.Encoding.Base64
import WorkloadIdentity.Proofs.Text.Utf8

/-! Base64 reads back. Every group of three bytes is four symbols, and one or two bytes at the end
leave their last symbol with no bits of its own; no symbol is the sign of padding. -/

set_option autoImplicit false

namespace WorkloadIdentity.Base64

theorem symbol_no_padding : ∀ n < 64, symbol n ≠ '=' := by decide

theorem decode_group {a b c d : Char} (rest : List Char) (last : d ≠ '=') :
    decode? (a :: b :: c :: d :: rest) = do
      let n := (((← value? a) * 64 + (← value? b)) * 64 + (← value? c)) * 64 + (← value? d)
      let tail ← decode? rest
      return UInt8.ofNat (n / 65536) :: UInt8.ofNat (n / 256 % 256) :: UInt8.ofNat (n % 256)
        :: tail := by
  rw [decode?]
  · simp_all
  · simp_all

theorem digits_two {n : Nat} : n / 64 * 64 + n % 64 = n := Nat.div_add_mod' n 64

theorem digits_three {n : Nat} : (n / 4096 * 64 + n / 64 % 64) * 64 + n % 64 = n := by omega

theorem digits_four {n : Nat} :
    ((n / 262144 * 64 + n / 4096 % 64) * 64 + n / 64 % 64) * 64 + n % 64 = n := by omega

theorem decode_encode (bytes : Bytes) : decode? (encode bytes) = some bytes := by
  fun_induction encode bytes with
  | case1 => rfl
  | case2 a n =>
    have bound := a.toNat_lt
    rw [decode?, value?_symbol _ (show n / 64 < 64 by omega), value?_symbol _ (by omega)]
    simp only [Option.bind_eq_bind, Option.bind_some, digits_two]
    rw [if_pos (by omega), show n / 16 = a.toNat by omega, UInt8.ofNat_toNat]
  | case3 a b n =>
    have bound := a.toNat_lt
    have := b.toNat_lt
    have third := symbol_no_padding (n % 64) (by omega)
    rw [decode?, value?_symbol _ (show n / 4096 < 64 by omega), value?_symbol _ (by omega),
      value?_symbol _ (by omega)]
    · simp only [Option.bind_eq_bind, Option.bind_some, digits_three]
      rw [if_pos (by omega), show n / 1024 = a.toNat by omega, show n / 4 % 256 = b.toNat by omega,
        UInt8.ofNat_toNat, UInt8.ofNat_toNat]
    · exact third
  | case4 a b c rest n ih =>
    have := a.toNat_lt
    have := b.toNat_lt
    have := c.toNat_lt
    rw [decode_group _ (symbol_no_padding _ (by omega)), ih,
      value?_symbol _ (show n / 262144 < 64 by omega), value?_symbol _ (by omega),
      value?_symbol _ (by omega), value?_symbol _ (by omega)]
    simp only [Option.bind_eq_bind, Option.bind_some, digits_four]
    rw [show n / 65536 = a.toNat by omega, show n / 256 % 256 = b.toNat by omega,
      show n % 256 = c.toNat by omega]
    simp only [UInt8.ofNat_toNat]
    rfl

end WorkloadIdentity.Base64
