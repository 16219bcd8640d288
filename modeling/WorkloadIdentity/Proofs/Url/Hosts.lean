import WorkloadIdentity.Proofs.Text.Percent
import WorkloadIdentity.Url.Parser

/-! Hosts have no white space. An address is written in digits, dots and colons, an opaque host
is escaped outside printable ASCII, and a name with white space is refused. -/

set_option autoImplicit false

namespace WorkloadIdentity.Url

def Unspaced (text : List Char) : Prop := ∀ c ∈ text, Blank.isBlank c = false

instance (text : List Char) : Decidable (Unspaced text) :=
  List.decidableBAll (fun c => Blank.isBlank c = false) text

theorem unspaced_cons {c : Char} {text : List Char} :
    Unspaced (c :: text) ↔ Blank.isBlank c = false ∧ Unspaced text := List.forall_mem_cons

theorem unspaced_append {text more : List Char} :
    Unspaced (text ++ more) ↔ Unspaced text ∧ Unspaced more := List.forall_mem_append

theorem unspaced_intercalate {separator : Char} (h : Blank.isBlank separator = false)
    (parts : List (List Char)) (each : ∀ part ∈ parts, Unspaced part) :
    Unspaced ([separator].intercalate parts) := by
  induction parts with
  | nil => exact nofun
  | cons part parts ih =>
    have later := ih fun p hp => each p (List.mem_cons_of_mem _ hp)
    cases parts with
    | nil => simpa using each part
    | cons next parts =>
      rw [List.intercalate_cons_cons, unspaced_append, unspaced_append]
      exact ⟨⟨each part (List.mem_cons_self ..), by simpa [Unspaced] using h⟩, later⟩

theorem digit_unspaced (n : Nat) : Blank.isBlank (Nat.digitChar n) = false := by
  by_cases small : n < 16
  · revert n
    decide
  · have star : Nat.digitChar n = '*' := by
      unfold Nat.digitChar
      simp (disch := omega) only [if_neg]
    rw [star]
    decide

theorem digits_unspaced (base n : Nat) (h : 1 < base) : Unspaced (Nat.toDigits base n) := by
  induction n using Nat.strongRecOn with
  | _ n ih =>
    rw [Nat.toDigits_eq_if h]
    split
    · simpa [Unspaced] using digit_unspaced n
    · rename_i large
      have smaller : n / base < n := Nat.div_lt_self (by omega) h
      rw [unspaced_append]
      exact ⟨ih _ smaller, by simpa [Unspaced] using digit_unspaced (n % base)⟩

theorem ipv4_unspaced {name address : List Char} (h : ipv4? name = some address) :
    Unspaced address := by
  simp only [ipv4?, Option.bind_eq_bind, Option.bind_eq_some_iff] at h
  obtain ⟨numbers, -, n, -, h⟩ := h
  cases h
  have part : ∀ n, Unspaced (natText n) := fun n => digits_unspaced 10 n (by decide)
  simp only [unspaced_append, unspaced_cons, part, and_true, true_and]
  decide

theorem colon_text_unspaced (pieces : List Nat) : Unspaced (colonText pieces) := by
  apply unspaced_intercalate (by decide)
  intro part among
  obtain ⟨n, -, rfl⟩ := List.mem_map.mp among
  exact digits_unspaced 16 n (by decide)

theorem ipv6_unspaced {text address : List Char} (h : ipv6? text = some address) :
    Unspaced address := by
  obtain ⟨pieces, -, rfl⟩ := Option.map_eq_some_iff.mp h
  have inner : Unspaced (ipv6Text pieces) := by
    simp only [ipv6Text]
    split
    · exact colon_text_unspaced _
    · simp only [unspaced_append, unspaced_cons, colon_text_unspaced, and_true, true_and]
      decide
  simp only [unspaced_append, unspaced_cons, inner]
  decide

theorem bracketed_unspaced {text : List Char} {address : List Char}
    (h : bracketed? text = some (some address)) : Unspaced address := by
  unfold bracketed? at h
  split at h
  · rw [Option.some.injEq, Option.ite_none_right_eq_some] at h
    exact ipv6_unspaced h.2
  · cases h

theorem kept_unspaced {b : UInt8} (kept : keepOpaque b = true) (other : b ≠ 0x20) :
    Blank.isBlank (Char.ofNat b.toNat) = false := by
  have bounds : ∀ n < 0x7F, 0x20 < n → Blank.isBlank (Char.ofNat n) = false := by decide
  simp only [keepOpaque, Bool.and_eq_true, decide_eq_true_eq, UInt8.le_iff_toNat_le,
    UInt8.lt_iff_toNat_lt, UInt8.reduceToNat] at kept
  simp only [Ne, ← UInt8.toNat_inj, UInt8.reduceToNat] at other
  exact bounds _ kept.2 (by omega)

theorem opaque_unspaced {text host : List Char} (h : opaqueHost? text = some host) :
    Unspaced host := by
  unfold opaqueHost? at h
  split at h
  · rename_i address bracketed
    rw [h] at bracketed
    exact bracketed_unspaced bracketed
  · obtain ⟨allowed, same⟩ := Option.ite_none_left_eq_some.mp h
    cases same
    have bare : ' ' ∉ text := by
      intro among
      exact allowed (List.any_eq_true.mpr ⟨' ', among, rfl⟩)
    intro c written
    obtain ⟨b, among, kept, -, rfl⟩ | rfl | ⟨n, bound, rfl⟩ := Percent.mem_encode written
    · apply kept_unspaced kept
      rintro rfl
      exact bare (Utf8.mem_of_encode (by decide : ' '.toNat < 0x80) among)
    · rfl
    · exact (by decide : ∀ n < 16, Blank.isBlank (Hex.upperDigit n) = false) n bound

theorem named_unspaced {text host : List Char} (h : namedHost? text = some host) :
    Unspaced host := by
  unfold namedHost? at h
  split at h
  · rename_i address bracketed
    rw [h] at bracketed
    exact bracketed_unspaced bracketed
  · obtain ⟨name, -, h⟩ := Option.bind_eq_some_iff.mp h
    obtain ⟨allowed, h⟩ := Option.ite_none_left_eq_some.mp h
    split at h
    · exact ipv4_unspaced h
    · cases h
      intro c among
      have free : isForbiddenInName c = false := by grind
      simp_all [isForbiddenInName]

theorem host_given {scheme given rest after host : List Char} {refused : Bool} {port : Option Nat}
    (h : (if refused then none else
      let host := if given.isEmpty then none else some given
      match rest with
      | ':' :: rest => do
        let (port, rest) ← port? scheme rest
        return (host, port, rest)
      | rest => return (host, none, rest)) = some (some host, port, after)) : given = host := by
  obtain ⟨-, h⟩ := Option.ite_none_left_eq_some.mp h
  have same : (if given.isEmpty then none else some given) = some host := by
    dsimp only at h
    split at h
    · obtain ⟨⟨port, rest⟩, -, h⟩ := Option.bind_eq_some_iff.mp h
      exact congrArg Prod.fst (Option.some.inj h)
    · exact congrArg Prod.fst (Option.some.inj h)
  exact Option.some.inj (Option.ite_none_left_eq_some.mp same).2

theorem authority_unspaced {scheme cs host rest : List Char} {kind : SchemeKind} {port : Option Nat}
    (h : authorityParts? scheme kind cs = some (some host, port, rest)) : Unspaced host := by
  obtain ⟨⟨credentials, cs⟩, -, h⟩ := Option.bind_eq_some_iff.mp h
  dsimp only at h
  split at h
  · obtain ⟨given, read, h⟩ := Option.bind_eq_some_iff.mp h
    rw [← host_given h]
    exact named_unspaced read
  · obtain ⟨given, read, h⟩ := Option.bind_eq_some_iff.mp h
    rw [← host_given h]
    exact opaque_unspaced read

theorem file_host_unspaced {cs host : List Char} (h : fileHost? cs = some (some host)) :
    Unspaced host := by
  unfold fileHost? at h
  split at h
  · cases h
  · obtain ⟨name, read, h⟩ := Option.map_eq_some_iff.mp h
    obtain ⟨-, same⟩ := Option.ite_none_left_eq_some.mp h
    cases same
    exact named_unspaced read

theorem dropHost_host {url : Url} {host : List Char} (h : (dropHost url).host = some host) :
    url.host = some host := by
  unfold dropHost at h
  split at h
  · split at h
    · cases h
    · exact h
  · exact h

theorem file_unspaced {cs host : List Char} {url : Url} (h : parseFile? cs = some url)
    (named : url.host = some host) : Unspaced host := by
  unfold parseFile? at h
  split at h
  · split at h
    · dsimp only at h
      split at h
      · cases h
        cases named
      · obtain ⟨name, read, h⟩ := Option.bind_eq_some_iff.mp h
        cases h
        cases (dropHost_host named : name = some host)
        exact file_host_unspaced read
    · cases h
      cases named
  · cases h
    cases named

/-- No host has white space in it. -/
theorem host_unspaced {text : String} {host : List Char} {url : Url} (h : parse? text = some url)
    (named : url.host = some host) : Unspaced host := by
  obtain ⟨⟨scheme, rest⟩, -, h⟩ := Option.bind_eq_some_iff.mp h
  simp only at h
  split at h
  · exact file_unspaced h named
  · obtain ⟨⟨given, port, path⟩, parts, h⟩ := Option.bind_eq_some_iff.mp h
    cases h
    cases (named : given = some host)
    exact authority_unspaced parts
  · split at h
    · obtain ⟨⟨given, port, path⟩, parts, h⟩ := Option.bind_eq_some_iff.mp h
      cases h
      cases (named : given = some host)
      exact authority_unspaced parts
    · cases h
      cases named
    · cases h
      cases named

theorem authority_text_unspaced {text : String} {authority : List Char} {url : Url}
    (h : parse? text = some url) (present : url.authority? = some authority) :
    Unspaced authority := by
  obtain ⟨host, named, rfl⟩ := Option.map_eq_some_iff.mp present
  have clear := host_unspaced h named
  rcases url.port with _ | port
  · exact clear
  · rw [unspaced_append, unspaced_cons]
    exact ⟨clear, by decide, digits_unspaced 10 port (by decide)⟩

end WorkloadIdentity.Url
