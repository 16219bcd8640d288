import WorkloadIdentity.Text.Utf8

/-! Environment variables. A value is any byte string; reading it as text fails if it is
not UTF-8. -/

set_option autoImplicit false

namespace WorkloadIdentity

structure Environment where
  entries : List (String × Bytes)
  deriving DecidableEq, Repr

namespace Environment

def empty : Environment := ⟨[]⟩

def get? (env : Environment) (name : String) : Option Bytes := env.entries.lookup name

def unset (env : Environment) (name : String) : Environment :=
  ⟨env.entries.filter fun v => v.1 != name⟩

def set (env : Environment) (name : String) (value : Bytes) : Environment :=
  ⟨(name, value) :: (env.unset name).entries⟩

def setText (env : Environment) (name value : String) : Environment :=
  env.set name (Utf8.ofString value)

def text? (env : Environment) (name : String) : Option String :=
  (env.get? name).bind Utf8.text?

/-- A variable that is set to more than the empty text. -/
def nonEmpty? (env : Environment) (name : String) : Option String :=
  (env.text? name).filter (!·.isEmpty)

theorem get?_unset (env : Environment) (name other : String) :
    (env.unset other).get? name = if name = other then none else env.get? name := by
  obtain ⟨vs⟩ := env
  induction vs with
  | nil => simp [unset, get?]
  | cons v vs ih =>
    obtain ⟨key, value⟩ := v
    simp only [unset, get?] at ih ⊢
    by_cases hv : key = other
    · subst hv
      by_cases hn : name = key
      · subst hn
        simpa using ih
      · have : (name == key) = false := by simpa using hn
        simpa [List.lookup_cons, this, hn] using ih
    · by_cases hn : name = key
      · subst hn
        simp [hv]
      · have : (name == key) = false := by simpa using hn
        simpa [hv, List.lookup_cons, this] using ih

theorem get?_set (env : Environment) (name other : String) (value : Bytes) :
    (env.set other value).get? name = if name = other then some value else env.get? name := by
  by_cases h : name = other
  · subst h
    simp [set, get?]
  · have hb : (name == other) = false := by simpa using h
    have := get?_unset env name other
    simp only [h, if_false] at this ⊢
    simpa [set, get?, List.lookup_cons, hb] using this

end Environment

end WorkloadIdentity
