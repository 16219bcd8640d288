import WorkloadIdentity.Exchange.Token

/-! The cache of a token. Beside the last good token it counts the retrievals that have
ended and remembers the outcome of the latest one, so that a caller who waited for a
retrieval shares its outcome instead of starting another. -/

set_option autoImplicit false

namespace WorkloadIdentity

abbrev Outcome := Except CredentialsError Token

structure Cache where
  token : Option Token
  /-- How many retrievals have ended. -/
  generation : Nat
  last : Option Outcome

/-- What a caller finds in the cache. -/
inductive Reading
  | valid (token : Token)
  | stale (generation : Nat)

namespace Cache

def empty : Cache := ⟨none, 0, none⟩

/-- The token if it has not expired; otherwise how many retrievals have ended so far. -/
def read (cache : Cache) (ticks : Calendar.Nanoseconds) : Reading :=
  match cache.token with
  | some token => if token.isExpired ticks then .stale cache.generation else .valid token
  | none => .stale cache.generation

/-- The outcome to share for a caller that saw `seen` retrievals. -/
def shared? (cache : Cache) (seen : Nat) : Option Outcome :=
  if cache.generation = seen then none else cache.last

/-- Ends a retrieval. A failed one leaves the token in place. -/
def publish (cache : Cache) (outcome : Outcome) : Cache :=
  { token := match outcome with
      | .ok token => some token
      | .error _ => cache.token
    generation := cache.generation + 1
    last := some outcome }

end Cache

end WorkloadIdentity
