import WorkloadIdentity.Text.Utf8

/-! Request URIs. They are cut out of the text as it stands, without normalization: the
fragment is dropped, and the absolute form, an authority alone, a path, and `*` are the
shapes that are accepted. -/

set_option autoImplicit false

namespace WorkloadIdentity

structure Uri where
  scheme : Option (List Char)
  authority : List Char
  path : List Char
  query : Option (List Char)
  deriving DecidableEq, Repr

namespace Uri

/-- Bytes of UTF-8 that a URI may have. -/
def maxLength : Nat := 65534

def isSchemeChar (c : Char) : Bool := c.isAlphanum || c == '+' || c == '-' || c == '.'

/-- Characters of an authority, with `%` allowed in user information only. -/
def isAuthorityChar (c : Char) : Bool :=
  c.isAlphanum || "!$&'()*+,-.:;=@[]_~%".toList.contains c

def endsAuthority (c : Char) : Bool := c == '/' || c == '?' || c == '#'

def lower (cs : List Char) : List Char := cs.map Char.toLower

/-- The scheme and what follows `://`, if the text has them. `http` and `https` are
written in lower case. -/
def scheme? (cs : List Char) : Option (List Char × List Char) :=
  match cs.dropWhile isSchemeChar with
  | ':' :: '/' :: '/' :: rest =>
    let scheme := cs.takeWhile isSchemeChar
    let known := lower scheme = "http".toList ∨ lower scheme = "https".toList
    some (if known then lower scheme else scheme, rest)
  | _ => none

/-- What the scan of an authority has seen since the last `@` or closing bracket. -/
structure Scan where
  colons : Nat := 0
  opened : Bool := false
  closed : Bool := false
  percent : Bool := false
  lastAt : Bool := false

def Scan.step? (s : Scan) (c : Char) : Option Scan :=
  if !isAuthorityChar c then none
  else
    let s := { s with lastAt := c == '@' }
    if c = ':' then if s.colons ≥ 8 then none else some { s with colons := s.colons + 1 }
    else if c = '[' then if s.percent || s.opened then none else some { s with opened := true }
    else if c = ']' then
      if !s.opened || s.closed then none
      else some { s with closed := true, colons := 0, percent := false }
    else if c = '@' then some { s with colons := 0, percent := false }
    else if c = '%' then some { s with percent := true }
    else some s

/-- Brackets are paired, at most one colon starts a port, and something follows `@`. -/
def Scan.accepts (s : Scan) : Bool :=
  s.opened == s.closed && s.colons ≤ 1 && !s.lastAt && !s.percent

def isAuthority (cs : List Char) : Bool :=
  (cs.foldlM Scan.step? {}).any Scan.accepts

/-- Spaces, controls, and four characters are refused; all outside ASCII is accepted. -/
def isPathChar (c : Char) : Bool :=
  0x21 ≤ c.toNat && !(c == '<' || c == '>' || c == '`' || c == '#' || c == '?')

def isQueryChar (c : Char) : Bool :=
  0x21 ≤ c.toNat && !(c == '"' || c == '<' || c == '>' || c == '#')

def endsPath (c : Char) : Bool := c == '?' || c == '#'

/-- Path and query, up to the fragment. -/
def pathAndQuery? (cs : List Char) : Option (List Char × Option (List Char)) :=
  let path := cs.takeWhile (!endsPath ·)
  if !path.all isPathChar then none
  else
    match cs.dropWhile (!endsPath ·) with
    | '?' :: rest =>
      let query := rest.takeWhile (· != '#')
      if query.all isQueryChar then some (path, some query) else none
    | _ => some (path, none)

/-- An absolute URI needs an authority; an empty path is the root. -/
def absolute? (scheme rest : List Char) : Option Uri := do
  let authority := rest.takeWhile (!endsAuthority ·)
  if authority.isEmpty || !isAuthority authority then none
  else do
    let (path, query) ← pathAndQuery? (rest.dropWhile (!endsAuthority ·))
    return ⟨some scheme, authority, if path.isEmpty then ['/'] else path, query⟩

def parse? (text : String) : Option Uri :=
  let cs := text.toList
  if (Utf8.encode cs).length > maxLength then none
  else
    match cs with
    | [] => none
    | ['*'] => some ⟨none, [], ['*'], none⟩
    | '/' :: _ => (pathAndQuery? cs).map fun (path, query) => ⟨none, [], path, query⟩
    | _ =>
      match scheme? cs with
      | some (scheme, rest) =>
        if scheme.length > 64 then none else absolute? scheme rest
      | none =>
        if cs.any endsAuthority || !isAuthority cs then none
        else some ⟨none, cs, [], none⟩

def text (uri : Uri) : List Char :=
  (match uri.scheme with
    | some scheme => scheme ++ ':' :: '/' :: '/' :: uri.authority
    | none => uri.authority) ++ uri.path ++
  (match uri.query with
    | some query => '?' :: query
    | none => [])

end Uri

end WorkloadIdentity
