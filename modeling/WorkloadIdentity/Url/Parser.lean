import WorkloadIdentity.Url.Basic
import WorkloadIdentity.Url.Host

/-! Parsing of absolute URLs by the rules of the URL Standard. White space around the
text and line breaks in it are ignored, backslashes separate segments where the scheme is
special, and dot segments are resolved. -/

set_option autoImplicit false

namespace WorkloadIdentity.Url

inductive SchemeKind
  | file
  | special
  | other
  deriving DecidableEq, Repr

def kindOf (scheme : List Char) : SchemeKind :=
  if scheme = "file".toList then .file
  else if ["http", "https", "ws", "wss", "ftp"].any (·.toList = scheme) then .special
  else .other

def defaultPort? (scheme : List Char) : Option Nat :=
  if scheme = "http".toList ∨ scheme = "ws".toList then some 80
  else if scheme = "https".toList ∨ scheme = "wss".toList then some 443
  else if scheme = "ftp".toList then some 21
  else none

def isSpecial (kind : SchemeKind) : Bool := kind != .other

def isControlOrSpace (c : Char) : Bool := c.toNat ≤ 0x20

def isTabOrBreak (c : Char) : Bool := c == '\t' || c == '\n' || c == '\r'

def clean (cs : List Char) : List Char :=
  (((cs.dropWhile isControlOrSpace).reverse.dropWhile isControlOrSpace).reverse).filter
    fun c => !isTabOrBreak c

def isSchemeChar (c : Char) : Bool :=
  c.isAlphanum || c == '+' || c == '-' || c == '.'

/-- The scheme in lower case and the text after its colon. -/
def scheme? (cs : List Char) : Option (List Char × List Char) :=
  match cs, cs.dropWhile isSchemeChar with
  | c :: _, ':' :: rest =>
    if c.isAlpha then some ((cs.takeWhile isSchemeChar).map Char.toLower, rest) else none
  | _, _ => none

def isSlash (kind : SchemeKind) (c : Char) : Bool := c == '/' || (c == '\\' && isSpecial kind)

def endsAuthority (kind : SchemeKind) (c : Char) : Bool :=
  isSlash kind c || c == '?' || c == '#'

/-- The parts before and after the last `@`. -/
def lastAt? (cs : List Char) : Option (List Char × List Char) :=
  if cs.contains '@' then
    some ((cs.reverse.dropWhile (· != '@')).tail.reverse, (cs.reverse.takeWhile (· != '@')).reverse)
  else none

/-- Whether anything stands before the host, and the text from the host on. A lone `@`
needs a host after it. -/
def userInfo? (kind : SchemeKind) (cs : List Char) : Option (Bool × List Char) :=
  let rest := cs.dropWhile (!endsAuthority kind ·)
  match lastAt? (cs.takeWhile (!endsAuthority kind ·)) with
  | none => some (false, cs)
  | some ([], host) =>
    if host.isEmpty && !rest.isEmpty then none else some (false, host ++ rest)
  | some (info, host) => some (info != [':'], host ++ rest)

/-- The length of the host: up to a colon outside brackets or the end of the authority. -/
def hostLength (kind : SchemeKind) : Bool → List Char → Nat
  | _, [] => 0
  | inside, c :: cs =>
    if (c == ':' && !inside) || endsAuthority kind c then 0
    else
      let inside := if c == '[' then true else if c == ']' then false else inside
      hostLength kind inside cs + 1

def endsPort (c : Char) : Bool := c == '/' || c == '\\' || c == '?' || c == '#'

/-- The port after the colon, `none` if it is left out or the scheme's own. -/
def port? (scheme : List Char) (cs : List Char) : Option (Option Nat × List Char) :=
  let digits := cs.takeWhile Char.isDigit
  let rest := cs.dropWhile Char.isDigit
  let port := Nat.ofDigitChars 10 digits 0
  if rest.head?.any (!endsPort ·) || port > 65535 then none
  else
    some (if digits.isEmpty || defaultPort? scheme = some port then none else some port, rest)

/-- Host, port, and the text from the path on. A special scheme needs a host; others may
go without one if nothing else stands in the authority. -/
def authorityParts? (scheme : List Char) (kind : SchemeKind) (cs : List Char) :
    Option (Option (List Char) × Option Nat × List Char) := do
  let (credentials, cs) ← userInfo? kind cs
  let n := hostLength kind false cs
  let host ← if isSpecial kind then namedHost? (cs.take n) else opaqueHost? (cs.take n)
  let rest := cs.drop n
  if host.isEmpty && (credentials || rest.head? == some ':') then none
  else
    let host := if host.isEmpty then none else some host
    match rest with
    | ':' :: rest => do
      let (port, rest) ← port? scheme rest
      return (host, port, rest)
    | rest => return (host, none, rest)

def keepInPath (b : UInt8) : Bool :=
  0x20 < b && b < 0x7F && !([0x22, 0x23, 0x3C, 0x3E, 0x3F, 0x60, 0x7B, 0x7D] : Bytes).contains b

def keepInQuery (kind : SchemeKind) (b : UInt8) : Bool :=
  0x20 < b && b < 0x7F && !([0x22, 0x23, 0x3C, 0x3E] : Bytes).contains b &&
    !(b == 0x27 && isSpecial kind)

/-- A dot may be written as an escape. -/
def resolveDots : List Char → List Char
  | '%' :: '2' :: 'e' :: rest | '%' :: '2' :: 'E' :: rest => '.' :: resolveDots rest
  | c :: rest => c :: resolveDots rest
  | [] => []

def isDriveLetter : List Char → Bool
  | [c, d] => c.isAlpha && (d == ':' || d == '|')
  | _ => false

/-- Goes up one level; a drive letter at the root stays. -/
def ascend (kind : SchemeKind) : List (List Char) → List (List Char)
  | [] => []
  | [[c, ':']] => if kind == .file && c.isAlpha then [[c, ':']] else []
  | _ :: up => up

/-- Adds a segment to the path so far, which is held with the deepest segment first. -/
def descend (kind : SchemeKind) (path : List (List Char)) (segment : List Char)
    (last : Bool) : List (List Char) :=
  let segment := Percent.encode keepInPath (Utf8.encode segment)
  match resolveDots segment with
  | ['.', '.'] => if last then [] :: ascend kind path else ascend kind path
  | ['.'] => if last then [] :: path else path
  | _ =>
    match kind, path, segment with
    | .file, [], [c, d] => if isDriveLetter [c, d] then [[c, ':']] else [[c, d]]
    | _, _, _ => segment :: path

def walk (kind : SchemeKind) (path : List (List Char)) :
    List (List Char) → List (List Char)
  | [] => path
  | [segment] => descend kind path segment true
  | segment :: rest => walk kind (descend kind path segment false) rest

/-- The path after its first slash. File paths lose their leading empty segments. -/
def segmentsOf (kind : SchemeKind) (cs : List Char) : List (List Char) :=
  let segments := (walk kind [] (cs.splitOnP (isSlash kind))).reverse
  match kind with
  | .file =>
    match segments.dropWhile List.isEmpty with
    | [] => [[]]
    | trimmed => trimmed
  | _ => segments

def endsPath (c : Char) : Bool := c == '?' || c == '#'

def queryOf (kind : SchemeKind) (cs : List Char) : List Char :=
  match cs with
  | '?' :: rest =>
    Percent.encode (keepInQuery kind) (Utf8.encode (rest.takeWhile (· != '#')))
  | _ => []

/-- Drops the slash at the front, if there is one. -/
def dropSlash (kind : SchemeKind) : List Char → List Char
  | c :: rest => if isSlash kind c then rest else c :: rest
  | [] => []

/-- Path and query after an authority. Without a path, a special URL has the root. -/
def finish (scheme : List Char) (kind : SchemeKind) (host : Option (List Char))
    (port : Option Nat) (cs : List Char) : Url :=
  let path := cs.takeWhile (!endsPath ·)
  let segments :=
    if path.isEmpty && !isSpecial kind then [] else segmentsOf kind (dropSlash kind path)
  ⟨scheme, host, port, .segments segments, queryOf kind (cs.dropWhile (!endsPath ·))⟩

/-- A path that starts with a drive letter takes the host's place. -/
def dropHost (url : Url) : Url :=
  match url.path with
  | .segments ([c, ':'] :: _) => if c.isAlpha then { url with host := none } else url
  | _ => url

def fileHost? (cs : List Char) : Option (Option (List Char)) :=
  if cs.isEmpty then some none
  else (namedHost? cs).map fun host => if host = "localhost".toList then none else some host

def parseFile? (cs : List Char) : Option Url :=
  match cs with
  | a :: b :: rest =>
    if isSlash .file a && isSlash .file b then
      let host := rest.takeWhile (!endsAuthority .file ·)
      if isDriveLetter host then some (finish "file".toList .file none none rest)
      else do
        let name ← fileHost? host
        return dropHost
          (finish "file".toList .file name none (rest.dropWhile (!endsAuthority .file ·)))
    else some (finish "file".toList .file none none cs)
  | _ => some (finish "file".toList .file none none cs)

def parse? (text : String) : Option Url := do
  let (scheme, rest) ← scheme? (clean text.toList)
  match kindOf scheme with
  | .file => parseFile? rest
  | .special =>
    let (host, port, rest) ←
      authorityParts? scheme .special (rest.dropWhile (isSlash .special))
    return finish scheme .special host port rest
  | .other =>
    match rest with
    | '/' :: '/' :: rest => do
      let (host, port, rest) ← authorityParts? scheme .other rest
      return finish scheme .other host port rest
    | '/' :: rest =>
      return ⟨scheme, none, none,
        .segments (segmentsOf .other (rest.takeWhile (!endsPath ·))),
        queryOf .other (rest.dropWhile (!endsPath ·))⟩
    | _ =>
      return ⟨scheme, none, none,
        .flat (Percent.encode keepOpaque (Utf8.encode (rest.takeWhile (!endsPath ·)))),
        queryOf .other (rest.dropWhile (!endsPath ·))⟩

end WorkloadIdentity.Url
