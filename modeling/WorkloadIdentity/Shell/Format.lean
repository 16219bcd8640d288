import WorkloadIdentity.Shell.Word

/-! Formatted output: backslash escapes, and formats that are filled with arguments. -/

set_option autoImplicit false

namespace WorkloadIdentity.Shell.Format

/-- How escapes are read: whether hexadecimal ones exist, whether one ends the output, and
whether an octal number has a zero before its three digits. -/
structure Dialect where
  hexadecimal : Bool
  stops : Bool
  leadingZero : Bool
  deriving DecidableEq, Repr

def isOctal (c : Char) : Bool := '0' ≤ c && c ≤ '7'

def isHexadecimal (c : Char) : Bool :=
  c.isDigit || ('a' ≤ c && c ≤ 'f') || ('A' ≤ c && c ≤ 'F')

def digitValue (c : Char) : Nat :=
  if c.isDigit then c.toNat - '0'.toNat else c.toLower.toNat - 'a'.toNat + 10

def byteOf (base : Nat) (digits : List Char) : Char :=
  Char.ofNat (digits.foldl (fun n d => n * base + digitValue d) 0 % 256)

/-- The characters that stand for themselves or for a control character behind a backslash. -/
def simple? (c : Char) : Option Char :=
  [('a', '\x07'), ('b', '\x08'), ('e', '\x1b'), ('f', '\x0c'), ('n', '\n'), ('r', '\r'),
    ('t', '\t'), ('v', '\x0b'), ('\\', '\\')].lookup c

inductive Part
  | text (text : List Char)
  | stop
  deriving DecidableEq, Repr

/-- What the characters behind a backslash stand for, and how many of them. -/
def escape (dialect : Dialect) (cs : List Char) : Part × Nat :=
  match cs with
  | [] => (.text ['\\'], 0)
  | c :: rest =>
    if c = 'c' ∧ dialect.stops then (.stop, 1)
    else if c = 'x' ∧ dialect.hexadecimal then
      let digits := (rest.take 2).takeWhile isHexadecimal
      (.text [byteOf 16 digits], digits.length + 1)
    else if c = '0' ∧ dialect.leadingZero then
      let digits := (rest.take 3).takeWhile isOctal
      (.text [byteOf 8 digits], digits.length + 1)
    else if isOctal c then
      let digits := (cs.take 3).takeWhile isOctal
      (.text [byteOf 8 digits], digits.length)
    else
      match simple? c with
      | some d => (.text [d], 1)
      | none => (.text ['\\', c], 1)

/-- A text with its escapes replaced; `false` if one of them ends the output. -/
def unescape (dialect : Dialect) : List Char → List Char × Bool
  | [] => ([], true)
  | c :: rest =>
    if c = '\\' then
      let (part, n) := escape dialect rest
      match part with
      | .stop => ([], false)
      | .text text =>
        let (more, goesOn) := unescape dialect (rest.drop n)
        (text ++ more, goesOn)
    else
      let (more, goesOn) := unescape dialect rest
      (c :: more, goesOn)
termination_by cs => cs.length
decreasing_by all_goals simp only [List.length_drop, List.length_cons]; omega

/-- A place for an argument, padded to a width. -/
structure Slot where
  left : Bool
  zeros : Bool
  width : Nat
  precision : Option Nat
  conversion : Char
  deriving DecidableEq, Repr

inductive Directive
  | char (char : Char)
  | slot (slot : Slot)
  | stop
  /-- A format that ends within a slot. -/
  | incomplete
  deriving DecidableEq, Repr

/-- The slot behind a percent sign and how many characters it takes. -/
def slot? (cs : List Char) : Option (Slot × Nat) :=
  let flags := cs.takeWhile fun c => c == '-' || c == '0'
  let afterFlags := cs.drop flags.length
  let width := afterFlags.takeWhile Char.isDigit
  let afterWidth := afterFlags.drop width.length
  let (precision, taken) := match afterWidth with
    | '.' :: rest =>
      let ds := rest.takeWhile Char.isDigit
      (some (number ds), ds.length + 1)
    | _ => (none, 0)
  match afterWidth.drop taken with
  | [] => none
  | c :: _ =>
    some (⟨flags.contains '-', flags.contains '0', number width, precision, c⟩,
      flags.length + width.length + taken + 1)

def directives (dialect : Dialect) : List Char → List Directive
  | [] => []
  | c :: rest =>
    if c = '\\' then
      let (part, n) := escape dialect rest
      match part with
      | .stop => [.stop]
      | .text text => text.map .char ++ directives dialect (rest.drop n)
    else if c = '%' then
      match rest with
      | '%' :: rest => .char '%' :: directives dialect rest
      | rest =>
        match slot? rest with
        | some (slot, n) => .slot slot :: directives dialect (rest.drop n)
        | none => [.incomplete]
    else .char c :: directives dialect rest
termination_by cs => cs.length
decreasing_by all_goals simp_all only [List.length_drop, List.length_cons]; omega

def pad (slot : Slot) (text : List Char) : List Char :=
  let missing := slot.width - text.length
  if slot.left then text ++ List.replicate missing ' ' else List.replicate missing ' ' ++ text

def padNumber (slot : Slot) (negative : Bool) (ds : List Char) : List Char :=
  let sign := if negative then ['-'] else []
  let ds := List.replicate (slot.precision.getD 1 - ds.length) '0' ++ ds
  if slot.zeros && !slot.left && slot.precision.isNone then
    sign ++ List.replicate (slot.width - ds.length - sign.length) '0' ++ ds
  else pad slot (sign ++ ds)

/-- A number with an optional sign: decimal, or octal or hexadecimal by what it starts with. -/
def integer? (text : List Char) : Option Int :=
  let (negative, text) := match text with
    | '-' :: rest => (true, rest)
    | '+' :: rest => (false, rest)
    | cs => (false, cs)
  let magnitude := match text with
    | '0' :: 'x' :: ds =>
      if !ds.isEmpty && ds.all isHexadecimal then
        some (ds.foldl (fun n d => n * 16 + digitValue d) 0) else none
    | '0' :: ds =>
      if ds.all isOctal then some (ds.foldl (fun n d => n * 8 + digitValue d) 0) else none
    | ds => if isDigits ds then some (number ds) else none
  magnitude.map fun n => if negative then -(n : Int) else n

inductive Complaint
  | notNumeric (text : List Char)
  | invalidDirective (conversion : Char)
  | missingDirective
  deriving DecidableEq, Repr

/-- Output so far, and what was wrong. -/
structure Filling where
  output : List Char
  complaints : List Complaint
  goesOn : Bool
  deriving DecidableEq, Repr

def inBase (conversion : Char) (n : Nat) : List Char :=
  if conversion = 'o' then Nat.toDigits 8 n
  else if conversion = 'x' then Nat.toDigits 16 n
  else if conversion = 'X' then (Nat.toDigits 16 n).map Char.toUpper
  else Nat.toDigits 10 n

/-- Numbers are kept in 64 bits where no sign is shown. -/
def fillNumber (slot : Slot) (text : List Char) : Filling :=
  let value := if text.isEmpty then some 0 else integer? text
  let n := value.getD 0
  let complaints := if value.isNone then [.notNumeric text] else []
  let output :=
    if slot.conversion = 'd' ∨ slot.conversion = 'i' then
      padNumber slot (n < 0) (Nat.toDigits 10 n.natAbs)
    else padNumber slot false (inBase slot.conversion (n % Int.pow 2 64).toNat)
  ⟨output, complaints, true⟩

def fillSlot (dialect : Dialect) (slot : Slot) (text : List Char) : Filling :=
  let c := slot.conversion
  let cut := fun (t : List Char) => match slot.precision with
    | some n => t.take n
    | none => t
  if c = 's' then ⟨pad slot (cut text), [], true⟩
  else if c = 'b' then
    let (t, goesOn) := unescape { dialect with stops := true, leadingZero := true } text
    ⟨pad slot (cut t), [], goesOn⟩
  else if c = 'c' then ⟨pad slot (text.take 1), [], true⟩
  else if ['d', 'i', 'u', 'o', 'x', 'X'].contains c then fillNumber slot text
  else ⟨[], [.invalidDirective c], false⟩

/-- Goes through a format once; a slot without an argument is filled with nothing. -/
def fillOnce (dialect : Dialect) : List Directive → List (List Char) →
    Filling × List (List Char)
  | [], arguments => (⟨[], [], true⟩, arguments)
  | .char c :: rest, arguments =>
    let (filling, arguments) := fillOnce dialect rest arguments
    ({ filling with output := c :: filling.output }, arguments)
  | .stop :: _, arguments => (⟨[], [], false⟩, arguments)
  | .incomplete :: _, arguments => (⟨[], [.missingDirective], false⟩, arguments)
  | .slot slot :: rest, arguments =>
    let first := fillSlot dialect slot (arguments.head?.getD [])
    if first.goesOn then
      let (filling, arguments) := fillOnce dialect rest arguments.tail
      ({ filling with
          output := first.output ++ filling.output
          complaints := first.complaints ++ filling.complaints }, arguments)
    else (first, arguments.tail)

/-- Goes through a format until the arguments are used up, at most `rounds` times. -/
def fill (dialect : Dialect) (format : List Directive) : Nat → List (List Char) → Filling
  | 0, _ => ⟨[], [], true⟩
  | rounds + 1, arguments =>
    let (first, rest) := fillOnce dialect format arguments
    if !first.goesOn || rest.isEmpty || rest.length = arguments.length then first
    else
      let more := fill dialect format rounds rest
      { more with
        output := first.output ++ more.output
        complaints := first.complaints ++ more.complaints }

def print (dialect : Dialect) (format : List Char) (arguments : List (List Char)) : Filling :=
  fill dialect (directives dialect format) (arguments.length + 1) arguments

end WorkloadIdentity.Shell.Format
