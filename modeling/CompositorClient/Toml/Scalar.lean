import CompositorClient.Toml.Blank

/-! Numbers, truth values and dates of a TOML document.  A scalar is the longest run of the
characters that any of them may hold, so it is looked at as a whole. -/

namespace CompositorClient.Toml

inductive Scalar
  | boolean | integer | float | dateTime
  deriving DecidableEq

def isDigit (c : Char) : Bool := '0' ≤ c && c ≤ '9'
def isOctal (c : Char) : Bool := '0' ≤ c && c ≤ '7'
def isBinary (c : Char) : Bool := c == '0' || c == '1'
def isHex (c : Char) : Bool := isDigit c || 'a' ≤ c && c ≤ 'f' || 'A' ≤ c && c ≤ 'F'

/-- Digits, one at least, with single underscores between them. -/
def isGrouped (isDigit : Char → Bool) : List Char → Bool
  | [] => false
  | [c] => isDigit c
  | c :: '_' :: cs => isDigit c && isGrouped isDigit cs
  | c :: cs => isDigit c && isGrouped isDigit cs

def digitValue (c : Char) : Nat :=
  if isDigit c then c.toNat - '0'.toNat
  else if 'a' ≤ c then c.toNat - 'a'.toNat + 10
  else c.toNat - 'A'.toNat + 10

/-- The number that digits spell, underscores left out. -/
def valueIn (base : Nat) (cs : List Char) : Nat :=
  (cs.filter (· != '_')).foldl (fun n c => base * n + digitValue c) 0

/-- The whole part of a decimal number: no zero in front of other digits. -/
def isWhole (cs : List Char) : Bool :=
  isGrouped isDigit cs && (cs.length == 1 || cs.head? != some '0')

/-- The sign, true for minus, and what follows it. -/
def splitSign : List Char → Bool × List Char
  | '-' :: cs => (true, cs)
  | '+' :: cs => (false, cs)
  | cs => (false, cs)

def maxInteger : Nat := 0x7fffffffffffffff

/-- Integers have 64 bits; those with a base in front have no sign. -/
def isInteger : List Char → Bool
  | '0' :: 'x' :: cs => isGrouped isHex cs && valueIn 16 cs ≤ maxInteger
  | '0' :: 'o' :: cs => isGrouped isOctal cs && valueIn 8 cs ≤ maxInteger
  | '0' :: 'b' :: cs => isGrouped isBinary cs && valueIn 2 cs ≤ maxInteger
  | cs =>
    let (negative, digits) := splitSign cs
    isWhole digits && valueIn 10 digits ≤ maxInteger + if negative then 1 else 0

/-- The least number that is nearer to `2 ^ 1024` than to any smaller double, or as near: 54
bits that are set, and 970 that are not. -/
def floatLimit : Nat := 0x3fffffffffffff <<< 970

def tenTo (n : Nat) : Nat := Nat.pow 10 n

/-- Whether `n * 10 ^ e` is past the doubles.  The number of digits mostly decides. -/
def isHuge (n : Nat) (e : Int) : Bool :=
  let places := (Nat.toDigits 10 n).length + e
  if n = 0 then false
  else if 310 < places then true
  else if places < 300 then false
  else floatLimit * tenTo (-e).toNat ≤ n * tenTo e.toNat

/-- An exponent behind its letter. -/
def exponent? (cs : List Char) : Option Int :=
  let (negative, digits) := splitSign cs
  if isGrouped isDigit digits then
    some (if negative then -(valueIn 10 digits : Int) else valueIn 10 digits)
  else none

/-- What follows the whole part: a fraction, an exponent, or one after the other. -/
def fraction? : List Char → Option (List Char × Int)
  | '.' :: cs =>
    let (digits, rest) := cs.span fun c => isDigit c || c == '_'
    if isGrouped isDigit digits then
      match rest with
      | [] => some (digits, 0)
      | e :: rest => if e == 'e' || e == 'E' then (exponent? rest).map (digits, ·) else none
    else none
  | e :: rest => if e == 'e' || e == 'E' then (exponent? rest).map ([], ·) else none
  | [] => none

/-- A float past the largest double is refused, unless it is negative. -/
def isFloat (cs : List Char) : Bool :=
  let (negative, cs) := splitSign cs
  if cs == ['i', 'n', 'f'] || cs == ['n', 'a', 'n'] then true
  else
    let (whole, rest) := cs.span fun c => isDigit c || c == '_'
    match fraction? rest with
    | none => false
    | some (digits, e) =>
      let places := (digits.filter (· != '_')).length
      isWhole whole && (negative || !isHuge (valueIn 10 (whole ++ digits)) (e - places))

/-- Takes a number of exactly `n` digits. -/
def number? (n : Nat) (cs : List Char) : Option (Nat × List Char) :=
  if n ≤ cs.length && (cs.take n).all isDigit then some (valueIn 10 (cs.take n), cs.drop n)
  else none

/-- Takes two digits that spell a number in a range. -/
def twoDigits? (low high : Nat) (cs : List Char) : Option (Nat × List Char) := do
  let (n, rest) ← number? 2 cs
  if low ≤ n ∧ n ≤ high then some (n, rest) else none

def expect? (c : Char) : List Char → Option (List Char)
  | d :: cs => if d = c then some cs else none
  | [] => none

def daysIn (year month : Nat) : Nat :=
  if month = 2 then
    if year % 4 = 0 ∧ (year % 100 ≠ 0 ∨ year % 400 = 0) then 29 else 28
  else if month = 4 ∨ month = 6 ∨ month = 9 ∨ month = 11 then 30
  else 31

def date? (cs : List Char) : Option (List Char) := do
  let (year, cs) ← number? 4 cs
  let (month, cs) ← twoDigits? 1 12 (← expect? '-' cs)
  let (_, cs) ← twoDigits? 1 (daysIn year month) (← expect? '-' cs)
  return cs

/-- A time of day; the sixtieth second is for leap seconds. -/
def clock? (cs : List Char) : Option (List Char) := do
  let (_, cs) ← twoDigits? 0 23 cs
  let (_, cs) ← twoDigits? 0 59 (← expect? ':' cs)
  let (_, cs) ← twoDigits? 0 60 (← expect? ':' cs)
  match cs with
  | '.' :: d :: rest => if isDigit d then some (rest.dropWhile isDigit) else none
  | _ => return cs

def isOffset : List Char → Bool
  | ['Z'] => true
  | ['z'] => true
  | '+' :: cs => isShift cs
  | '-' :: cs => isShift cs
  | _ => false
where
  isShift (cs : List Char) : Bool :=
    match twoDigits? 0 23 cs with
    | some (_, ':' :: cs) => (twoDigits? 0 59 cs).map (·.2) == some []
    | _ => false

/-- A time of day, with an offset or without. -/
def isTime (cs : List Char) : Bool :=
  match clock? cs with
  | none => false
  | some rest => rest.isEmpty || isOffset rest

def isDateTime (cs : List Char) : Bool :=
  match date? cs with
  | none => clock? cs == some []
  | some [] => true
  | some (c :: rest) => (c == 'T' || c == 't') && isTime rest

/-- The characters of scalars. -/
def isScalarChar (c : Char) : Bool :=
  isDigit c || 'a' ≤ c && c ≤ 'z' || 'A' ≤ c && c ≤ 'Z'
    || c == '+' || c == '-' || c == '_' || c == '.' || c == ':'

def Scalar.ofRun? (cs : List Char) : Option Scalar :=
  if cs == "true".toList || cs == "false".toList then some .boolean
  else if isInteger cs then some .integer
  else if isFloat cs then some .float
  else if isDateTime cs then some .dateTime
  else none

/-- Reads a scalar.  A date may have its time behind a space. -/
def scalar? (cs : List Char) : Option (Scalar × List Char) := do
  let (run, rest) := cs.span isScalarChar
  let s ← Scalar.ofRun? run
  match rest with
  | ' ' :: d :: more =>
    if date? run == some [] && isDigit d then
      let (time, rest) := (d :: more).span isScalarChar
      if isTime time then some (.dateTime, rest) else none
    else some (s, rest)
  | _ => some (s, rest)

end CompositorClient.Toml
