/-! UTF-8 written from characters and read back leniently.  The reader goes byte by byte
and holds at most one unfinished character; a byte that cannot continue it, or the end of
the text, turns what was held into one U+FFFD. -/

namespace CompositorClient.Utf8

def encodeChars (cs : List Char) : List UInt8 :=
  cs.flatMap String.utf8EncodeChar

@[simp] theorem encodeChars_nil : encodeChars [] = [] := rfl
@[simp] theorem encodeChars_cons (c : Char) (cs : List Char) :
    encodeChars (c :: cs) = String.utf8EncodeChar c ++ encodeChars cs := by
  simp [encodeChars]
@[simp] theorem encodeChars_append (cs ds : List Char) :
    encodeChars (cs ++ ds) = encodeChars cs ++ encodeChars ds := by
  simp [encodeChars]

def encode (s : String) : List UInt8 :=
  encodeChars s.toList

def replacement : Char := '\uFFFD'

/-- A character of which the first bytes are known: the range its next byte must lie in,
how many more bytes follow that one, and the bits read so far. -/
structure Partial where
  low : Nat
  high : Nat
  more : Nat
  code : Nat
  deriving DecidableEq

def Partial.accepts (p : Partial) (b : UInt8) : Bool :=
  p.low ≤ b.toNat && b.toNat ≤ p.high

def Partial.push (p : Partial) (b : UInt8) : Nat :=
  p.code * 64 + (b.toNat - 0x80)

/-- What a byte yields where a character may begin.  The narrower ranges rule out overlong
forms, surrogates and numbers past U+10FFFF. -/
def start (b : UInt8) : List Char × Option Partial :=
  let n := b.toNat
  if n < 0x80 then ([Char.ofNat n], none)
  else if n < 0xC2 then ([replacement], none)
  else if n < 0xE0 then ([], some ⟨0x80, 0xBF, 0, n - 0xC0⟩)
  else if n < 0xF0 then
    ([], some ⟨if n = 0xE0 then 0xA0 else 0x80, if n = 0xED then 0x9F else 0xBF, 1, n - 0xE0⟩)
  else if n < 0xF5 then
    ([], some ⟨if n = 0xF0 then 0x90 else 0x80, if n = 0xF4 then 0x8F else 0xBF, 2, n - 0xF0⟩)
  else ([replacement], none)

def step : Option Partial → UInt8 → List Char × Option Partial
  | none, b => start b
  | some p, b =>
    if p.accepts b then
      match p.more with
      | 0 => ([Char.ofNat (p.push b)], none)
      | n + 1 => ([], some ⟨0x80, 0xBF, n, p.push b⟩)
    else (replacement :: (start b).1, (start b).2)

def decodeFrom : Option Partial → List UInt8 → List Char
  | none, [] => []
  | some _, [] => [replacement]
  | q, b :: bs => (step q b).1 ++ decodeFrom (step q b).2 bs

@[simp] theorem decodeFrom_none_nil : decodeFrom none [] = [] := rfl
@[simp] theorem decodeFrom_some_nil (p : Partial) : decodeFrom (some p) [] = [replacement] := rfl
@[simp] theorem decodeFrom_cons (q : Option Partial) (b : UInt8) (bs : List UInt8) :
    decodeFrom q (b :: bs) = (step q b).1 ++ decodeFrom (step q b).2 bs := by
  cases q <;> rfl

def decodeChars (bs : List UInt8) : List Char :=
  decodeFrom none bs

/-- Never fails: each maximal part of `bs` that begins no character becomes one U+FFFD. -/
def decode (bs : List UInt8) : String :=
  String.ofList (decodeChars bs)

end CompositorClient.Utf8
