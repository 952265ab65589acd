import CompositorClient.Text.Utf8

/-! Text in a field of fixed capacity: as many whole characters as fit, then NUL bytes.
A reader takes what stands before the first NUL. -/

namespace CompositorClient.Padded

open Utf8

/-- The longest prefix whose encoding takes at most `room` bytes. -/
def fit : Nat → List Char → List Char
  | _, [] => []
  | room, c :: cs => if c.utf8Size ≤ room then c :: fit (room - c.utf8Size) cs else []

@[simp] theorem fit_nil (room : Nat) : fit room [] = [] := by cases room <;> rfl

theorem fit_isPrefix (room : Nat) (cs : List Char) : fit room cs <+: cs := by
  induction cs generalizing room with
  | nil => simp
  | cons c cs ih =>
    rw [fit]
    split
    · exact List.cons_prefix_cons.mpr ⟨rfl, ih _⟩
    · exact List.nil_prefix

theorem length_encodeChars_fit_le (room : Nat) (cs : List Char) :
    (encodeChars (fit room cs)).length ≤ room := by
  induction cs generalizing room with
  | nil => simp
  | cons c cs ih =>
    rw [fit]
    split
    · have := ih (room - c.utf8Size)
      simp only [encodeChars_cons, List.length_append, String.length_utf8EncodeChar]
      omega
    · simp

def encode (capacity : Nat) (s : String) : List UInt8 :=
  let bytes := encodeChars (fit capacity s.toList)
  bytes ++ List.replicate (capacity - bytes.length) 0

@[simp] theorem length_encode (capacity : Nat) (s : String) :
    (encode capacity s).length = capacity := by
  have := length_encodeChars_fit_le capacity s.toList
  simp only [encode, List.length_append, List.length_replicate]
  omega

/-- The bytes before the first NUL, or all of them. -/
def beforeNul (bs : List UInt8) : List UInt8 :=
  bs.takeWhile (· ≠ 0)

def decode (bs : List UInt8) : String :=
  Utf8.decode (beforeNul bs)

/-- The characters before the first NUL, or all of them. -/
def charsBeforeNul (cs : List Char) : List Char :=
  cs.takeWhile (· ≠ '\x00')

/-- What is left of `s` once it has been stored in a field and read back. -/
def stored (capacity : Nat) (s : String) : String :=
  String.ofList (charsBeforeNul (fit capacity s.toList))

/-- What is left of `s` once it has been written with a NUL after it and read back. -/
def terminated (s : String) : String :=
  String.ofList (charsBeforeNul s.toList)

end CompositorClient.Padded
