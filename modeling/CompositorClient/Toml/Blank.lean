/-! Blanks and comments of a TOML document, and the characters it is made of. -/

namespace CompositorClient.Toml

def isBlank (c : Char) : Bool := c == ' ' || c == '\t'

/-- The characters that may stand in a comment: all but the control characters, of which the
tab alone may. -/
def isPlain (c : Char) : Bool := c == '\t' || 0x20 ≤ c.toNat && c.toNat != 0x7F

def skipBlanks (cs : List Char) : List Char := cs.dropWhile isBlank

/-- A line ends with a line feed, before which a carriage return may stand. -/
def newline? : List Char → Option (List Char)
  | '\n' :: cs => some cs
  | '\r' :: '\n' :: cs => some cs
  | _ => none

theorem length_newline?_lt {cs rest : List Char} (h : newline? cs = some rest) :
    rest.length < cs.length := by
  unfold newline? at h
  split at h
  · cases h
    simp
  · cases h
    simp only [List.length_cons]
    omega
  · cases h

/-- What may stand behind an entry: blanks, a comment, and the end of the line or text. -/
def endLine? (cs : List Char) : Option (List Char) :=
  let cs := skipBlanks cs
  let cs := match cs with
    | '#' :: rest => rest.dropWhile isPlain
    | _ => cs
  if cs.isEmpty then some [] else newline? cs

/-- Skips blanks, line ends and comments, which may stand between the elements of an array. -/
def skipLines : (inComment : Bool) → List Char → List Char
  | _, [] => []
  | _, '\n' :: cs => skipLines false cs
  | _, '\r' :: '\n' :: cs => skipLines false cs
  | true, c :: cs => if isPlain c then skipLines true cs else c :: cs
  | false, '#' :: cs => skipLines true cs
  | false, c :: cs => if isBlank c then skipLines false cs else c :: cs

/-- Skips blanks and line ends. -/
def skipEmptyLines : List Char → List Char
  | [] => []
  | '\n' :: cs => skipEmptyLines cs
  | '\r' :: '\n' :: cs => skipEmptyLines cs
  | c :: cs => if isBlank c then skipEmptyLines cs else c :: cs

theorem length_skipEmptyLines_le (cs : List Char) : (skipEmptyLines cs).length ≤ cs.length := by
  fun_induction skipEmptyLines cs with
  | case1 => exact Nat.le_refl _
  | case2 cs ih => exact Nat.le_succ_of_le ih
  | case3 cs ih =>
    simp only [List.length_cons]
    omega
  | case4 c cs _ _ _ ih => exact Nat.le_succ_of_le ih
  | case5 => exact Nat.le_refl _

end CompositorClient.Toml
