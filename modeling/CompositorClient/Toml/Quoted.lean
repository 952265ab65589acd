import CompositorClient.Toml.Blank

/-! Strings of a TOML document.  Between double quotes a backslash escapes, between single
quotes it does not; between three quotes of either sort the string may span lines, and up to
two quotes may stand before the closing three. -/

namespace CompositorClient.Toml

def hexDigit? (c : Char) : Option Nat :=
  if '0' ≤ c ∧ c ≤ '9' then some (c.toNat - '0'.toNat)
  else if 'a' ≤ c ∧ c ≤ 'f' then some (c.toNat - 'a'.toNat + 10)
  else if 'A' ≤ c ∧ c ≤ 'F' then some (c.toNat - 'A'.toNat + 10)
  else none

def hexNumber? (cs : List Char) : Option Nat :=
  cs.foldlM (fun n c => (hexDigit? c).map (16 * n + ·)) 0

/-- The character with the number that the first `n` characters spell. -/
def codePoint? (n : Nat) (cs : List Char) : Option (Char × List Char) :=
  if n ≤ cs.length then do
    let code ← hexNumber? (cs.take n)
    if code.isValidChar then some (Char.ofNat code, cs.drop n) else none
  else none

/-- Reads what stands behind a backslash. -/
def escape? : List Char → Option (Char × List Char)
  | 'b' :: cs => some ('\x08', cs)
  | 't' :: cs => some ('\t', cs)
  | 'n' :: cs => some ('\n', cs)
  | 'f' :: cs => some ('\x0c', cs)
  | 'r' :: cs => some ('\r', cs)
  | '"' :: cs => some ('"', cs)
  | '\\' :: cs => some ('\\', cs)
  | 'u' :: cs => codePoint? 4 cs
  | 'U' :: cs => codePoint? 8 cs
  | _ => none

theorem length_codePoint?_le {n : Nat} {cs rest : List Char} {c : Char}
    (h : codePoint? n cs = some (c, rest)) : rest.length ≤ cs.length := by
  unfold codePoint? at h
  split at h
  · simp only [Option.bind_eq_bind, Option.bind_eq_some_iff] at h
    obtain ⟨code, _, h⟩ := h
    split at h
    · cases h
      simp
    · cases h
  · cases h

theorem length_escape?_lt {cs rest : List Char} {c : Char} (h : escape? cs = some (c, rest)) :
    rest.length < cs.length := by
  unfold escape? at h
  split at h
  case h_8 => exact Nat.lt_succ_of_le (length_codePoint?_le h)
  case h_9 => exact Nat.lt_succ_of_le (length_codePoint?_le h)
  case h_10 => cases h
  all_goals
    cases h
    exact Nat.lt_succ_self _

abbrev Quoted := List Char × List Char

def push (c : Char) (q : Quoted) : Quoted := (c :: q.1, q.2)

/-- Reads up to the closing quote.  Gives the characters and what follows the quote. -/
def basic? (cs : List Char) : Option Quoted :=
  match cs with
  | [] => none
  | '"' :: cs => some ([], cs)
  | '\\' :: cs =>
    match h : escape? cs with
    | none => none
    | some (c, rest) =>
      have := length_escape?_lt h
      (basic? rest).map (push c)
  | c :: cs => if isPlain c then (basic? cs).map (push c) else none
termination_by cs.length
decreasing_by all_goals simp only [List.length_cons]; omega

/-- A backslash at the end of a line, before which blanks may stand, joins the line to the next
character that is no blank. -/
def joinLines? (cs : List Char) : Option (List Char) :=
  (newline? (skipBlanks cs)).map skipEmptyLines

theorem length_joinLines?_lt {cs rest : List Char} (h : joinLines? cs = some rest) :
    rest.length < cs.length := by
  obtain ⟨r, hr, rfl⟩ := Option.map_eq_some_iff.mp h
  have h1 := length_newline?_lt hr
  have h2 := length_skipEmptyLines_le r
  have h3 : (skipBlanks cs).length ≤ cs.length := (List.dropWhile_sublist _).length_le
  omega

def basicLines? (cs : List Char) : Option Quoted :=
  match cs with
  | '"' :: '"' :: '"' :: '"' :: '"' :: cs => some (['"', '"'], cs)
  | '"' :: '"' :: '"' :: '"' :: cs => some (['"'], cs)
  | '"' :: '"' :: '"' :: cs => some ([], cs)
  | '\r' :: '\n' :: cs => (basicLines? cs).map (push '\n')
  | '\\' :: cs =>
    match h : joinLines? cs with
    | some rest =>
      have := length_joinLines?_lt h
      basicLines? rest
    | none =>
      match h : escape? cs with
      | none => none
      | some (c, rest) =>
        have := length_escape?_lt h
        (basicLines? rest).map (push c)
  | c :: cs => if isPlain c || c == '\n' then (basicLines? cs).map (push c) else none
  | [] => none
termination_by cs.length
decreasing_by all_goals simp only [List.length_cons]; omega

def literal? : List Char → Option Quoted
  | [] => none
  | '\'' :: cs => some ([], cs)
  | c :: cs => if isPlain c then (literal? cs).map (push c) else none

def literalLines? : List Char → Option Quoted
  | '\'' :: '\'' :: '\'' :: '\'' :: '\'' :: cs => some (['\'', '\''], cs)
  | '\'' :: '\'' :: '\'' :: '\'' :: cs => some (['\''], cs)
  | '\'' :: '\'' :: '\'' :: cs => some ([], cs)
  | '\r' :: '\n' :: cs => (literalLines? cs).map (push '\n')
  | c :: cs => if isPlain c || c == '\n' then (literalLines? cs).map (push c) else none
  | [] => none

/-- A line end right behind the opening three quotes is not part of the string. -/
def skipFirstNewline (cs : List Char) : List Char := (newline? cs).getD cs

/-- Reads a string within one line, as a key may be written. -/
def quotedLine? : List Char → Option Quoted
  | '"' :: cs => basic? cs
  | '\'' :: cs => literal? cs
  | _ => none

def quoted? : List Char → Option Quoted
  | '"' :: '"' :: '"' :: cs => basicLines? (skipFirstNewline cs)
  | '\'' :: '\'' :: '\'' :: cs => literalLines? (skipFirstNewline cs)
  | cs => quotedLine? cs

end CompositorClient.Toml
