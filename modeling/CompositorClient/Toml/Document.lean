import CompositorClient.Toml.Quoted
import CompositorClient.Toml.Scalar
import CompositorClient.Toml.Table

/-! A TOML document, read into its entries.  Loops over the text carry its length as fuel,
which they cannot use up; values nest to a fixed depth. -/

namespace CompositorClient.Toml

/-- Arrays and inline tables nest less deep than this, and keys have fewer parts. -/
def depthLimit : Nat := 80

def isBareKeyChar (c : Char) : Bool :=
  isDigit c || 'a' ≤ c && c ≤ 'z' || 'A' ≤ c && c ≤ 'Z' || c == '_' || c == '-'

def keyPart? (cs : List Char) : Option (String × List Char) :=
  match cs.span isBareKeyChar with
  | ([], _) => (quotedLine? cs).map fun q => (String.ofList q.1, q.2)
  | (part, rest) => some (String.ofList part, rest)

def keyParts? : Nat → List Char → Option (List String × List Char)
  | 0, _ => none
  | fuel + 1, cs => do
    let (part, rest) ← keyPart? (skipBlanks cs)
    match skipBlanks rest with
    | '.' :: rest => do
      let (parts, rest) ← keyParts? fuel rest
      return (part :: parts, rest)
    | rest => return ([part], rest)

/-- A key: the path of the table it lies in, and its last part. -/
structure Key where
  path : List String
  name : String

def key? (cs : List Char) : Option (Key × List Char) := do
  let (parts, rest) ← keyParts? (cs.length + 1) cs
  let name ← parts.getLast?
  if parts.length < depthLimit then some (⟨parts.dropLast, name⟩, rest) else none

/-- Reads the elements of an array up to its closing bracket; a comma may stand before it. -/
def elements? (value? : List Char → Option (Value × List Char)) :
    Nat → List Char → Option (List Char)
  | 0, _ => none
  | fuel + 1, cs =>
    match skipLines false cs with
    | ']' :: rest => some rest
    | cs => do
      let (_, rest) ← value? cs
      match skipLines false rest with
      | ',' :: rest => elements? value? fuel rest
      | ']' :: rest => some rest
      | _ => none

/-- Reads the pairs of an inline table, of which there is one at least, up to its closing
brace. -/
def pairs? (value? : List Char → Option (Value × List Char)) :
    Nat → Entries → List Char → Option (List Char)
  | 0, _, _ => none
  | fuel + 1, es, cs => do
    let (key, rest) ← key? cs
    let (v, rest) ← value? (skipBlanks (← expect? '=' rest))
    let es ← es.insert key.path key.name v .header
    match skipBlanks rest with
    | ',' :: rest => pairs? value? fuel es rest
    | '}' :: rest => some rest
    | _ => none

/-- Reads a value in which arrays and inline tables nest `depth` deep at most. -/
def value? : Nat → List Char → Option (Value × List Char)
  | 0, cs => plain cs
  | depth + 1, cs =>
    match cs with
    | '[' :: rest =>
      (elements? (fun cs => value? depth cs) (rest.length + 1) rest).map (Value.array, ·)
    | '{' :: rest =>
      match skipBlanks rest with
      | '}' :: rest => some (.table, rest)
      | _ =>
        (pairs? (fun cs => value? depth cs) (rest.length + 1) [] rest).map (Value.table, ·)
    | cs => plain cs
where
  plain (cs : List Char) : Option (Value × List Char) :=
    match quoted? cs with
    | some q => some (.string (String.ofList q.1), q.2)
    | none => (scalar? cs).map fun s => (.scalar, s.2)

/-- The entries so far, and the path of the table that the last header has opened. -/
structure Draft where
  root : Entries := []
  here : List String := []

def Draft.define? (d : Draft) (key : Key) (v : Value) : Option Draft := do
  let root ← d.root.update false (fun origin es => es.insert key.path key.name v origin) d.here
    .header
  return { d with root }

def Draft.open? (d : Draft) (element : Bool) (key : Key) : Option Draft := do
  return ⟨← d.root.openAt element key.path key.name, key.path ++ [key.name]⟩

/-- Reads one line, or an entry that spans several. -/
def line? (d : Draft) (cs : List Char) : Option (Draft × List Char) :=
  match cs with
  | '[' :: '[' :: rest => do
    let (key, rest) ← key? rest
    let rest ← expect? ']' (← expect? ']' rest)
    return (← d.open? true key, ← endLine? rest)
  | '[' :: rest => do
    let (key, rest) ← key? rest
    let rest ← expect? ']' rest
    return (← d.open? false key, ← endLine? rest)
  | _ =>
    match endLine? cs with
    | some rest => some (d, rest)
    | none => do
      let (key, rest) ← key? cs
      let (v, rest) ← value? (depthLimit - 1) (skipBlanks (← expect? '=' rest))
      return (← d.define? key v, ← endLine? rest)

def lines? : Nat → Draft → List Char → Option Draft
  | 0, _, _ => none
  | fuel + 1, d, cs =>
    match skipBlanks cs with
    | [] => some d
    | cs => do
      let (d, rest) ← line? d cs
      lines? fuel d rest

def byteOrderMark : Char := '\uFEFF'

/-- None if the text is no TOML document. -/
def parse? (text : String) : Option Entries :=
  let cs := text.toList
  let cs := if cs.head? == some byteOrderMark then cs.drop 1 else cs
  (lines? (cs.length + 1) {} cs).map (·.root)

end CompositorClient.Toml
