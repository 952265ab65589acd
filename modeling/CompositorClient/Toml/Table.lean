/-! Tables of a TOML document, and the rules by which keys and headers may add to them.  A
table is written once: by its header, by dotted keys, or between braces. -/

namespace CompositorClient.Toml

/-- The kinds of value.  Strings alone keep what they hold. -/
inductive Value
  | string (text : String)
  | scalar | array | table
  deriving DecidableEq

/-- How a table has come about: by a header of its own, by the header of a table inside it,
or by dotted keys. -/
inductive Origin
  | header | implied | dotted
  deriving DecidableEq

inductive Entry
  | value (value : Value)
  | table (origin : Origin) (entries : List (String × Entry))
  | tables (done : List (List (String × Entry))) (last : List (String × Entry))

abbrev Entries := List (String × Entry)

namespace Entries

def get? (es : Entries) (key : String) : Option Entry := es.lookup key

/-- Puts an entry at the end, or in the place of the one with its key. -/
def put (key : String) (e : Entry) : Entries → Entries
  | [] => [(key, e)]
  | (k, old) :: es => if k = key then (k, e) :: es else (k, old) :: put key e es

/-- Changes the table at a path, making the tables on the way that are missing.  The path may
go through an array of tables, by its last element, but through no value; and if it is a
dotted key, through no table that has a header. -/
def update (dotted : Bool) (change : Origin → Entries → Option Entries) :
    List String → Origin → Entries → Option Entries
  | [], origin, es => change origin es
  | key :: path, _, es =>
    match es.get? key with
    | none => do
      let origin := if dotted then Origin.dotted else .implied
      let inner ← update dotted change path origin []
      return es.put key (.table origin inner)
    | some (.value _) => none
    | some (.tables done last) => do
      return es.put key (.tables done (← update dotted change path .header last))
    | some (.table origin inner) =>
      if dotted && origin == .header then none
      else do return es.put key (.table origin (← update dotted change path origin inner))

/-- Gives a key without dots its value, in a table that dotted keys may add to if and only if
`viaDots`. -/
def define (viaDots : Bool) (key : String) (v : Value) (origin : Origin) (es : Entries) :
    Option Entries :=
  if (origin == .dotted) != viaDots then none
  else
    match es.get? key with
    | some _ => none
    | none => some (es.put key (.value v))

/-- Gives a key its value in the table that the key is written in. -/
def insert (path : List String) (key : String) (v : Value) (origin : Origin) (es : Entries) :
    Option Entries :=
  update true (define (!path.isEmpty) key v) path origin es

/-- Opens a table by its header; it may be there already if headers inside it made it. -/
def openTable (key : String) (es : Entries) : Option Entries :=
  match es.get? key with
  | none => some (es.put key (.table .header []))
  | some (.table .implied inner) => some (es.put key (.table .header inner))
  | _ => none

/-- Adds an element to an array of tables. -/
def openElement (key : String) (es : Entries) : Option Entries :=
  match es.get? key with
  | none => some (es.put key (.tables [] []))
  | some (.tables done last) => some (es.put key (.tables (done ++ [last]) []))
  | _ => none

/-- Opens the table, or the element of an array of tables, that a header names. -/
def openAt (element : Bool) (path : List String) (key : String) (root : Entries) :
    Option Entries :=
  update false (fun _ es => if element then openElement key es else openTable key es) path .header
    root

end Entries
end CompositorClient.Toml
