/-
  ScriptDebugger/Toml/Table.lean
  ==============================
  **Tables of a TOML document, and what may be added to them.**

  A table remembers how it came about, because that decides whether a later line
  may reopen it: a header may define a table that was only implied by longer
  headers, a dotted key may extend tables made by dotted keys and makes those its
  own that were only implied, and nothing may extend an inline table.
-/
import ScriptDebugger.OrderedMap

namespace ScriptDebugger.Toml

/-- How a table came about. -/
inductive Origin
  /-- Named on the way by the header of another table. -/
  | implied
  /-- Defined by its own header; the whole document is such a table, too. -/
  | header
  /-- Named on the way by a dotted key, for the first time or after a header that
      only implied it. -/
  | dotted
  | inline
  deriving DecidableEq, Repr

mutual

/-- A value of a TOML document.  Of floating point numbers and dates only the
    kind is kept. -/
inductive Item
  | string (s : String)
  | integer (i : Int)
  | float
  /-- What is written like a number but has no value: it lies out of range, or it
      does not consist of digits. -/
  | unreadable
  | bool (b : Bool)
  | dateTime
  | array (items : List Item)
  | table (t : Table)
  /-- An array of tables, each defined by a header of its own. -/
  | tables (latest : Table) (earlier : List Table)

/-- The members of a table, in order. -/
inductive Table
  | mk (origin : Origin) (members : List (String × Item))

end

namespace Table

/-- How the table came about. -/
def origin : Table → Origin
  | .mk origin _ => origin

/-- The members of the table, in order. -/
def members : Table → List (String × Item)
  | .mk _ members => members

/-- The table without members. -/
def empty (origin : Origin) : Table := .mk origin []

/-- The member with the given key. -/
def get? (t : Table) (key : String) : Option Item := OrderedMap.lookup key t.members

/-- The table with a member written. -/
def put (t : Table) (key : String) (item : Item) : Table :=
  .mk t.origin (OrderedMap.put key item t.members)

/-- The table that a part of a key leads to.  A missing one comes about on the
    way, an implied one on the way of a dotted key counts as made by it, and of an
    array of tables the latest is meant. -/
def child? (byDottedKey : Bool) (t : Table) (key : String) : Option Table :=
  match t.get? key with
  | none => some (.empty (if byDottedKey then .dotted else .implied))
  | some (.table c) =>
    match c.origin, byDottedKey with
    | .inline, _ => none
    | .header, true => none
    | .implied, true => some (.mk .dotted c.members)
    | _, _ => some c
  | some (.tables latest _) => some latest
  | some _ => none

/-- Writes a table back to where `child?` found it. -/
def putChild (t : Table) (key : String) (c : Table) : Table :=
  match t.get? key with
  | some (.tables _ earlier) => t.put key (.tables c earlier)
  | _ => t.put key (.table c)

/-- Assigns a value to a key, given by its parts; `atTop` says that no part was
    followed yet.  A plain key adds to a table that is not made by dotted keys, a
    dotted key to one that is, and no key is assigned twice. -/
def assign (item : Item) : (atTop : Bool) → List String → Table → Option Table
  | _, [], _ => none
  | atTop, [key], t =>
    if (t.origin == .dotted) == atTop then none
    else if (t.get? key).isSome then none
    else some (t.put key item)
  | _, key :: next :: rest, t => do
    let c ← t.child? true key
    let c ← assign item false (next :: rest) c
    some (t.putChild key c)

/-- Changes the table at the end of a path of headers. -/
def within (change : Table → Option Table) : List String → Table → Option Table
  | [], t => change t
  | key :: rest, t => do
    let c ← t.child? false key
    let c ← within change rest c
    some (t.putChild key c)

/-- Defines a table by its header: it must be new or only implied so far. -/
def define (key : String) (t : Table) : Option Table :=
  match t.get? key with
  | none => some (t.put key (.table (.empty .header)))
  | some (.table c) =>
    if c.origin = .implied then some (t.put key (.table (.mk .header c.members))) else none
  | some _ => none

/-- Adds a table to an array of tables, which must be new or an array of tables. -/
def defineNext (key : String) (t : Table) : Option Table :=
  match t.get? key with
  | none => some (t.put key (.tables (.empty .header) []))
  | some (.tables latest earlier) =>
    some (t.put key (.tables (.empty .header) (latest :: earlier)))
  | some _ => none

end Table

/-- A document in progress: all tables, and the path of the header in force. -/
structure Document where
  root : Table
  current : List String

namespace Document

/-- The document without lines. -/
def empty : Document := ⟨.empty .header, []⟩

/-- Adds the line of a table header, or of an array of tables. -/
def openTable (d : Document) (isArray : Bool) (path : List String) : Option Document := do
  let key ← path.getLast?
  let change := if isArray then Table.defineNext key else Table.define key
  let root ← d.root.within change path.dropLast
  some ⟨root, path⟩

/-- Adds an assignment below the header in force. -/
def assign (d : Document) (key : List String) (item : Item) : Option Document := do
  let root ← d.root.within (Table.assign item true key) d.current
  some { d with root := root }

end Document

end ScriptDebugger.Toml
