/-
  ScriptDebugger/Toml/Readable.lean
  =================================
  **Values that can be read to the end.**

  What is written like a number has its place in a document even when it has no
  value.  It counts as a fault once someone reads the value it stands in, and it
  spoils every value around it.
-/
import ScriptDebugger.Toml.Table

namespace ScriptDebugger.Toml

mutual

/-- Whether a value has no unreadable part. -/
def Item.isReadable : Item → Bool
  | .string _ | .integer _ | .float | .bool _ | .dateTime => true
  | .unreadable => false
  | .array items => areReadable items
  | .table t => t.isReadable
  | .tables latest earlier => latest.isReadable && tablesAreReadable earlier

/-- Whether a table has no unreadable part. -/
def Table.isReadable : Table → Bool
  | .mk _ members => membersAreReadable members

/-- Whether no value of a list has an unreadable part. -/
def areReadable : List Item → Bool
  | [] => true
  | item :: rest => item.isReadable && areReadable rest

/-- Whether no table of a list has an unreadable part. -/
def tablesAreReadable : List Table → Bool
  | [] => true
  | t :: rest => t.isReadable && tablesAreReadable rest

/-- Whether no member of a list has an unreadable part. -/
def membersAreReadable : List (String × Item) → Bool
  | [] => true
  | (_, item) :: rest => item.isReadable && membersAreReadable rest

end

end ScriptDebugger.Toml
