import Fala.Durable.Assoc
import Fala.Toml.Parser

open Durable (Assoc.find Assoc.put Assoc.mapValues)

/-! The table rules of TOML 1.0, over any type of values that has records and lists. -/

namespace TomlRules

abbrev Path := List String

/-- A value as it is written: an inline table keeps its keys as they were dotted. -/
inductive Written (ν : Type) where
  | scalar (value : ν)
  | array (items : List (Written ν))
  | inline (entries : List (Path × Written ν))
  deriving Inhabited

/-- What a document is a sequence of. -/
inductive Definition (ν : Type) where
  | table (path : Path)
  | tables (path : Path)
  | entry (path : Path) (value : Written ν)
  deriving Inhabited

/-- How a table came to be: named on the way to another one, by a header, or by a dotted key. -/
inductive Origin where
  | implied
  | header
  | dotted
  deriving DecidableEq

/-- A value is closed. A table is open, and so is the last of an array of tables. -/
inductive Node (ν : Type) where
  | value (value : ν)
  | table (origin : Origin) (members : List (String × Node ν))
  | tables (earlier : List ν) (members : List (String × Node ν))

abbrev Members (ν : Type) := List (String × Node ν)

variable {ν : Type} (record : List (String × ν) → ν) (list : List ν → ν)

mutual

def close : Node ν → ν
  | .value value => value
  | .table _ members => record (closeMembers members)
  | .tables earlier members => list (earlier ++ [record (closeMembers members)])

def closeMembers : Members ν → List (String × ν)
  | [] => []
  | (key, node) :: rest => (key, close node) :: closeMembers rest

end

theorem closeMembers_eq (members : Members ν) :
    closeMembers record list members = Assoc.mapValues (close record list) members := by
  induction members with
  | nil => rfl
  | cons head rest ih => rw [closeMembers, ih]; rfl

section

variable {record list}

/-- The open table under a key, or a new one, and what makes it the node under that key again. -/
def enter : Option (Node ν) → Option (Members ν × (Members ν → Node ν))
  | none => some ([], .table .implied)
  | some (.table origin members) => some (members, .table origin)
  | some (.tables earlier members) => some (members, .tables earlier)
  | some (.value _) => none

/-- The same for a dotted key: it defines the tables that are not there yet, and adds to those that no
    header defined. -/
def extend : Option (Node ν) → Option (Members ν × (Members ν → Node ν))
  | none => some ([], .table .dotted)
  | some (.table origin members) => if origin = .header then none else some (members, .table origin)
  | some _ => none

/-- A change of the table at the end of a path. -/
def along (select : Option (Node ν) → Option (Members ν × (Members ν → Node ν)))
    (change : Members ν → Option (Members ν)) : Path → Members ν → Option (Members ν)
  | [], members => change members
  | key :: rest, members =>
    (select (Assoc.find key members)).bind fun opened =>
      (along select change rest opened.1).map fun inner => Assoc.put key (opened.2 inner) members

/-- A change of what a path's last key stands for in the table before it. -/
def atLast (select : Option (Node ν) → Option (Members ν × (Members ν → Node ν)))
    (change : String → Members ν → Option (Members ν)) (path : Path) (members : Members ν) : Option (Members ν) :=
  path.getLast?.bind fun key => along select (change key) path.dropLast members

/-- A table may be defined once, also after it was implied. -/
def openTable (key : String) (members : Members ν) : Option (Members ν) :=
  match Assoc.find key members with
  | none => some (Assoc.put key (.table .header []) members)
  | some (.table .implied inner) => some (Assoc.put key (.table .header inner) members)
  | some _ => none

def giveValue (value : ν) (key : String) (members : Members ν) : Option (Members ν) :=
  match Assoc.find key members with
  | none => some (Assoc.put key (.value value) members)
  | some _ => none

def dotted (value : ν) : Path → Members ν → Option (Members ν) := atLast extend (giveValue value)

end

/-- An array of tables is extended by its own header only. -/
def addTable (key : String) (members : Members ν) : Option (Members ν) :=
  match Assoc.find key members with
  | none => some (Assoc.put key (.tables [] []) members)
  | some (.tables earlier inner) =>
    some (Assoc.put key (.tables (earlier ++ [record (closeMembers record list inner)]) []) members)
  | some _ => none

mutual

/-- The value that a written value stands for. -/
def value : Written ν → Option ν
  | .scalar value => some value
  | .array items => (values items).map list
  | .inline entries => (entriesIn [] entries).map fun members => record (closeMembers record list members)

def values : List (Written ν) → Option (List ν)
  | [] => some []
  | item :: rest => (value item).bind fun first => (values rest).map fun later => first :: later

def entriesIn (members : Members ν) : List (Path × Written ν) → Option (Members ν)
  | [] => some members
  | (path, written) :: rest =>
    (value written).bind fun held => (dotted held path members).bind fun members => entriesIn members rest

end

structure State (ν : Type) where
  members : Members ν
  current : Path

section

variable {record list}

/-- A header's path may go through every table, and through the last of an array of tables. -/
def headed (change : String → Members ν → Option (Members ν)) : Path → Members ν → Option (Members ν) :=
  atLast enter change

/-- A key is dotted from the table of the header before it. -/
def assigned (value : ν) (current path : Path) : Members ν → Option (Members ν) :=
  along enter (dotted value path) current

end

def define (s : State ν) : Definition ν → Option (State ν)
  | .table path => (headed openTable path s.members).map fun members => ⟨members, path⟩
  | .tables path => (headed (addTable record list) path s.members).map fun members => ⟨members, path⟩
  | .entry path written =>
    (value record list written).bind fun held =>
      (assigned held s.current path s.members).map fun members => ⟨members, s.current⟩

def run (s : State ν) : List (Definition ν) → Option (State ν)
  | [] => some s
  | definition :: rest => (define record list s definition).bind fun s => run s rest

/-- The value of a document, if the rules allow it. -/
def document (definitions : List (Definition ν)) : Option ν :=
  (run record list ⟨[], []⟩ definitions).map fun s => record (closeMembers record list s.members)

end TomlRules

namespace Fala.Toml

open Durable

/-- The members of an object under way. -/
abbrev Object := List (String × Json)

section

variable (path : String)

/-- What a dotted key of an inline table goes on in. -/
def innerObject : Option Json → Except String Json
  | none => .ok (.obj [])
  | some (.obj members) => .ok (.obj members)
  | some _ => fail path "dotted key conflicts with scalar"

/-- What a key of a path goes on in: under an array its last item, whatever wrote it there. -/
def innerTable : Option Json → Except String Json
  | none => .ok (.obj [])
  | some (.arr items) => items.getLast?.elim (fail path "empty table array") .ok
  | some (.obj members) => .ok (.obj members)
  | some _ => fail path "table path conflicts with scalar"

def object (refusal : String) : Json → Except String Object
  | .obj members => .ok members
  | _ => fail path refusal

/-- What a key holds once the value that its path goes on in has changed. -/
def replaced (existing : Option Json) (inner : Json) : Json :=
  match existing with
  | some (.arr items) => .arr (items.dropLast ++ [inner])
  | _ => inner

/-- The way down a path and back up, with `finish` at its last key. -/
def atPath (select : Option Json → Except String Json) (refusal : String)
    (finish : String → Object → Except String Object) : List String → Object → Except String Object
  | [], members => .ok members
  | [key], members => finish key members
  | key :: next :: rest, members => do
    let inner ← select (Assoc.find key members)
    let inner ← object path refusal inner
    let inner ← atPath select refusal finish (next :: rest) inner
    return Assoc.put key (replaced (Assoc.find key members) (.obj inner)) members

def putKey (value : Json) (key : String) (members : Object) : Except String Object :=
  match Assoc.find key members with
  | none => .ok (Assoc.put key value members)
  | some _ => fail path ("duplicate key '" ++ key ++ "'")

def appendKey (value : Json) (key : String) (members : Object) : Except String Object :=
  match Assoc.find key members with
  | none => .ok (Assoc.put key (.arr [value]) members)
  | some (.arr items) => .ok (Assoc.put key (.arr (items ++ [value])) members)
  | some _ => fail path "array-of-tables conflicts with scalar"

/-- The last key of `_ensure_path` is gone through as those before it, and its value not looked at. -/
def ensureKey (key : String) (members : Object) : Except String Object := do
  let inner ← innerTable path (Assoc.find key members)
  return Assoc.put key (replaced (Assoc.find key members) inner) members

/-- `_put_object` -/
def putObject (members : Object) (parts : List String) (value : Json) : Except String Object :=
  if parts = [] then fail path "empty key"
  else atPath path (innerObject path) "dotted key conflicts with scalar" (putKey path value) parts members

/-- `_put_path` -/
def putPath (node : Object) (parts : List String) (value : Json) (append : Bool) : Except String Object :=
  if parts = [] then fail path "empty table path"
  else
    atPath path (innerTable path) "table path is not an object"
      (if append then appendKey path value else putKey path value) parts node

/-- `_ensure_path` -/
def ensurePath (node : Object) (parts : List String) : Except String Object :=
  atPath path (innerTable path) "table path is not an object" (ensureKey path) parts node

/-- `TomlParser._table_path_text` -/
def tablePathText (parts : List String) : String := String.intercalate "." parts

/-- The root of the document with the parser's fields `current` and `tables`. -/
structure Document where
  root : Object
  current : List String
  tables : List String

def Document.empty : Document := ⟨[], [], []⟩

def declareTable (d : Document) (parts : List String) : Except String Document := do
  let name := tablePathText parts
  if name ∈ d.tables then fail path ("table declared more than once: " ++ name)
  else
    let root ← ensurePath path d.root parts
    return ⟨root, parts, d.tables ++ [name]⟩

def declareArray (d : Document) (parts : List String) : Except String Document := do
  let root ← putPath path d.root parts (.obj []) true
  return { d with root, current := parts }

def assignKey (d : Document) (key : List String) (value : Json) : Except String Document := do
  let root ← putPath path d.root (d.current ++ key) value false
  return { d with root }

/-- The parser's own values and document. -/
def coded : Builder Json Object Document where
  scalar value := value
  array := .arr
  table := .obj
  empty := []
  put := putObject path
  header := declareTable path
  arrayHeader := declareArray path
  assign := assignKey path

end

/-- `parse_toml_value` -/
def parseTomlValue (parse : String → Option Json) (text path : String) : Except String Json := do
  let document ← parseStatements (coded path) parse path .empty text.toList
  return .obj document.root

end Fala.Toml
