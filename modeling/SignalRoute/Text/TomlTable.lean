import SignalRoute.Text.Datum

/-!
# Tables of TOML

The lines of a TOML text fill a tree of tables.  Which lines may still add to a table depends on how
the table came about, so every table remembers two things about itself: whether it exists only
because something in it does, and whether a dotted key made it.

* `Table.within` goes down a path and works on the table at its end.
* `Table.enter` puts a value under a key.
* `Draft` is the text so far: the lines behind a header fill a table of their own, which `Draft.close`
  puts into the tree and `Draft.openTable` takes out of it again.

The tree is polymorphic in its entries (`Entry`), so that a table can be a structure and not a
constructor among others; the recursions over it are mutual over tables, entries and lists of
tables.
-/

set_option autoImplicit false

namespace SignalRoute
namespace Toml

/-- What a name stands for, given what tables are. -/
inductive Entry (τ : Type) where
  | value (d : Datum)
  | table (t : τ)
  | tables (ts : List τ)

/-- A table that is being filled. -/
structure Table where
  /-- The table exists only because something in it does. -/
  implied : Bool
  /-- A dotted key made the table. -/
  dotted : Bool
  entries : List (String × Entry Table)

/-- Work on a table that may turn out to be forbidden. -/
abbrev Filling (α : Type) := StateT Table Option α

namespace Table

/-- A table with a header of its own, or in braces, or the one around all others. -/
def fresh : Table := ⟨false, false, []⟩

def lookup? (t : Table) (name : String) : Option (Entry Table) :=
  (t.entries.find? fun e => e.1 == name).map Prod.snd

/-- Put an entry in the place of the one with its name, or at the end. -/
def put (t : Table) (name : String) (e : Entry Table) : Table :=
  if (t.lookup? name).isSome then
    { t with entries := t.entries.map fun x => if x.1 == name then (name, e) else x }
  else { t with entries := t.entries ++ [(name, e)] }

def drop (t : Table) (name : String) : Table :=
  { t with entries := t.entries.filter fun x => x.1 != name }

/-- Work on the table at the end of a path; in a list of tables the path goes on in the last one.
Tables that are missing on the way are made.  The path of a dotted key may not pass a table that has
a header. -/
def within {α : Type} (dotted : Bool) (work : Filling α) : List String → Filling α
  | [], t => work t
  | name :: path, t =>
    match t.lookup? name with
    | none => do
      let (a, inner) ← within dotted work path ⟨true, dotted, []⟩
      return (a, t.put name (.table inner))
    | some (.value _) => none
    | some (.table inner) => do
      if dotted && !inner.implied then none
      let (a, inner) ← within dotted work path inner
      return (a, t.put name (.table inner))
    | some (.tables ts) =>
      match ts.reverse with
      | [] => none
      | last :: before => do
        let (a, last) ← within dotted work path last
        return (a, t.put name (.tables (before.reverse ++ [last])))

/-- Add a value under a name that must be new.  A value with a dotted key goes to a table that a
dotted key made, and other values go to other tables. -/
def add (dotted : Bool) (name : String) (d : Datum) : Filling Unit := fun t =>
  if t.dotted = dotted ∧ (t.lookup? name).isNone then some ((), t.put name (.value d)) else none

/-- Put a value under a key. -/
def enter (d : Datum) : List String → Filling Unit
  | [] => failure
  | first :: rest =>
    let parts := first :: rest
    let path := parts.dropLast
    within true (add (!path.isEmpty) (rest.getLast?.getD first) d) path

mutual

/-- The table when nothing can be added to it any more. -/
def datum : Table → Datum
  | ⟨_, _, entries⟩ => .table (entriesDatum entries)

def entriesDatum : List (String × Entry Table) → List (Option String × Datum)
  | [] => []
  | (name, e) :: rest => (some name, entryDatum e) :: entriesDatum rest

def entryDatum : Entry Table → Datum
  | .value d => d
  | .table t => t.datum
  | .tables ts => .list (tablesDatum ts)

def tablesDatum : List Table → List Datum
  | [] => []
  | t :: rest => t.datum :: tablesDatum rest

end

end Table

/-! ## Headers -/

/-- A header: the names that lead to its table, the name of the table, and whether the table is an
item of a list. -/
structure Header where
  path : List String
  name : String
  listed : Bool

/-- A text as far as it has been read. -/
structure Draft where
  root : Table
  /-- The header of the lines that are being read; none before the first header. -/
  header : Option Header
  /-- The table that these lines fill. -/
  current : Table

namespace Draft

def empty : Draft := ⟨.fresh, none, .fresh⟩

/-- Put the table of a header where the header says. -/
def place (h : Header) (current : Table) : Filling Unit :=
  Table.within false (fun t =>
    match h.listed, t.lookup? h.name with
    | true, some (.tables ts) => some ((), t.put h.name (.tables (ts ++ [current])))
    | true, none => some ((), t.put h.name (.tables [current]))
    | false, none => some ((), t.put h.name (.table current))
    | _, _ => none) h.path

/-- The whole tree once the current table is full. -/
def close (d : Draft) : Option Table :=
  match d.header with
  | none => some d.current
  | some h => (place h d.current d.root).map Prod.snd

/-- Take out the table of a header, or make one.  A table that exists only because something in it
does may get a header, unless a dotted key made it; a list may get one more table. -/
def take (h : Header) : Filling Table :=
  Table.within false (fun t =>
    match h.listed, t.lookup? h.name with
    | true, some (.tables _) => some (.fresh, t)
    | _, none => some (.fresh, t)
    | false, some (.table inner) =>
      if inner.implied && !inner.dotted then some ({ inner with implied := false }, t.drop h.name)
      else none
    | _, _ => none) h.path

/-- Begin the table of a header. -/
def openTable (d : Draft) (h : Header) : Option Draft := do
  let (current, root) ← take h (← d.close)
  return ⟨root, some h, current⟩

/-- Put a value under a key of the current table. -/
def enter (d : Draft) (key : List String) (value : Datum) : Option Draft :=
  (Table.enter value key d.current).map fun r => { d with current := r.2 }

end Draft
end Toml
end SignalRoute
