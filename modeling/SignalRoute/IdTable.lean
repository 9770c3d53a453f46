/-!
# Tables by id

A table keeps one value per id, in ascending order of the ids.  The processors, loggers and events of
a board live in such tables, and so does what the host knows about them.

* `find?` looks an id up, `insert` puts a value in place of the one with its id, `erase` takes one
  out; `find?_insert` and `find?_erase` say what becomes of the look-ups.
* `freeId?` is the lowest id that is not taken.

A list of entries, and not a function from ids: what a table holds can be compared, counted and
written down, and a loop over it runs in the order of the ids, which is that of the board.  Nothing
in the type says that the entries ascend or that ids occur once.  `insert` and `erase` keep both,
and where it matters it is a hypothesis about `ids` (`Proofs.Table`).
-/

set_option autoImplicit false

namespace SignalRoute

/-- Values by id, in ascending order. -/
structure IdTable (α : Type) where
  entries : List (UInt8 × α)
deriving Inhabited, Repr

namespace IdTable

variable {α : Type}

def empty : IdTable α := ⟨[]⟩

/-- The value of an id in a list of entries. -/
def findIn (id : UInt8) : List (UInt8 × α) → Option α
  | [] => none
  | (k, a) :: rest => if k = id then some a else findIn id rest

/-- The entries with a value in the place of its id. -/
def insertIn (id : UInt8) (a : α) : List (UInt8 × α) → List (UInt8 × α)
  | [] => [(id, a)]
  | (k, b) :: rest =>
    if k = id then (id, a) :: rest
    else if id < k then (id, a) :: (k, b) :: rest
    else (k, b) :: insertIn id a rest

def find? (t : IdTable α) (id : UInt8) : Option α := findIn id t.entries

def contains (t : IdTable α) (id : UInt8) : Bool := (t.find? id).isSome

def insert (t : IdTable α) (id : UInt8) (a : α) : IdTable α := ⟨insertIn id a t.entries⟩

def erase (t : IdTable α) (id : UInt8) : IdTable α := ⟨t.entries.filter fun e => e.1 != id⟩

/-- The table with the value of an id changed. -/
def modify (t : IdTable α) (id : UInt8) (f : α → α) : IdTable α :=
  ⟨t.entries.map fun e => if e.1 = id then (e.1, f e.2) else e⟩

def ids (t : IdTable α) : List UInt8 := t.entries.map Prod.fst

def values (t : IdTable α) : List α := t.entries.map Prod.snd

/-- The lowest of `count` ids that is not taken. -/
def freeId? (t : IdTable α) (count : Nat) : Option UInt8 :=
  ((List.range count).map UInt8.ofNat).find? fun id => !t.contains id

/-! ## Look-ups

All that a caller needs to know of `insert` and `erase`.  The inductions over entries stay behind
these lemmas.
-/

theorem find?_empty (id : UInt8) : (empty : IdTable α).find? id = none := rfl

theorem findIn_insertIn (id j : UInt8) (a : α) (l : List (UInt8 × α)) :
    findIn j (insertIn id a l) = if j = id then some a else findIn j l := by
  induction l with
  | nil => simp [insertIn, findIn, eq_comm]
  | cons e rest ih => grind [insertIn, findIn]

theorem find?_insert (t : IdTable α) (id j : UInt8) (a : α) :
    (t.insert id a).find? j = if j = id then some a else t.find? j :=
  findIn_insertIn id j a t.entries

theorem findIn_filter_ne (id j : UInt8) (l : List (UInt8 × α)) :
    findIn j (l.filter fun e => e.1 != id) = if j = id then none else findIn j l := by
  induction l with
  | nil => simp [findIn]
  | cons e rest ih => grind [findIn]

theorem find?_erase (t : IdTable α) (id j : UInt8) :
    (t.erase id).find? j = if j = id then none else t.find? j :=
  findIn_filter_ne id j t.entries

end IdTable
end SignalRoute
