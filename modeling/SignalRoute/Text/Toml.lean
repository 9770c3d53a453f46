import SignalRoute.Text.TomlTable
import SignalRoute.Text.TomlValue

/-!
# Reading TOML

Lists and inline tables, and the lines of a text: headers, keys with their values, comments and
blank lines.  `Toml.read?` is what a text holds.

The only recursion that is not over the text is that into nested values; it is bounded by the depth
which the notation's reader allows.  Whether a line may add to a table is decided by the tree of
tables, and not here.
-/

set_option autoImplicit false

namespace SignalRoute
namespace Toml

/-! ## Nested values -/

/-- Values between brackets, over any number of lines; a comma may stand behind the last one. -/
def list (value : Scan Datum) : Scan (List Datum) := do
  Scan.exactly '['
  let items ← Scan.optional? (do
    let items ← Scan.between (Scan.exactly ',') (do
      gap
      let d ← value
      gap
      return d)
    discard (Scan.optional? (Scan.exactly ','))
    return items)
  gap
  Scan.exactly ']'
  return items.getD []

/-- A key, an equals sign and a value. -/
def keyed (value : Scan Datum) : Scan (List String × Datum) := do
  let k ← key
  Scan.exactly '='
  blank
  return (k, ← value)

/-- A table in braces, on one line. -/
def inlineTable (value : Scan Datum) : Scan Datum := do
  Scan.exactly '{'
  let found ← Scan.optional? (Scan.between (Scan.exactly ',') (do
    let e ← keyed value
    blank
    return e))
  blank
  Scan.exactly '}'
  let (_, t) ← ((found.getD []).forM fun e => Table.enter e.2 e.1 : Filling Unit) .fresh
  return t.datum

/-- A value; lists and tables in it go so deep at most. -/
def value : Nat → Scan Datum
  | 0 => plainValue
  | depth + 1 => do
    match ← Scan.peek with
    | some '[' => return .list (← list (value depth))
    | some '{' => inlineTable (value depth)
    | _ => plainValue

/-! ## Lines -/

/-- A header and the rest of its line. -/
def header : Scan Header := do
  let listed ← Scan.optional? (Scan.word "[[")
  if listed.isNone then Scan.exactly '['
  let k ← key
  Scan.word (if listed.isSome then "]]" else "]")
  endOfLine
  match k.getLast? with
  | some name => return ⟨k.dropLast, name, listed.isSome⟩
  | none => failure

/-- The rest of a text.  There are at most so many lines, the last one being the end of the text. -/
def lines : Nat → Draft → Scan Draft
  | 0, _ => failure
  | n + 1, d => do
    blank
    match ← Scan.peek with
    | none => return d
    | some '[' => lines n (← d.openTable (← header))
    | some '#' => do endOfLine; lines n d
    | some '\n' => do newline; lines n d
    | some '\r' => do newline; lines n d
    | _ =>
      let (k, v) ← keyed (value (depthLimit - 1))
      endOfLine
      lines n (← d.enter k v)

/-- What a TOML text holds.  A byte order mark may stand in front. -/
def read? (text : String) : Option Datum :=
  Scan.whole (do
    discard (Scan.optional? (Scan.exactly (.ofNat 0xfeff)))
    let d ← lines (text.length + 1) .empty
    return (← d.close).datum) text

end Toml
end SignalRoute
