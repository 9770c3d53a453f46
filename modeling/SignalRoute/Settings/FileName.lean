import SignalRoute.Bytes
import SignalRoute.Text.Blank

/-!
# Names of files

The name of a file is a path from a directory that holds nothing but files.  Between its slashes
stand the pieces of the path.

* Empty pieces and single dots stay where they are; `FileName.steps` are the others.
* `FileName.base?` is the file's own name, and `FileName.ending?` what follows its last dot.
* `FileName.reachable` tells whether there can be a file of that name.

There is no file system here.  What a path says about its file is a matter of its characters, and
what would have to be looked up, whether there is such a file and what it holds, is given to
`Settings.load` by whoever calls it.
-/

set_option autoImplicit false

namespace SignalRoute

/-- A path, by the pieces between its slashes. -/
structure FileName where
  pieces : List (List Char)
deriving DecidableEq, Repr, Inhabited

namespace FileName

def ofString (text : String) : FileName := ⟨Text.splitAt '/' text.toList⟩

/-- Does a piece of a path stay where it is? -/
def stays (piece : List Char) : Bool := piece == [] || piece == ['.']

/-- Does a piece of a path go up? -/
def goesUp (piece : List Char) : Bool := piece == ['.', '.']

/-- The pieces that lead somewhere. -/
def steps (f : FileName) : List (List Char) := f.pieces.filter fun p => !stays p

/-- The name at the end of the path. -/
def base? (f : FileName) : Option (List Char) :=
  match f.steps.getLast? with
  | some piece => if goesUp piece then none else some piece
  | none => none

/-- What follows the last dot of a name.  A dot at the start of a name has no ending behind it. -/
def endingOf? (name : List Char) : Option (List Char) :=
  match name.reverse.span (· != '.') with
  | (ending, _ :: _ :: _) => some ending.reverse
  | _ => none

def ending? (f : FileName) : Option (List Char) := f.base?.bind endingOf?

/-- How many bytes a piece of a path takes. -/
def width (piece : List Char) : Nat := sumCounts (piece.map Char.utf8Size)

/-- Can a file have this name?  It has at most 255 bytes, and none of them is zero. -/
def namesFile (piece : List Char) : Bool :=
  !stays piece && !goesUp piece && width piece ≤ 255 && !piece.contains '\x00'

/-- Can there be a file of this name?  There are no other directories on the way to it. -/
def reachable (f : FileName) : Bool :=
  match f.pieces.reverse with
  | [] => false
  | name :: way => namesFile name && way.all fun p => stays p || goesUp p

end FileName
end SignalRoute
