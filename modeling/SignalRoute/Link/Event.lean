import SignalRoute.Bytes

/-!
# What the board sends

The board sends frames, and at some point the connection may be lost.  A frame begins with a module
and a register; the answer to a request is recognised by these and, if need be, by the id that
follows them.

A key says how an answer begins, and not that it is new.  An answer which comes too late for its own
request is taken for that of the next one with the same key, and the host has no means to notice.
-/

set_option autoImplicit false

namespace SignalRoute

/-- Something that comes in over the link. -/
inductive LinkEvent where
  | frame (bytes : Bytes)
  /-- The connection was lost. -/
  | disconnected
deriving DecidableEq, Repr, Inhabited

/-- The bytes that the answer to a request starts with. -/
structure ReplyKey where
  bytes : Bytes
deriving DecidableEq, Repr, Inhabited

namespace ReplyKey

def register (module register : UInt8) : ReplyKey := ⟨[module, register]⟩

def indexed (module register id : UInt8) : ReplyKey := ⟨[module, register, id]⟩

def admits (k : ReplyKey) (frame : Bytes) : Bool := k.bytes.isPrefixOf frame

end ReplyKey

/-- The answer that is waited for, if one is. -/
structure PendingSlot where
  armed : Option ReplyKey
deriving DecidableEq, Repr, Inhabited

namespace PendingSlot

def empty : PendingSlot := ⟨none⟩

/-- Wait for an answer, and for no other any more. -/
def arm (_ : PendingSlot) (key : ReplyKey) : PendingSlot := ⟨some key⟩

def clear (_ : PendingSlot) : PendingSlot := empty

def isArmed (s : PendingSlot) : Bool := s.armed.isSome

/-- Is a frame the answer that is waited for? -/
def accepts (s : PendingSlot) (frame : Bytes) : Bool :=
  match s.armed with
  | some key => key.admits frame
  | none => false

/-- Offer a frame; if it is the answer, nothing is waited for any more. -/
def offer (s : PendingSlot) (frame : Bytes) : Bool × PendingSlot :=
  if s.accepts frame then (true, empty) else (false, s)

end PendingSlot
end SignalRoute
