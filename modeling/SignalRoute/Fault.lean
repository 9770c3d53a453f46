import SignalRoute.Bytes

/-!
# What can go wrong

One type names every way in which building, programming, editing or reading a route can fail, and
one function words it.  A fault may be wrapped in any number of contexts; `Fault.root` is the fault
under them all.

Most faults carry the text or the number that tells their cause.  A fault that was passed on by
several operations has a context for each, the outermost in front, and its message reads from the
outside in.  Operations ask for a kind of fault by `Fault.isTimeout`, which looks under the
contexts: a fault stays what it is, however far it came.
-/

set_option autoImplicit false

namespace SignalRoute

/-- A failed operation. -/
inductive Fault where
  /-- A route may not continue this way; nothing has been sent. -/
  | illegalRoute (reason : String)
  /-- No output can be derived for a processor with this configuration. -/
  | unsupportedTransform (config : String)
  /-- The catalog has no name for a signal. -/
  | unidentifiable (module register : UInt8)
  /-- The board did not answer in time. -/
  | timeout (request : String) (ms : UInt64)
  /-- The link went down. -/
  | connectionLost (reason : String)
  /-- A payload ends before the signal that it should hold. -/
  | shortPayload (expected actual : Nat)
  /-- No consumer owns the log id of a record. -/
  | unknownEntry (id : UInt8)
  /-- A record's consumer exists, but no subscriber took its samples. -/
  | unhandledData (id : UInt8)
  /-- The board sent bytes that mean nothing. -/
  | protocol (reason : String)
  /-- A command could not be written. -/
  | transport (reason : String)
  /-- Settings that cannot be read, written or accepted. -/
  | settings (reason : String)
  /-- A file that cannot be read or written. -/
  | file
  /-- A fault with a note on what was being done. -/
  | inContext (context : String) (cause : Fault)
  /-- A number is too large for its place: a field asks for more bytes than its word has, or a time
  lies beyond the calendar.  No caller can recover from it. -/
  | overrun
deriving DecidableEq, Repr, Inhabited

namespace Fault

/-- The fault under all contexts. -/
def root : Fault → Fault
  | inContext _ cause => cause.root
  | fault => fault

/-- Is the fault, contexts aside, a board that did not answer? -/
def isTimeout (fault : Fault) : Bool :=
  match fault.root with
  | timeout _ _ => true
  | _ => false

/-- The wording of a fault. -/
def message : Fault → String
  | illegalRoute reason => "Illegal route operation: " ++ reason
  | unsupportedTransform config => "Unsupported transform for processor config [" ++ config ++ "]"
  | unidentifiable module register =>
    "Unidentifiable signal at module " ++ hexLiteral module ++ ", register " ++ hexLiteral register
  | timeout request ms =>
    "Timeout after " ++ toString ms.toNat ++ "ms waiting for " ++ request
  | connectionLost reason => "Connection lost: " ++ reason
  | shortPayload expected actual =>
    "Decode error: expected " ++ toString expected ++ " bytes, got " ++ toString actual
  | unknownEntry id => "Unknown log entry id " ++ toString id.toNat
  | unhandledData id => "Unhandled log data for id " ++ toString id.toNat
  | protocol reason => "Protocol error: " ++ reason
  | transport reason => "Transport error: " ++ reason
  | settings reason => "Configuration error: " ++ reason
  | file => "IO error"
  | inContext context cause => context ++ ": " ++ cause.message
  | overrun => "A number is too large for its place"

end Fault

/-- Put a note on a failed result. -/
def withContext {α : Type} (context : String) : Except Fault α → Except Fault α
  | .error fault => .error (fault.inContext context)
  | .ok a => .ok a

end SignalRoute
