import SignalRoute.Log.Instant
import SignalRoute.Reading

/-!
# Mailboxes

A subscriber has a mailbox, in which samples wait until they are taken out.  A mailbox that its
owner gave up takes no more samples, and whoever delivers one learns of it.

Mailboxes are numbered in the order in which they were rented, and no number is used twice: giving a
mailbox up closes it and leaves its place.  A consumer in the graph and the subscription of its
route know each other by this number only, so either may outlive the other.
-/

set_option autoImplicit false

namespace SignalRoute

/-- A reading with its time. -/
structure Sample where
  time : Instant
  reading : Reading
deriving Inhabited

/-- The samples that a subscriber has not taken out yet. -/
structure Mailbox where
  isOpen : Bool
  samples : List Sample
deriving Inhabited

/-- All mailboxes, by number. -/
structure PostOffice where
  boxes : List Mailbox
deriving Inhabited

namespace PostOffice

def empty : PostOffice := ⟨[]⟩

/-- The number of the next mailbox. -/
def next (p : PostOffice) : Nat := p.boxes.length

/-- The office with a new mailbox, whose number is `next`. -/
def rent (p : PostOffice) : PostOffice := ⟨p.boxes ++ [⟨true, []⟩]⟩

def isOpen (p : PostOffice) (i : Nat) : Bool :=
  match p.boxes[i]? with
  | some box => box.isOpen
  | none => false

/-- The samples that wait in a mailbox. -/
def waiting (p : PostOffice) (i : Nat) : List Sample :=
  match p.boxes[i]? with
  | some box => box.samples
  | none => []

/-- The office with a sample delivered; a closed mailbox stays as it is. -/
def deliver (p : PostOffice) (i : Nat) (s : Sample) : PostOffice :=
  ⟨p.boxes.modify i fun box =>
    if box.isOpen then { box with samples := box.samples ++ [s] } else box⟩

/-- The office with a mailbox emptied. -/
def drain (p : PostOffice) (i : Nat) : PostOffice :=
  ⟨p.boxes.modify i fun box => { box with samples := [] }⟩

/-- The office with a mailbox given up. -/
def abandon (p : PostOffice) (i : Nat) : PostOffice := ⟨p.boxes.modify i fun _ => ⟨false, []⟩⟩

end PostOffice
end SignalRoute
