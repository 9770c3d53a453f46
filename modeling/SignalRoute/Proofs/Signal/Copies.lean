import SignalRoute.Route.Program

/-!
# Changed copies of signals

`withId`, `withInput` and `shifted` rebuild a signal with its parts.  Each changes one field of the
signal and does to the parts what it does to the signal; the other fields stay.  A cursor that is
resolved therefore differs from its signal in the id and the input alone.

The three are written as mutual recursions over a signal and its list of parts, since that is how a
tree is rebuilt.  Here each list function is shown to be `List.map` (`withIds_eq_map` and its
siblings), and after that nobody has to open the recursion again: one simp lemma for each field says
what a copy has there.  A proof about copies is then an induction on some property of signals, with
one case, and `parts_withId` brings the parts into it.

All lemmas about fields are simp lemmas, so that `Cursor.resolve`, which is two copies in a row or
none, needs but a case split.
-/

set_option autoImplicit false

namespace SignalRoute
namespace Signal

variable (s feed : Signal) (id offset : UInt8) (distance : Int)

/-! ## Another id

The parts of an output are told apart by where they lie, not by ids, so all of them get the id of
the processor that puts the output out.
-/

theorem withIds_eq_map (parts : List Signal) : withIds id parts = parts.map (withId id) := by
  induction parts with
  | nil => rfl
  | cons s rest ih => rw [withIds, ih, List.map_cons]

@[simp] theorem address_withId : (s.withId id).address = s.address.withId id := by
  cases s; rfl

@[simp] theorem shape_withId : (s.withId id).shape = s.shape := by
  cases s; rfl

@[simp] theorem kind_withId : (s.withId id).kind = s.kind := by
  cases s; rfl

@[simp] theorem processor_withId : (s.withId id).processor = s.processor := by
  cases s; rfl

@[simp] theorem input_withId : (s.withId id).input = s.input := by
  cases s; rfl

@[simp] theorem parts_withId : (s.withId id).parts = s.parts.map (withId id) := by
  cases s
  exact withIds_eq_map id _

@[simp] theorem index_withId : (s.withId id).index = s.index := by
  cases s; rfl

/-! ## Another input

A signal of the board itself has no input, and `withInput` does not give it one.
-/

theorem withInputs_eq_map (parts : List Signal) :
    withInputs parts feed = parts.map fun s => s.withInput feed := by
  induction parts with
  | nil => rfl
  | cons s rest ih => rw [withInputs, ih, List.map_cons]

@[simp] theorem address_withInput : (s.withInput feed).address = s.address := by
  cases s; rfl

@[simp] theorem shape_withInput : (s.withInput feed).shape = s.shape := by
  cases s; rfl

@[simp] theorem kind_withInput : (s.withInput feed).kind = s.kind := by
  cases s; rfl

@[simp] theorem processor_withInput : (s.withInput feed).processor = s.processor := by
  cases s; rfl

@[simp] theorem input_withInput : (s.withInput feed).input = s.input.map fun _ => feed := by
  cases s; rfl

@[simp] theorem parts_withInput :
    (s.withInput feed).parts = s.parts.map fun s => s.withInput feed := by
  cases s
  exact withInputs_eq_map feed _

@[simp] theorem index_withInput : (s.withInput feed).index = s.index := by
  cases s; rfl

/-! ## Another offset

Parts keep their distance to the signal: they move by as many bytes as it does.  `atOffset` says
where to, `shifted` says how far.
-/

theorem shiftedAll_eq_map (parts : List Signal) :
    shiftedAll distance parts = parts.map (shifted distance) := by
  induction parts with
  | nil => rfl
  | cons s rest ih => rw [shiftedAll, ih, List.map_cons]

@[simp] theorem shape_shifted : (s.shifted distance).shape =
    { s.shape with offset := movedOffset s.shape.offset distance } := by
  cases s; rfl

@[simp] theorem kind_shifted : (s.shifted distance).kind = s.kind := by
  cases s; rfl

@[simp] theorem parts_shifted : (s.shifted distance).parts = s.parts.map (shifted distance) := by
  cases s
  exact shiftedAll_eq_map distance _

@[simp] theorem kind_atOffset : (s.atOffset offset).kind = s.kind := s.kind_shifted _

theorem movedOffset_to (start : UInt8) :
    movedOffset start ((offset.toNat : Int) - (start.toNat : Int)) = offset := by
  have hsum : (start.toNat : Int) + ((offset.toNat : Int) - (start.toNat : Int)) =
      offset.toNat := by omega
  rw [movedOffset, hsum]
  simp

/-- Moving a signal to an offset puts it there. -/
@[simp] theorem shape_atOffset :
    (s.atOffset offset).shape = { s.shape with offset := offset } := by
  cases s
  simp only [atOffset, shifted, movedOffset_to]

/-! ## Questions that do not look at the id -/

@[simp] theorem isOutput_withId : (s.withId id).isOutput = s.isOutput := by
  rw [isOutput, address_withId]
  rfl

@[simp] theorem isOutput_withInput : (s.withInput feed).isOutput = s.isOutput := by
  rw [isOutput, address_withInput, isOutput]

end Signal

/-! ## Cursors on the board

While a plan is drawn up no stage has an id.  A cursor says which stage its signal comes from, and
`Cursor.resolve` looks the id up among the stages that were created.  What was checked when the plan
was drawn up was checked of the signal before that; shape and kind are those of the resolved one
too, so nothing has to be checked again.
-/

namespace Cursor

variable (c : Cursor) (placed : List Placed)

/-- A cursor behind the last of the stages that were created. -/
theorem resolve_concat (s : Signal) (p : Placed) :
    (⟨s, some placed.length⟩ : Cursor).resolve (placed ++ [p]) =
      (s.withId p.id).withInput p.source := by
  rw [resolve, Option.bind_some, List.getElem?_concat_length]

@[simp] theorem shape_resolve : (c.resolve placed).shape = c.signal.shape := by
  rw [resolve]
  split <;> simp

@[simp] theorem kind_resolve : (c.resolve placed).kind = c.signal.kind := by
  rw [resolve]
  split <;> simp

@[simp] theorem isOutput_resolve : (c.resolve placed).isOutput = c.signal.isOutput := by
  rw [resolve]
  split <;> simp

@[simp] theorem logChunks_resolve : (c.resolve placed).logChunks = c.signal.logChunks := by
  rw [Signal.logChunks, shape_resolve, Signal.logChunks]

end Cursor
end SignalRoute
