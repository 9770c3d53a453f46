import SignalRoute.Proofs.Route.Comparing
import SignalRoute.Proofs.Route.Program

/-!
# What feedback writes

An event that feeds an operand has the board write bytes of a notification into the parameters of a
command, which are an id and the configuration of the stage.  One byte of the event says which bytes
of the notification are written, another says where.  The width is that of the producer and has
nothing to do with the operand, and the place is computed in one byte.

* `Processor.operandField?` says where each operand of a stage lies, and
  `Processor.bytes_operandField?` that it lies there.
* `Plan.Feeds`: each feedback of a plan is placed at an operand of its stage, one after the other,
  up to multiples of 256; expressions make no other plans (`Drafting.feeds_run`).
* `Plan.Feeds.programmed` says how that becomes an event, and `Feedback.Programmed.within_iff` when
  the event writes within its operand: if the operand has room for what is written and lies among
  the first 256 bytes.

The event is described by its bytes, and what the board does with it by how it reads them
(`BoardEvent.written?`).  So width and place are not what the host meant but what the wire says, and
the two are compared in `Feedback.Programmed`.
-/

set_option autoImplicit false

namespace SignalRoute

/-! ## Runs of bytes -/

/-- Some bytes of a message, by their place and their number. -/
@[ext]
structure ByteRun where
  start : Nat
  length : Nat
deriving DecidableEq, Repr, Inhabited

namespace ByteRun

variable {a b c : ByteRun}

def Within (a b : ByteRun) : Prop := b.start ≤ a.start ∧ a.start + a.length ≤ b.start + b.length

instance (a b : ByteRun) : Decidable (a.Within b) := by
  unfold Within
  infer_instance

theorem Within.trans (hab : a.Within b) (hbc : b.Within c) : a.Within c :=
  ⟨Nat.le_trans hbc.1 hab.1, Nat.le_trans hab.2 hbc.2⟩

/-- The bytes of a message there. -/
def bytes (a : ByteRun) (message : Bytes) : Bytes := (message.drop a.start).take a.length

end ByteRun

/-- One of several fields of the same width. -/
theorem take_drop_flatMap {α : Type} {size : Nat} {write : α → Bytes}
    (hwrite : ∀ a, (write a).length = size) {l : List α} {i : Nat} {a : α} (h : l[i]? = some a) :
    ((l.flatMap write).drop (i * size)).take size = write a := by
  induction l generalizing i with
  | nil => cases h
  | cons first rest ih =>
    rw [List.flatMap_cons]
    cases i with
    | zero =>
      cases h
      rw [Nat.zero_mul, List.drop_zero, List.take_left' (hwrite _)]
    | succ i =>
      have hskip : (i + 1) * size = (write first).length + i * size := by
        rw [hwrite, Nat.succ_mul, Nat.add_comm]
      rw [hskip, List.drop_length_add_append]
      exact ih h

/-! ## Operands -/

namespace Processor

/-- Where operand `i` lies behind an id. -/
def operandField? (p : Processor) (i : Nat) : Option ByteRun :=
  match p with
  | math _ => if i = 0 then some ⟨4, 4⟩ else none
  | single _ => if i = 0 then some ⟨5, 4⟩ else none
  | multi c => if i < c.references.length then some ⟨3 + i * c.size.toNat, c.size.toNat⟩ else none
  | _ => none

/-- Operand `i` as it is sent. -/
def operandBytes? (p : Processor) (i : Nat) : Option Bytes :=
  match p with
  | math c => if i = 0 then some (leBytes32 c.rhs) else none
  | single c => if i = 0 then some (leBytes 4 c.reference.toUInt64) else none
  | multi c => (c.references[i]?).map fun r => (leBytes 8 r.toUInt64).take c.size.toNat
  | _ => none

theorem length_referenceBytes {size : UInt8} (h : size ≤ 8) (r : Int64) :
    ((leBytes 8 r.toUInt64).take size.toNat).length = size.toNat := by
  rw [List.length_take, length_leBytes]
  exact min_eq_left h

theorem length_encode_multi {c : MultiComparison} (h : c.size ≤ 8) :
    (multi c).encode.length = 2 + c.references.length * c.size.toNat := by
  rw [encode, List.length_cons, body, MultiComparison.body, List.length_cons, List.length_flatMap]
  simp only [length_referenceBytes h, List.map_const', List.sum_replicate_nat]
  omega

/-- The operand lies where its field is, among the bytes of the configuration. -/
theorem bytes_operandField? {p : Processor} {i : Nat} {field : ByteRun}
    (h : p.operandField? i = some field) (hfits : p.fits = true) (id : UInt8) :
    field.Within ⟨1, p.encode.length⟩ ∧
      p.operandBytes? i = some (field.bytes (id :: p.encode)) := by
  cases p with
  | math c =>
    obtain ⟨output, input, signed, op, rhs, channels⟩ := c
    obtain ⟨hi, h⟩ := Option.ite_none_right_eq_some.1 h
    cases h
    rw [operandBytes?, if_pos hi]
    cases channels <;> exact ⟨⟨Nat.le_of_ble_eq_true rfl, Nat.le_of_ble_eq_true rfl⟩, rfl⟩
  | single c =>
    obtain ⟨hi, h⟩ := Option.ite_none_right_eq_some.1 h
    cases h
    rw [operandBytes?, if_pos hi]
    exact ⟨⟨Nat.le_of_ble_eq_true rfl, Nat.le_of_ble_eq_true rfl⟩, rfl⟩
  | multi c =>
    obtain ⟨hi, h⟩ := Option.ite_none_right_eq_some.1 h
    cases h
    have hsize : c.size ≤ 8 := by
      have hsome : c.references.isEmpty = false := by
        rw [List.isEmpty_eq_false_iff, ← List.length_pos_iff]
        omega
      have hfits : (decide (c.size ≤ 8) || c.references.isEmpty) = true := hfits
      rwa [hsome, Bool.or_false, decide_eq_true_iff] at hfits
    refine ⟨⟨Nat.le_add_right_of_le (Nat.le_of_ble_eq_true rfl), ?_⟩, ?_⟩
    · have hbelow := Nat.mul_le_mul_right c.size.toNat (Nat.succ_le_of_lt hi)
      rw [Nat.succ_mul] at hbelow
      rw [length_encode_multi hsize]
      dsimp only
      omega
    · have hget : c.references[i]? = some c.references[i] := List.getElem?_eq_getElem hi
      rw [operandBytes?, hget, Option.map_some,
        ← take_drop_flatMap (length_referenceBytes hsize) hget, ByteRun.bytes, ← List.drop_drop]
      rfl
  | _ => cases h

end Processor

/-! ## Plans

A plan lists feedback without saying which operand each one is for.  The operands of one stage are
fed in their order, so the number of earlier feedbacks of the same stage tells it (`fedInto`).
-/

/-- How many operands of a stage are fed. -/
def fedInto (feedback : List Feedback) (stage : Nat) : Nat :=
  feedback.countP fun f => f.stage == stage

/-- Each feedback is placed at an operand of its stage: the first at the first, the second at the
second, and so on.  The place is a byte, so this is up to multiples of 256. -/
def Plan.Feeds (p : Plan) : Prop :=
  ∀ (k : Nat) (f : Feedback), p.feedback[k]? = some f →
    ∃ (stage : PlannedStage) (field : ByteRun), p.stages[f.stage]? = some stage ∧
      stage.processor.fits = true ∧
      stage.processor.operandField? (fedInto (p.feedback.take k) f.stage) = some field ∧
      f.offset = UInt8.ofNat field.start

theorem Plan.Feeds.of_stages {p p' : Plan} (h : p.Feeds) (hfeedback : p'.feedback = p.feedback)
    (hstages : ∀ (i : Nat) (stage : PlannedStage), p.stages[i]? = some stage →
      ∃ stage' : PlannedStage, p'.stages[i]? = some stage' ∧
        stage'.processor = stage.processor) : p'.Feeds := by
  intro k f hf
  rw [hfeedback] at hf ⊢
  obtain ⟨stage, field, hstage, hfits, hfield, hoffset⟩ := h k f hf
  obtain ⟨stage', hstage', hsame⟩ := hstages _ stage hstage
  exact ⟨stage', field, hstage', hsame ▸ hfits, hsame ▸ hfield, hoffset⟩

namespace Draft

variable {d : Draft}

theorem getElem?_addStage {stage : PlannedStage} {i : Nat} {old : PlannedStage}
    (h : d.plan.stages[i]? = some old) : (d.addStage stage).plan.stages[i]? = some old :=
  (List.getElem?_append_left (List.getElem?_eq_some_iff.1 h).1).trans h

theorem feeds_addStage (h : d.plan.Feeds) (stage : PlannedStage) : (d.addStage stage).plan.Feeds :=
  h.of_stages rfl fun _ old hold => ⟨old, getElem?_addStage hold, rfl⟩

theorem feeds_nameStage (h : d.plan.Feeds) (i : Nat) (name : String) :
    (d.nameStage i name).plan.Feeds := by
  refine h.of_stages rfl fun k old hold => ?_
  have hmodify : (d.nameStage i name).plan.stages[k]? =
      (d.plan.stages[k]?).map fun s => if i = k then { s with name := some name } else s :=
    List.getElem?_modify ..
  rw [hold, Option.map_some] at hmodify
  refine ⟨_, hmodify, ?_⟩
  split <;> rfl

/-- The operands of a new stage are fed, in their order. -/
theorem feeds_addFeedback (h : d.plan.Feeds) {stage : PlannedStage}
    (hfits : stage.processor.fits = true) {feedback : List Feedback}
    (hfed : ∀ (j : Nat) (f : Feedback), feedback[j]? = some f → f.stage = d.plan.stages.length ∧
      ∃ field, stage.processor.operandField? j = some field ∧
        f.offset = UInt8.ofNat field.start) :
    ((d.addStage stage).addFeedback feedback).plan.Feeds := by
  intro k f hf
  have hall : ((d.addStage stage).addFeedback feedback).plan.feedback =
      d.plan.feedback ++ feedback := rfl
  rw [hall] at hf ⊢
  rcases Nat.lt_or_ge k d.plan.feedback.length with hlt | hge
  · rw [List.getElem?_append_left hlt] at hf
    rw [List.take_append_of_le_length (Nat.le_of_lt hlt)]
    exact feeds_addStage h stage k f hf
  · -- the stage is new, so nothing before feeds it, and everything behind does
    obtain ⟨j, rfl⟩ := Nat.exists_eq_add_of_le hge
    rw [List.getElem?_append_right hge, Nat.add_sub_cancel_left] at hf
    obtain ⟨hstage, field, hfield, hoffset⟩ := hfed j f hf
    have hbefore : fedInto d.plan.feedback d.plan.stages.length = 0 := by
      refine List.countP_eq_zero.2 fun g hg => ?_
      obtain ⟨l, hl⟩ := List.mem_iff_getElem?.1 hg
      obtain ⟨_, _, hold, -⟩ := h l g hl
      have := (List.getElem?_eq_some_iff.1 hold).1
      simp only [beq_iff_eq]
      omega
    have hnew : fedInto (feedback.take j) d.plan.stages.length = j := by
      have hlength := (List.getElem?_eq_some_iff.1 hf).1
      have hcount : fedInto (feedback.take j) d.plan.stages.length = (feedback.take j).length := by
        refine List.countP_eq_length.2 fun g hg => ?_
        obtain ⟨l, hl⟩ := List.mem_iff_getElem?.1 (List.mem_of_mem_take hg)
        exact beq_iff_eq.2 (hfed l g hl).1
      rw [hcount, List.length_take]
      omega
    refine ⟨stage, field, ?_, hfits, ?_, hoffset⟩
    · rw [hstage]
      exact List.getElem?_concat_length
    · rw [List.take_length_add_append, fedInto, List.countP_append, hstage]
      show stage.processor.operandField? (fedInto d.plan.feedback _ + fedInto _ _) = _
      rw [hbefore, hnew, Nat.zero_add]
      exact hfield

end Draft

/-! ## Steps -/

/-- The feedback into the operands of one stage. -/
theorem Drafting.getElem?_feeds {stage : Nat} {offset width : UInt8}
    {producers : List (NamedRef × Signal)} {j : Nat} {f : Feedback}
    (h : (feeds stage offset width producers)[j]? = some f) :
    j < producers.length ∧ f.stage = stage ∧ f.offset = offset + UInt8.ofNat j * width := by
  induction producers generalizing offset j with
  | nil => cases h
  | cons first rest ih =>
    cases j with
    | zero =>
      cases h
      refine ⟨Nat.succ_pos _, rfl, ?_⟩
      simp
    | succ j =>
      obtain ⟨hj, hstage, hoffset⟩ := ih h
      refine ⟨Nat.succ_lt_succ hj, hstage, ?_⟩
      rw [hoffset, UInt8.ofNat_add, UInt8.add_mul, UInt8.add_assoc, UInt8.add_comm width]
      simp

namespace Signal

variable {d : Device} {s : Signal} {p : Processor}

/-- The references of a comparison are operands, each behind the one before. -/
theorem comparing_fields {op : ComparisonOp} {mode : ComparisonMode} {references : List Int64}
    (h : s.comparing d op mode references = .ok p) :
    p.fits = true ∧ ∀ j < references.length, ∃ field, p.operandField? j = some field ∧
      UInt8.ofNat field.start =
        (Drafting.referenceSlots p).1 + UInt8.ofNat j * (Drafting.referenceSlots p).2 := by
  obtain ⟨hsize, ⟨-, rfl⟩ | ⟨-, r, rfl, rfl⟩⟩ := comparing_cases h
  · refine ⟨Processor.HasNarrowReferences.fits hsize.2, fun j hj => ⟨_, if_pos hj, ?_⟩⟩
    rw [UInt8.ofNat_add, UInt8.ofNat_mul, UInt8.ofNat_toNat]
    rfl
  · refine ⟨rfl, fun j hj => ?_⟩
    obtain rfl : j = 0 := Nat.lt_one_iff.1 hj
    exact ⟨⟨5, 4⟩, rfl, rfl⟩

/-- The operand of an arithmetic operation. -/
theorem computing_field {op : MathOp} {rhs : Int32} (h : s.computing d op rhs = .ok p) :
    p.fits = true ∧ p.operandField? 0 = some ⟨4, 4⟩ := by
  obtain ⟨c, rfl⟩ := computing_eq_math h
  exact ⟨rfl, rfl⟩

end Signal

/-- What operations do keeps to operands. -/
theorem Draft.Act.feeds {x y : Cursor × Draft} (hact : Draft.Act x y) (h : x.2.plan.Feeds) :
    y.2.plan.Feeds := by
  cases hact with
  | moved hmove hfeedback =>
    cases hmove with
    | emitted => exact Draft.feeds_addStage h _
    | named => exact Draft.feeds_nameStage h _ _
    | fed => exact h.of_stages hfeedback fun _ stage hstage => ⟨stage, hstage, rfl⟩
    | _ => exact h
  | compared hproducers hp hi =>
    obtain ⟨hfits, hfields⟩ := Signal.comparing_fields hp
    refine Draft.feeds_addFeedback h hfits fun j f hf => ?_
    obtain ⟨hj, hstage, hoffset⟩ := Drafting.getElem?_feeds hf
    rw [length_of_mapM hproducers] at hj
    obtain ⟨field, hfield, hstart⟩ := hfields j (by rwa [List.length_map])
    exact ⟨hstage, field, hfield, hoffset.trans hstart.symm⟩
  | computed hproducer hp hi =>
    obtain ⟨hfits, hfield⟩ := Signal.computing_field hp
    refine Draft.feeds_addFeedback h hfits fun j f hf => ?_
    obtain ⟨hj, hstage, hoffset⟩ := Drafting.getElem?_feeds hf
    obtain rfl : j = 0 := Nat.lt_one_iff.1 hj
    exact ⟨hstage, _, hfield, hoffset⟩

/-- **Steps feed operands**, whether or not they fail. -/
theorem Drafting.feeds_run (steps : List Step) (c : Cursor) (d : Draft) (h : d.plan.Feeds) :
    (Step.run c steps d).2.plan.Feeds := by
  obtain ⟨next, hacts, -⟩ := acts_run steps c d
  suffices hall : ∀ x, Relation.ReflTransGen Draft.Act (c, d) x → x.2.plan.Feeds from hall _ hacts
  intro x hx
  induction hx with
  | refl => exact h
  | tail _ hact ih => exact hact.feeds ih

/-! ## Events -/

/-- How many bytes of a notification a token stands for. -/
def tokenLength (token : UInt8) : Nat := ((token >>> 1) &&& 0x7).toNat + 1

theorem tokenLength_dataToken (length offset : UInt8) :
    tokenLength (dataToken length offset) = (length.toNat - 1) % 8 + 1 := by
  have hbits : (dataToken length offset >>> 1) &&& 0x7 = lessOne length &&& 0x7 := by
    rw [dataToken]
    have hlow : (lessOne length &&& 0x7).toNat ≤ 7 := UInt8.and_le_right
    generalize lessOne length &&& 0x7 = n at hlow
    have hcases : n = 0 ∨ n = 1 ∨ n = 2 ∨ n = 3 ∨ n = 4 ∨ n = 5 ∨ n = 6 ∨ n = 7 := by
      simp only [← UInt8.toNat_inj, UInt8.reduceToNat]
      omega
    revert offset
    rcases hcases with rfl | rfl | rfl | rfl | rfl | rfl | rfl | rfl <;>
      exact forall_byte (by decide +kernel)
  rw [tokenLength, hbits, UInt8.toNat_and, toNat_lessOne]
  exact congrArg (· + 1) (Nat.and_two_pow_sub_one_eq_mod _ 3)

/-- Where the board writes bytes of a notification into the parameters of an event.  An event that
runs its command as it is has no such place. -/
def BoardEvent.written? (e : BoardEvent) : Option ByteRun :=
  match e.entry with
  | [_, _, _, _, _, _, token, place] => some ⟨place.toNat, tokenLength token⟩
  | _ => none

/-- What the board stores to feed an operand of `target`. -/
def Feedback.row (f : Feedback) (placed : List Placed) (target : Placed) : BoardEvent where
  entry := (f.signal.withId (f.producer.resolve placed)).address.toBytes ++
    [Module.processor, ProcessorReg.parameter, UInt8.ofNat (target.processor.encode.length + 1),
      dataToken f.signal.shape.length f.signal.shape.offset, f.offset]
  parameters := target.id :: target.processor.encode

namespace Programming

theorem createFeedback_apply {f : Feedback} {site : Site} {target : Placed}
    (h : site.placed[f.stage]? = some target) :
    createFeedback f site =
      createEvent (f.row site.placed target).entry (f.row site.placed target).parameters site := by
  rw [createFeedback, get_bind_apply, h, Signal.shape_withId]
  rfl

/-- Only fusers get ids that were not in the plan. -/
theorem settle_of_operandField? {stage : PlannedStage} {i : Nat} {field : ByteRun}
    (h : stage.processor.operandField? i = some field) (placed : List Placed) :
    settle stage placed = stage.processor := by
  rw [settle]
  split
  · rename_i hfuser
    rw [hfuser] at h
    cases h
  · rfl

end Programming

/-- Behind the stages of the plan `p`, feedback `f` is programmed as `event`.  It feeds operand `i`
of its stage, which lies at `field` in the parameters of the event, and has the board write the
bytes of `run`, as many as the producer has, up to multiples of eight. -/
structure Feedback.Programmed (f : Feedback) (p : Plan) (i : Nat) (site : Site) (event : BoardEvent)
    (field run : ByteRun) : Prop where
  command : Programming.createFeedback f site =
    Programming.createEvent event.entry event.parameters site
  operand : ∃ stage target, p.stages[f.stage]? = some stage ∧ site.placed[f.stage]? = some target ∧
    event.parameters = target.id :: stage.processor.encode ∧
    stage.processor.operandField? i = some field ∧
    stage.processor.operandBytes? i = some (field.bytes event.parameters)
  inside : field.Within ⟨0, event.parameters.length⟩
  written : event.written? = some run
  width : run.length = (f.signal.shape.length.toNat - 1) % 8 + 1
  place : run.start = field.start % 256

/-- The operand lies where the stage says. -/
theorem Feedback.Programmed.field_eq {f : Feedback} {p : Plan} {i : Nat} {site : Site}
    {event : BoardEvent} {field run : ByteRun} (h : f.Programmed p i site event field run)
    {stage : PlannedStage} (hstage : p.stages[f.stage]? = some stage) {field' : ByteRun}
    (hfield : stage.processor.operandField? i = some field') : field' = field := by
  obtain ⟨stage', -, hstage', -, -, hfield', -⟩ := h.operand
  obtain rfl : stage = stage' := Option.some.inj (hstage.symm.trans hstage')
  exact Option.some.inj (hfield.symm.trans hfield')

/-- The board writes within the operand, and so within the parameters, exactly if the place did not
wrap and the operand is as wide as what is written. -/
theorem Feedback.Programmed.within_iff {f : Feedback} {p : Plan} {i : Nat} {site : Site}
    {event : BoardEvent} {field run : ByteRun} (h : f.Programmed p i site event field run) :
    run.Within ⟨0, event.parameters.length⟩ ∧ run.Within field ↔
      field.start < 256 ∧ run.length ≤ field.length := by
  obtain ⟨-, -, ⟨-, hinside⟩, -, hwidth, hplace⟩ := h
  simp only [ByteRun.Within] at hinside ⊢
  omega

/-- **Each feedback is programmed as an event for an operand of its stage.** -/
theorem Plan.Feeds.programmed {p : Plan} (h : p.Feeds) {k : Nat} {f : Feedback}
    (hf : p.feedback[k]? = some f) {site : Site} (hplaced : StagesPlaced p.stages site.placed) :
    ∃ event field run,
      f.Programmed p (fedInto (p.feedback.take k) f.stage) site event field run := by
  obtain ⟨stage, field, hstage, hfits, hfield, hoffset⟩ := h k f hf
  obtain ⟨id, htarget⟩ := hplaced.getElem?_placing hstage
  have hsettled := Programming.settle_of_operandField? hfield (site.placed.take f.stage)
  obtain ⟨hinside, hbytes⟩ := Processor.bytes_operandField? hfield hfits id
  have hparameters : (f.row site.placed (Programming.placing stage _ id)).parameters =
      id :: stage.processor.encode := congrArg (fun q => id :: Processor.encode q) hsettled
  refine ⟨_, field, _, Programming.createFeedback_apply htarget, ?_, ?_, rfl,
    tokenLength_dataToken _ _, ?_⟩
  · exact ⟨stage, _, hstage, htarget, hparameters, hfield, hparameters ▸ hbytes⟩
  · rw [hparameters, List.length_cons, Nat.add_comm]
    exact hinside.trans ⟨Nat.zero_le _, Nat.le_of_eq (Nat.zero_add _).symm⟩
  · rw [hoffset, UInt8.toNat_ofNat']

end SignalRoute
