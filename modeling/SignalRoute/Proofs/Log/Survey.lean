import SignalRoute.Log.Anonymous
import SignalRoute.Proofs.Board.Growth
import SignalRoute.Proofs.Codec.RoundTrip
import SignalRoute.Proofs.Link.Wired
import SignalRoute.Proofs.Outcome

/-!
# Reading the tables of a board

A survey asks the board for the entries of its tables, one at a time.  `l.Reads b` says that the
link reaches a board that has the tables of `b`; questions leave it that way, so what they lead to
can be told from `b` alone.

* `Rebuilding.readProcessor_eq`: a processor comes back with the address and the byte range of its
  input, and with what can be decoded of its configuration.
* `readLoggers_eq`: the loggers before the first empty place are found, each with its byte range.

Both tables are read in the same way, and a question says which one is meant (`TableRead`): its
command, what its answer is known by, and what the board answers.  What surveys need to know of a
link is therefore proved once for every question, and the two readers differ only in what they make
of the answer.
-/

set_option autoImplicit false

namespace SignalRoute

/-! ## Questions -/

/-- A question for an entry of a table. -/
inductive TableRead where
  | logger (id : UInt8)
  | processor (id : UInt8)
deriving DecidableEq

namespace TableRead

def command : TableRead → Bytes
  | logger id => [Module.logging, readForm LogReg.trigger, id]
  | processor id => [Module.processor, readForm ProcessorReg.add, id]

/-- What the answer is known by.  An answer about a logger need not say which one it is about. -/
def key : TableRead → ReplyKey
  | logger _ => .register Module.logging (readForm LogReg.trigger)
  | processor id => .indexed Module.processor (readForm ProcessorReg.add) id

/-- What the board answers.  A slot without a processor is answered with its id only, and one
without a logger without even that. -/
def answer (b : SimulatedBoard) : TableRead → Bytes
  | logger id =>
    [Module.logging, readForm LogReg.trigger] ++
      match b.loggers.find? id with
      | some source => id :: source
      | none => []
  | processor id =>
    [Module.processor, readForm ProcessorReg.add, id] ++
      match b.processors.find? id with
      | some row => row.source ++ row.config
      | none => []

variable {b : SimulatedBoard} (q : TableRead)

/-- **A question is answered from the table**, and changes nothing. -/
theorem handle_command (b : SimulatedBoard) :
    b.handle q.command = ([.frame (q.answer b)], b.heard q.command) := by
  cases q with
  | logger id =>
    cases hrow : b.loggers.find? id <;>
      simp only [command, answer, SimulatedBoard.handle, SimulatedBoard.handleLogging, hrow] <;> rfl
  | processor id =>
    cases hrow : b.processors.find? id <;>
      simp only [command, answer, SimulatedBoard.handle, SimulatedBoard.handleProcessor, hrow] <;>
      rfl

theorem admits_answer (b : SimulatedBoard) : q.key.admits (q.answer b) = true := by
  cases q <;> simp [key, answer, ReplyKey.admits, ReplyKey.indexed, ReplyKey.register]

theorem answer_congr {now : SimulatedBoard} (hprocessors : now.processors = b.processors)
    (hloggers : now.loggers = b.loggers) : q.answer now = q.answer b := by
  cases q with
  | logger id => simp only [answer, hloggers]
  | processor id => simp only [answer, hprocessors]

end TableRead

/-- The link reaches a board with the tables of `b`, and refuses nothing. -/
def Link.Reads (l : Link) (b : SimulatedBoard) : Prop :=
  ∃ now, l.Wired now ∧ l.transport.refuse = 0 ∧ now.processors = b.processors ∧
    now.loggers = b.loggers

section

variable {l : Link} {b : SimulatedBoard}

/-- A question is answered from the tables, which can be asked again. -/
theorem Link.Reads.request (h : l.Reads b) (q : TableRead) (what : String) :
    ∃ l', Link.request q.command q.key what l = (.ok (q.answer b), l') ∧ l'.Reads b := by
  obtain ⟨now, hwired, hrefuse, hprocessors, hloggers⟩ := h
  have hnext : (l.carried q.command (now.heard q.command)).Wired (now.heard q.command) :=
    hwired.carried q.command hwired.live
  rw [← q.answer_congr hprocessors hloggers]
  exact ⟨_, Link.request_of_reply hwired (fun hr => hr.1 hrefuse) (q.handle_command now)
    (q.admits_answer now) what, now.heard q.command, hnext.idle, hrefuse, hprocessors, hloggers⟩

/-! ## Processors -/

namespace Rebuilding

theorem check_apply {α : Type} (outcome : Except Fault α) (s : Survey) :
    check outcome s = (outcome, s) := by
  cases outcome <;> rfl

/-- A processor that was placed is read back from the table. -/
theorem readProcessor_eq {d : Device} {s : Survey} (h : s.link.Reads b) {p : Placed}
    (hrow : b.processors.find? p.id = some p.row.2) {q : Processor}
    (hq : Processor.decode d p.processor.encode = .ok q) :
    ∃ l, readProcessor d p.id s
        = (.ok ((p.source.address, unpackRange (packedSource p.source)), q), { s with link := l }) ∧
      l.Reads b := by
  obtain ⟨l, hl, hreads⟩ := h.request (.processor p.id) "processor read"
  refine ⟨l, ?_, hreads⟩
  have hanswer : (TableRead.processor p.id).answer b =
      [Module.processor, readForm ProcessorReg.add, p.id] ++ (p.row.2.source ++ p.row.2.config) := by
    rw [TableRead.answer, hrow]
  rw [TableRead.command, TableRead.key, hanswer] at hl
  have hlink : onLink (Link.request [Module.processor, readForm ProcessorReg.add, p.id]
      (.indexed Module.processor (readForm ProcessorReg.add) p.id) "processor read") s =
      (.ok ([Module.processor, readForm ProcessorReg.add, p.id] ++
        (p.row.2.source ++ p.row.2.config)), { s with link := l }) := by
    rw [onLink, hl]
  have hcheck (s : Survey) : check (Processor.decode d p.processor.encode) s = (.ok q, s) := by
    rw [check_apply, hq]
  rw [readProcessor, bind_apply_ok hlink]
  show (check (Processor.decode d p.processor.encode) >>= fun q => _) _ = _
  rw [bind_apply_ok (hcheck _)]
  rfl

end Rebuilding

/-! ## Loggers -/

/-- The logger of a chunk of a signal. -/
def Signal.loggerSource (s : Signal) (id : UInt8) (chunk : UInt8 × UInt8) : LoggerSource :=
  ⟨id, s.address, chunk.2, s.shape.offset + chunk.1⟩

/-- Can the byte range of a chunk be named, so that it comes back? -/
def Signal.NamesChunk (s : Signal) (chunk : UInt8 × UInt8) : Prop :=
  unpackRange (packRange chunk.2 (s.shape.offset + chunk.1)) = (chunk.2, s.shape.offset + chunk.1)

/-- A slot is read as the board answers for it. -/
theorem readLogger_answer (h : l.Reads b) (id : UInt8) :
    ∃ l', readLogger id l = (.ok (LoggerSlot.ofReply id ((TableRead.logger id).answer b)), l') ∧
      l'.Reads b := by
  obtain ⟨l', hl, hreads⟩ := h.request (.logger id) "logger read"
  rw [readLogger]
  exact ⟨l', bind_apply_ok hl, hreads⟩

/-- A logger is read back from the table. -/
theorem readLogger_eq (h : l.Reads b) {s : Signal} {id : UInt8} {chunk : UInt8 × UInt8}
    (hrow : b.loggers.find? id = some (s.logRow chunk)) (hchunk : s.NamesChunk chunk) :
    ∃ l', readLogger id l = (.ok (.used (s.loggerSource id chunk)), l') ∧ l'.Reads b := by
  obtain ⟨l', hl, hreads⟩ := readLogger_answer h id
  refine ⟨l', hl.trans ?_, hreads⟩
  rw [TableRead.answer, hrow]
  show (Except.ok (if id = id then LoggerSlot.used ⟨id, s.address,
    (unpackRange (packRange chunk.2 (s.shape.offset + chunk.1))).1,
    (unpackRange (packRange chunk.2 (s.shape.offset + chunk.1))).2⟩ else .empty), l') = _
  rw [if_pos rfl, show unpackRange _ = _ from hchunk]
  rfl

/-- An empty place is taken for the end of the table. -/
theorem readLogger_none (h : l.Reads b) {id : UInt8} (hrow : b.loggers.find? id = none) :
    ∃ l', readLogger id l = (.ok .tableEnd, l') ∧ l'.Reads b := by
  obtain ⟨l', hl, hreads⟩ := readLogger_answer h id
  rw [TableRead.answer, hrow] at hl
  exact ⟨l', hl, hreads⟩

/-- Loggers that lie before the first empty place are found. -/
theorem readLoggers_eq {g : Graph} (hg : ∀ id, g.hasLogger id = false) (s : Signal)
    {pairs : List (UInt8 × UInt8 × UInt8)} {rest : List UInt8} (h : l.Reads b)
    (hrows : ∀ e ∈ pairs, b.loggers.find? e.1 = some (s.logRow e.2))
    (hchunks : ∀ e ∈ pairs, s.NamesChunk e.2)
    (hrest : ∀ id ∈ rest.head?, b.loggers.find? id = none) :
    ∃ l', readLoggers g (pairs.map Prod.fst ++ rest) l
        = (.ok (pairs.map fun e => s.loggerSource e.1 e.2), l') ∧ l'.Reads b := by
  induction pairs generalizing l with
  | nil =>
    cases rest with
    | nil => exact ⟨l, rfl, h⟩
    | cons id rest =>
      obtain ⟨l', hl, hreads⟩ := readLogger_none h (hrest id rfl)
      refine ⟨l', ?_, hreads⟩
      rw [List.map_nil, List.nil_append, readLoggers, hg, if_neg Bool.false_ne_true,
        bind_apply_ok hl]
      rfl
  | cons e pairs ih =>
    obtain ⟨l₁, hl₁, hreads₁⟩ :=
      readLogger_eq h (hrows e List.mem_cons_self) (hchunks e List.mem_cons_self)
    obtain ⟨l₂, hl₂, hreads₂⟩ := ih hreads₁ (fun e he => hrows e (List.mem_cons_of_mem _ he))
      fun e he => hchunks e (List.mem_cons_of_mem _ he)
    refine ⟨l₂, ?_, hreads₂⟩
    rw [List.map_cons, List.cons_append, readLoggers, hg, if_neg Bool.false_ne_true,
      bind_apply_ok hl₁]
    show (readLoggers g (pairs.map Prod.fst ++ rest) >>= fun sources => _) l₁ = _
    rw [bind_apply_ok hl₂]
    rfl

end
end SignalRoute
