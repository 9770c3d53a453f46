import Mathlib.Logic.Relation
import SignalRoute.Host
import SignalRoute.Proofs.Log.Covering

/-!
# Walking down chains of processors

To rebuild the output of a processor, a survey reads its entry in the table of the board, rebuilds
all that feeds it, and only then remembers it.  On the way down nothing keeps it from reading an
entry again, but a bound on the depth.

`b.Feeds d y x` says that by its entry `x` is fed by `y`.  Whatever the entries are, a processor that
could be rebuilt has only finite chains behind it (`Rebuilding.walks_processor`): so what was read for
it was not read before, and what was read before is not read again.  A chain that leads into a cycle
is followed until it is too deep, and then the survey is over; up to there everything else that was
read had been rebuilt.

So a survey reads each processor once if it succeeds, and no more than there are ids and links in the
longest chain if it does not (`Host.adoptLogs_walks`).

The accounts of a walk are kept in lists of ids: what was known before, what was read on top of it,
and what of that is remembered.  A walk that fails has read some processors without remembering
them, but never more than the depth that it had left, and this difference is all that has to be
carried through the recursion.
-/

set_option autoImplicit false

namespace SignalRoute

/-! ## What feeds a processor

A relation on ids and not on processors, because this is all that an entry names.  An entry that
cannot be decoded feeds from what its source says and fuses nothing.
-/

/-- Is it an address at which a processor puts something out? -/
def Address.isFromProcessor (a : Address) : Bool :=
  a.isProcessor && (a.register == ProcessorReg.notify || a.register == ProcessorReg.state)

namespace SimulatedBoard

/-- The entry of `x` says that it is fed by `y`. -/
inductive Feeds (b : SimulatedBoard) (d : Device) : UInt8 → UInt8 → Prop
  | source {x y : UInt8} {row : BoardProcessor} {module register packed : UInt8} {config : Bytes}
      (hrow : b.processors.find? x = some row)
      (hbytes : row.source ++ row.config = module :: register :: y :: packed :: config)
      (houtput : (⟨module, register, y⟩ : Address).isFromProcessor = true) : Feeds b d y x
  | fused {x y : UInt8} {row : BoardProcessor} {module register id packed : UInt8} {config : Bytes}
      {p : Processor} (hrow : b.processors.find? x = some row)
      (hbytes : row.source ++ row.config = module :: register :: id :: packed :: config)
      (hdecode : Processor.decode d config = .ok p) (hy : y ∈ Rebuilding.fusedIds p) : Feeds b d y x

variable {b : SimulatedBoard} {d : Device}

/-- `y` is somewhere behind `x`, or it is `x`. -/
def Behind (b : SimulatedBoard) (d : Device) (x y : UInt8) : Prop :=
  Relation.ReflTransGen (fun x y => b.Feeds d y x) x y

/-- All chains behind a processor come to an end. -/
abbrev Ends (b : SimulatedBoard) (d : Device) (x : UInt8) : Prop := Acc (b.Feeds d) x

/-- The chain of processors behind an address leads into a cycle. -/
def Cycles (b : SimulatedBoard) (d : Device) (a : Address) : Prop :=
  a.isFromProcessor = true ∧
    ∃ x, b.Behind d a.id x ∧ Relation.TransGen (fun x y => b.Feeds d y x) x x

/-- What comes to an end has no part in a cycle. -/
theorem Ends.not_cycle {x : UInt8} (h : b.Ends d x) :
    ¬Relation.TransGen (fun x y => b.Feeds d y x) x x := by
  induction h with
  | intro x _ ih =>
    intro hcycle
    obtain ⟨y, hfirst, hback⟩ := Relation.TransGen.head'_iff.1 hcycle
    exact ih y hfirst (Relation.TransGen.tail' hback hfirst)

theorem Ends.behind {x y : UInt8} (h : b.Ends d x) (hxy : b.Behind d x y) : b.Ends d y := by
  induction hxy with
  | refl => exact h
  | tail _ hfeeds ih => exact ih.inv hfeeds

/-- A processor comes to an end if all that its entry names does. -/
theorem Ends.of_entry {x : UInt8} {row : BoardProcessor} {a : Address} {packed : UInt8}
    {config : Bytes} {p : Processor} (hrow : b.processors.find? x = some row)
    (hbytes : row.source ++ row.config = a.module :: a.register :: a.id :: packed :: config)
    (hdecode : Processor.decode d config = .ok p)
    (hsource : a.isFromProcessor = true → b.Ends d a.id)
    (hfused : ∀ y ∈ Rebuilding.fusedIds p, b.Ends d y) : b.Ends d x := by
  refine Acc.intro x fun y hy => ?_
  cases hy with
  | source hrow' hbytes' houtput =>
    rw [hrow] at hrow'
    cases hrow'
    rw [hbytes] at hbytes'
    cases hbytes'
    exact hsource houtput
  | fused hrow' hbytes' hdecode' hy =>
    rw [hrow] at hrow'
    cases hrow'
    rw [hbytes] at hbytes'
    cases hbytes'
    rw [hdecode] at hdecode'
    cases hdecode'
    exact hfused y hy

theorem not_ends_of_cycles {a : Address} (h : b.Cycles d a) : ¬b.Ends d a.id := by
  obtain ⟨-, x, hbehind, hcycle⟩ := h
  exact fun hends => (hends.behind hbehind).not_cycle hcycle

end SimulatedBoard

/-! ## What a survey reads

The invariant of a survey (`Survey.Knows`), what a part of it adds (`Survey.Learns`) and where it
may end (`Survey.Stops`).  `Rebuilding.Walks` puts them together for one operation, and has a rule
for each way of composing operations.
-/

section

variable {b : SimulatedBoard} {d : Device} {before : Link} {questions : List TableRead}
  {known : List UInt8}

/-- After `questions`, the survey remembers the processors `known`; all of these come to an end. -/
structure Survey.Knows (b : SimulatedBoard) (d : Device) (before : Link)
    (questions : List TableRead) (known : List UInt8) (s : Survey) : Prop where
  link : before.Asked b questions s.link
  rebuilt : ∀ id, s.rebuilt.contains id = true ↔ id ∈ known
  nodup : known.Nodup
  ends : ∀ id ∈ known, b.Ends d id

/-- Processors with `P` were read as well, and are remembered. -/
def Survey.Learns (b : SimulatedBoard) (d : Device) (before : Link) (questions : List TableRead)
    (known : List UInt8) (P : UInt8 → Prop) (s : Survey) : Prop :=
  ∃ read : List UInt8,
    s.Knows b d before (questions ++ read.map .processor) (known ++ read) ∧ ∀ id ∈ read, P id

/-- Processors were read as well, all but `depth` of which were remembered. -/
def Survey.Stops (before : Link) (questions : List TableRead) (known : List UInt8) (depth : Nat)
    (s : Survey) : Prop :=
  ∃ read done : List UInt8, before.Sent (questions ++ read.map .processor) s.link ∧
    (known ++ done).Nodup ∧ read.length ≤ done.length + depth

namespace Survey

variable {P P' : UInt8 → Prop} {s : Survey} {depth : Nat}

theorem knows_empty {l : Link} (h : before.Asked b questions l) :
    (⟨l, .empty⟩ : Survey).Knows b d before questions [] where
  link := h
  rebuilt _ := ⟨fun h => (nomatch h), fun h => (nomatch h)⟩
  nodup := List.nodup_nil
  ends := List.forall_mem_nil _

theorem Knows.learns (h : s.Knows b d before questions known) :
    s.Learns b d before questions known P := by
  refine ⟨[], ?_, List.forall_mem_nil _⟩
  rwa [List.map_nil, List.append_nil, List.append_nil]

theorem Learns.mono (h : s.Learns b d before questions known P) (hP : ∀ id, P id → P' id) :
    s.Learns b d before questions known P' := by
  obtain ⟨read, hs, hread⟩ := h
  exact ⟨read, hs, fun id hid => hP id (hread id hid)⟩

theorem Learns.stops (h : s.Learns b d before questions known P) :
    s.Stops before questions known depth := by
  obtain ⟨read, hs, -⟩ := h
  exact ⟨read, read, hs.link.sent, hs.nodup, Nat.le_add_right _ _⟩

theorem Stops.mono (h : s.Stops before questions known depth) {more : Nat} (hle : depth ≤ more) :
    s.Stops before questions known more := by
  obtain ⟨read, done, hsent, hnodup, hlength⟩ := h
  exact ⟨read, done, hsent, hnodup, by omega⟩

theorem Knows.asked (h : s.Knows b d before questions known) {more : List TableRead} {l : Link}
    (hl : before.Asked b more l) : ({ s with link := l } : Survey).Knows b d before more known :=
  { h with link := hl }

/-- What is remembered need not be read. -/
theorem Knows.ends_of_find? (h : s.Knows b d before questions known) {id : UInt8} {r : Rebuilt}
    (hr : s.rebuilt.find? id = some r) : b.Ends d id := by
  refine h.ends id ((h.rebuilt id).1 ?_)
  rw [IdTable.contains, hr]
  rfl

/-- What is read on top of what was read. -/
theorem Learns.append {read : List UInt8} (hread : ∀ id ∈ read, P id)
    (h : s.Learns b d before (questions ++ read.map .processor) (known ++ read) P) :
    s.Learns b d before questions known P := by
  obtain ⟨more, hs, hmore⟩ := h
  rw [List.append_assoc, List.append_assoc, ← List.map_append] at hs
  exact ⟨read ++ more, hs, List.forall_mem_append.2 ⟨hread, hmore⟩⟩

theorem Stops.append {read : List UInt8}
    (h : s.Stops before (questions ++ read.map .processor) (known ++ read) depth) :
    s.Stops before questions known depth := by
  obtain ⟨more, done, hsent, hnodup, hlength⟩ := h
  rw [List.append_assoc, ← List.map_append] at hsent
  rw [List.append_assoc] at hnodup
  refine ⟨read ++ more, read ++ done, hsent, hnodup, ?_⟩
  rw [List.length_append, List.length_append]
  omega

/-- One link further down the chain. -/
theorem Stops.below {id : UInt8}
    (h : s.Stops before (questions ++ [.processor id]) known depth) :
    s.Stops before questions known (depth + 1) := by
  obtain ⟨read, done, hsent, hnodup, hlength⟩ := h
  rw [List.append_assoc] at hsent
  exact ⟨id :: read, done, hsent, hnodup, Nat.succ_le_succ hlength⟩

/-- A processor is remembered once all that is behind it is, and it had been read first. -/
theorem Learns.remember {id : UInt8}
    (h : s.Learns b d before (questions ++ [.processor id]) known
      (Relation.TransGen (fun x y => b.Feeds d y x) id))
    (hends : b.Ends d id) (hfresh : id ∉ known) (r : Rebuilt) :
    ({ s with rebuilt := s.rebuilt.insert id r } : Survey).Learns b d before questions known
      (b.Behind d id) := by
  obtain ⟨read, hs, hread⟩ := h
  have hunread : id ∉ read := fun hid => hends.not_cycle (hread id hid)
  refine ⟨id :: read, ⟨?_, fun j => ?_, ?_, ?_⟩, ?_⟩
  · have hlink := hs.link
    rwa [List.append_assoc] at hlink
  · rw [IdTable.contains_insert, Bool.or_eq_true, beq_iff_eq, hs.rebuilt]
    simp only [List.mem_append, List.mem_cons]
    tauto
  · refine (List.perm_middle.nodup_iff).2 (List.nodup_cons.2 ⟨?_, hs.nodup⟩)
    rw [List.mem_append]
    exact fun hid => hid.elim hfresh hunread
  · intro j hj
    rcases List.mem_append.1 hj with hold | hnew
    · exact hs.ends j (List.mem_append_left _ hold)
    · rcases List.mem_cons.1 hnew with rfl | hbehind
      · exact hends
      · exact hs.ends j (List.mem_append_right _ hbehind)
  · exact List.forall_mem_cons.2
      ⟨Relation.ReflTransGen.refl, fun j hj => (hread j hj).to_reflTransGen⟩

end Survey

namespace Rebuilding

variable {α β : Type} {P P' : UInt8 → Prop} {depth : Nat} {H H' : Prop} {op : Rebuilding α}

/-- A part of a survey that reads processors with `P`, each once, if it succeeds, and then `H` is
true; and otherwise reads at most `depth` processors in vain. -/
def Walks (b : SimulatedBoard) (d : Device) (P : UInt8 → Prop) (depth : Nat) (op : Rebuilding α)
    (H : Prop) : Prop :=
  ∀ before questions known, Leads (Survey.Knows b d before questions known) op
    (fun _ s => s.Learns b d before questions known P ∧ H)
    fun _ s => s.Stops before questions known depth

namespace Walks

theorem pure (a : α) (h : H) : Walks b d P depth (Pure.pure a) H :=
  fun _ _ _ _ hs => ⟨hs.learns, h⟩

theorem throw (fault : Fault) : Walks b d P depth (throw fault : Rebuilding α) H :=
  fun _ _ _ _ hs => (Survey.Knows.learns (P := fun _ => True) hs).stops

theorem check (outcome : Except Fault α) : Walks b d P depth (check outcome) True := by
  cases outcome with
  | error fault => exact throw fault
  | ok a => exact pure a trivial

theorem mono (h : Walks b d P depth op H) (hP : ∀ id, P id → P' id) (hH : H → H') :
    Walks b d P' depth op H' := fun before questions known =>
  (h before questions known).weaken (fun _ hs => hs)
    (fun _ _ hs => ⟨hs.1.mono hP, hH hs.2⟩) fun _ _ hs => hs

/-- The walk goes on from where others have led. -/
theorem after (h : Walks b d P depth op H) :
    Leads (Survey.Learns b d before questions known P) op
      (fun _ s => s.Learns b d before questions known P ∧ H)
      fun _ s => s.Stops before questions known depth := by
  rintro s ⟨read, hs, hread⟩
  exact ((h before _ _).weaken (fun _ hs => hs) (fun _ _ hs => ⟨hs.1.append hread, hs.2⟩)
    fun _ _ hs => hs.append) s hs

theorem bind {f : α → Rebuilding β} (h : Walks b d P depth op H)
    (hf : H → ∀ a, Walks b d P depth (f a) H') : Walks b d P depth (op >>= f) H' :=
  fun before questions known => (h before questions known).bind fun a =>
    Leads.pull fun ha => (hf ha a).after

theorem mapM {f : α → Rebuilding β} {l : List α} {H : α → Prop}
    (h : ∀ a ∈ l, Walks b d P depth (f a) (H a)) :
    Walks b d P depth (l.mapM f) (∀ a ∈ l, H a) := by
  induction l with
  | nil =>
    rw [List.mapM_nil]
    exact pure [] (List.forall_mem_nil _)
  | cons a rest ih =>
    rw [List.mapM_cons]
    refine (h a List.mem_cons_self).bind fun ha _ => ?_
    refine (ih fun x hx => h x (List.mem_cons_of_mem _ hx)).bind fun hrest _ => ?_
    exact pure _ (List.forall_mem_cons.2 ⟨ha, hrest⟩)

end Walks

/-! ## Processors -/

/-- A processor that was read is what its entry says. -/
theorem leads_readProcessor_entry (d : Device) (id : UInt8) :
    Leads (Survey.Knows b d before questions known) (readProcessor d id)
      (fun x s => s.Knows b d before (questions ++ [.processor id]) known ∧
        ∃ row packed config, b.processors.find? id = some row ∧
          row.source ++ row.config =
            x.1.1.module :: x.1.1.register :: x.1.1.id :: packed :: config ∧
          Processor.decode d config = .ok x.2)
      fun _ s => s.Stops before questions known 1 := by
  have hrequest : Leads (Survey.Knows b d before questions known)
      (onLink (Link.request (TableRead.processor id).command (TableRead.processor id).key
        "processor read"))
      (fun reply s => s.Knows b d before (questions ++ [.processor id]) known ∧
        reply = (TableRead.processor id).answer b) fun _ s => s.Stops before questions known 1 := by
    intro s hs
    have hlink := (TableRead.processor id).leads_request "processor read" s.link hs.link
    rw [onLink]
    rcases hout : Link.request (TableRead.processor id).command (TableRead.processor id).key
        "processor read" s.link with ⟨fault | reply, l⟩ <;> rw [hout] at hlink
    · rcases hlink with hlink | hlink
      · exact ⟨[], [], by rwa [List.map_nil, List.append_nil], by simpa using hs.nodup, by simp⟩
      · exact ⟨[id], [], hlink, by simpa using hs.nodup, by simp⟩
    · exact ⟨hs.asked hlink.1, hlink.2⟩
  have hstop {α : Type} {Q : α → Survey → Prop} (fault : Fault) :
      Leads (Survey.Knows b d before (questions ++ [.processor id]) known)
        (throw fault : Rebuilding α) Q fun _ s => s.Stops before questions known 1 :=
    fun s hs => (Survey.Knows.learns (P := fun _ => True) hs).stops.below
  refine hrequest.bind fun reply => Leads.pull fun hreply => ?_
  rw [hreply, TableRead.answer]
  cases hrow : b.processors.find? id with
  | none => exact hstop _
  | some row =>
    dsimp only [List.cons_append, List.nil_append]
    rcases hbytes : row.source ++ row.config with
      _ | ⟨module, _ | ⟨register, _ | ⟨sourceId, _ | ⟨packed, config⟩⟩⟩⟩
    · exact hstop _
    · exact hstop _
    · exact hstop _
    · exact hstop _
    · dsimp only
      split
      · exact hstop _
      · cases hdecode : Processor.decode d config with
        | error fault => exact hstop _
        | ok p => exact Leads.pure _ fun s hs => ⟨hs, row, packed, config, rfl, hbytes, hdecode⟩

variable {find : UInt8 → Rebuilding Inferred} {catalog : Catalog}

theorem walks_source {a : Address}
    (hfind : a.isFromProcessor = true → Walks b d P depth (find a.id) (b.Ends d a.id))
    (length offset : UInt8) :
    Walks b d P depth (source catalog find a length offset)
      (a.isFromProcessor = true → b.Ends d a.id) := by
  rw [source]
  split
  · rename_i hnotify
    have hfrom : a.isFromProcessor = true := by
      rw [Bool.and_eq_true] at hnotify
      simp [Address.isFromProcessor, hnotify]
    exact (hfind hfrom).bind fun hends _ => .pure _ fun _ => hends
  · split
    · rename_i hstate
      have hfrom : a.isFromProcessor = true := by
        rw [Bool.and_eq_true] at hstate
        simp [Address.isFromProcessor, hstate]
      exact (hfind hfrom).bind fun hends _ => .pure _ fun _ => hends
    · rename_i hnotify hstate
      refine .pure _ fun hfrom => ?_
      rw [Address.isFromProcessor] at hfrom
      grind

theorem walks_fusedState {id : UInt8} (hfind : Walks b d P depth (find id) H) :
    Walks b d P depth (fusedState find id) H := by
  refine hfind.bind fun hH outputs => ?_
  split
  · exact .pure _ hH
  · exact .throw _

variable (b d catalog) in
/-- **A processor that could be rebuilt has only finite chains behind it**, and only what is in them
was read for it. -/
theorem walks_processor (depth : Nat) (id : UInt8) :
    Walks b d (b.Behind d id) depth (processor d catalog depth id) (b.Ends d id) := by
  induction depth generalizing id with
  | zero =>
    intro before questions known
    rw [processor]
    refine Leads.get_bind fun s hs => ?_
    split
    · rename_i r hr
      exact Walks.pure _ (hs.ends_of_find? hr) before questions known
    · exact Walks.throw _ before questions known
  | succ depth ih =>
    intro before questions known
    rw [processor]
    refine Leads.get_bind fun s hs => ?_
    split
    · rename_i r hr
      exact Walks.pure _ (hs.ends_of_find? hr) before questions known
    · rename_i hnew
      have hfresh : id ∉ known := by
        rw [← hs.rebuilt id, IdTable.contains, hnew]
        exact Bool.false_ne_true
      refine Leads.bind ((leads_readProcessor_entry d id).weaken (fun _ h => h) (fun _ _ h => h)
        fun _ _ h => h.mono (Nat.le_add_left 1 depth)) fun x => Leads.pull fun hentry => ?_
      obtain ⟨⟨a, length, offset⟩, p⟩ := x
      obtain ⟨row, packed, config, hrow, hbytes, hdecode⟩ := hentry
      dsimp only at hbytes hdecode ⊢
      -- what feeds it is read for it, with all that is behind
      have hfind (y : UInt8) (hy : b.Feeds d y id) :
          Walks b d (Relation.TransGen (fun x y => b.Feeds d y x) id) depth
            (processor d catalog depth y) (b.Ends d y) :=
        (ih y).mono (fun _ hbehind => Relation.TransGen.head' hy hbehind) fun hends => hends
      refine Leads.weaken (P := Survey.Learns b d before (questions ++ [.processor id]) known
        (Relation.TransGen (fun x y => b.Feeds d y x) id))
        (E := fun _ s => s.Stops before (questions ++ [.processor id]) known depth)
        ?_ (fun _ h => h.learns) (fun _ _ h => h) fun _ _ h => h.below
      refine (walks_source (fun hfrom => hfind a.id (.source hrow hbytes hfrom)) length
        offset).after.bind fun input => Leads.pull fun hsource => ?_
      refine (Walks.mapM fun y hy => walks_fusedState
        (hfind y (.fused hrow hbytes hdecode hy))).after.bind fun fused => Leads.pull fun hfused => ?_
      refine (Walks.check _).after.bind fun inferred => Leads.pull fun _ => ?_
      have hends : b.Ends d id := .of_entry hrow hbytes hdecode hsource hfused
      exact fun s hs => ⟨hs.remember hends hfresh _, hends⟩

end Rebuilding

/-! ## Surveys -/

/-- Ranges are rebuilt one after the other, and what is behind them is read once. -/
theorem adoptAll_walks {catalog : Catalog} {ranges : List LoggedRange}
    {survey survey' : Survey} {g g' : Graph} {outcome : Except Fault (List AnonymousRoute)}
    (h : survey.Learns b d before questions known fun _ => True)
    (hrun : adoptAll d catalog ranges survey g = (outcome, survey', g')) :
    match outcome with
    | .ok _ => survey'.Learns b d before questions known (fun _ => True) ∧
        ∀ r ∈ ranges, r.address.isFromProcessor = true → b.Ends d r.address.id
    | .error _ => survey'.Stops before questions known maxChain := by
  induction ranges generalizing survey g outcome survey' g' with
  | nil =>
    cases hrun
    exact ⟨h, List.forall_mem_nil _⟩
  | cons r rest ih =>
    have hlogged : Rebuilding.Walks b d (fun _ => True) maxChain
        (Rebuilding.logged d catalog r)
        (r.address.isFromProcessor = true → b.Ends d r.address.id) :=
      (Rebuilding.walks_source (fun _ => Rebuilding.walks_processor b d catalog maxChain _)
        r.length r.offset).mono (fun _ _ => trivial) fun h => h
    have hstep := hlogged.after survey h
    rw [adoptAll] at hrun
    rcases hfirst : Rebuilding.logged d catalog r survey with ⟨fault | s, survey₁⟩ <;>
      rw [hfirst] at hrun hstep
    · cases hrun
      exact hstep
    · dsimp only at hrun hstep
      rcases hrest : adoptAll d catalog rest survey₁ (g.adopt catalog r s).2 with
        ⟨fault | routes, survey₂, g₂⟩ <;> rw [hrest] at hrun <;> cases hrun
      · exact ih hstep.1 hrest
      · obtain ⟨hlearns, hends⟩ := ih hstep.1 hrest
        exact ⟨hlearns, List.forall_mem_cons.2 ⟨hstep.2, hends⟩⟩

end

namespace Host

/-- **A survey comes to an end, whatever the tables hold.**  It asks for at most 32 loggers and reads
at most 288 entries of processors; if it succeeds, it has read none of these twice; and if the chain
behind a logger that it finds leads into a cycle, it fails. -/
theorem adoptLogs_walks {h : Host} {b : SimulatedBoard} (hfaces : h.station.link.Faces b) :
    (∃ loggers processors : List UInt8,
      h.adoptLogs.2.station.link.transport.sent = h.station.link.transport.sent ++
        (loggers.map TableRead.logger ++ processors.map TableRead.processor).map
          TableRead.command ∧
      loggers.length ≤ 32 ∧ processors.length ≤ 288 ∧
      ∀ routes, h.adoptLogs.1 = .ok routes → processors.Nodup) ∧
    ∀ id s, b.IsNew h.station.graph id → b.logger? id = some s →
      b.Cycles h.settings.device s.address → ∃ fault, h.adoptLogs.1 = .error fault := by
  have hread := leads_readLoggers_new h.station.graph loggerIds h.station.link hfaces.asked
  rw [adoptLogs, onStation, adoptLoggers]
  rcases hsources : readLoggers h.station.graph loggerIds h.station.link with ⟨fault | sources, l⟩ <;>
    rw [hsources] at hread
  · -- the table of loggers could not be read
    obtain ⟨read, hsent, hlength⟩ := hread
    refine ⟨⟨read, [], ?_, hlength, Nat.zero_le _, fun _ _ => List.nodup_nil⟩,
      fun _ _ _ _ _ => ⟨fault, rfl⟩⟩
    rw [List.map_nil, List.append_nil]
    exact hsent
  · obtain ⟨read, hlink, hlength, -, rfl⟩ := hread
    have hbegin := Survey.knows_empty (d := h.settings.device) hlink
    dsimp only
    rcases hall : adoptAll h.settings.device h.catalog
        (groupLoggers (b.newLoggers h.station.graph loggerIds)) ⟨l, .empty⟩ h.station.graph with
      ⟨fault | routes, survey, g⟩ <;> have hwalk := adoptAll_walks hbegin.learns hall <;> dsimp only
    · obtain ⟨processors, done, hsent, hnodup, hmore⟩ := hwalk
      refine ⟨⟨read, processors, hsent, hlength, ?_, fun _ hok => by cases hok⟩,
        fun _ _ _ _ _ => ⟨fault, rfl⟩⟩
      have hdone := length_le_of_nodup hnodup
      rw [List.nil_append] at hdone
      exact Nat.le_trans hmore (Nat.add_le_add_right hdone 32)
    · obtain ⟨⟨processors, hknows, -⟩, hends⟩ := hwalk
      have hnodup : processors.Nodup := hknows.nodup
      refine ⟨⟨read, processors, hknows.link.sent, hlength,
        Nat.le_trans (length_le_of_nodup hnodup) (by decide), fun _ _ => hnodup⟩,
        fun id s hnew hs hcycles => ?_⟩
      -- the logger is in a range, and what is behind this came to an end
      have hmem : s ∈ b.newLoggers h.station.graph loggerIds := by
        rw [SimulatedBoard.mem_newLoggers, SimulatedBoard.id_of_logger? hs]
        exact ⟨hnew, hs⟩
      obtain ⟨r, hr, haddress⟩ := exists_range_of_mem
        (fun _ ht => SimulatedBoard.named_of_logger? (SimulatedBoard.mem_newLoggers.1 ht).2) hmem
      have hcycles' : b.Cycles h.settings.device r.address := haddress ▸ hcycles
      exact absurd (hends r hr hcycles'.1) (SimulatedBoard.not_ends_of_cycles hcycles')

/-- A board with a logger of processor 6, which is fed by processor 5, which is fed from `source`. -/
def twoProcessors (source : Bytes) : SimulatedBoard :=
  { SimulatedBoard.start .standard with
    loggers := ⟨[(0, [0x09, 0x03, 0x06, 0x00])]⟩
    processors := ⟨[(5, ⟨source, [0x01, 0x00, 0x00, 0x00]⟩),
      (6, ⟨[0x09, 0x03, 0x05, 0x00], [0x01, 0x00, 0x00, 0x00]⟩)]⟩ }

/-- The two processors feed each other. -/
def twoInCircle : SimulatedBoard := twoProcessors [0x09, 0x03, 0x06, 0x00]

/-- The two processors are behind the switch. -/
def twoInARow : SimulatedBoard := twoProcessors [0x01, 0x01, 0xff, 0x00]

theorem faces_twoProcessors (source : Bytes) :
    (atRest .standard (.toBoard (twoProcessors source)) 0).station.link.Faces
      (twoProcessors source) :=
  ⟨⟨_, rfl, rfl, rfl⟩, rfl, rfl, fun _ h => nomatch h⟩

/-- A survey fails because the processors feed each other: if the switch feeds them instead, it
succeeds, and reads none of them twice. -/
theorem adoptLogs_walks_twoInCircle :
    ((atRest .standard (.toBoard twoInCircle) 0).station.link.Faces twoInCircle ∧
      twoInCircle.Cycles Settings.standard.device ⟨0x09, 0x03, 0x06⟩ ∧
      ∃ fault, (atRest .standard (.toBoard twoInCircle) 0).adoptLogs.1 = .error fault) ∧
    ∃ routes, (atRest .standard (.toBoard twoInARow) 0).adoptLogs.1 = .ok routes ∧
      ∃ loggers processors : List UInt8,
        (atRest .standard (.toBoard twoInARow) 0).adoptLogs.2.station.link.transport.sent =
          (loggers.map TableRead.logger ++ processors.map TableRead.processor).map
            TableRead.command ∧
        processors.Nodup := by
  have hcycles : twoInCircle.Cycles Settings.standard.device ⟨0x09, 0x03, 0x06⟩ :=
    ⟨rfl, 6, .refl, .tail (.single (.source (y := 5) rfl rfl rfl)) (.source rfl rfl rfl)⟩
  have hnew : twoInCircle.IsNew (atRest .standard (.toBoard twoInCircle) 0).station.graph 0 :=
    ⟨by decide, rfl, rfl, fun j hj => absurd hj (UInt8.not_lt_zero)⟩
  refine ⟨⟨faces_twoProcessors _, hcycles,
    (adoptLogs_walks (faces_twoProcessors _)).2 0 _ hnew rfl hcycles⟩, ?_⟩
  obtain ⟨⟨loggers, processors, hsent, -, -, hnodup⟩, -⟩ := adoptLogs_walks (faces_twoProcessors
    [0x01, 0x01, 0xff, 0x00])
  have hok : (atRest .standard (.toBoard twoInARow) 0).adoptLogs.1.isOk = true := by
    decide +kernel
  cases hroutes : (atRest .standard (.toBoard twoInARow) 0).adoptLogs.1 with
  | error fault =>
    rw [hroutes] at hok
    cases hok
  | ok routes => exact ⟨routes, rfl, loggers, processors, hsent, hnodup routes hroutes⟩

end Host
end SignalRoute
