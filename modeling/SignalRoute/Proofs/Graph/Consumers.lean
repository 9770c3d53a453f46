import SignalRoute.Proofs.Log.Framing
import SignalRoute.Proofs.Log.Merging
import SignalRoute.Proofs.Log.Stamping

/-!
# Consumers of the log

Each logged signal has a consumer in the graph, with the ids of its loggers, a merge queue and a
mailbox.  `Graph.Tuned` says that no two consumers share any of these, and that nobody waits for the
rest of a sample.

`Graph.Took g told g'` says what has become of such a graph when some records were brought to it,
each with its time: every mailbox has got the samples of its own consumer, `LoggerEntry.samples`,
which are decoded from the complete rows of the entries of its loggers; each merge queue holds the
entries of incomplete rows; and nothing else is different.

`Graph.Took.handle` is the step: whatever `Reconciler.handle` does to one record more keeps this,
and reports the record if nobody consumes it.

The invariant compares the graph with the one before the first record, and not with the previous
one, so it can be read off at any point of a download: what a mailbox holds is what it held, and
behind it the samples of everything that was told so far.  Whether the records came in one playback
or in several makes no difference to it.
-/

set_option autoImplicit false

namespace SignalRoute

/-! ## Mailboxes -/

namespace PostOffice

variable (p : PostOffice) (i j : Nat)

theorem isOpen_deliver (s : Sample) : (p.deliver i s).isOpen j = p.isOpen j := by
  rw [isOpen, isOpen, deliver, List.getElem?_modify]
  cases p.boxes[j]? with
  | none => rfl
  | some box =>
    by_cases h : i = j
    · simp only [h, if_true, Option.map_eq_map, Option.map_some]
      split <;> rfl
    · simp [h]

theorem waiting_deliver (s : Sample) (h : p.isOpen i = true) :
    (p.deliver i s).waiting j = if j = i then p.waiting j ++ [s] else p.waiting j := by
  rw [isOpen] at h
  rw [waiting, waiting, deliver, List.getElem?_modify]
  by_cases hij : j = i
  · obtain rfl := hij
    cases hbox : p.boxes[j]? with
    | none => simp [hbox] at h
    | some box =>
      rw [hbox] at h
      simp [show box.isOpen = true from h]
  · rw [if_neg hij]
    cases p.boxes[j]? with
    | none => rfl
    | some box => simp [Ne.symm hij]

end PostOffice

namespace Graph

/-- The graph with samples delivered to a mailbox. -/
def post (g : Graph) (mailbox : Nat) (samples : List Sample) : Graph :=
  samples.foldl (fun g s => g.deliver mailbox s) g

variable (g : Graph) (mailbox : Nat) (samples : List Sample)

theorem post_eq : g.post mailbox samples = { g with mail := (g.post mailbox samples).mail } := by
  induction samples generalizing g with
  | nil => rfl
  | cons s rest ih => exact ih (g.deliver mailbox s)

theorem isOpen_post (i : Nat) : (g.post mailbox samples).mail.isOpen i = g.mail.isOpen i := by
  induction samples generalizing g with
  | nil => rfl
  | cons s rest ih => exact (ih (g.deliver mailbox s)).trans (g.mail.isOpen_deliver mailbox i s)

theorem waiting_post (i : Nat) (h : g.mail.isOpen mailbox = true) :
    (g.post mailbox samples).mail.waiting i =
      if i = mailbox then g.mail.waiting i ++ samples else g.mail.waiting i := by
  induction samples generalizing g with
  | nil => simp [post]
  | cons s rest ih =>
    have hopen : (g.deliver mailbox s).mail.isOpen mailbox = true :=
      (g.mail.isOpen_deliver mailbox mailbox s).trans h
    have hone : (g.deliver mailbox s).mail.waiting i = _ := g.mail.waiting_deliver mailbox i s h
    refine (ih (g.deliver mailbox s) hopen).trans ?_
    rw [hone]
    split <;> simp

end Graph

/-! ## What a consumer makes of records

Functions of the records with their times, which know nothing of graphs.  A consumer sees the
records of its own loggers only, so a record of another logger changes neither its queue nor its
samples.
-/

/-- The samples in joined data. -/
def Signal.samples (s : Signal) (joined : Stamped) : List Sample :=
  match s.decodeAll joined.data with
  | .ok readings => readings.map fun r => ⟨joined.time, r⟩
  | .error _ => []

/-- What records with their times put into merge queues. -/
def pushes (told : List (LogRecord × Instant)) : List (UInt8 × Stamped) :=
  told.map fun x => (x.1.logId, ⟨x.2, x.1.data⟩)

theorem pushes_concat (told : List (LogRecord × Instant)) (r : LogRecord) (time : Instant) :
    pushes (told ++ [(r, time)]) = pushes told ++ [(r.logId, ⟨time, r.data⟩)] := List.map_append

namespace LoggerEntry

variable (e : LoggerEntry) (told : List (LogRecord × Instant)) {r : LogRecord} {time : Instant}

/-- The consumer behind some records: its queue holds what is incomplete. -/
def holding : LoggerEntry := { e with merge := .holding e.ids (pushes told) }

/-- The samples that a consumer gets out of some records. -/
def samples : List Sample :=
  (MergeQueue.merged e.ids (pushes told)).flatMap e.signal.samples

theorem contains_holding (id : UInt8) :
    (e.holding told).merge.contains id = true ↔ id ∈ e.ids := by
  show (MergeQueue.holding e.ids (pushes told)).ids.contains id = true ↔ _
  rw [MergeQueue.ids_holding, List.contains_iff_mem]

variable {e told}

theorem holding_concat_of_not_mem (h : r.logId ∉ e.ids) :
    e.holding (told ++ [(r, time)]) = e.holding told := by
  rw [holding, pushes_concat, MergeQueue.holding_concat_of_not_mem h, holding]

theorem samples_concat_of_not_mem (h : r.logId ∉ e.ids) :
    e.samples (told ++ [(r, time)]) = e.samples told := by
  rw [samples, pushes_concat, MergeQueue.merged_concat_of_not_mem h, samples]

/-- A record takes the queue of its consumer on, and what comes out is decoded. -/
theorem push_holding (told : List (LogRecord × Instant)) (r : LogRecord) (time : Instant)
    (h : e.ids.Nodup) :
    ∃ joined : Option Stamped,
      (e.holding told).merge.push r.logId ⟨time, r.data⟩ =
        (joined, (e.holding (told ++ [(r, time)])).merge) ∧
      e.samples (told ++ [(r, time)]) =
        e.samples told ++ joined.toList.flatMap e.signal.samples := by
  have hpush : (e.holding told).merge.push r.logId ⟨time, r.data⟩ = _ :=
    MergeQueue.push_holding h
  refine ⟨((e.holding told).merge.push r.logId ⟨time, r.data⟩).1, Prod.ext rfl ?_, ?_⟩
  · rw [hpush, ← pushes_concat]
    rfl
  · rw [samples, pushes_concat, MergeQueue.merged_concat, List.flatMap_append, hpush]
    rfl

/-- The readings in joined data do not depend on its time. -/
theorem readings_flatMap_samples (s : Signal) (joined : List Stamped) :
    (joined.flatMap s.samples).map Sample.reading =
      (joined.map Stamped.data).flatMap fun data => (s.decodeAll data).toOption.getD [] := by
  rw [List.map_flatMap, List.flatMap_map]
  refine List.flatMap_congr fun entry _ => ?_
  rw [Signal.samples]
  cases s.decodeAll entry.data with
  | error fault => rfl
  | ok readings => exact (List.map_map ..).trans (List.map_id _)

/-- Consumers read the same out of the same records, whatever times these were given. -/
theorem readings_samples {told' : List (LogRecord × Instant)} (e : LoggerEntry)
    (h : told.map Prod.fst = told'.map Prod.fst) :
    (e.samples told).map Sample.reading = (e.samples told').map Sample.reading := by
  have huntimed (told : List (LogRecord × Instant)) : (pushes told).map MergeQueue.untimed =
      (told.map Prod.fst).map fun r => (r.logId, r.data) := by
    rw [pushes, List.map_map, List.map_map]
    rfl
  have hpushes : (pushes told).map MergeQueue.untimed = (pushes told').map MergeQueue.untimed := by
    rw [huntimed, huntimed, h]
  rw [samples, samples, readings_flatMap_samples, readings_flatMap_samples,
    MergeQueue.map_data_merged hpushes]

end LoggerEntry

/-! ## Graphs that took records -/

namespace Graph

/-- No two consumers have a logger or a mailbox in common, their mailboxes are open and their queues
are empty. -/
structure Tuned (g : Graph) : Prop where
  ids : (g.loggers.flatMap LoggerEntry.ids).Nodup
  mailboxes : (g.loggers.map LoggerEntry.mailbox).Nodup
  isOpen : ∀ e ∈ g.loggers, g.mail.isOpen e.mailbox = true
  idle : ∀ e ∈ g.loggers, e.merge = .ofIds e.ids

/-- The records that nobody consumes, as they are reported. -/
def unknowns (g : Graph) (told : List (LogRecord × Instant)) : List Notice :=
  (told.filter fun x => !g.hasLogger x.1.logId).map fun x => .unknown x.1.logId x.2 x.1.data

/-- The graph is `g` with the records brought to their consumers. -/
structure Took (g : Graph) (told : List (LogRecord × Instant)) (g' : Graph) : Prop where
  loggers : g'.loggers = g.loggers.map fun e => e.holding told
  isOpen : ∀ i, g'.mail.isOpen i = g.mail.isOpen i
  waiting : ∀ e ∈ g.loggers,
    g'.mail.waiting e.mailbox = g.mail.waiting e.mailbox ++ e.samples told
  others : ∀ i ∉ g.loggers.map LoggerEntry.mailbox, g'.mail.waiting i = g.mail.waiting i
  rest : g' = { g with loggers := g'.loggers, mail := g'.mail }

variable {g g' : Graph} {told : List (LogRecord × Instant)} {r : LogRecord} {time : Instant}

theorem unknowns_append (g : Graph) (xs ys : List (LogRecord × Instant)) :
    g.unknowns (xs ++ ys) = g.unknowns xs ++ g.unknowns ys := by
  rw [unknowns, List.filter_append, List.map_append]
  rfl

theorem hasLogger_iff (g : Graph) (id : UInt8) :
    g.hasLogger id = true ↔ ∃ e ∈ g.loggers, id ∈ e.ids := by
  rw [hasLogger, List.any_eq_true]
  refine exists_congr fun e => and_congr_right fun _ => ?_
  rw [MergeQueue.contains, List.contains_iff_mem]
  rfl

theorem Tuned.took (h : g.Tuned) : g.Took [] g where
  loggers := by
    refine (List.map_id _).symm.trans (List.map_congr_left fun e he => ?_)
    have hmerge : MergeQueue.holding e.ids (pushes []) = e.merge := by
      rw [h.idle e he]
      exact MergeQueue.holding_nil
    rw [LoggerEntry.holding, hmerge]
    rfl
  isOpen _ := rfl
  waiting e _ := by
    have hfewest : MergeQueue.fewest e.ids (pushes []) = 0 := by
      by_cases hids : e.ids = []
      · simp [MergeQueue.fewest, hids]
      · by_contra hpos
        obtain ⟨id, hid⟩ := List.exists_mem_of_ne_nil _ hids
        exact hpos (Nat.le_zero.1 (MergeQueue.fewest_le hid))
    rw [LoggerEntry.samples, MergeQueue.merged, hfewest]
    exact (List.append_nil _).symm
  others _ _ := rfl
  rest := rfl

/-- The consumers around the one of a record. -/
theorem Tuned.exists_consumer (h : g.Tuned) {id : UInt8} (hid : g.hasLogger id = true) :
    ∃ before e after, g.loggers = before ++ e :: after ∧ id ∈ e.ids ∧ e.ids.Nodup ∧
      (∀ e' ∈ before ++ after, id ∉ e'.ids ∧ e'.mailbox ≠ e.mailbox) := by
  obtain ⟨e, he, hide⟩ := (g.hasLogger_iff id).1 hid
  obtain ⟨before, after, hloggers⟩ := List.append_of_mem he
  have hids := h.ids
  have hmailboxes := h.mailboxes
  rw [hloggers, List.nodup_flatMap] at hids
  rw [hloggers, List.map_append, List.map_cons, List.nodup_middle, List.nodup_cons,
    ← List.map_append] at hmailboxes
  refine ⟨before, e, after, hloggers, hide, hids.1 e (by simp), fun e' he' => ⟨?_, ?_⟩⟩
  · have hapart := (List.pairwise_middle fun hxy => hxy.symm).1 hids.2
    exact fun hid' => (List.pairwise_cons.1 hapart).1 e' he' hide hid'
  · exact fun heq => hmailboxes.1 (heq ▸ List.mem_map_of_mem he')

theorem modifyOwner_append {id : UInt8} {f : LoggerEntry → LoggerEntry}
    {before after : List LoggerEntry} {e : LoggerEntry}
    (hbefore : ∀ e' ∈ before, ¬e'.merge.contains id = true) (he : e.merge.contains id = true) :
    modifyOwner id f (before ++ e :: after) = before ++ f e :: after := by
  induction before with
  | nil => exact if_pos he
  | cons first rest ih =>
    rw [List.cons_append, modifyOwner, if_neg (hbefore first List.mem_cons_self),
      ih fun e' he' => hbefore e' (List.mem_cons_of_mem _ he')]
    rfl

/-- Delivering joined data posts its samples, if the mailbox is open. -/
theorem deliver_eq (r : Reconciler) (g : Graph) (id : UInt8) (e : LoggerEntry) (joined : Stamped)
    (hopen : g.mail.isOpen e.mailbox = true) :
    (r.deliver g id e joined).graph = g.post e.mailbox (e.signal.samples joined) ∧
      (r.deliver g id e joined).reconciler = r ∧ (r.deliver g id e joined).notices = [] ∧
      (r.deliver g id e joined).outcome ≠ .error .overrun := by
  rw [Reconciler.deliver, Signal.samples]
  cases hdecode : e.signal.decodeAll joined.data with
  | error fault =>
    refine ⟨rfl, rfl, rfl, fun h => ?_⟩
    obtain rfl : fault = .overrun := Except.error.inj h
    exact e.signal.decodeAll_ne_overrun joined.data hdecode
  | ok readings =>
    simp only [hopen, if_true]
    refine ⟨?_, trivial, trivial, fun h => nomatch h⟩
    rw [deliverAll, if_pos hopen, post, List.foldl_map]

namespace Took

variable {r : Reconciler} {record : LogRecord} {now : Instant}

/-- A record that nobody consumes changes nothing. -/
theorem handle_unknown (h : g.Took told g') (hnone : g.hasLogger record.logId = false)
    (htell : (r.clock.tell now record.reset record.tick).1 = .ok (some time)) :
    g.Took (told ++ [(record, time)]) (r.handle now g' record).graph ∧
      (r.handle now g' record).notices = [.unknown record.logId time record.data] ∧
      (r.handle now g' record).outcome ≠ .error .overrun := by
  have hout : ∀ e ∈ g.loggers, record.logId ∉ e.ids := fun e he hid => by
    rw [(g.hasLogger_iff _).2 ⟨e, he, hid⟩] at hnone
    cases hnone
  have hfind : g'.logger? record.logId = none := by
    rw [logger?, h.loggers, List.find?_eq_none]
    intro e' he'
    obtain ⟨e, he, rfl⟩ := List.mem_map.1 he'
    rw [e.contains_holding]
    exact hout e he
  rw [Reconciler.handle]
  simp only [htell, hfind]
  refine ⟨⟨?_, h.isOpen, fun e he => ?_, h.others, h.rest⟩, trivial, fun h => nomatch h⟩
  · rw [h.loggers]
    exact List.map_congr_left fun e he =>
      (LoggerEntry.holding_concat_of_not_mem (hout e he)).symm
  · rw [h.waiting e he, LoggerEntry.samples_concat_of_not_mem (hout e he)]

/-- What a record makes one consumer decode is posted to its mailbox. -/
theorem posted {told' : List (LogRecord × Instant)} {e : LoggerEntry} {samples : List Sample}
    (h : g.Took told g') (he : e ∈ g.loggers) (hopen : g'.mail.isOpen e.mailbox = true)
    (hsamples : e.samples told' = e.samples told ++ samples)
    (hothers : ∀ e' ∈ g.loggers, e' = e ∨ e'.mailbox ≠ e.mailbox ∧
      e'.samples told' = e'.samples told) :
    g.Took told' (post { g' with loggers := g.loggers.map fun e => e.holding told' }
      e.mailbox samples) := by
  have hwaiting (i : Nat) := waiting_post
    { g' with loggers := g.loggers.map fun e => e.holding told' } e.mailbox samples i hopen
  refine ⟨?_, fun i => ?_, fun e' he' => ?_, fun i hi => ?_, ?_⟩
  · rw [post_eq]
  · rw [isOpen_post]
    exact h.isOpen i
  · rw [hwaiting]
    rcases hothers e' he' with rfl | ⟨hne, hsame⟩
    · rw [if_pos rfl, h.waiting e' he', hsamples, List.append_assoc]
    · rw [if_neg hne, h.waiting e' he', hsame]
  · have hne : i ≠ e.mailbox := fun heq => hi (heq ▸ List.mem_map_of_mem he)
    rw [hwaiting, if_neg hne]
    exact h.others i hi
  · rw [post_eq, h.rest]

/-- A record goes into the queue of its consumer, and what comes out of that is posted. -/
theorem handle_known (htuned : g.Tuned) (h : g.Took told g')
    (hsome : g.hasLogger record.logId = true)
    (htell : (r.clock.tell now record.reset record.tick).1 = .ok (some time)) :
    g.Took (told ++ [(record, time)]) (r.handle now g' record).graph ∧
      (r.handle now g' record).notices = [] ∧
      (r.handle now g' record).outcome ≠ .error .overrun := by
  obtain ⟨before, e, after, hsplit, hid, hnodup, hothers⟩ := htuned.exists_consumer hsome
  obtain ⟨joined, hpush, hsamples⟩ := LoggerEntry.push_holding told record time hnodup
  have hloggers := h.loggers
  rw [hsplit, List.map_append, List.map_cons] at hloggers
  have hbefore : ∀ e' ∈ before.map fun e => e.holding told,
      ¬e'.merge.contains record.logId = true := by
    intro e' he'
    obtain ⟨e'', he'', rfl⟩ := List.mem_map.1 he'
    rw [e''.contains_holding]
    exact (hothers e'' (List.mem_append_left _ he'')).1
  have hfind : g'.logger? record.logId = some (e.holding told) := by
    rw [logger?, hloggers, List.find?_append, List.find?_eq_none.2 hbefore, Option.none_or]
    exact List.find?_cons_of_pos ((e.contains_holding told record.logId).2 hid)
  have hkeep : ∀ e' ∈ before ++ after, e'.holding told = e'.holding (told ++ [(record, time)]) :=
    fun e' he' => (LoggerEntry.holding_concat_of_not_mem (hothers e' he').1).symm
  have hset : g'.setMerge record.logId (e.holding (told ++ [(record, time)])).merge =
      { g' with loggers := g.loggers.map fun e => e.holding (told ++ [(record, time)]) } := by
    rw [setMerge, hloggers, modifyOwner_append hbefore ((e.contains_holding told _).2 hid), hsplit,
      List.map_append, List.map_cons,
      List.map_congr_left fun e' he' => hkeep e' (List.mem_append_left _ he'),
      List.map_congr_left fun e' he' => hkeep e' (List.mem_append_right _ he')]
    rfl
  have hopen : g'.mail.isOpen e.mailbox = true :=
    (h.isOpen e.mailbox).trans (htuned.isOpen e (by simp [hsplit]))
  have hposted := h.posted (by simp [hsplit]) hopen hsamples fun e' he' => by
    have hmem : e' = e ∨ e' ∈ before ++ after := by simpa [hsplit, or_left_comm] using he'
    exact hmem.imp_right fun hmem =>
      ⟨(hothers e' hmem).2, LoggerEntry.samples_concat_of_not_mem (hothers e' hmem).1⟩
  rw [Reconciler.handle]
  simp only [htell, hfind, hpush, hset]
  cases joined with
  | none => exact ⟨hposted, rfl, fun h => nomatch h⟩
  | some joined =>
    obtain ⟨hgraph, -, hnotices, houtcome⟩ := deliver_eq
      { r with clock := (r.clock.tell now record.reset record.tick).2 }
      { g' with loggers := g.loggers.map fun e => e.holding (told ++ [(record, time)]) }
      record.logId (e.holding told) joined hopen
    refine ⟨?_, hnotices, houtcome⟩
    rw [Option.toList_some, List.flatMap_singleton] at hposted
    rw [hgraph]
    exact hposted

/-- What becomes of a record. -/
theorem handle (htuned : g.Tuned) (h : g.Took told g')
    (hok : (r.clock.tell now record.reset record.tick).1.isOk = true) :
    g.Took (told ++ TickClock.timed record (r.clock.tell now record.reset record.tick).1)
        (r.handle now g' record).graph ∧
      (r.handle now g' record).notices =
        g.unknowns (TickClock.timed record (r.clock.tell now record.reset record.tick).1) ∧
      (r.handle now g' record).outcome ≠ .error .overrun := by
  cases htell : (r.clock.tell now record.reset record.tick).1 with
  | error fault =>
    rw [htell] at hok
    cases hok
  | ok time =>
    cases time with
    | none =>
      rw [Reconciler.handle]
      simp only [htell, TickClock.timed, List.append_nil]
      exact ⟨h, rfl, fun h => nomatch h⟩
    | some time =>
      rw [TickClock.timed, unknowns, List.filter_singleton]
      cases hknown : g.hasLogger record.logId with
      | false => exact h.handle_unknown hknown htell
      | true => exact h.handle_known htuned hknown htell

end Took
end Graph

/-- Handling a record changes nothing of a reconciler but its clock. -/
theorem Reconciler.reconciler_handle (r : Reconciler) (now : Instant) (g : Graph)
    (record : LogRecord) :
    (r.handle now g record).reconciler =
      { r with clock := (r.clock.tell now record.reset record.tick).2 } := by
  rw [handle]
  dsimp only
  split
  · rfl
  · rfl
  · split
    · rfl
    · split
      · rfl
      · rw [deliver]
        split
        · rfl
        · split <;> rfl

end SignalRoute
