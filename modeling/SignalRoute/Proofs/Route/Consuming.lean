import SignalRoute.Proofs.Log.Accounting
import SignalRoute.Proofs.Log.Recording
import SignalRoute.Proofs.Route.Enclosing

/-!
# Consumers of routes can read

A route has a logger for every four bytes of a signal that it logs, whatever the link does and
whatever ids come back (`Plan.logged_of_program`).  So the entries of a row are as many bytes as the
signal has at least, and the consumer, which reads them from offset 0 on, finds all samples
(`Signal.Encloses.reads_logged`).  `Graph.Orderly.enter` concludes that the consumers of the graph
stay orderly when a route is entered.

The link may do what it likes here, since the number of loggers is decided by the signal and not by
the answers: a creation without an answer ends the program, and then nothing is entered.
-/

set_option autoImplicit false

namespace SignalRoute

/-! ## As many entries as there are bytes -/

/-- Four bytes for each chunk are enough. -/
theorem le_length_logChunks {fuel start length : Nat} (h : length ≤ start + fuel) :
    length - start ≤ (logChunks fuel start length).length * logEntrySize := by
  induction fuel generalizing start with
  | zero => omega
  | succ fuel ih =>
    rw [logChunks]
    split
    · have hrest := @ih (start + logEntrySize) (by rw [logEntrySize]; omega)
      rw [List.length_cons]
      rw [logEntrySize] at hrest ⊢
      omega
    · omega

theorem Signal.unitLength_le_logChunks (s : Signal) :
    s.shape.unitLength.toNat ≤ s.logChunks.length * logEntrySize := by
  have hall := @le_length_logChunks s.shape.unitLength.toNat 0 s.shape.unitLength.toNat
    (Nat.le_add_left _ _)
  rwa [Nat.sub_zero] at hall

/-- A signal that was logged can be read of the entries of its loggers. -/
theorem Signal.Encloses.reads_logged {s : Signal} (h : s.Encloses Shape.Compact)
    (hcopies : 1 ≤ s.shape.copies) {raw : Bytes}
    (hraw : raw.length = s.logChunks.length * logEntrySize) :
    ∃ readings, (s.atOffset 0).decodeAll raw = .ok readings := by
  have hstart : (0 : UInt8).toNat + s.shape.length.toNat ≤ maxPayload := by
    rw [h.shape.toNat_length]
    exact Nat.le_trans (Nat.le_of_eq (Nat.zero_add _)) h.shape.width_le
  have hmoved := (h.atOffset hstart).mono fun _ hshape => hshape.exact
  refine hmoved.decodeAll_isOk_iff.2 (.inr ?_)
  have hcopies : 1 ≤ s.shape.copies.toNat := hcopies
  have hunit := h.shape.toNat_unitLength
  rw [Shape.bytes, ← h.shape.toNat_length] at hunit
  have hchunks := s.unitLength_le_logChunks
  rw [s.shape_atOffset, Shape.reach, hraw]
  show 0 + s.shape.length.toNat * max s.shape.copies.toNat 1 ≤ _
  rw [Nat.zero_add, Nat.max_eq_left hcopies, ← hunit]
  exact hchunks

/-! ## What is programmed -/

/-- There is an id for each chunk of the signal, whatever the link does. -/
theorem Programming.length_of_createLog {c : Cursor} {ids : List UInt8} {site site' : Site}
    (h : createLog c site = (.ok ids, site')) : ids.length = c.signal.logChunks.length := by
  have hlength := (createLog_sent h).2
  rw [Signal.triggers, List.length_map, Signal.logChunks, c.shape_resolve] at hlength
  exact hlength

/-- **A plan that was programmed has a logger for each chunk of what it logs.** -/
theorem Plan.logged_of_program {p : Plan} {link : Link} {loggers : List (List UInt8)} {site : Site}
    (h : p.program ⟨link, [], [], []⟩ = (.ok loggers, site)) :
    List.Forall₂ (fun c ids => ids.length = c.signal.logChunks.length) p.logs loggers := by
  obtain ⟨_, staged, -, h⟩ := bind_apply_eq_ok.1 h
  obtain ⟨loggers', logged, hlogs, h⟩ := bind_apply_eq_ok.1 h
  obtain ⟨_, reacted, -, h⟩ := bind_apply_eq_ok.1 h
  obtain ⟨_, fed, -, h⟩ := bind_apply_eq_ok.1 h
  obtain ⟨_, switched, -, h⟩ := bind_apply_eq_ok.1 h
  cases h
  have hall : Leads (fun _ => True) (p.logs.mapM Programming.createLog)
      (fun loggers _ => List.Forall₂ (fun c ids => ids.length = c.signal.logChunks.length) p.logs
        loggers) fun _ _ => True := by
    refine (Leads.mapM (fun done out _ => List.Forall₂ (fun c ids => ids.length =
      c.signal.logChunks.length) done out) p.logs ?_).weaken (fun _ _ => .nil) (fun _ _ hs => hs)
        fun _ _ hs => hs
    rintro done out c rest - site hdone
    rcases hcreate : Programming.createLog c site with ⟨fault | ids, site'⟩
    · trivial
    · exact List.rel_append hdone (.cons (Programming.length_of_createLog hcreate) .nil)
  exact hall.ok trivial hlogs

/-! ## What is entered -/

namespace Graph

variable {g : Graph} {route : RouteId} {catalog : Catalog}

theorem Orderly.enterLogs (h : g.Orderly) {logs : List (Signal × List UInt8)}
    (hlogs : ∀ log ∈ logs, ∀ raw : Bytes, raw.length = log.2.length * logEntrySize →
      ∃ readings, (log.1.atOffset 0).decodeAll raw = .ok readings) :
    (g.enterLogs route catalog logs).2.Orderly := by
  induction logs generalizing g with
  | nil => exact h
  | cons log rest ih =>
    obtain ⟨s, ids⟩ := log
    obtain ⟨hfirst, hrest⟩ := List.forall_mem_cons.1 hlogs
    let entry : LoggerEntry := ⟨route, s.atOffset 0, .ofIds ids, g.mail.next⟩
    have hnext : (g.rentMailbox.addLogger entry).Orderly := by
      intro e he
      rcases List.mem_append.1 he with hold | hnew
      · exact h e hold
      · rw [List.mem_singleton.1 hnew]
        exact LoggerEntry.orderly_ofIds (.inr hfirst)
    exact ih hnext hrest

/-- **Routes are entered with orderly consumers**, if their signals are filled and enclose their
parts. -/
theorem Orderly.enter (h : g.Orderly) {p : Plan} {placed : List Placed}
    {loggers : List (List UInt8)}
    (hlogged : List.Forall₂ (fun c ids => ids.length = c.signal.logChunks.length) p.logs loggers)
    (hlogs : ∀ c ∈ p.logs, c.signal.Encloses Shape.Compact ∧ 1 ≤ c.signal.shape.copies)
    (catalog : Catalog) (route : RouteId) (events : List UInt8) :
    (g.enter catalog route p placed loggers events).2.Orderly := by
  have hstreamed : ((g.enterStages route (p.stages.zip placed)).enterStreams route catalog
      (p.streams.map fun c => c.resolve placed)).2.Orderly := by
    intro e he
    rw [(tables_enterStreams _ _ _ _).2.1, loggers_enterStages] at he
    exact h e he
  have hentered : (((g.enterStages route (p.stages.zip placed)).enterStreams route catalog
      (p.streams.map fun c => c.resolve placed)).2.enterLogs route catalog
        ((p.logs.map fun c => c.resolve placed).zip loggers)).2.Orderly := by
    refine hstreamed.enterLogs fun log hlog raw hraw => ?_
    rw [List.zip_map_left] at hlog
    obtain ⟨⟨c, ids⟩, hpair, rfl⟩ := List.mem_map.1 hlog
    have hlength : ids.length = c.signal.logChunks.length :=
      (List.forall₂_iff_zip.1 hlogged).2 hpair
    have hc : c ∈ p.logs := (List.of_mem_zip hpair).1
    obtain ⟨hencloses, hcopies⟩ := hlogs c hc
    have hresolved : (c.resolve placed).Encloses Shape.Compact := by
      rw [Cursor.resolve]
      split
      · exact (hencloses.withId _).withInput _
      · exact hencloses
    refine hresolved.reads_logged ((c.shape_resolve placed).symm ▸ hcopies) ?_
    rw [Signal.logChunks, c.shape_resolve, ← Signal.logChunks, ← hlength]
    exact hraw
  intro e he
  rw [Graph.enter, (tables_enterEvents _ _ _).2] at he
  exact hentered e he

end Graph
end SignalRoute
