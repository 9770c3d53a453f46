import SignalRoute.Host

/-!
# What a failed survey leaves behind

A survey subscribes to each log as soon as its signal is rebuilt, and enters the processors that it
read only behind the last log.  So a fault leaves all tables of the graph as they were but that of
the consumers, and there it leaves the consumers of the logs before the fault.

* `rebuiltBefore` is what was rebuilt before the first fault, and `consumersOf` are its consumers.
* `Host.adoptLogs_failed` says that these consumers are all that a failed survey changes, so that
  nothing is changed exactly if the first signal could not be rebuilt.
* `Host.leftBehind_hidden` says what becomes of them: nobody can take what they deliver, and later
  surveys pass over their loggers.
* `Host.not_untouched_dangling` is such a survey.

What stays behind is described by a second function that goes the same way as the survey and gathers
what was rebuilt, rather than by comparing graphs.  It is defined for every link, as the survey is,
and for a survey that succeeds it would gather everything.
-/

set_option autoImplicit false

namespace SignalRoute

theorem PostOffice.isOpen_abandon (p : PostOffice) (i j : Nat) :
    (p.abandon i).isOpen j = (p.isOpen j && i != j) := by
  rw [isOpen, isOpen, abandon, List.getElem?_modify]
  cases p.boxes[j]? with
  | none => rfl
  | some box => by_cases hij : i = j <;> simp [hij]

/-! ## What was rebuilt -/

/-- The ranges whose signals are rebuilt before the first fault, with their signals. -/
def rebuiltBefore (device : Device) (catalog : Catalog) :
    List LoggedRange → Survey → List (LoggedRange × Signal)
  | [], _ => []
  | r :: rest, survey =>
    match Rebuilding.logged device catalog r survey with
    | (.error _, _) => []
    | (.ok s, survey) => (r, s) :: rebuiltBefore device catalog rest survey

/-- The consumers of signals that are adopted in turn, with mailboxes from `mailbox` on. -/
def consumersOf : Nat → List (LoggedRange × Signal) → List LoggerEntry
  | _, [] => []
  | mailbox, (r, s) :: rest =>
    ⟨.invalid, s.atOffset 0, .ofIds r.ids, mailbox⟩ :: consumersOf (mailbox + 1) rest

theorem consumersOf_eq_nil_iff {mailbox : Nat} {found : List (LoggedRange × Signal)} :
    consumersOf mailbox found = [] ↔ found = [] := by
  cases found <;> simp [consumersOf]

/-- The graph with consumers added, and with other mailboxes. -/
def Graph.withConsumers (g : Graph) (new : List LoggerEntry) (mail : PostOffice) : Graph :=
  { g with loggers := g.loggers ++ new, mail := mail }

/-- **Subscriptions that end in a fault** leave the consumers that were entered before it, with
mailboxes that have been given up. -/
theorem adoptAll_failed {device : Device} {catalog : Catalog} {ranges : List LoggedRange}
    {survey survey' : Survey} {g g' : Graph} {fault : Fault}
    (h : adoptAll device catalog ranges survey g = (.error fault, survey', g')) :
    g' = g.withConsumers (consumersOf g.mail.next (rebuiltBefore device catalog ranges survey))
        g'.mail ∧
      ∀ e ∈ consumersOf g.mail.next (rebuiltBefore device catalog ranges survey),
        g'.mail.isOpen e.mailbox = false := by
  induction ranges generalizing survey g g' with
  | nil => cases h
  | cons r rest ih =>
    rw [adoptAll] at h
    rw [rebuiltBefore]
    rcases hlogged : Rebuilding.logged device catalog r survey with ⟨fault' | s, survey₁⟩
    · simp only [hlogged] at h ⊢
      cases h
      exact ⟨by rw [consumersOf, Graph.withConsumers, List.append_nil], fun e he => nomatch he⟩
    · simp only [hlogged] at h ⊢
      rcases hrest : adoptAll device catalog rest survey₁ (g.adopt catalog r s).2 with
        ⟨fault' | routes, survey₂, g₂⟩
      · rw [hrest] at h
        cases h
        obtain ⟨hg, hclosed⟩ := ih hrest
        have hnext : (g.adopt catalog r s).2.mail.next = g.mail.next + 1 := List.length_append
        rw [hnext] at hg hclosed
        refine ⟨?_, fun e he => ?_⟩
        · rw [hg, consumersOf]
          simp [Graph.withConsumers, Graph.abandon, Graph.adopt, Graph.addLogger,
            Graph.rentMailbox]
        · show (g₂.mail.abandon g.mail.next).isOpen e.mailbox = false
          rw [PostOffice.isOpen_abandon, Bool.and_eq_false_iff]
          rcases List.mem_cons.1 he with rfl | hlater
          · exact .inr (bne_self_eq_false _)
          · exact .inl (hclosed e hlater)
      · rw [hrest] at h
        cases h

/-! ## Surveys of a host -/

namespace Host

/-- The ranges of unknown loggers whose signals a survey rebuilds before its first fault. -/
def rebuiltFirst (h : Host) : List (LoggedRange × Signal) :=
  match readLoggers h.station.graph loggerIds h.station.link with
  | (.error _, _) => []
  | (.ok sources, link) =>
    rebuiltBefore h.settings.device h.catalog (groupLoggers sources) ⟨link, .empty⟩

/-- The consumers that a survey enters before its first fault. -/
def leftBehind (h : Host) : List LoggerEntry :=
  consumersOf h.station.graph.mail.next h.rebuiltFirst

variable {h after : Host} {fault : Fault}

theorem graph_adoptLogs_failed (hfail : h.adoptLogs = (.error fault, after)) :
    after.station.graph = h.station.graph.withConsumers h.leftBehind after.station.graph.mail ∧
      ∀ e ∈ h.leftBehind, after.station.graph.mail.isOpen e.mailbox = false := by
  rw [adoptLogs, onStation, adoptLoggers] at hfail
  rw [leftBehind, rebuiltFirst]
  rcases hread : readLoggers h.station.graph loggerIds h.station.link with ⟨fault' | sources, link⟩
  · simp only [hread] at hfail ⊢
    cases hfail
    exact ⟨by rw [consumersOf, Graph.withConsumers, List.append_nil], fun e he => nomatch he⟩
  · simp only [hread] at hfail ⊢
    rcases hall : adoptAll h.settings.device h.catalog (groupLoggers sources) ⟨link, .empty⟩
      h.station.graph with ⟨fault' | routes, survey, g⟩
    · simp only [hall] at hfail
      cases hfail
      exact adoptAll_failed hall
    · simp only [hall] at hfail
      cases hfail

/-- **A failed survey changes nothing but the consumers**, and adds to these the consumers of the
logs that were rebuilt before the fault. -/
theorem adoptLogs_failed (hfail : h.adoptLogs = (.error fault, after)) :
    after.station.graph.processors = h.station.graph.processors ∧
      after.station.graph.names = h.station.graph.names ∧
      after.station.graph.streams = h.station.graph.streams ∧
      after.station.graph.events = h.station.graph.events ∧
      after.station.graph.loggers = h.station.graph.loggers ++ h.leftBehind ∧
      (after.station.graph.loggers = h.station.graph.loggers ↔ h.rebuiltFirst = []) := by
  rw [(graph_adoptLogs_failed hfail).1]
  refine ⟨rfl, rfl, rfl, rfl, rfl, ?_⟩
  show h.station.graph.loggers ++ h.leftBehind = h.station.graph.loggers ↔ h.rebuiltFirst = []
  rw [List.append_right_eq_self, leftBehind, consumersOf_eq_nil_iff]

/-- What a failed survey leaves behind delivers to nobody, and hides its loggers from later
surveys. -/
theorem leftBehind_hidden (hfail : h.adoptLogs = (.error fault, after)) {e : LoggerEntry}
    (he : e ∈ h.leftBehind) :
    after.station.graph.mail.isOpen e.mailbox = false ∧
      ∀ id ∈ e.ids, after.station.graph.hasLogger id = true := by
  obtain ⟨hgraph, hclosed⟩ := graph_adoptLogs_failed hfail
  refine ⟨hclosed e he, fun id hid => ?_⟩
  rw [hgraph, Graph.hasLogger, Graph.withConsumers, List.any_append, Bool.or_eq_true]
  exact .inr (List.any_eq_true.2 ⟨e, he, List.contains_iff_mem.2 hid⟩)

/-- A host at a board with a logger of the switch, and one of a processor that is not there. -/
def facingDangling : Host :=
  .atRest .standard (.toBoard { SimulatedBoard.start .standard with
    loggers := ⟨[(0, [0x01, 0x01, 0xff, 0x00]), (1, [0x09, 0x03, 0x05, 0x20])]⟩ }) 0

theorem adoptLogs_failed_dangling :
    ∃ fault, facingDangling.adoptLogs.1 = .error fault ∧
      facingDangling.adoptLogs.2.station.graph.loggers =
        facingDangling.station.graph.loggers ++ facingDangling.leftBehind := by
  rcases hadopt : facingDangling.adoptLogs with ⟨fault | routes, after⟩
  · exact ⟨fault, rfl, (adoptLogs_failed hadopt).2.2.2.2.1⟩
  · have hfails : facingDangling.adoptLogs.1.toOption.isNone = true := by decide +kernel
    rw [hadopt] at hfails
    cases hfails

/-- **A survey that fails at the second log leaves the consumer of the first**: the graph had none
before. -/
theorem not_untouched_dangling :
    ∃ fault, facingDangling.adoptLogs.1 = .error fault ∧
      facingDangling.station.graph.loggers = [] ∧
      facingDangling.adoptLogs.2.station.graph.loggers.map LoggerEntry.ids = [[0]] := by
  have hfails : facingDangling.adoptLogs.1.toOption.isNone = true := by decide +kernel
  cases hout : facingDangling.adoptLogs.1 with
  | error fault => exact ⟨fault, rfl, rfl, by decide +kernel⟩
  | ok routes =>
    rw [hout] at hfails
    cases hfails

end Host
end SignalRoute
