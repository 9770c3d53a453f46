import SignalRoute.Proofs.Route.Program
import SignalRoute.Proofs.Route.Removal

/-!
# Realization is atomic

A realization that fails leaves the board as it found it.  Whatever the plan and whatever is in the
tables of the board, the records of the site at which programming stopped are right
(`Site.Astray`); so the removals are those of the ids that the board handed out, and they give back
its tables.

* `Plan.Obstructed` lists what can stand in the way of a plan: a creation to be dropped, a table
  that is too full, a write to be refused.  `Plan.not_obstructed_of_ok`: no plan gets past any of
  them.
* `realize_atomic`: an obstructed plan fails, and a failed one is undone.

Two things are needed to be atomic, and they are proved separately.  That something stands in the
way has to make the plan fail, which is the contrapositive of what a plan that was met tells about
the board; and whatever made it fail, the records of the site have to be those of the board, which
is the failure postcondition of programming (`leads_program`).
-/

set_option autoImplicit false

namespace SignalRoute

/-! ## What stands in the way of a plan

Each obstacle is a count: of creations, of ids of one kind, of writes.  A plan does not know which
of its commands will meet it, and neither does the theorem.
-/

/-- Something stands in the way of a plan on a link to the board `b`. -/
inductive Plan.Obstructed (p : Plan) (l : Link) (b : SimulatedBoard) : Prop
  /-- One of its creations is to be dropped. -/
  | dropped (k : Nat) (hpos : 0 < k) (hle : k ≤ p.createCount)
      (h : b.dropAt = some (b.creates + k))
  | fullProcessors (h : (b.processors.freeIds tableSize).length < p.stages.length)
  | fullLoggers (h : (b.loggers.freeIds tableSize).length < p.loggerCount)
  | fullEvents (h : (b.events.freeIds tableSize).length < p.eventCount)
  /-- One of its writes is to be refused. -/
  | refused (h : l.transport.refuse ≠ 0) (hskip : l.transport.skip < p.writeCount)

/-- Nothing stood in the way of a plan that was met. -/
theorem Plan.not_obstructed_of_ok {p : Plan} {l : Link} {b : SimulatedBoard} (h : l.Wired b)
    {loggers : List (List UInt8)} {site : Site}
    (hok : p.program ⟨l, [], [], []⟩ = (.ok loggers, site)) : ¬p.Obstructed l b := by
  obtain ⟨made, hmet, now, commands, ht, hu⟩ := (Programming.leads_program p).ok h.onward hok
  rw [hmet.count_eq] at hu
  intro hobstructed
  cases hobstructed with
  | dropped k hpos hle hdrop => exact hu.carriedOut k hpos hle hdrop
  | fullProcessors hfull =>
    have := ht.grown.processors.length_le
    rw [List.length_map, hmet.stages.length_eq] at this
    omega
  | fullLoggers hfull =>
    have := ht.grown.loggers.length_le
    rw [hmet.logs.length_eq, ← loggerCount] at this
    omega
  | fullEvents hfull =>
    have := ht.grown.events.length_le
    rw [hmet.events] at this
    omega
  | refused hrefuse hskip =>
    have := hu.skip hrefuse
    rw [← writeCount] at this
    omega

/-! ## Rolling back -/

theorem Site.removals_eq (s : Site) :
    s.removals = SimulatedBoard.removals (s.placed.map Placed.id) s.loggers s.events := by
  rw [removals, SimulatedBoard.removals, List.map_map]
  rfl

/-- A site that went astray is rolled back to a board with the tables that it started from. -/
theorem Site.Astray.rollback {s : Site} {start : Link} {b : SimulatedBoard}
    (h : s.Astray start b) (hok : (sendAll s.removals s.link).1 = none) :
    ∃ now commands, s.rollback.Wired now ∧
      now.processors = b.processors ∧ now.loggers = b.loggers ∧ now.events = b.events ∧
      (∀ c ∈ commands, isRemoval c = false) ∧
      now.commands = b.commands ++ commands ++ undoing (b.run commands).1 := by
  obtain ⟨now, commands, made, ht⟩ := h
  have hremovals : s.removals = SimulatedBoard.removals (made.placed.map Placed.id)
      (made.loggers.map Prod.fst) (made.events.map Prod.fst) := by
    rw [s.removals_eq, ht.placed, ht.loggers, ht.events]
  obtain ⟨hprocessors, hloggers, hevents⟩ := ht.grown.cleared
  rw [hremovals] at hok
  refine ⟨_, commands, ?_, hprocessors, hloggers, hevents, ht.grown.noRemoval, ?_⟩
  · rw [Site.rollback, hremovals, ← sendAll_snd]
    exact ht.wired.sendAll_removals hok
  · rw [ht.grown.undoing_eq, ← ht.grown.sent]
    rfl

/-- If no writes were to be refused in the first place, no removals are. -/
theorem Site.Astray.sendAll_eq_none {s : Site} {start : Link} {b : SimulatedBoard}
    (h : s.Astray start b) (hrefuse : start.transport.refuse = 0) :
    (sendAll s.removals s.link).1 = none ∧ s.rollback.transport.refuse = 0 := by
  obtain ⟨now, commands, made, ht⟩ := h
  have hzero : s.link.transport.refuse = 0 := Nat.le_zero.1 (hrefuse ▸ ht.refuse)
  rw [Site.rollback, ← sendAll_snd, s.removals_eq]
  exact ht.wired.sendAll_of_refuse_eq_zero (fun c hc => isQuiet_of_mem_removals hc) hzero

/-! ## Realization -/

/-- A plan that was realized was met, and what was created is entered into the graph. -/
theorem realize_eq_ok {catalog : Catalog} {route : RouteId} {p : Plan} {station station' : Station}
    {b : SimulatedBoard} (h : station.link.Wired b) {r : Route}
    (hr : realize catalog route p station = (.ok r, station')) :
    ∃ made loggers now commands, p.Met made loggers ∧ b.Grown commands made now ∧
      station'.link.Wired now ∧
      station'.link.transport.refuse = station.link.transport.refuse ∧
      (r, station'.graph) = station.graph.enter catalog route p made.placed loggers
        (made.events.map Prod.fst) := by
  rw [realize] at hr
  split at hr
  · rename_i loggers site hprogram
    obtain ⟨made, hmet, now, commands, ht, hu⟩ :=
      (Programming.leads_program p).ok h.onward hprogram
    rw [ht.placed, ht.events] at hr
    obtain ⟨hroute, rfl⟩ := Prod.mk.inj hr
    obtain rfl := Except.ok.inj hroute
    exact ⟨made, loggers, now, commands, hmet, ht.grown, ht.wired, hu.refuse, rfl⟩
  · cases hr

/-- **Realization is atomic.**  A plan in whose way something stands fails; and if a plan fails on a
board and its removals are not refused, then the graph is as it was, and so are the tables of the
board.  What was sent in the end are the removals of the ids that the board handed out. -/
theorem realize_atomic (catalog : Catalog) (route : RouteId) (p : Plan) {station : Station}
    {b : SimulatedBoard} (h : station.link.Wired b) :
    (p.Obstructed station.link b → ∃ fault site,
        p.program ⟨station.link, [], [], []⟩ = (.error fault, site) ∧
          (realize catalog route p station).1 = .error fault) ∧
      ∀ fault site, p.program ⟨station.link, [], [], []⟩ = (.error fault, site) →
        (sendAll site.removals site.link).1 = none →
        ∃ link now commands,
          realize catalog route p station = (.error fault, ⟨link, station.graph⟩) ∧
          link.Wired now ∧
          now.processors = b.processors ∧ now.loggers = b.loggers ∧ now.events = b.events ∧
          (∀ c ∈ commands, isRemoval c = false) ∧
          now.commands = b.commands ++ commands ++ undoing (b.run commands).1 := by
  constructor
  · intro hobstructed
    rcases hprogram : p.program ⟨station.link, [], [], []⟩ with ⟨fault | loggers, site⟩
    · exact ⟨fault, site, rfl, by rw [realize, hprogram]⟩
    · exact absurd hobstructed (Plan.not_obstructed_of_ok h hprogram)
  · intro fault site hprogram hok
    have hastray := (Programming.leads_program p).error h.onward hprogram
    obtain ⟨now, commands, hwired, htables⟩ := hastray.rollback hok
    refine ⟨site.rollback, now, commands, ?_, hwired, htables⟩
    rw [realize, hprogram]

/-- Two delays behind the temperature. -/
def delayedTwice : Plan :=
  let temperature : Signal := .root ⟨Module.temperature, 0x01, 0x00⟩ (.scalar 2 true) (.float 8)
  let delay : Processor := .delay ⟨2, 4, true⟩
  { Plan.empty with stages := [
    ⟨⟨temperature, none⟩, delay, temperature, none, none, []⟩,
    ⟨⟨temperature, some 0⟩, delay, temperature, none, none, []⟩] }

/-- A board with a processor on it that does not answer the second creation. -/
def reticentBoard : SimulatedBoard :=
  ((SimulatedBoard.start .standard).installProcessor 0 [1, 1, 0xff, 0] [1, 0]).dropReply 2

/-- The second of two stages is not answered: the first is taken off the board again. -/
theorem realize_atomic_delayedTwice :
    let station : Station := ⟨.start (.toBoard reticentBoard) 8 250, .empty⟩
    station.link.Wired reticentBoard ∧ delayedTwice.Obstructed station.link reticentBoard ∧
      ∃ (fault : Fault) (link : Link) (now : SimulatedBoard),
        realize .standard ⟨0⟩ delayedTwice station = (.error fault, ⟨link, .empty⟩) ∧
        link.Wired now ∧ now.processors = reticentBoard.processors := by
  intro station
  have hwired : station.link.Wired reticentBoard := ⟨rfl, rfl, rfl, by decide, rfl, rfl, rfl⟩
  have hobstructed : delayedTwice.Obstructed station.link reticentBoard :=
    .dropped 2 (by decide) (by decide) rfl
  have hatomic := realize_atomic .standard ⟨0⟩ delayedTwice hwired
  obtain ⟨fault, site, hprogram, -⟩ := hatomic.1 hobstructed
  have hastray := (Programming.leads_program delayedTwice).error hwired.onward hprogram
  obtain ⟨link, now, -, hrealize, hnow, hprocessors, -⟩ :=
    hatomic.2 fault site hprogram (hastray.sendAll_eq_none rfl).1
  exact ⟨hwired, hobstructed, fault, link, now, hrealize, hnow, hprocessors⟩

end SignalRoute
