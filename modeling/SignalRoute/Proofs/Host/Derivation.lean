import SignalRoute.Proofs.Host.Reached
import SignalRoute.Proofs.Route.Derivation

/-!
# What expressions lead to, wherever a host is

The named processors of a host keep derived signals, wherever its history leads
(`Host.Reached.keepsDerived`), and so every signal of every draft is derived that expressions lead
to from there (`Host.Drafts.derived`).

What holds of every signal that can be made is proved once by induction on how it was made, over
`Signal.Derived`, and needs no host.  What needs one is that the signals of its drafts were made so.
A draft starts with a producer from the catalog, and with the states of named processors, which an
earlier draft made, on a graph that other things have happened to since.  So the graph has to carry
the property from one route to the next.

Several files use this: what is proved of derived signals there is a fact about every host here.
-/

set_option autoImplicit false

namespace SignalRoute

/-- The processor keeps a derived signal, if it keeps one. -/
def ProcessorEntry.KeepsDerived (e : ProcessorEntry) : Prop := ∀ s, e.state = some s → s.Derived

theorem Graph.NamedAll.draft_derives {g : Graph} (h : g.NamedAll ProcessorEntry.KeepsDerived)
    (device : Device) {root : Signal} (hroot : root.Derived) :
    (Draft.start device g.knownProcessors).Derives ⟨root, none⟩ where
  known := by
    intro k hk
    obtain ⟨e, he, hname, hstate, -⟩ := Graph.mem_knownProcessors hk
    rw [hstate]
    exact h e he hname
  outputs := List.forall_mem_nil _
  states := List.forall_mem_nil _
  branches := List.forall_mem_nil _
  logs := List.forall_mem_nil _
  cursor := hroot

theorem Catalog.derived_of_get? {producer : String} {root : Signal}
    (hget : standard.get? producer = some root) : root.Derived :=
  .root (mem_of_get? hget)

namespace Host

variable {h : Host} {producer : String} {steps : List Step} {p : Plan}

theorem plan_derives_of_named (hcatalog : h.catalog = .standard)
    (hnamed : h.station.graph.NamedAll ProcessorEntry.KeepsDerived)
    (hplan : h.plan producer (fun c => Step.run c steps) = .ok p) :
    ∃ c d, Draft.plan d = p ∧ d.Derives c := by
  obtain ⟨root, hroot, rfl⟩ := plan_eq_ok hplan
  rw [hcatalog] at hroot
  have hderived := Catalog.derived_of_get? hroot
  obtain ⟨next, hnext, -⟩ := (hnamed.draft_derives h.settings.device hderived).run steps
  exact ⟨next, _, rfl, hnext⟩

/-- What the named processors of every host keep is derived. -/
theorem Reached.keepsDerived (hh : h.Reached) :
    h.station.graph.NamedAll ProcessorEntry.KeepsDerived := by
  refine (hh.namedAll _ ?_ fun e p _ he => he).2
  intro h producer steps p placed route hcatalog hnamed hplan hplaced x hx s hs
  obtain ⟨state, hstate, rfl⟩ := Option.map_eq_some_iff.1 hs
  obtain ⟨c, d, rfl, hderives⟩ := plan_derives_of_named hcatalog hnamed hplan
  exact .placed (hderives.states x.1 (List.of_mem_zip hx).1 state hstate) _ _

/-- **Plans lead to derived signals.** -/
theorem plan_derives (hh : h.Reached)
    (hplan : h.plan producer (fun c => Step.run c steps) = .ok p) :
    ∃ c d, Draft.plan d = p ∧ d.Derives c :=
  plan_derives_of_named hh.sound.1 hh.keepsDerived hplan

/-- Signals of the drafts that a host can make: what a cursor stands on, and what stages put out and
keep.  Each expression starts at a built-in sensor. -/
inductive Drafts (h : Host) : Signal → Prop
  | cursor {expressions : List (Signal × List Step)} {producer : String} {root : Signal}
      {steps : List Step} {c : Cursor}
      (hroots : ∀ e ∈ expressions, ∃ producer, Catalog.standard.get? producer = some e.1)
      (hroot : Catalog.standard.get? producer = some root)
      (hc : (Step.run ⟨root, none⟩ steps (h.draft.build expressions)).1 = .ok c) : Drafts h c.signal
  | output {expressions : List (Signal × List Step)} {stage : PlannedStage}
      (hroots : ∀ e ∈ expressions, ∃ producer, Catalog.standard.get? producer = some e.1)
      (hstage : stage ∈ (h.draft.build expressions).plan.stages) : Drafts h stage.output
  | state {expressions : List (Signal × List Step)} {stage : PlannedStage} {s : Signal}
      (hroots : ∀ e ∈ expressions, ∃ producer, Catalog.standard.get? producer = some e.1)
      (hstage : stage ∈ (h.draft.build expressions).plan.stages) (hs : stage.state = some s) :
      Drafts h s

section

variable {expressions : List (Signal × List Step)}

theorem draft_derives (hh : h.Reached) {root : Signal} (hroot : root.Derived) :
    h.draft.Derives ⟨root, none⟩ :=
  hh.keepsDerived.draft_derives h.settings.device hroot

/-- Each expression starts at a signal of its own, so any will do for the draft. -/
theorem exists_draft_derives (hh : h.Reached) : ∃ c, h.draft.Derives c := by
  have hany : Catalog.standard.get? "switch" = some _ := rfl
  exact ⟨_, draft_derives hh (Catalog.derived_of_get? hany)⟩

theorem derived_of_roots
    (hroots : ∀ e ∈ expressions, ∃ producer, Catalog.standard.get? producer = some e.1) :
    ∀ e ∈ expressions, e.1.Derived := by
  intro e he
  obtain ⟨producer, hget⟩ := hroots e he
  exact Catalog.derived_of_get? hget

/-- One expression, from a built-in sensor on. -/
theorem roots_singleton {producer : String} {root : Signal}
    (hget : Catalog.standard.get? producer = some root) (steps : List Step) :
    ∀ e ∈ [(root, steps)], ∃ producer, Catalog.standard.get? producer = some e.1 := by
  intro e he
  rw [List.mem_singleton.1 he]
  exact ⟨producer, hget⟩

theorem draft_build_derives (hh : h.Reached)
    (hroots : ∀ e ∈ expressions, ∃ producer, Catalog.standard.get? producer = some e.1) :
    ∃ next, (h.draft.build expressions).Derives next := by
  obtain ⟨c, hstart⟩ := exists_draft_derives hh
  exact hstart.build (derived_of_roots hroots)

/-- **The stages of drafts are emitted behind derived signals.** -/
theorem draft_build_emitted (hh : h.Reached)
    (hroots : ∀ e ∈ expressions, ∃ producer, Catalog.standard.get? producer = some e.1) :
    ∀ stage ∈ (h.draft.build expressions).plan.stages, stage.Emitted := by
  obtain ⟨c, hstart⟩ := exists_draft_derives hh
  exact hstart.emitted_build (fun stage hstage => nomatch hstage) (derived_of_roots hroots)

end

/-- **Signals of drafts are derived.** -/
theorem Drafts.derived (hh : h.Reached) {s : Signal} (hs : h.Drafts s) : s.Derived := by
  cases hs with
  | cursor hroots hget hc =>
    obtain ⟨next, hnext⟩ := draft_build_derives hh hroots
    have hstart : (h.draft.build _).Derives ⟨_, none⟩ :=
      { hnext with cursor := Catalog.derived_of_get? hget }
    obtain ⟨last, hlast, hsame⟩ := hstart.run _
    rw [hsame _ hc]
    exact hlast.cursor
  | output hroots hstage =>
    obtain ⟨next, hnext⟩ := draft_build_derives hh hroots
    exact hnext.outputs _ hstage
  | state hroots hstage hs =>
    obtain ⟨next, hnext⟩ := draft_build_derives hh hroots
    exact hnext.states _ hstage _ hs

end Host
end SignalRoute
