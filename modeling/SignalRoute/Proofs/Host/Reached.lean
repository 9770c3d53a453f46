import SignalRoute.Proofs.Host.Session
import SignalRoute.Proofs.Route.Ownership
import SignalRoute.Proofs.Route.Placement
import SignalRoute.Proofs.Route.Soundness

/-!
# What expressions emit, wherever a host is

`Host.Reached` are the hosts that a history leads to, over any link: routes are built and removed,
processors are edited, and other things happen that name no processor.  The graph of each is sound
(`Host.Reached.sound`), so that the drafts that start from it are.

`Host.stages_carried` concludes that the board carries every stage of every draft that expressions
lead to from such a host.

A theorem about every route that can be built needs to know about every host that it can be built
on, and little of a host matters: its catalog, and the processors that have names, because a draft
may refer to these.  So `Host.Reached` is generous.  Whatever else happens to the graph is allowed
as one step, as long as it brings no new names; downloads and surveys are such steps.
-/

set_option autoImplicit false

namespace SignalRoute

/-! ## Sound hosts

Edits need an argument of their own.  They change the configuration of a processor that keeps its
name, and soundness looks at configurations: a buffer has to hold data.  What an edit leaves is no
buffer.
-/

/-- An edit does not make a processor a buffer. -/
theorem Editor.isBuffer_of_change? {e : Editor} {edit : Edit} {p : Processor}
    (h : e.change? edit = .ok (.config p)) : p.isBuffer = false := by
  unfold change? at h
  split at h
  case h_2 =>
    obtain ⟨bytes, -, h⟩ := bind_eq_ok.1 h
    cases h
  case h_5 =>
    split at h
    · cases h
      rfl
    · cases h
  case h_6 =>
    split at h
    · cases h
    · cases h
      rfl
  all_goals
    cases h
    try rfl

/-- What a draft knows of the processors on the board is what the graph says of those with names. -/
theorem Graph.mem_knownProcessors {g : Graph} {k : KnownProcessor} (hk : k ∈ g.knownProcessors) :
    ∃ e ∈ g.processors.values, e.name.isSome = true ∧ k.state = e.state ∧
      k.isBuffer = e.processor.isBuffer := by
  obtain ⟨e, he, hknown⟩ := List.mem_filterMap.1 hk
  obtain ⟨name, hname, rfl⟩ := Option.map_eq_some_iff.1 hknown
  refine ⟨e, he, by rw [hname]; rfl, rfl, ?_⟩
  cases hp : e.processor <;> rfl

theorem Graph.Sound.draft {g : Graph} (h : g.Sound) (device : Device) {root : Signal}
    (hroot : root.Regular) :
    (Draft.start device g.knownProcessors).Sound device ⟨root, none⟩ where
  board := rfl
  known := by
    intro k hk
    obtain ⟨e, he, hname, hstate, hbuffer⟩ := Graph.mem_knownProcessors hk
    rw [hstate, hbuffer]
    exact h e he hname
  stages := List.forall_mem_nil _
  branches := List.forall_mem_nil _
  logs := List.forall_mem_nil _
  cursor := hroot

namespace Host

/-- The hosts that a history can lead to.  The device, the link and the time are any. -/
inductive Reached : Host → Prop
  | start {h : Host} (hcatalog : h.catalog = .standard) (hgraph : h.station.graph = .empty) :
      Reached h
  /-- A route is built, or an attempt fails. -/
  | built {h : Host} (hh : Reached h) (producer : String) (steps : List Step) :
      Reached (buildRoute producer (fun c => Step.run c steps) h).2
  | removed {h : Host} (hh : Reached h) (r : Route) : Reached (removeRoute r h).2
  /-- A processor is edited, or it is not. -/
  | edited {h : Host} (hh : Reached h) (e : Editor) (edit : Edit) :
      Reached (onStation (e.apply edit) h).2
  /-- Something else happens, and what has a name had it before. -/
  | other {h h' : Host} (hh : Reached h) (hsettings : h'.settings = h.settings)
      (hcatalog : h'.catalog = h.catalog)
      (hnamed : ∀ e ∈ h'.station.graph.processors.values, e.name.isSome = true →
        e ∈ h.station.graph.processors.values) : Reached h'

variable {h : Host}

/-- A plan from a built-in sensor on is sound. -/
theorem plan_sound (hcatalog : h.catalog = .standard) (hsound : h.station.graph.Sound)
    {producer : String} {steps : List Step} {p : Plan}
    (hplan : h.plan producer (fun c => Step.run c steps) = .ok p) :
    (∀ stage ∈ p.stages, stage.Sound h.settings.device) ∧ ∀ c ∈ p.logs, c.signal.Filled := by
  obtain ⟨root, hroot, rfl⟩ := plan_eq_ok hplan
  rw [hcatalog] at hroot
  have hregular := Catalog.regular_standard (Catalog.mem_of_get? hroot)
  obtain ⟨next, hnext⟩ := Drafting.sound_run (hsound.draft h.settings.device hregular) steps
  exact ⟨hnext.stages, hnext.logs⟩

theorem buildRoute_namedAll {good : ProcessorEntry → Prop} (hgood : h.station.graph.NamedAll good)
    {producer : String} {steps : List Step}
    (hnew : ∀ p placed route, h.plan producer (fun c => Step.run c steps) = .ok p →
      StagesPlaced p.stages placed → ∀ s ∈ p.stages.zip placed, good (s.1.entry s.2 route)) :
    (buildRoute producer (fun c => Step.run c steps) h).2.station.graph.NamedAll good := by
  rw [buildRoute]
  cases hplan : h.plan producer fun c => Step.run c steps with
  | error fault => exact hgood
  | ok p =>
    simp only [onStation, realize]
    rcases hprogram : p.program ⟨h.station.link, [], [], []⟩ with ⟨fault | loggers, site⟩
    · exact hgood
    · exact hgood.enter (hnew p _ _ hplan (Plan.stagesPlaced_of_program hprogram)) _ _ _

/-- An edit changes the configuration of one processor, which does not become a buffer. -/
theorem editor_apply_namedAll {good : ProcessorEntry → Prop} (hgood : h.station.graph.NamedAll good)
    (hedited : ∀ e p, p.isBuffer = false → good e → good { e with processor := p }) (e : Editor)
    (edit : Edit) : (onStation (e.apply edit) h).2.station.graph.NamedAll good := by
  simp only [onStation, Editor.apply]
  cases hprepare : e.prepare edit with
  | error fault => exact hgood
  | ok prepared =>
    obtain ⟨change, bytes⟩ := prepared
    obtain ⟨change', hchange, hcommand⟩ := bind_eq_ok.1 hprepare
    obtain ⟨bytes', -, hpair⟩ := bind_eq_ok.1 hcommand
    cases hpair
    simp only
    rcases Link.write bytes h.station.link with ⟨fault | sent, link⟩
    · exact hgood
    · cases change with
      | config p =>
        exact hgood.setProcessor e.id fun old => hedited old p (Editor.isBuffer_of_change? hchange)
      | state bytes => exact hgood

/-- What is true of the named processors of every host: it must be true of what a plan adds to a
graph in which it is true, and edits must keep it. -/
theorem Reached.namedAll (good : ProcessorEntry → Prop)
    (hnew : ∀ (h : Host) (producer : String) (steps : List Step) (p : Plan) (placed : List Placed)
      (route : RouteId), h.catalog = .standard → h.station.graph.NamedAll good →
      h.plan producer (fun c => Step.run c steps) = .ok p → StagesPlaced p.stages placed →
      ∀ s ∈ p.stages.zip placed, good (s.1.entry s.2 route))
    (hedited : ∀ e p, p.isBuffer = false → good e → good { e with processor := p })
    (hh : h.Reached) : h.catalog = .standard ∧ h.station.graph.NamedAll good := by
  induction hh with
  | start hcatalog hgraph =>
    refine ⟨hcatalog, ?_⟩
    rw [hgraph]
    exact List.forall_mem_nil _
  | @built h hh producer steps ih =>
    refine ⟨?_, buildRoute_namedAll ih.2 fun p placed route => hnew h _ _ p placed route ih.1 ih.2⟩
    rw [← ih.1, buildRoute]
    split <;> rfl
  | @removed h hh r ih =>
    refine ⟨ih.1, ?_⟩
    show (teardown r h.station).2.graph.NamedAll good
    rw [teardown_snd]
    exact ih.2.forget r
  | edited hh e edit ih => exact ⟨ih.1, editor_apply_namedAll ih.2 hedited e edit⟩
  | other hh hsettings hcatalog hnamed ih =>
    exact ⟨hcatalog.trans ih.1, fun e he hname => ih.2 e (hnamed e he hname) hname⟩

/-- **The named buffers of every host hold data.** -/
theorem Reached.sound (hh : h.Reached) : h.catalog = .standard ∧ h.station.graph.Sound := by
  refine hh.namedAll (fun e => HoldsData e.processor.isBuffer e.state) ?_ ?_
  · intro h producer steps p placed route hcatalog hsound hplan hplaced s hs
    have hstage := (plan_sound hcatalog hsound hplan).1 s.1 (List.of_mem_zip hs).1
    exact hstage.state.entry (hplaced.isBuffer_eq s hs) route
  · intro e p hp _ hbuffer
    cases hp.symm.trans hbuffer

/-- **Expressions emit only what the board carries.**  Wherever a history of the host leads, and
whatever expressions are applied there to one draft, each from a built-in sensor on, every stage has
a configuration that comes back from the codec as it was, up to the references of comparisons. -/
theorem stages_carried (hh : h.Reached) {expressions : List (Signal × List Step)}
    (hroots : ∀ e ∈ expressions, ∃ producer, Catalog.standard.get? producer = some e.1) :
    ∀ stage ∈ (h.draft.build expressions).plan.stages,
      ∃ q, stage.processor.payload >>= Processor.decode h.settings.device = .ok q ∧
        q.blanked = stage.processor.blanked := by
  have hregular : ∀ e ∈ expressions, e.1.Regular := by
    intro e he
    obtain ⟨producer, hproducer⟩ := hroots e he
    exact Catalog.regular_standard (Catalog.mem_of_get? hproducer)
  -- each expression starts at a signal of its own, so any will do for the draft
  have hany : Catalog.standard.get? "switch" = some _ := rfl
  have hstart := hh.sound.2.draft h.settings.device
    (Catalog.regular_standard (Catalog.mem_of_get? hany))
  obtain ⟨next, hnext⟩ := Draft.Sound.build hstart hregular
  exact fun stage hstage => Processor.decode_payload_of_blanked (hnext.stages stage hstage).fields

/-- A host whose board keeps the last temperature. -/
def keepingTemperature : Host :=
  (buildRoute "temperature" (fun c => Step.run c [.buffer, .name "last"]) Session.fresh.host).2

/-- Temperatures behind the length of an acceleration, three of them in one payload, and the same
for a buffer that is not there, which fails. -/
def joining : List (Signal × List Step) :=
  [(Catalog.triple Module.accelerometer 0x04 16384, [.rms, .fuse ["last"], .pack 3]),
    (Catalog.triple Module.accelerometer 0x04 16384, [.rms, .fuse ["first"], .pack 3])]

theorem stages_carried_joining :
    (keepingTemperature.draft.build joining).plan.stages.length = 4 ∧
      ∀ stage ∈ (keepingTemperature.draft.build joining).plan.stages,
        ∃ q, stage.processor.payload >>= Processor.decode .standard = .ok q ∧
          q.blanked = stage.processor.blanked := by
  refine ⟨by decide +kernel, stages_carried (.built (.start rfl rfl) _ _) fun e he => ?_⟩
  refine ⟨"acceleration", ?_⟩
  simp only [joining, List.mem_cons, List.not_mem_nil, or_false] at he
  rcases he with rfl | rfl <;> rfl

end Host
end SignalRoute
