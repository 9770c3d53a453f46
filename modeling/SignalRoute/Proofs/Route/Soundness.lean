import SignalRoute.Proofs.Route.Emission
import SignalRoute.Proofs.Route.Sync

/-!
# Drafts that boards carry

A draft is sound for a board if the board carries all its stages and if all that a stage can be put
behind is regular: what cursors stand on and what buffers hold.  Every move keeps a draft sound
(`Draft.Sound.move`), and so do any number of expressions one after the other, whether they fail or
not (`Draft.Sound.build`).

A graph is sound if its named buffers hold data, so that a draft that starts from it is sound.  It
remains so when a sound plan is entered (`Graph.NamedAll.enter`).

What is sound depends on the board, because the encodings do.  A draft never changes its device, so
the board is a parameter of the invariant and not a part of what is kept.
-/

set_option autoImplicit false

namespace SignalRoute

/-! ## Sound drafts -/

/-- A regular signal with data. -/
structure Signal.Filled (s : Signal) : Prop where
  regular : s.Regular
  data : s.shape.isEmpty = false

/-- If a processor is a buffer then its state is regular and holds data. -/
def HoldsData (isBuffer : Bool) (state : Option Signal) : Prop :=
  isBuffer = true → ∀ s, state = some s → s.Filled

/-- The board carries the stage, and what it puts out and keeps can be worked with. -/
structure PlannedStage.Sound (device : Device) (stage : PlannedStage) : Prop where
  fields : stage.processor.blanked.Canonical device
  output : stage.output.Regular
  state : HoldsData stage.processor.isBuffer stage.state

/-- A draft for the board `device` with the cursor `c`: what buffers hold and what cursors stand on
can be worked with, and the board carries the stages. -/
structure Draft.Sound (device : Device) (c : Cursor) (d : Draft) : Prop where
  board : d.device = device
  known : ∀ k ∈ d.known, HoldsData k.isBuffer k.state
  stages : ∀ stage ∈ d.plan.stages, stage.Sound device
  branches : ∀ b ∈ d.branches, b.anchor.signal.Regular
  logs : ∀ c ∈ d.plan.logs, c.signal.Filled
  cursor : c.signal.Regular

/-- The buffer of a name is a stage of the plan, or the board has it. -/
theorem Draft.lookupBuffer_eq_ok {d : Draft} {name : String} {b : NamedRef × Signal}
    (h : d.lookupBuffer name = .ok b) :
    (∃ stage ∈ d.plan.stages, stage.processor.isBuffer = true ∧ stage.state = some b.2) ∨
      ∃ k ∈ d.known, k.isBuffer = true ∧ k.state = some b.2 := by
  rw [lookupBuffer] at h
  split at h
  · rename_i i stage hstage
    obtain ⟨k, -, hk⟩ := Option.bind_eq_some_iff.1 hstage
    obtain ⟨stage', hget, heq⟩ := Option.map_eq_some_iff.1 hk
    obtain ⟨rfl, rfl⟩ := Prod.mk.inj heq
    split at h
    · rename_i buffer state hp hstate
      cases h
      exact .inl ⟨_, List.mem_of_getElem? hget, by rw [hp]; rfl, hstate⟩
    · cases h
  · split at h
    · rename_i k hknown
      split at h
      · rename_i state hbuffer hstate
        cases h
        exact .inr ⟨k, List.mem_reverse.1 (List.mem_of_find?_eq_some hknown), hbuffer, hstate⟩
      · cases h
    · cases h

namespace Draft.Sound

variable {device : Device} {c : Cursor} {d : Draft}

/-- A buffer that is found by its name holds data. -/
theorem lookupBuffer (h : d.Sound device c) {name : String} {b : NamedRef × Signal}
    (hb : d.lookupBuffer name = .ok b) : b.2.Filled := by
  rcases Draft.lookupBuffer_eq_ok hb with ⟨stage, hstage, hp, hs⟩ | ⟨k, hk, hp, hs⟩
  · exact (h.stages stage hstage).state hp _ hs
  · exact h.known k hk hp _ hs

theorem buffers (h : d.Sound device c) {s : Signal} {p : Processor}
    {buffers : List (NamedRef × Signal)} (hemits : d.Emits s p buffers) :
    ∀ b ∈ buffers, b.2.Filled := by
  intro b hb
  obtain ⟨name, hname⟩ := hemits.lookupBuffer hb
  exact h.lookupBuffer hname

theorem emitted (h : d.Sound device c) {p : Processor} {buffers : List (NamedRef × Signal)}
    {i : Inferred} (hemits : d.Emits c.signal p buffers)
    (hi : infer c.signal p (buffers.map Prod.snd) = .ok i) :
    (d.addStage ⟨c, p, i.output, i.state, none, buffers.map Prod.fst⟩).Sound device
      ⟨i.output, some d.plan.stages.length⟩ := by
  have hbuffers := h.buffers hemits
  have hcarries := hemits.carries h.cursor.shape fun b hb => (hbuffers b hb).data
  rw [h.board] at hcarries
  have hregular := infer_regular hi h.cursor
    (List.forall_mem_map.2 fun b hb => (hbuffers b hb).regular) hcarries.shape
  -- other processors keep states as well, but only those of buffers are ever asked for
  have hstate : HoldsData p.isBuffer i.state := by
    intro hp s hs
    refine ⟨hregular.state s hs, ?_⟩
    cases p with
    | buffer b =>
      cases hi
      cases hs
      exact hcarries.data hp
    | _ => cases hp
  refine { h with stages := fun stage hstage => ?_, cursor := hregular.output }
  rcases List.mem_append.1 hstage with hstage | hstage
  · exact h.stages stage hstage
  · rw [List.mem_singleton.1 hstage]
    exact ⟨hcarries.fields, hregular.output, hstate⟩

theorem nameStage (h : d.Sound device c) (i : Nat) (name : String) :
    (d.nameStage i name).Sound device c := by
  refine { h with stages := fun stage hstage => ?_ }
  obtain ⟨old, hold, rfl | rfl⟩ := Draft.of_mem_nameStage hstage
  · exact h.stages _ hold
  · have hsound := h.stages old hold
    exact ⟨hsound.fields, hsound.output, hsound.state⟩

/-- **Every move keeps a draft sound.** -/
theorem move {x y : Cursor × Draft} (hmove : Draft.Move x y) (h : x.2.Sound device x.1) :
    y.2.Sound device y.1 := by
  cases hmove with
  | emitted hemits hi => exact h.emitted hemits hi
  | fed c d feedback => exact { h with }
  | named hstage hnamed hknown hunnamed => exact h.nameStage _ _
  | reacted c d commands => exact { h with }
  | streamed c d => exact { h with }
  | @logged c d hdata =>
    refine { h with logs := fun c' hc' => ?_ }
    rcases List.mem_append.1 hc' with hc' | hc'
    · exact h.logs c' hc'
    · rw [List.mem_singleton.1 hc']
      exact ⟨h.cursor, hdata⟩
  | opened c d kind =>
    refine { h with branches := fun b hb => ?_ }
    rcases List.mem_cons.1 hb with rfl | hb
    · exact h.cursor
    · exact h.branches b hb
  | returned hb => exact { h with cursor := h.branches _ hb }
  | entered hs => exact { h with cursor := h.cursor.part hs }
  | @closed c d b rest hb =>
    have hbranches : ∀ b' ∈ b :: rest, b'.anchor.signal.Regular := hb ▸ h.branches
    exact { h with
      branches := fun b' hb' => hbranches b' (List.mem_cons_of_mem _ hb')
      cursor := hbranches b List.mem_cons_self }

end Draft.Sound

theorem Drafting.sound_run {device : Device} {c : Cursor} {d : Draft} (h : d.Sound device c)
    (steps : List Step) : ∃ next, (Step.run c steps d).2.Sound device next := by
  obtain ⟨next, hsound, -⟩ :=
    run_keeps (I := fun x => x.2.Sound device x.1) (fun _ _ hmove => Draft.Sound.move hmove) h steps
  exact ⟨next, hsound⟩

/-! ## Several expressions

A draft can be built by several expressions, each from a signal of its own, and what a failed one
has opened stays open for the next.  `Draft.build` is this sequence, and `Draft.build_keeps` the
rule by which everything that is said of it is proved.
-/

/-- The draft after expressions that start at the given signals, one after the other.  One that
fails leaves what it had done. -/
def Draft.build (d : Draft) (expressions : List (Signal × List Step)) : Draft :=
  expressions.foldl (fun d e => (Step.run ⟨e.1, none⟩ e.2 d).2) d

/-- What every move keeps, and what a draft keeps when the next expression starts, is kept by all
expressions together. -/
theorem Draft.build_keeps {I : Cursor × Draft → Prop} (hmove : ∀ x y, Draft.Move x y → I x → I y)
    {expressions : List (Signal × List Step)}
    (hstart : ∀ e ∈ expressions, ∀ c d, I (c, d) → I (⟨e.1, none⟩, d)) {c : Cursor} {d : Draft}
    (h : I (c, d)) : ∃ next, I (next, d.build expressions) := by
  induction expressions generalizing c d with
  | nil => exact ⟨c, h⟩
  | cons e rest ih =>
    -- the next expression has a cursor of its own, whatever became of the last one
    obtain ⟨next, hnext, -⟩ := Drafting.run_keeps hmove (hstart e List.mem_cons_self c d h) e.2
    exact ih (fun e' he' => hstart e' (List.mem_cons_of_mem _ he')) hnext

/-- **Expressions that start at regular signals keep a draft sound.** -/
theorem Draft.Sound.build {device : Device} {c : Cursor} {d : Draft} (h : d.Sound device c)
    {expressions : List (Signal × List Step)} (hroots : ∀ e ∈ expressions, e.1.Regular) :
    ∃ next, (d.build expressions).Sound device next :=
  Draft.build_keeps (I := fun x => x.2.Sound device x.1) (fun _ _ hmove => Draft.Sound.move hmove)
    (fun e he _ _ hsound => { hsound with cursor := hroots e he }) h

/-! ## Named processors -/

/-- All processors that can be asked for by their names are `good`. -/
def Graph.NamedAll (g : Graph) (good : ProcessorEntry → Prop) : Prop :=
  ∀ e ∈ g.processors.values, e.name.isSome = true → good e

namespace Graph.NamedAll

variable {g : Graph} {good : ProcessorEntry → Prop}

theorem enter (h : g.NamedAll good) {plan : Plan} {placed : List Placed} {route : RouteId}
    (hnew : ∀ s ∈ plan.stages.zip placed, good (s.1.entry s.2 route)) (catalog : Catalog)
    (loggers : List (List UInt8)) (events : List UInt8) :
    (g.enter catalog route plan placed loggers events).2.NamedAll good := by
  intro e he hname
  rcases mem_processors_enter _ _ _ _ _ _ _ he with ⟨s, hs, rfl⟩ | hold
  · exact hnew s hs
  · exact h e hold hname

theorem forget (h : g.NamedAll good) (r : Route) : (g.forget r).2.NamedAll good := by
  intro e he hname
  rw [processors_forget] at he
  obtain ⟨x, hx, rfl⟩ := List.mem_map.1 he
  rw [IdTable.entries_foldl_erase] at hx
  exact h x.2 (List.mem_map_of_mem (List.mem_of_mem_filter hx)) hname

theorem setProcessor (h : g.NamedAll good) (id : UInt8) {p : Processor}
    (hedited : ∀ e, good e → good { e with processor := p }) :
    (g.setProcessor id p).NamedAll good := by
  intro e he hname
  obtain ⟨x, hx, rfl⟩ := List.mem_map.1 he
  obtain ⟨old, hold, rfl⟩ := List.mem_map.1 hx
  dsimp only at hname ⊢
  split
  · rw [if_pos ‹_›] at hname
    exact hedited old.2 (h old.2 (List.mem_map_of_mem hold) hname)
  · rw [if_neg ‹_›] at hname
    exact h old.2 (List.mem_map_of_mem hold) hname

end Graph.NamedAll

/-! ## Sound graphs -/

/-- The buffers of the graph that can be asked for by their names hold data. -/
def Graph.Sound (g : Graph) : Prop :=
  ∀ e ∈ g.processors.values, e.name.isSome = true → HoldsData e.processor.isBuffer e.state

theorem Programming.isBuffer_settle (stage : PlannedStage) (placed : List Placed) :
    (settle stage placed).isBuffer = stage.processor.isBuffer := by
  rw [settle]
  split
  · rename_i c hp
    rw [hp]
    rfl
  · rfl

/-- What was created for a stage is a buffer if the stage was one. -/
theorem StagesPlaced.isBuffer_eq {stages : List PlannedStage} {placed : List Placed}
    (h : StagesPlaced stages placed) :
    ∀ s ∈ stages.zip placed, s.2.processor.isBuffer = s.1.processor.isBuffer := by
  induction h with
  | nil => exact fun s hs => nomatch hs
  | concat h stage id ih =>
    intro s hs
    rw [List.zip_append h.length_eq.symm, List.mem_append] at hs
    rcases hs with hs | hs
    · exact ih s hs
    · obtain rfl := List.mem_singleton.1 hs
      exact Programming.isBuffer_settle stage _

theorem HoldsData.entry {stage : PlannedStage} (h : HoldsData stage.processor.isBuffer stage.state)
    {p : Placed} (hp : p.processor.isBuffer = stage.processor.isBuffer) (route : RouteId) :
    HoldsData (stage.entry p route).processor.isBuffer (stage.entry p route).state := by
  intro hbuffer s hs
  obtain ⟨state, hstate, rfl⟩ := Option.map_eq_some_iff.1 hs
  obtain ⟨hregular, hdata⟩ := h (hp.symm.trans hbuffer) state hstate
  refine ⟨(hregular.withId _).withInput _, ?_⟩
  rwa [Signal.shape_withInput, Signal.shape_withId]

end SignalRoute
