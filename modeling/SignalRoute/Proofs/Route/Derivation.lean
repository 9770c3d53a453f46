import SignalRoute.Proofs.Route.Soundness

/-!
# Signals that expressions lead to

A signal is derived if expressions can lead to it from the built-in sensors, on whatever boards: it
is a sensor's, a part of a derived signal, or what a processor puts out or keeps that steps put
behind one.  Copies that are on a board are derived as well, since drafts start with what the board
keeps under names.

All signals of a draft are derived if those are that it starts with (`Draft.Derives.build`).  What
is to be proved of every signal of every draft can therefore be proved by induction on how it is
derived.

Derivation does not mention drafts, cursors or routes, although only these can tell which processors
may be put behind a signal (`Draft.Emits`).  So a property of signals is proved in a few cases, and
not once for each step, and it then holds of everything that a user can point at.
-/

set_option autoImplicit false

namespace SignalRoute

/-- The signals that expressions lead to. -/
inductive Signal.Derived : Signal → Prop
  | root {s : Signal} (hs : s ∈ Catalog.standard.producers.map Producer.signal) : Derived s
  | part {s t : Signal} (hs : Derived s) (ht : t ∈ s.parts) : Derived t
  /-- A processor behind a signal, with the buffers that it reads besides. -/
  | yielded {d : Draft} {s t : Signal} {p : Processor} {buffers : List (NamedRef × Signal)}
      {i : Inferred} (hs : Derived s) (hemits : d.Emits s p buffers)
      (hbuffers : ∀ b ∈ buffers, Derived b.2) (hi : infer s p (buffers.map Prod.snd) = .ok i)
      (ht : i.Yields t) : Derived t
  /-- The copy that is on a board. -/
  | placed {s : Signal} (hs : Derived s) (id : UInt8) (feed : Signal) :
      Derived ((s.withId id).withInput feed)

/-- A draft with the cursor `c` in which all signals are good that steps can come to. -/
structure Draft.All (good : Signal → Prop) (c : Cursor) (d : Draft) : Prop where
  known : ∀ k ∈ d.known, ∀ s, k.state = some s → good s
  outputs : ∀ stage ∈ d.plan.stages, good stage.output
  states : ∀ stage ∈ d.plan.stages, ∀ s, stage.state = some s → good s
  branches : ∀ b ∈ d.branches, good b.anchor.signal
  logs : ∀ c ∈ d.plan.logs, good c.signal
  cursor : good c.signal

namespace Draft.All

variable {good : Signal → Prop} {c : Cursor} {d : Draft}

theorem lookupBuffer (h : d.All good c) {name : String} {b : NamedRef × Signal}
    (hb : d.lookupBuffer name = .ok b) : good b.2 := by
  rcases Draft.lookupBuffer_eq_ok hb with ⟨stage, hstage, -, hs⟩ | ⟨k, hk, -, hs⟩
  · exact h.states stage hstage _ hs
  · exact h.known k hk _ hs

/-- What a processor reads besides is good. -/
theorem buffers (h : d.All good c) {s : Signal} {p : Processor} {buffers : List (NamedRef × Signal)}
    (hemits : d.Emits s p buffers) : ∀ b ∈ buffers, good b.2 := by
  intro b hb
  obtain ⟨name, hname⟩ := hemits.lookupBuffer hb
  exact h.lookupBuffer hname

theorem addStage (h : d.All good c) (stage : PlannedStage) (houtput : good stage.output)
    (hstate : ∀ s, stage.state = some s → good s) (i : Option Nat) :
    (d.addStage stage).All good ⟨stage.output, i⟩ := by
  refine { h with
    outputs := fun stage' hstage => ?_, states := fun stage' hstage => ?_, cursor := houtput }
  all_goals rcases List.mem_append.1 hstage with hstage | hstage
  · exact h.outputs stage' hstage
  · rwa [List.mem_singleton.1 hstage]
  · exact h.states stage' hstage
  · rwa [List.mem_singleton.1 hstage]

theorem nameStage (h : d.All good c) (i : Nat) (name : String) :
    (d.nameStage i name).All good c := by
  refine { h with outputs := fun stage hstage => ?_, states := fun stage hstage => ?_ }
  all_goals obtain ⟨old, hold, rfl | rfl⟩ := Draft.of_mem_nameStage hstage
  · exact h.outputs _ hold
  · exact h.outputs old hold
  · exact h.states _ hold
  · exact h.states old hold

/-- **Moves lead from good signals to good signals** if parts of good signals are good, and if so is
what the processor yields that is put behind the cursor. -/
theorem move {x y : Cursor × Draft} (hmove : Draft.Move x y) (h : x.2.All good x.1)
    (hparts : ∀ s, good s → ∀ t ∈ s.parts, good t)
    (hyields : ∀ (p : Processor) (buffers : List (NamedRef × Signal)) (i : Inferred),
      x.2.Emits x.1.signal p buffers → infer x.1.signal p (buffers.map Prod.snd) = .ok i →
      y.2 = x.2.addStage ⟨x.1, p, i.output, i.state, none, buffers.map Prod.fst⟩ →
      ∀ t, i.Yields t → good t) : y.2.All good y.1 := by
  cases hmove with
  | @emitted c d p buffers i hemits hi =>
    have hgood := hyields _ _ _ hemits hi rfl
    exact h.addStage ⟨c, p, i.output, i.state, none, buffers.map Prod.fst⟩ (hgood _ (.inl rfl))
      (fun s hs => hgood s (.inr hs)) _
  | fed c d feedback => exact { h with }
  | named hstage hnamed hknown hunnamed => exact h.nameStage _ _
  | reacted c d commands => exact { h with }
  | streamed c d => exact { h with }
  | @logged c d hdata =>
    refine { h with logs := fun c' hc' => ?_ }
    rcases List.mem_append.1 hc' with hc' | hc'
    · exact h.logs c' hc'
    · rw [List.mem_singleton.1 hc']
      exact h.cursor
  | opened c d kind =>
    refine { h with branches := fun b hb => ?_ }
    rcases List.mem_cons.1 hb with rfl | hb
    · exact h.cursor
    · exact h.branches b hb
  | returned hb => exact { h with cursor := h.branches _ hb }
  | entered hs => exact { h with cursor := hparts _ h.cursor _ hs }
  | @closed c d b rest hb =>
    have hbranches : ∀ b' ∈ b :: rest, good b'.anchor.signal := hb ▸ h.branches
    exact { h with
      branches := fun b' hb' => hbranches b' (List.mem_cons_of_mem _ hb')
      cursor := hbranches b List.mem_cons_self }

end Draft.All

/-- A draft with the cursor `c` in which all signals are derived that steps can come to. -/
abbrev Draft.Derives (c : Cursor) (d : Draft) : Prop := d.All Signal.Derived c

namespace Draft.Derives

variable {c : Cursor} {d : Draft}

/-- **Every move leads from derived signals to derived signals.** -/
theorem move {x y : Cursor × Draft} (hmove : Draft.Move x y) (h : x.2.Derives x.1) :
    y.2.Derives y.1 :=
  Draft.All.move hmove h (fun _ hs _ ht => .part hs ht) fun _ _ _ hemits hi _ _ ht =>
    .yielded h.cursor hemits (h.buffers hemits) hi ht

theorem run (h : d.Derives c) (steps : List Step) :
    ∃ next, (Step.run c steps d).2.Derives next ∧
      ∀ c', (Step.run c steps d).1 = .ok c' → c' = next :=
  Drafting.run_keeps (I := fun x => x.2.Derives x.1) (fun _ _ hmove => move hmove) h steps

/-- **Expressions that start at derived signals lead to derived signals.** -/
theorem build (h : d.Derives c) {expressions : List (Signal × List Step)}
    (hroots : ∀ e ∈ expressions, e.1.Derived) : ∃ next, (d.build expressions).Derives next :=
  Draft.build_keeps (I := fun x => x.2.Derives x.1) (fun _ _ hmove => move hmove)
    (fun e he _ _ hderives => { hderives with cursor := hroots e he }) h

end Draft.Derives

/-! ## Where stages come from -/

/-- The stage is a processor that steps put behind a derived signal, with buffers that keep derived
signals. -/
structure PlannedStage.Emitted (stage : PlannedStage) : Prop where
  source : stage.source.signal.Derived
  emits : ∃ (d : Draft) (buffers : List (NamedRef × Signal)) (i : Inferred),
    d.Emits stage.source.signal stage.processor buffers ∧ (∀ b ∈ buffers, b.2.Derived) ∧
      infer stage.source.signal stage.processor (buffers.map Prod.snd) = .ok i ∧
      i.output = stage.output

theorem Draft.Derives.emitted_move {x y : Cursor × Draft} (hmove : Draft.Move x y)
    (h : x.2.Derives x.1) (hstages : ∀ stage ∈ x.2.plan.stages, stage.Emitted) :
    ∀ stage ∈ y.2.plan.stages, stage.Emitted := by
  cases hmove with
  | @emitted c d p buffers i hemits hi =>
    intro stage hstage
    rcases List.mem_append.1 hstage with hstage | hstage
    · exact hstages stage hstage
    · rw [List.mem_singleton.1 hstage]
      exact ⟨h.cursor, d, buffers, i, hemits, h.buffers hemits, hi, rfl⟩
  | named hstage hnamed hknown hunnamed =>
    intro stage hstage
    obtain ⟨old, hold, rfl | rfl⟩ := Draft.of_mem_nameStage hstage
    · exact hstages _ hold
    · have hemitted := hstages old hold
      exact ⟨hemitted.source, hemitted.emits⟩
  | _ => exact hstages

/-- **Stages are emitted behind derived signals**, by whatever expressions. -/
theorem Draft.Derives.emitted_build {c : Cursor} {d : Draft} (h : d.Derives c)
    (hstages : ∀ stage ∈ d.plan.stages, stage.Emitted)
    {expressions : List (Signal × List Step)} (hroots : ∀ e ∈ expressions, e.1.Derived) :
    ∀ stage ∈ (d.build expressions).plan.stages, stage.Emitted := by
  obtain ⟨next, -, hnext⟩ := Draft.build_keeps
    (I := fun x => x.2.Derives x.1 ∧ ∀ stage ∈ x.2.plan.stages, stage.Emitted)
    (fun _ _ hmove hx => ⟨hx.1.move hmove, hx.1.emitted_move hmove hx.2⟩)
    (fun e he _ _ hx => ⟨{ hx.1 with cursor := hroots e he }, hx.2⟩) ⟨h, hstages⟩
  exact hnext

end SignalRoute
