import SignalRoute.Proofs.Route.Derivation
import SignalRoute.Proofs.Signal.Nesting

/-!
# Drafts of nested signals

Whatever steps do, the signals that they come to are nested: those that cursors stand on, those that
buffers keep and those that are to be logged (`Draft.Nests`).  Three processors put out more than
one sample of what they get, and for these the builder looks at the bytes first
(`Draft.Emits.joins_cases`): what they put out fits in one notification.

A nested signal has its parts within its own bytes, which is what reading them from a notification
takes.  It is implied by enclosing its parts with a compact shape, so the induction is not done
again.
-/

set_option autoImplicit false

namespace SignalRoute

/-! ## Room for the parts -/

theorem Signal.packing_eq_ok {s : Signal} {count : UInt8} {p : Processor}
    (h : s.packing count = .ok p) :
    p = .packer ⟨s.shape.length, count⟩ ∧
      s.shape.unitLength.toNat * count.toNat ≤ maxPayload := by
  obtain ⟨_, -, h⟩ := bind_eq_ok.1 h
  dsimp only at h
  split at h
  · cases h
  · rename_i hcount
    exact ⟨(Except.ok.inj h).symm, Nat.not_lt.1 (not_or.1 hcount).2⟩

theorem Signal.accounting_eq_ok {s : Signal} {mode : AccountMode} {p : Processor}
    (h : s.accounting mode = .ok p) :
    p = .accounter ⟨mode, 4⟩ ∧ s.shape.length.toNat + 4 ≤ maxPayload := by
  obtain ⟨-, -, h⟩ := bind_eq_ok.1 h
  split at h
  · cases h
  · rename_i hroom
    exact ⟨(Except.ok.inj h).symm, Nat.not_lt.1 hroom⟩

/-- Does the processor put out more than one sample, or more than its input? -/
def Processor.joins : Processor → Bool
  | packer _ | accounter _ | fuser _ => true
  | _ => false

/-- Of the processors that steps choose, only packers and accounters join anything. -/
theorem Step.joins_cases {step : Step} {choice : Device → Signal → Except Fault Processor}
    {d : Device} {s : Signal} {p : Processor} (hchoice : step.choice = some choice)
    (hp : choice d s = .ok p) :
    (∃ count, s.packing count = .ok p) ∨ (∃ mode, s.accounting mode = .ok p) ∨ p.joins = false := by
  cases step <;> cases hchoice
  case pack count => exact .inl ⟨count, hp⟩
  case account mode => exact .inr (.inl ⟨mode, hp⟩)
  case count =>
    cases hp
    exact .inr (.inr rfl)
  case limit =>
    cases hp
    exact .inr (.inr rfl)
  all_goals
    refine .inr (.inr ?_)
    simp only [Signal.averaging, Signal.highPassing, Signal.accumulating, Signal.comparing,
      Signal.computing, Signal.combining, Signal.delaying, Signal.findingPulse,
      Signal.findingThreshold, Signal.findingDifferential, Signal.limitingPeriod, illegal, pure,
      Except.pure, bind, Except.bind] at hp
    grind [Processor.joins]

namespace Draft.Emits

variable {d : Draft} {s : Signal} {p : Processor} {buffers : List (NamedRef × Signal)}

theorem joins_cases (h : d.Emits s p buffers) :
    (∃ count, s.packing count = .ok p) ∨ (∃ mode, s.accounting mode = .ok p) ∨
      (p.isFuser = true ∧ Drafting.fusedWidth s (buffers.map Prod.snd) ≤ maxPayload) ∨
      p.joins = false := by
  cases h with
  | chosen hchoice hp =>
    rcases Step.joins_cases hchoice hp with hpacks | haccounts | hplain
    · exact .inl hpacks
    · exact .inr (.inl haccounts)
    · exact .inr (.inr (.inr hplain))
  | compared hp =>
    simp only [Signal.comparing, illegal, pure, Except.pure, bind, Except.bind] at hp
    grind [Processor.joins]
  | computed hp =>
    simp only [Signal.computing, illegal, pure, Except.pure, bind, Except.bind] at hp
    grind [Processor.joins]
  | buffered hp =>
    simp only [Signal.buffering, illegal, pure, Except.pure, bind, Except.bind] at hp
    grind [Processor.joins]
  | fused hdevice hdata hbuffers hwidth => exact .inr (.inr (.inl ⟨rfl, hwidth⟩))

theorem hasRoom (h : d.Emits s p buffers) : p.HasRoom s (buffers.map Prod.snd) := by
  rcases h.joins_cases with ⟨count, hp⟩ | ⟨mode, hp⟩ | ⟨hfuser, hwidth⟩ | hplain
  · rw [(Signal.packing_eq_ok hp).1]
    trivial
  · obtain ⟨rfl, hroom⟩ := Signal.accounting_eq_ok hp
    show 4 + s.shape.length.toNat ≤ maxPayload
    omega
  · cases p with
    | fuser c => exact hwidth
    | _ => cases hfuser
  · cases p with
    | accounter c => cases hplain
    | fuser c => cases hplain
    | _ => trivial

end Draft.Emits

/-! ## Drafts -/

/-- **Derived signals are nested.** -/
theorem Signal.Derived.nested {s : Signal} (h : s.Derived) : s.Nested := by
  induction h with
  | root hs => exact Catalog.nested_standard hs
  | part hs ht ih => exact ih.part ht
  | yielded hs hemits hbuffers hi ht ih ihbuffers =>
    have hnested := infer_nested hi ih (List.forall_mem_map.2 ihbuffers) hemits.hasRoom
    rcases ht with rfl | hstate
    · exact hnested.output
    · exact hnested.state _ hstate
  | placed hs id feed ih => exact (ih.withId id).withInput feed

/-- A draft with the cursor `c` in which all signals are nested that steps can come to. -/
structure Draft.Nests (c : Cursor) (d : Draft) : Prop where
  known : ∀ k ∈ d.known, ∀ s, k.state = some s → s.Nested
  stages : ∀ stage ∈ d.plan.stages, ∀ s, stage.state = some s → s.Nested
  branches : ∀ b ∈ d.branches, b.anchor.signal.Nested
  logs : ∀ c ∈ d.plan.logs, c.signal.Nested
  cursor : c.signal.Nested

theorem Draft.Derives.nests {c : Cursor} {d : Draft} (h : d.Derives c) : d.Nests c where
  known := fun k hk s hs => (h.known k hk s hs).nested
  stages := fun stage hstage s hs => (h.states stage hstage s hs).nested
  branches := fun b hb => (h.branches b hb).nested
  logs := fun c hc => (h.logs c hc).nested
  cursor := h.cursor.nested

end SignalRoute
