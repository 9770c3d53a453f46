import SignalRoute.Proofs.Signal.Output
import SignalRoute.Route.Realize

/-!
# Signals that agree

The signal of a route and the signal that is rebuilt from the tables of its board are not equal: the
references of a comparison, for one, may have come back cut.  They agree in their address, their
shape, their kind, their place among the parts of another signal, and in how their identifier
begins.  Agreement passes on from inputs to outputs (`Agrees.output`) and from vectors to what lies
where their channels lie (`Agrees.select`), and signals that agree have one identifier
(`Agrees.identifierOr_eq`).

Equality would be too much to ask, and agreement is what is left of it.  The input of a signal is a
signal again, with references of its own that may have been cut, so two inputs need not be equal
either.  All that is told to a subscriber of the input is its identifier; so agreement has the stem
as a field, and not the input.  For the same reason it is no relation on trees: no induction is
needed, each stage adds one step.
-/

set_option autoImplicit false

namespace SignalRoute
namespace Signal

/-! ## Stems

An identifier is the identifier of the input, the suffix of the stage, and the suffix of the place
among the parts of another signal.  The stem is all of it but the last: a channel has the stem of
its vector, so agreement of vectors goes down to channels at no cost.
-/

/-- The identifier without the position among the parts of another signal. -/
def stem (catalog : Catalog) (s : Signal) : Except Fault String :=
  match s.input, s.processor with
  | some feed, some p => do return (← feed.identifier catalog) ++ s.stageSuffix p
  | _, _ =>
    match catalog.nameOf? s.address.module s.address.register with
    | some name => .ok name
    | none => .error (.unidentifiable s.address.module s.address.register)

theorem identifier_eq_stem (catalog : Catalog) (s : Signal) :
    s.identifier catalog = (s.stem catalog).map fun text => text ++ indexSuffix s.index := by
  obtain ⟨address, shape, kind, p, input, parts, index⟩ := s
  cases input with
  | none =>
    simp only [identifier, stem]
    cases catalog.nameOf? address.module address.register <;> rfl
  | some feed =>
    cases p with
    | none =>
      simp only [identifier, stem]
      cases catalog.nameOf? address.module address.register <;> rfl
    | some p =>
      simp only [identifier, stem]
      cases feed.identifier catalog <;> rfl

/-- The stem looks at the address, the processor and its input alone. -/
theorem stem_congr (catalog : Catalog) {a b : Signal} (haddress : a.address = b.address)
    (hprocessor : a.processor = b.processor) (hinput : a.input = b.input) :
    a.stem catalog = b.stem catalog := by
  cases a
  cases b
  simp only at haddress hprocessor hinput
  subst haddress hprocessor hinput
  rfl

/-! ## Agreement

`Agrees.refl` is where an induction along a route begins, with a producer that both hosts have in
their catalog, and `Agrees.output` is its step.
-/

/-- Two signals agree in all that a subscriber to a log can tell.  Of the parts of a vector nothing
has to be said, since they are its channels. -/
structure Agrees (catalog : Catalog) (a b : Signal) : Prop where
  address : a.address = b.address
  shape : a.shape = b.shape
  kind : a.kind = b.kind
  index : a.index = b.index
  stem : a.stem catalog = b.stem catalog

namespace Agrees

variable {catalog : Catalog} {a b : Signal}

theorem refl (catalog : Catalog) (a : Signal) : Agrees catalog a a := ⟨rfl, rfl, rfl, rfl, rfl⟩

theorem identifier_eq (h : Agrees catalog a b) :
    a.identifier catalog = b.identifier catalog := by
  rw [identifier_eq_stem, identifier_eq_stem, h.stem, h.index]

theorem identifierOr_eq (h : Agrees catalog a b) (address : Address) :
    a.identifierOr catalog address = b.identifierOr catalog address := by
  rw [identifierOr, h.identifier_eq, identifierOr]

/-- Vectors that agree have channels that do. -/
theorem channelPart (h : Agrees catalog a b) (scale : Float32) (shape : Shape) (k : Nat) :
    Agrees catalog (a.channelPart scale shape k) (b.channelPart scale shape k) where
  address := h.address
  shape := rfl
  kind := rfl
  index := rfl
  stem := (stem_congr catalog rfl rfl rfl).trans (h.stem.trans (stem_congr catalog rfl rfl rfl))

/-- What lies where a piece of one lies is a piece of the other that agrees with it. -/
theorem select (h : Agrees catalog a b) (ha : a.Tame)
    (hparts : b.kind.isVector = true → b.parts = b.channelParts) {t : Signal}
    (ht : t.IsPieceOf a) :
    Agrees catalog t (b.select t.shape.offset t.shape.unitLength) := by
  rcases ht with rfl | ⟨hv, ht⟩
  · rw [h.shape, select_self]
    exact h
  · have hb : b.Tame := ⟨h.shape ▸ ha.shape, fun hv =>
      ⟨h.shape ▸ (ha.vector (h.kind ▸ hv)).1, hparts hv⟩⟩
    obtain ⟨scale, shape, k, hkind, hshape, rfl⟩ := ha.part_eq hv ht
    rw [h.kind] at hv hkind
    rw [h.shape] at hshape
    have hmem : b.channelPart scale shape k ∈ b.parts := by
      rw [hparts hv, mem_channelParts]
      exact ⟨scale, shape, k, hkind, hshape, rfl⟩
    have hselect : b.select shape.offset shape.unitLength = b.channelPart scale shape k :=
      hb.select_of_mem_parts hv hmem
    rw [show (a.channelPart scale shape k).shape = shape from rfl, hselect]
    exact h.channelPart scale shape k

/-- Processors with one label, fed by signals that agree, have outputs that do once they have the
same id. -/
theorem output (h : Agrees catalog a b) {p q : Processor} {o o' s : Signal}
    (ho : o.IsOutput s p) (ho' : o'.IsOutput b q) (hs : s.shape = a.shape)
    (hs' : s.kind = a.kind) (hlabel : q.label = p.label)
    (hshape : ∀ shape, q.outputShape shape = p.outputShape shape)
    (hkind : ∀ kind, q.outputKind kind = p.outputKind kind) (id : UInt8) :
    Agrees catalog ((o.withId id).withInput a) (o'.withId id) where
  address := by rw [address_withInput, address_withId, address_withId, ho.address, ho'.address]
  shape := by
    rw [shape_withInput, shape_withId, shape_withId, ho.shape, ho'.shape, hshape, hs, h.shape]
  kind := by rw [kind_withInput, kind_withId, kind_withId, ho.kind, ho'.kind, hkind, hs', h.kind]
  index := by rw [index_withInput, index_withId, index_withId, ho.index, ho'.index]
  stem := by
    simp only [Signal.stem, input_withInput, input_withId, ho.input, ho'.input,
      processor_withInput, processor_withId, ho.processor, ho'.processor, Option.map_some,
      h.identifier_eq, stageSuffix, isState, address_withInput, address_withId, ho.address,
      ho'.address, hlabel]

end Agrees
end Signal
end SignalRoute
