import SignalRoute.Proofs.Signal.Decoding

/-!
# Stages that pass samples on

Some processors put out the bytes that they get: filters, delays, limits, comparisons and detectors
that let samples through.  Their output has the shape of their input, from the start of a payload,
and its kind, but of the parts only channels.  So it reads as its input does unless that is read by
its parts, as joined signals are; then every payload that holds a sample reads differently
(`Signal.Nested.passed_iff`).

The loss is one of the program: an output is made with the kind of its input, but only a vector gets
parts again.  Without parts, a fused signal is read as a list of nothing and an accounted one as a
run of bytes.  Neither is a fault, so nobody is told.  The theorem is an equivalence, for every
payload, so that it says both where readings are kept and that they are lost everywhere else.
-/

set_option autoImplicit false

namespace SignalRoute

/-- Does the processor put out samples as it gets them? -/
def Processor.passes : Processor → Bool
  | passthrough _ | average _ | delay _ | single _ => true
  | time c => c.mode == .absolute
  | multi c => c.mode == .absolute
  | pulse c => c.mode == .peak
  | differential c => c.mode == .absolute
  | threshold c => c.mode == .absolute
  | _ => false

/-- Is the signal read by its parts?  Joined signals are if their parts are known. -/
def Signal.readByParts (s : Signal) : Bool :=
  match s.kind, s.parts with
  | .fused, _ :: _ => true
  | .accounted, _ :: _ :: _ => true
  | _, _ => false

/-- What a processor puts out that passes samples on. -/
theorem infer_of_passes {p : Processor} (hp : p.passes = true) (s : Signal) (fused : List Signal) :
    ∃ i, infer s p fused = .ok i ∧ i.output = Inferred.notifies s p s.shape.rebased s.kind := by
  cases p with
  | passthrough c => exact ⟨_, rfl, rfl⟩
  | average c => exact ⟨_, rfl, rfl⟩
  | delay c => exact ⟨_, rfl, rfl⟩
  | single c => exact ⟨_, rfl, rfl⟩
  | time c => exact ⟨_, rfl, rfl⟩
  | multi c =>
    obtain ⟨signed, size, op, mode, references⟩ := c
    obtain rfl : mode = .absolute := eq_of_beq hp
    exact ⟨_, rfl, rfl⟩
  | pulse c =>
    obtain ⟨size, mode, threshold, width⟩ := c
    obtain rfl : mode = .peak := eq_of_beq hp
    exact ⟨_, rfl, rfl⟩
  | differential c =>
    obtain ⟨size, signed, mode, distance⟩ := c
    obtain rfl : mode = .absolute := eq_of_beq hp
    exact ⟨_, rfl, rfl⟩
  | threshold c =>
    obtain ⟨size, signed, mode, boundary, hysteresis⟩ := c
    obtain rfl : mode = .absolute := eq_of_beq hp
    exact ⟨_, rfl, rfl⟩
  | _ => cases hp

namespace Signal

variable {raw : Bytes} {s t : Signal}

theorem readsParts_of_readByParts (h : s.readByParts = true) :
    s.kind.readsParts = true ∧ s.parts ≠ [] := by
  rw [readByParts] at h
  split at h
  · rename_i hkind hparts
    exact ⟨hkind ▸ rfl, hparts ▸ List.cons_ne_nil _ _⟩
  · rename_i hkind hparts
    exact ⟨hkind ▸ rfl, hparts ▸ List.cons_ne_nil _ _⟩
  · cases h

/-- The parts that outputs have are channels, and vectors are read without them. -/
theorem readByParts_notifies (s : Signal) (p : Processor) (shape : Shape) (kind : SignalKind) :
    (Inferred.notifies s p shape kind).readByParts = false := by
  cases kind <;> rfl

theorem readByParts_atOffset (s : Signal) (offset : UInt8) :
    (s.atOffset offset).readByParts = s.readByParts := by
  rw [readByParts, readByParts, kind_atOffset, atOffset, parts_shifted]
  cases s.kind <;> rcases s.parts with _ | ⟨_, _ | ⟨_, _⟩⟩ <;> rfl

/-! ## One sample

With its parts, a signal is read as a list that is not empty or as a count with a reading behind it;
without them, as an empty list or as bytes.  These are never equal.  So if the bytes are there then
the readings differ, and if they are not then both are the same fault with the same lengths.
-/

/-- A signal that is not read by its parts is read without them. -/
theorem decode_of_not_readByParts (h : s.readByParts = false) :
    decode raw s = decode raw { s with parts := [] } := by
  obtain ⟨address, shape, kind, p, input, parts, index⟩ := s
  rw [decode, decode]
  cases kind with
  | fused =>
    cases parts with
    | nil => rfl
    | cons t rest => cases h
  | accounted =>
    match parts, h with
    | [], _ => rfl
    | [_], _ => rfl
  | _ => rfl

/-- Without its parts, a signal is read by its kind and its shape alone. -/
theorem decode_congr (hkind : s.kind = t.kind) (hshape : s.shape = t.shape)
    (hs : s.readByParts = false) (ht : t.readByParts = false) : decode raw s = decode raw t := by
  rw [decode_of_not_readByParts hs, decode_of_not_readByParts ht]
  obtain ⟨address, shape, kind, p, input, parts, index⟩ := s
  obtain ⟨address', shape', kind', p', input', parts', index'⟩ := t
  dsimp only at hkind hshape ⊢
  subst hkind hshape
  rw [decode, decode]

/-- If the bytes of a sample are there then its parts make a difference. -/
theorem decode_ne_of_readByParts (hkind : s.kind = t.kind) (hshape : s.shape = t.shape)
    (hdata : s.shape.isEmpty = false) (hstop : s.shape.stop ≤ raw.length)
    (hs : s.readByParts = false) (ht : t.readByParts = true) : decode raw s ≠ decode raw t := by
  have hdata : ¬s.shape.isEmpty = true := Bool.eq_false_iff.1 hdata
  have hdata' : ¬t.shape.isEmpty = true := hshape ▸ hdata
  have hread := extract_eq s.shape hstop
  rw [decode_of_not_readByParts hs]
  rw [readByParts] at ht
  split at ht
  · rename_i first rest hfused hparts
    have hbare : decode raw { s with parts := [] } = _ := decode_fused (hkind.trans hfused) hdata
    rw [hbare, decode_fused hfused hdata', ← hshape, hread, hparts]
    intro h
    obtain ⟨-, -, h⟩ := bind_eq_ok.1 h.symm
    obtain ⟨rs, hrs, hsame⟩ := bind_eq_ok.1 h
    obtain ⟨r, -, hrest⟩ := bind_eq_ok.1 hrs
    obtain ⟨rs', -, hrs'⟩ := bind_eq_ok.1 hrest
    cases hrs'
    cases hsame
  · rename_i lead inner rest haccounted hparts
    have hbare : decode raw { s with parts := [] } = _ :=
      decode_accounted (hkind.trans haccounted) hdata
    rw [hbare, decode_accounted haccounted hdata', ← hshape, hread, hparts]
    intro h
    have h : (lead.countOf raw >>= fun count => decode raw inner >>= fun r =>
        Except.ok (Reading.accounted count r)) = .ok (.bytes _) := h.symm
    obtain ⟨count, -, h⟩ := bind_eq_ok.1 h
    obtain ⟨r, -, hsame⟩ := bind_eq_ok.1 h
    cases hsame
  · cases ht

/-- Two signals of one kind and one shape read the same from all payloads, unless one is read by its
parts and the other is not.  Then only payloads that are too short read the same. -/
theorem decode_eq_iff (hkind : s.kind = t.kind) (hshape : s.shape = t.shape)
    (hdata : s.shape.isEmpty = false) (hs : s.readByParts = false) :
    decode raw s = decode raw t ↔ t.readByParts = false ∨ raw.length < s.shape.stop := by
  cases ht : t.readByParts with
  | false => simp only [true_or, decode_congr hkind hshape hs ht]
  | true =>
    rw [or_iff_right Bool.noConfusion]
    refine ⟨fun h => Nat.lt_of_not_le fun hstop => ?_, fun hshort => ?_⟩
    · exact decode_ne_of_readByParts hkind hshape hdata hstop hs ht h
    · rw [decode_error hdata hshort, decode_error (hshape ▸ hdata) (hshape ▸ hshort), hshape]

/-! ## All samples

Packed samples are flat, so whatever is read by its parts has one sample, and the two questions have
one answer.
-/

theorem decodeAll_congr (hkind : s.kind = t.kind) (hshape : s.shape = t.shape)
    (hs : s.readByParts = false) (ht : t.readByParts = false) :
    s.decodeAll raw = t.decodeAll raw := by
  have hcopy (i : Nat) : decode raw (s.copyAt i) = decode raw (t.copyAt i) := by
    refine decode_congr hkind ?_ hs ht
    rw [copyAt, copyAt, hshape]
  rw [decodeAll, decodeAll, decode_congr hkind hshape hs ht, hshape]
  simp only [hcopy]

theorem decodeAll_of_single (h : s.shape.copies ≤ 1) :
    s.decodeAll raw = (decode raw s).map fun r => [r] := by
  rw [decodeAll, if_pos h]
  cases decode raw s <;> rfl

theorem decodeAll_eq_iff (hkind : s.kind = t.kind) (hshape : s.shape = t.shape)
    (hdata : s.shape.isEmpty = false) (hs : s.readByParts = false)
    (hsingle : t.readByParts = true → t.shape.copies ≤ 1) :
    s.decodeAll raw = t.decodeAll raw ↔ t.readByParts = false ∨ raw.length < s.shape.stop := by
  cases ht : t.readByParts with
  | false => simp only [true_or, decodeAll_congr hkind hshape hs ht]
  | true =>
    have hinj {x y : Except Fault Reading} (h : x.map (fun r => [r]) = y.map fun r => [r]) :
        x = y := by
      cases x <;> cases y <;> cases h <;> rfl
    rw [← ht, ← decode_eq_iff hkind hshape hdata hs, decodeAll_of_single (hsingle ht),
      decodeAll_of_single (hshape ▸ hsingle ht)]
    exact ⟨hinj, fun h => by rw [h]⟩

/-- **What is passed on reads as what came in** if that is not read by its parts.  If it is, exactly
the payloads that hold no sample read the same. -/
theorem Nested.passed_iff (h : s.Nested) (hdata : s.shape.isEmpty = false) {p : Processor}
    (hp : p.passes = true) (fused : List Signal) :
    ∃ i, infer s p fused = .ok i ∧ ∀ raw : Bytes,
      (decode raw i.output = decode raw (s.atOffset 0) ↔
        s.readByParts = false ∨ raw.length < s.shape.length.toNat) ∧
      (i.output.decodeAll raw = (s.atOffset 0).decodeAll raw ↔
        s.readByParts = false ∨ raw.length < s.shape.length.toNat) := by
  obtain ⟨i, hi, houtput⟩ := infer_of_passes hp s fused
  refine ⟨i, hi, fun raw => ?_⟩
  rw [houtput]
  have hkind : s.kind = (s.atOffset 0).kind := (s.kind_atOffset 0).symm
  have hshape : s.shape.rebased = (s.atOffset 0).shape := (s.shape_atOffset 0).symm
  have hplain := readByParts_notifies s p s.shape.rebased s.kind
  have hstop : s.shape.rebased.stop = s.shape.length.toNat := Nat.zero_add _
  have hsingle : (s.atOffset 0).readByParts = true → (s.atOffset 0).shape.copies ≤ 1 := by
    rw [readByParts_atOffset, ← hshape]
    intro hparts
    by_contra hpacked
    obtain ⟨hreads, hsome⟩ := readsParts_of_readByParts hparts
    exact hsome (h.parts_of_packed hpacked hreads)
  have hone : decode raw (Inferred.notifies s p _ _) = _ ↔ _ :=
    decode_eq_iff hkind hshape hdata hplain
  have hall : (Inferred.notifies s p _ _).decodeAll raw = _ ↔ _ :=
    decodeAll_eq_iff hkind hshape hdata hplain hsingle
  rw [readByParts_atOffset] at hone hall
  rw [← hstop]
  exact ⟨hone, hall⟩

end Signal
end SignalRoute
