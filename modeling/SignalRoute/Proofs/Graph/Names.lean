import SignalRoute.Proofs.Graph.Tables

/-!
# Names of processors

A graph leads from names to ids in a list of its own, beside the table of processors.  Entering a
route puts the names of its stages in front; forgetting one takes out the names that its processors
have at that time (`Graph.names_forget`).

`Graph.Named` says that every name belongs to some processor.  So it remains if a route gets fresh
ids (`Graph.InSync.named_enter`), and if routes are forgotten (`Graph.Named.forget`).  It is less
than that names resolve, which is in `Proofs.Graph.Resolution`, and it is enough to undo a creation:
the names that a route brought are those that its processors have.
-/

set_option autoImplicit false

namespace SignalRoute
namespace Graph

variable (g : Graph) (route : RouteId) (catalog : Catalog)

/-! ## Entering -/

theorem names_enter (plan : Plan) (placed : List Placed) (loggers : List (List UInt8))
    (events : List UInt8) :
    (g.enter catalog route plan placed loggers events).2.names =
      (g.enterStages route (plan.stages.zip placed)).names := by
  rw [enter, enterEvents_keeps _ _ names fun _ _ => rfl,
    enterLogs_keeps _ _ _ names fun _ _ _ => rfl, enterStreams_keeps _ _ _ names fun _ _ _ => rfl]

/-- A name was there before, or it is that of a stage. -/
theorem mem_names_enterStages {stages : List (PlannedStage × Placed)} {x : String × UInt8}
    (hx : x ∈ (g.enterStages route stages).names) :
    x ∈ g.names ∨ ∃ s ∈ stages, s.1.name = some x.1 := by
  induction stages generalizing g with
  | nil => exact .inl hx
  | cons s rest ih =>
    rcases ih _ hx with hfirst | ⟨s', hs', hname⟩
    · simp only [insertProcessor] at hfirst
      split at hfirst
      · rename_i name hname
        rcases List.mem_cons.1 hfirst with rfl | hold
        · exact .inr ⟨s, List.mem_cons_self, hname⟩
        · exact .inl (List.mem_of_mem_filter hold)
      · exact .inl hfirst
    · exact .inr ⟨s', List.mem_cons_of_mem _ hs', hname⟩

/-- But for the names of the stages, the names stay as they were. -/
theorem names_enterStages {names : List String} {stages : List (PlannedStage × Placed)}
    (h : ∀ s ∈ stages, ∀ name, s.1.name = some name → name ∈ names) :
    (g.enterStages route stages).names.filter (fun x => !names.contains x.1) =
      g.names.filter fun x => !names.contains x.1 := by
  induction stages generalizing g with
  | nil => rfl
  | cons s rest ih =>
    refine (ih _ fun s' hs' => h s' (List.mem_cons_of_mem _ hs')).trans ?_
    simp only [insertProcessor]
    split
    · rename_i name hname
      have hmem : name ∈ names := h s List.mem_cons_self name hname
      rw [List.filter_cons_of_neg (by simpa using hmem), List.filter_filter]
      refine List.filter_congr fun x _ => ?_
      by_cases hx : x.1 = name
      · simp [hx, hmem]
      · simp [hx]
    · rfl

/-! ## Forgetting -/

/-- The name of the processor with an id. -/
def nameOf? (id : UInt8) : Option String := (g.processor? id).bind ProcessorEntry.name

theorem names_removeProcessor (id : UInt8) :
    (g.removeProcessor id).names = g.names.filter fun x => g.nameOf? id != some x.1 := by
  rw [removeProcessor, nameOf?]
  cases g.processor? id with
  | none => exact (List.filter_eq_self.2 fun x _ => rfl).symm
  | some e =>
    dsimp only [Option.bind_some]
    cases e.name with
    | none => exact (List.filter_eq_self.2 fun x _ => rfl).symm
    | some name =>
      refine List.filter_congr fun x _ => ?_
      rw [Bool.eq_iff_iff, bne_iff_ne, bne_iff_ne, ne_eq, ne_eq, Option.some.injEq, eq_comm]

theorem nameOf?_removeProcessor (id j : UInt8) :
    (g.removeProcessor id).nameOf? j = if j = id then none else g.nameOf? j := by
  rw [nameOf?, processor?, processors_removeProcessor, IdTable.find?_erase, nameOf?, processor?]
  split <;> rfl

/-- The names that are forgotten are those of the processors. -/
theorem names_forgetProcessors (ids : List UInt8) :
    (g.forgetProcessors ids).2.names =
      g.names.filter fun x => !(ids.map g.nameOf?).contains (some x.1) := by
  induction ids generalizing g with
  | nil => exact (List.filter_eq_self.2 fun x _ => rfl).symm
  | cons id rest ih =>
    refine (ih (g.removeProcessor id)).trans ?_
    rw [names_removeProcessor, List.filter_filter]
    refine List.filter_congr fun x _ => ?_
    have hrest : some x.1 ∈ rest.map (g.removeProcessor id).nameOf? ↔
        ∃ j ∈ rest, j ≠ id ∧ g.nameOf? j = some x.1 := by
      simp only [List.mem_map, nameOf?_removeProcessor]
      refine exists_congr fun j => and_congr_right fun _ => ?_
      split <;> simp [*]
    rw [Bool.eq_iff_iff, Bool.and_eq_true, Bool.not_eq_true', ← Bool.not_eq_true,
      List.contains_iff_mem, hrest, bne_iff_ne, Bool.not_eq_true', ← Bool.not_eq_true,
      List.contains_iff_mem, List.map_cons, List.mem_cons, List.mem_map, not_or]
    constructor
    · rintro ⟨hothers, hfirst⟩
      refine ⟨fun hname => hfirst hname.symm, fun ⟨j, hj, hname⟩ => ?_⟩
      by_cases hjid : j = id
      · exact hfirst (hjid ▸ hname)
      · exact hothers ⟨j, hj, hjid, hname⟩
    · rintro ⟨hfirst, hothers⟩
      exact ⟨fun ⟨j, hj, _, hname⟩ => hothers ⟨j, hj, hname⟩, fun hname => hfirst hname.symm⟩

/-- Forgetting a route takes out the names of its processors. -/
theorem names_forget (r : Route) :
    (g.forget r).2.names =
      g.names.filter fun x => !(r.processors.map g.nameOf?).contains (some x.1) := by
  rw [forget_snd, removeStreams, forgetEvents_keeps _ names fun _ _ => rfl,
    removeLoggers_keeps _ names fun _ _ => rfl, names_forgetProcessors]

theorem nameOf?_forget (r : Route) (id : UInt8) :
    (g.forget r).2.nameOf? id = if id ∈ r.processors then none else g.nameOf? id := by
  rw [nameOf?, processor?, processors_forget, IdTable.find?_foldl_erase, nameOf?, processor?]
  split <;> rfl

/-! ## Names that lead somewhere -/

/-- Every name belongs to some processor. -/
def Named (g : Graph) : Prop := ∀ x ∈ g.names, ∃ id, g.nameOf? id = some x.1

namespace Named

variable {g} {route} {catalog}

theorem forget (h : g.Named) (r : Route) : (g.forget r).2.Named := by
  intro x hx
  rw [names_forget, List.mem_filter, Bool.not_eq_true', ← Bool.not_eq_true,
    List.contains_iff_mem] at hx
  obtain ⟨id, hid⟩ := h x hx.1
  have hnot : id ∉ r.processors := fun hmem => hx.2 (hid ▸ List.mem_map_of_mem hmem)
  exact ⟨id, by rw [nameOf?_forget, if_neg hnot, hid]⟩

end Named
end Graph
end SignalRoute
