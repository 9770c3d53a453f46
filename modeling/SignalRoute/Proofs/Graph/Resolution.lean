import SignalRoute.Log.Anonymous
import SignalRoute.Proofs.Graph.Names

/-!
# Names that resolve

A graph keeps names and processors in two tables, which insertions and removals change separately.
`Graph.Resolves` says that they agree: a name leads to an id exactly if the processor with this id
has the name.

Neither operation keeps this on its own account: a processor that takes the place of another one
leaves the name of the latter behind, and a name that is given twice leads to the second processor
only, until that is removed and the first one is left with a name that leads nowhere.  What keeps it
is that ids and names are new when they are put in (`Graph.Resolves.insertProcessor`).  Removals need
nothing, whatever ids they are asked for (`Graph.Resolves.forget`).

`Graph.Resolves.named?_eq_some_iff` and the theorems behind it say what this means for look-ups.

The two directions of `Graph.Resolves.names` fail for different reasons, and an operation that
breaks one of them usually keeps the other; it is their conjunction that insertions of new ids keep.
-/

set_option autoImplicit false

namespace SignalRoute

/-! ## Tables with one entry for each id -/

namespace IdTable

variable {α : Type} {t : IdTable α}

theorem find?_eq_some_iff (h : t.ids.Nodup) (id : UInt8) (a : α) :
    t.find? id = some a ↔ (id, a) ∈ t.entries := by
  refine ⟨mem_entries_of_find?, fun hmem => ?_⟩
  obtain ⟨b, hb⟩ : ∃ b, t.find? id = some b :=
    Option.isSome_iff_exists.1 ((contains_iff t id).2 (List.mem_map_of_mem hmem))
  have hsame := List.inj_on_of_nodup_map h (mem_entries_of_find? hb) hmem rfl
  rw [hb, (Prod.mk.inj hsame).2]

theorem mem_values_iff (h : t.ids.Nodup) (a : α) : a ∈ t.values ↔ ∃ id, t.find? id = some a := by
  simp only [find?_eq_some_iff h]
  exact ⟨fun ha => by
    obtain ⟨⟨id, b⟩, hmem, rfl⟩ := List.mem_map.1 ha
    exact ⟨id, hmem⟩, fun ⟨id, hmem⟩ => List.mem_map_of_mem hmem⟩

theorem nodup_insert (h : t.ids.Nodup) {id : UInt8} (hid : id ∉ t.ids) (a : α) :
    (t.insert id a).ids.Nodup :=
  (perm_insertIn a hid).nodup_iff.2 (List.nodup_cons.2 ⟨hid, h⟩)

theorem nodup_foldl_erase (h : t.ids.Nodup) (out : List UInt8) : (out.foldl erase t).ids.Nodup := by
  rw [ids_foldl_erase]
  exact h.filter _

end IdTable

namespace Graph

variable {g : Graph}

/-! ## Look-ups -/

/-- What a name leads to after names were taken out. -/
theorem nameId?_filter {g g' : Graph} (keeps : String → Bool)
    (hnames : g'.names = g.names.filter fun x => keeps x.1) (name : String) :
    g'.nameId? name = if keeps name then g.nameId? name else none := by
  rw [nameId?, nameId?, hnames, List.find?_filter]
  split
  · rename_i hkept
    congr 2
    funext x
    by_cases hx : x.1 = name <;> simp [hx, hkept]
  · rename_i hnot
    rw [List.find?_eq_none.2, Option.map_none]
    rintro x - hx
    obtain ⟨hkept, hsame⟩ := of_decide_eq_true hx
    exact hnot (eq_of_beq hsame ▸ hkept)

/-- What the name of a processor that was put in leads to. -/
theorem nameId?_insertProcessor (g : Graph) (e : ProcessorEntry) (name : String) :
    (g.insertProcessor e).nameId? name =
      if e.name = some name then some e.id else g.nameId? name := by
  cases he : e.name with
  | none =>
    rw [if_neg nofun, nameId?, nameId?, insertProcessor, he]
  | some n =>
    by_cases hn : n = name
    · rw [if_pos (congrArg some hn), nameId?, insertProcessor, he,
        List.find?_cons_of_pos (by simp [hn])]
      rfl
    · have hothers : (g.insertProcessor e).nameId? name =
          nameId? { g with names := g.names.filter fun x => x.1 != n } name := by
        rw [nameId?, insertProcessor, he, List.find?_cons_of_neg (by simp [hn])]
        rfl
      rw [if_neg (by simpa using hn), hothers,
        nameId?_filter (g := g) (fun x => x != n) rfl, if_pos (by simpa using Ne.symm hn)]

theorem nameOf?_insertProcessor (g : Graph) (e : ProcessorEntry) (id : UInt8) :
    (g.insertProcessor e).nameOf? id = if id = e.id then e.name else g.nameOf? id := by
  rw [nameOf?, processor?, insertProcessor, IdTable.find?_insert, nameOf?, processor?]
  split <;> rfl

theorem nameOf?_of_not_mem {id : UInt8} (h : id ∉ g.processors.ids) : g.nameOf? id = none := by
  have hnone : g.processors.find? id = none := (IdTable.findIn_eq_none_iff id _).2 h
  rw [nameOf?, processor?, hnone]
  rfl

theorem nameId?_forget (g : Graph) (r : Route) (name : String) :
    (g.forget r).2.nameId? name =
      if some name ∈ r.processors.map g.nameOf? then none else g.nameId? name := by
  rw [nameId?_filter (fun n => !(r.processors.map g.nameOf?).contains (some n))
    (g.names_forget r)]
  by_cases hmem : some name ∈ r.processors.map g.nameOf?
  · rw [if_pos hmem, if_neg (by simpa using hmem)]
  · rw [if_neg hmem, if_pos (by simpa using hmem)]

/-! ## Graphs whose names resolve -/

/-- Each id has one processor, and a name leads to an id exactly if its processor has the name. -/
structure Resolves (g : Graph) : Prop where
  ids : g.processors.ids.Nodup
  names : ∀ name id, g.nameId? name = some id ↔ g.nameOf? id = some name

theorem resolves_empty : empty.Resolves := ⟨List.nodup_nil, fun _ _ => by
  constructor <;> rintro ⟨⟩⟩

/-- The tables of processors and of names are all that matters. -/
theorem Resolves.congr {g' : Graph} (h : g.Resolves) (hprocessors : g'.processors = g.processors)
    (hnames : g'.names = g.names) : g'.Resolves := by
  refine ⟨hprocessors ▸ h.ids, fun name id => ?_⟩
  rw [nameId?, hnames, nameOf?, processor?, hprocessors]
  exact h.names name id

/-- A processor with a new id and a new name, if it has any, resolves besides the others. -/
theorem Resolves.insertProcessor (h : g.Resolves) {e : ProcessorEntry}
    (hid : e.id ∉ g.processors.ids)
    (hname : ∀ name, e.name = some name → ∀ id, g.nameOf? id ≠ some name) :
    (g.insertProcessor e).Resolves := by
  refine ⟨IdTable.nodup_insert h.ids hid e, fun name id => ?_⟩
  rw [nameId?_insertProcessor, nameOf?_insertProcessor]
  by_cases he : e.name = some name
  · rw [if_pos he, Option.some.injEq]
    by_cases hsame : id = e.id
    · simp [hsame, he]
    · rw [if_neg hsame]
      exact ⟨fun h => absurd h.symm hsame, fun h => absurd h (hname name he id)⟩
  · rw [if_neg he, h.names]
    by_cases hsame : id = e.id
    · rw [if_pos hsame, hsame, nameOf?_of_not_mem hid]
      exact ⟨nofun, fun h => absurd h he⟩
    · rw [if_neg hsame]

/-- Forgetting a route keeps names resolving, whether or not its processors are still there. -/
theorem Resolves.forget (h : g.Resolves) (r : Route) : (g.forget r).2.Resolves := by
  refine ⟨?_, fun name id => ?_⟩
  · rw [processors_forget]
    exact IdTable.nodup_foldl_erase h.ids r.processors
  · rw [nameId?_forget, nameOf?_forget]
    by_cases hmem : some name ∈ r.processors.map g.nameOf?
    · rw [if_pos hmem]
      refine ⟨nofun, fun hid => ?_⟩
      split at hid
      · cases hid
      · rename_i hkept
        -- the name leads to one processor only, and that one is forgotten
        obtain ⟨j, hj, hname⟩ := List.mem_map.1 hmem
        have hsame := (h.names name j).2 hname
        rw [(h.names name id).2 hid, Option.some.injEq] at hsame
        exact absurd (hsame ▸ hj) hkept
    · rw [if_neg hmem, h.names]
      refine ⟨fun hid => ?_, fun hid => ?_⟩
      · rw [if_neg fun hid' => hmem (hid ▸ List.mem_map_of_mem hid'), hid]
      · split at hid
        · cases hid
        · exact hid

/-- The stages of a route, under ids that are new and with names that are new. -/
theorem Resolves.enterStages (h : g.Resolves) {route : RouteId}
    {stages : List (PlannedStage × Placed)} (hids : (stages.map fun s => s.2.id).Nodup)
    (hfree : ∀ s ∈ stages, s.2.id ∉ g.processors.ids)
    (hnames : ((stages.map Prod.fst).filterMap PlannedStage.name).Nodup)
    (hnew : ∀ s ∈ stages, ∀ name, s.1.name = some name → ∀ id, g.nameOf? id ≠ some name) :
    (g.enterStages route stages).Resolves := by
  induction stages generalizing g with
  | nil => exact h
  | cons s rest ih =>
    rw [List.map_cons, List.nodup_cons] at hids
    have hfirst : (g.insertProcessor (s.1.entry s.2 route)).Resolves :=
      h.insertProcessor (hfree s List.mem_cons_self) (hnew s List.mem_cons_self)
    have hothers : ((rest.map Prod.fst).filterMap PlannedStage.name).Nodup ∧
        ∀ s' ∈ rest, ∀ name, s'.1.name = some name → s.1.name ≠ some name := by
      cases hs : s.1.name with
      | none =>
        rw [List.map_cons, List.filterMap_cons_none hs] at hnames
        exact ⟨hnames, fun _ _ _ _ => nofun⟩
      | some n =>
        rw [List.map_cons, List.filterMap_cons_some hs, List.nodup_cons] at hnames
        refine ⟨hnames.2, fun s' hs' name hname hn => hnames.1 ?_⟩
        exact List.mem_filterMap.2 ⟨s'.1, List.mem_map_of_mem hs', hname.trans hn.symm⟩
    refine ih hfirst hids.2 (fun s' hs' hmem => ?_) hothers.1 fun s' hs' name hname id hid => ?_
    · rcases List.mem_cons.1 ((IdTable.perm_insertIn (s.1.entry s.2 route)
        (hfree s List.mem_cons_self)).mem_iff.1 hmem) with heq | hold
      · exact hids.1 (heq ▸ List.mem_map_of_mem hs')
      · exact hfree s' (List.mem_cons_of_mem _ hs') hold
    · rw [nameOf?_insertProcessor] at hid
      split at hid
      · exact hothers.2 s' hs' name hname hid
      · exact hnew s' (List.mem_cons_of_mem _ hs') name hname id hid

/-- Processors without names are entered where there is none. -/
theorem Resolves.enterRebuilt (h : g.Resolves) (rebuilt : List (UInt8 × Rebuilt)) :
    (g.enterRebuilt rebuilt).Resolves := by
  induction rebuilt generalizing g with
  | nil => exact h
  | cons x rest ih =>
    refine ih ?_
    dsimp only
    split
    · exact h
    · rename_i hnone
      refine h.insertProcessor ?_ nofun
      exact (IdTable.contains_eq_false_iff _ _).1 (Bool.not_eq_true _ ▸ hnone)

/-! ## What it means for look-ups -/

theorem Resolves.mem_values_iff (h : g.Resolves) (e : ProcessorEntry) :
    e ∈ g.processors.values ↔ ∃ id, g.processor? id = some e :=
  IdTable.mem_values_iff h.ids e

/-- A name leads to the processor that has it. -/
theorem Resolves.named?_eq_some_iff (h : g.Resolves) (name : String) (e : ProcessorEntry) :
    g.named? name = some e ↔ e ∈ g.processors.values ∧ e.name = some name := by
  rw [named?, Option.bind_eq_some_iff, h.mem_values_iff]
  constructor
  · rintro ⟨id, hid, he⟩
    have hname := (h.names name id).1 hid
    rw [nameOf?, he] at hname
    exact ⟨⟨id, he⟩, hname⟩
  · rintro ⟨⟨id, he⟩, hname⟩
    refine ⟨id, (h.names name id).2 ?_, he⟩
    rw [nameOf?, he]
    exact hname

/-- No two processors have the same name. -/
theorem Resolves.nodup_names (h : g.Resolves) :
    (g.processors.values.filterMap ProcessorEntry.name).Nodup := by
  have hids : g.processors.entries.Pairwise fun x y => x.1 ≠ y.1 := List.pairwise_map.1 h.ids
  rw [IdTable.values, List.filterMap_map, List.Nodup, List.pairwise_filterMap]
  refine hids.imp_of_mem fun {x y} hx hy hne name hname other hother hsame => hne ?_
  have hfound (z : UInt8 × ProcessorEntry) (hz : z ∈ g.processors.entries)
      (hnamed : z.2.name = some name) : g.nameId? name = some z.1 := by
    refine (h.names name z.1).2 ?_
    rw [nameOf?, processor?, (IdTable.find?_eq_some_iff h.ids z.1 z.2).2 hz]
    exact hnamed
  have hsecond := hfound y hy (hother.trans (congrArg some hsame.symm))
  rw [hfound x hx hname, Option.some.injEq] at hsecond
  exact hsecond

/-- A name is taken exactly if some processor has it. -/
theorem Resolves.isNameTaken_iff (h : g.Resolves) (name : String) :
    g.isNameTaken name = true ↔ ∃ e ∈ g.processors.values, e.name = some name := by
  rw [isNameTaken, Option.isSome_iff_exists]
  constructor
  · rintro ⟨id, hid⟩
    obtain ⟨e, he, hname⟩ := Option.bind_eq_some_iff.1 ((h.names name id).1 hid)
    exact ⟨e, (h.mem_values_iff e).2 ⟨id, he⟩, hname⟩
  · rintro ⟨e, he, hname⟩
    obtain ⟨id, hid⟩ := (h.mem_values_iff e).1 he
    refine ⟨id, (h.names name id).2 ?_⟩
    rw [nameOf?, hid]
    exact hname

end Graph
end SignalRoute
