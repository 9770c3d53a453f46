import SignalRoute.Proofs.Graph.Resolution
import SignalRoute.Proofs.Log.Survey
import SignalRoute.Proofs.Route.Ownership

/-!
# What a survey finds is on the board

A survey only asks, so it leaves the ids on the board as they are, whatever becomes of the
questions.  And it takes up nothing that the board did not tell it of: a slot without a processor
ends the survey, and one without a logger is passed over.  So a graph that lies within its board
still does after a survey, and its names still resolve, since what is taken up has none
(`Station.Holds.adoptLoggers` says both).

Every question of a survey is a read of one of two tables (`TableRead`), so what a question does to
the link is proved once for both (`TableRead.leads_question`).  The rest goes along the definition
of the survey, with one lemma for each of its parts; that the survey may stop anywhere costs
nothing, because the invariant does not ask how far it got.
-/

set_option autoImplicit false

namespace SignalRoute

/-! ## Questions -/

/-- The link is wired to a board with the ids of `b`. -/
def Link.Shows (l : Link) (b : SimulatedBoard) : Prop :=
  ∃ now, l.Wired now ∧ ∀ k, now.ids k = b.ids k

variable {b : SimulatedBoard}

/-- A question is answered by a board with the same ids, which has them afterwards. -/
theorem TableRead.leads_question (q : TableRead) (what : String) :
    Leads (Link.Shows · b) (Link.request q.command q.key what)
      (fun reply l => l.Shows b ∧ ∃ now : SimulatedBoard, (∀ k, now.ids k = b.ids k) ∧
        reply = q.answer now)
      fun _ l => l.Shows b := by
  rintro l ⟨now, hwired, hids⟩
  by_cases hr : l.transport.Refuses
  · rw [Link.request_of_refuses hwired hr]
    exact ⟨now, (hwired.refused q.command).idle, hids⟩
  · rw [Link.request_of_reply hwired hr (q.handle_command now) (q.admits_answer now)]
    have hnext : (l.carried q.command (now.heard q.command)).Wired (now.heard q.command) :=
      hwired.carried q.command hwired.live
    exact ⟨⟨now.heard q.command, hnext.idle, fun k => (hids k ▸ by cases k <;> rfl)⟩, now, hids,
      rfl⟩

/-! ## Processors

The recursion over chains of processors is bounded by a depth, and the induction is over this bound.
The part that does not know the bound is proved for any way to find out about a processor.
-/

/-- A survey of a board with the ids of `b`, on which all is that was read. -/
structure Survey.Finds (s : Survey) (b : SimulatedBoard) : Prop where
  link : s.link.Shows b
  rebuilt : ∀ x ∈ s.rebuilt.entries, x.1 ∈ b.ids .processor

namespace Rebuilding

/-- An operation that goes on with a survey, also if it fails. -/
abbrev Finds {α : Type} (b : SimulatedBoard) (op : Rebuilding α) : Prop :=
  Leads (Survey.Finds · b) op (fun _ s => s.Finds b) fun _ s => s.Finds b

theorem finds_check {α : Type} (outcome : Except Fault α) : Finds b (check outcome) := by
  intro s hs
  rw [check_apply]
  cases outcome <;> exact hs

theorem leads_onLink {α : Type} {op : Linked α} {Q : α → Link → Prop}
    (h : Leads (Link.Shows · b) op (fun a l => l.Shows b ∧ Q a l) fun _ l => l.Shows b) :
    Leads (Survey.Finds · b) (onLink op) (fun a s => s.Finds b ∧ Q a s.link)
      fun _ s => s.Finds b := by
  intro s hs
  have hop := h s.link hs.link
  rw [onLink]
  rcases hresult : op s.link with ⟨fault | a, l⟩ <;> rw [hresult] at hop
  · exact ⟨hop, hs.rebuilt⟩
  · exact ⟨⟨hop.1, hs.rebuilt⟩, hop.2⟩

theorem leads_throw {α : Type} {Q : α → Survey → Prop} (fault : Fault) :
    Leads (Survey.Finds · b) (throw fault : Rebuilding α) Q fun _ s => s.Finds b := fun _ hs => hs

/-- A processor that was read is on the board. -/
theorem leads_readProcessor (device : Device) (id : UInt8) :
    Leads (Survey.Finds · b) (readProcessor device id)
      (fun _ s => s.Finds b ∧ id ∈ b.ids .processor) fun _ s => s.Finds b := by
  have hquestion := (TableRead.processor id).leads_question (b := b) "processor read"
  refine (leads_onLink hquestion).bind fun reply => Leads.pull fun hanswer => ?_
  obtain ⟨now, hids, hframe⟩ := hanswer
  split
  · -- only a slot that is taken has this many bytes
    have hthere : id ∈ b.ids .processor := by
      refine hids .processor ▸ (IdTable.contains_iff _ _).1 ?_
      rw [IdTable.contains]
      cases hrow : now.processors.find? id with
      | none =>
        rw [TableRead.answer, hrow] at hframe
        cases hframe
      | some row => rfl
    split
    · exact leads_throw _
    · exact (finds_check _).bind fun p => Leads.pure _ fun _ hs => ⟨hs, hthere⟩
  · exact leads_throw _

variable {find : UInt8 → Rebuilding Inferred}

theorem finds_source (hfind : ∀ id, Finds b (find id)) (catalog : Catalog) (a : Address)
    (length offset : UInt8) : Finds b (source catalog find a length offset) := by
  rw [source]
  split
  · exact (hfind a.id).bind fun _ => Leads.pure _ fun _ hs => hs
  · split
    · exact (hfind a.id).bind fun _ => Leads.pure _ fun _ hs => hs
    · exact Leads.pure _ fun _ hs => hs

theorem finds_fusedState (hfind : ∀ id, Finds b (find id)) (id : UInt8) :
    Finds b (fusedState find id) := by
  refine (hfind id).bind fun outputs => ?_
  split
  · exact Leads.pure _ fun _ hs => hs
  · exact leads_throw _

theorem finds_processor (device : Device) (catalog : Catalog) (depth : Nat) (id : UInt8) :
    Finds b (processor device catalog depth id) := by
  induction depth generalizing id with
  | zero =>
    rw [processor]
    refine Leads.get_bind fun s _ => ?_
    split
    · exact Leads.pure _ fun _ hs => hs
    · exact leads_throw _
  | succ depth ih =>
    rw [processor]
    refine Leads.get_bind fun s _ => ?_
    split
    · exact Leads.pure _ fun _ hs => hs
    · refine (leads_readProcessor device id).bind fun x => ?_
      obtain ⟨⟨a, length, offset⟩, p⟩ := x
      dsimp only
      refine Leads.pull fun hthere => ?_
      refine (finds_source ih catalog a length offset).bind fun input => ?_
      refine (Leads.mapM (fun _ _ (s : Survey) => s.Finds b) (fusedIds p)
        fun _ _ id _ _ => finds_fusedState ih id).bind fun fused => ?_
      refine (finds_check _).bind fun inferred => ?_
      intro s hs
      refine ⟨hs.link, fun x hx => ?_⟩
      rcases IdTable.mem_insertIn hx with rfl | hold
      · exact hthere
      · exact hs.rebuilt x hold

end Rebuilding

/-! ## Loggers -/

theorem LoggerSlot.id_of_used {id : UInt8} {reply : Bytes} {s : LoggerSource}
    (h : LoggerSlot.ofReply id reply = .used s) : s.id = id := by
  unfold ofReply at h
  split at h
  · split at h
    · cases h
      rfl
    · cases h
  · cases h
  · cases h

/-- A logger that was read is on the board. -/
theorem leads_readLogger (id : UInt8) :
    Leads (Link.Shows · b) (readLogger id)
      (fun slot l => l.Shows b ∧ ∀ s, slot = .used s → s.id ∈ b.ids .logger)
      fun _ l => l.Shows b := by
  have hquestion := (TableRead.logger id).leads_question (b := b) "logger read"
  refine hquestion.bind fun reply => Leads.pull fun hanswer => Leads.pure _ fun l hl => ⟨hl, ?_⟩
  obtain ⟨now, hids, hframe⟩ := hanswer
  intro s hs
  cases hrow : now.loggers.find? id with
  | none =>
    rw [hframe, TableRead.answer, hrow] at hs
    cases hs
  | some source =>
    have hthere : id ∈ now.ids .logger :=
      (IdTable.contains_iff _ _).1 (congrArg Option.isSome hrow)
    rw [LoggerSlot.id_of_used hs, ← hids .logger]
    exact hthere

/-- The loggers that are found are on the board. -/
theorem leads_readLoggers (g : Graph) (ids : List UInt8) :
    Leads (Link.Shows · b) (readLoggers g ids)
      (fun sources l => l.Shows b ∧ ∀ s ∈ sources, s.id ∈ b.ids .logger)
      fun _ l => l.Shows b := by
  induction ids with
  | nil => exact Leads.pure _ fun l hl => ⟨hl, List.forall_mem_nil _⟩
  | cons id rest ih =>
    rw [readLoggers]
    split
    · exact ih
    · refine (leads_readLogger id).bind fun slot => Leads.pull fun hslot => ?_
      cases slot with
      | tableEnd => exact Leads.pure _ fun l hl => ⟨hl, List.forall_mem_nil _⟩
      | empty => exact ih
      | used s =>
        refine ih.bind fun sources => Leads.pull fun hsources => Leads.pure _ fun l hl => ⟨hl, ?_⟩
        exact List.forall_mem_cons.2 ⟨hslot s rfl, hsources⟩

/-- Grouping invents no loggers. -/
theorem mem_ids_groupFrom {current : LoggedRange} {sources : List LoggerSource} {r : LoggedRange}
    (hr : r ∈ groupFrom current sources) {id : UInt8} (hid : id ∈ r.ids) :
    id ∈ current.ids ∨ ∃ s ∈ sources, s.id = id := by
  induction sources generalizing current with
  | nil =>
    rw [groupFrom, List.mem_singleton] at hr
    exact .inl (hr ▸ hid)
  | cons s rest ih =>
    rw [groupFrom] at hr
    split at hr
    · rcases ih hr with hold | ⟨s', hs', hsame⟩
      · rcases List.mem_append.1 hold with hold | hnew
        · exact .inl hold
        · exact .inr ⟨s, List.mem_cons_self, (List.mem_singleton.1 hnew).symm⟩
      · exact .inr ⟨s', List.mem_cons_of_mem _ hs', hsame⟩
    · rcases List.mem_cons.1 hr with rfl | hr
      · exact .inl hid
      · rcases ih hr with hold | ⟨s', hs', hsame⟩
        · exact .inr ⟨s, List.mem_cons_self, (List.mem_singleton.1 hold).symm⟩
        · exact .inr ⟨s', List.mem_cons_of_mem _ hs', hsame⟩

theorem mem_ids_groupLoggers {sources : List LoggerSource} {r : LoggedRange}
    (hr : r ∈ groupLoggers sources) {id : UInt8} (hid : id ∈ r.ids) :
    ∃ s ∈ sources, s.id = id := by
  cases sources with
  | nil => cases hr
  | cons s rest =>
    rcases mem_ids_groupFrom hr hid with hfirst | ⟨s', hs', hsame⟩
    · exact ⟨s, List.mem_cons_self, (List.mem_singleton.1 hfirst).symm⟩
    · exact ⟨s', List.mem_cons_of_mem _ hs', hsame⟩

/-! ## Surveys -/

section

variable {device : Device} {catalog : Catalog} {g : Graph}

variable (device catalog) in
/-- Subscriptions touch consumers and mailboxes only, and go on with the survey. -/
theorem adoptAll_finds {ranges : List LoggedRange} {survey : Survey} (h : survey.Finds b)
    (hg : g.Within b) (hranges : ∀ r ∈ ranges, ∀ id ∈ r.ids, id ∈ b.ids .logger) :
    (adoptAll device catalog ranges survey g).2.1.Finds b ∧
      (adoptAll device catalog ranges survey g).2.2.Within b ∧
      (adoptAll device catalog ranges survey g).2.2.processors = g.processors ∧
      (adoptAll device catalog ranges survey g).2.2.names = g.names := by
  induction ranges generalizing survey g with
  | nil => exact ⟨h, hg, rfl, rfl⟩
  | cons r rest ih =>
    have hnext : Leads (Survey.Finds · b) (Rebuilding.logged device catalog r) _ _ :=
      Rebuilding.finds_source (Rebuilding.finds_processor device catalog maxChain) catalog _ _ _
    have hstep := hnext survey h
    rw [adoptAll]
    rcases hlogged : Rebuilding.logged device catalog r survey with ⟨fault | s, survey₁⟩ <;>
      rw [hlogged] at hstep
    · exact ⟨hstep, hg, rfl, rfl⟩
    · have hadopted : (g.adopt catalog r s).2.Within b := by
        intro k x hx
        cases k with
        | processor => exact hg .processor x hx
        | event => exact hg .event x hx
        | logger =>
          obtain ⟨e, he, hpair⟩ := List.mem_flatMap.1 hx
          rcases List.mem_append.1 he with hold | hnew
          · exact hg .logger x (List.mem_flatMap.2 ⟨e, hold, hpair⟩)
          · obtain rfl := List.mem_singleton.1 hnew
            obtain ⟨id, hid, rfl⟩ := List.mem_map.1 hpair
            rw [LoggerEntry.ids, MergeQueue.ids_ofIds] at hid
            exact hranges r List.mem_cons_self id hid
      obtain ⟨hfinds, hwithin, hprocessors, hnames⟩ :=
        ih hstep hadopted fun r' hr' => hranges r' (List.mem_cons_of_mem _ hr')
      dsimp only
      rcases hrest : adoptAll device catalog rest survey₁ (g.adopt catalog r s).2 with
        ⟨fault | routes, survey₂, g₂⟩ <;> rw [hrest] at hfinds hwithin hprocessors hnames
      · refine ⟨hfinds, fun k => ?_, hprocessors, hnames⟩
        cases k with
        | processor => exact hwithin .processor
        | logger => exact hwithin .logger
        | event => exact hwithin .event
      · exact ⟨hfinds, hwithin, hprocessors, hnames⟩

/-- Processors that are on the board may be entered. -/
theorem Graph.Within.enterRebuilt (h : g.Within b) {rebuilt : List (UInt8 × Rebuilt)}
    (hrebuilt : ∀ x ∈ rebuilt, x.1 ∈ b.ids .processor) : (g.enterRebuilt rebuilt).Within b := by
  induction rebuilt generalizing g with
  | nil => exact h
  | cons x rest ih =>
    refine ih ?_ fun y hy => hrebuilt y (List.mem_cons_of_mem _ hy)
    dsimp only
    split
    · exact h
    · intro k y hy
      cases k with
      | processor =>
        obtain ⟨e, he, rfl⟩ := List.mem_map.1 hy
        rcases IdTable.mem_insertIn he with rfl | hold
        · exact hrebuilt x List.mem_cons_self
        · exact h .processor _ (List.mem_map_of_mem hold)
      | logger => exact h .logger y hy
      | event => exact h .event y hy

/-- **A survey takes up only what is on the board**, and what it takes up has no names. -/
theorem Station.Holds.adoptLoggers {s : Station} (h : s.Holds) (hresolves : s.graph.Resolves) :
    (adoptLoggers device catalog s).2.Holds ∧
      (adoptLoggers device catalog s).2.graph.Resolves := by
  obtain ⟨b, hwired, hwithin⟩ := h
  -- the board that is asked may hear more, but its ids stay
  have hholds (s' : Station) (hlink : s'.link.Shows b) (hgraph : s'.graph.Within b) : s'.Holds := by
    obtain ⟨now, hwired', hids⟩ := hlink
    exact ⟨now, hwired', fun k x hx => hids k ▸ hgraph k x hx⟩
  have hread := leads_readLoggers s.graph loggerIds s.link ⟨b, hwired, fun _ => rfl⟩
  rw [SignalRoute.adoptLoggers]
  rcases hsources : readLoggers s.graph loggerIds s.link with ⟨fault | sources, link⟩ <;>
    rw [hsources] at hread
  · exact ⟨hholds _ hread hwithin, hresolves⟩
  · obtain ⟨hlink, hthere⟩ := hread
    have hbegin : Survey.Finds ⟨link, .empty⟩ b := ⟨hlink, List.forall_mem_nil _⟩
    obtain ⟨hfinds, hwithin', hprocessors, hnames⟩ :=
      adoptAll_finds device catalog hbegin hwithin fun r hr id hid => by
        obtain ⟨source, hsource, rfl⟩ := mem_ids_groupLoggers hr hid
        exact hthere source hsource
    dsimp only
    rcases hall : adoptAll device catalog (groupLoggers sources) ⟨link, .empty⟩ s.graph with
      ⟨fault | routes, survey, g⟩ <;> rw [hall] at hfinds hwithin' hprocessors hnames
    · exact ⟨hholds _ hfinds.link hwithin', hresolves.congr hprocessors hnames⟩
    · exact ⟨hholds _ hfinds.link (hwithin'.enterRebuilt hfinds.rebuilt),
        (hresolves.congr hprocessors hnames).enterRebuilt _⟩

end
end SignalRoute
