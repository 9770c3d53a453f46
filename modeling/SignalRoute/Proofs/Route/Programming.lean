import SignalRoute.Proofs.Board.Growth
import SignalRoute.Proofs.Link.Wired
import SignalRoute.Proofs.Outcome

/-!
# Programming a wired board

A site at which `Site.Tracks` holds has recorded exactly what the board handed out since it was `b`;
this survives every command, answered, unanswered or refused.  `Site.Onward` says in addition that
nothing stood in the way so far: no creation was to be dropped and no write to be refused.

Each operation of `Programming` leads from there to there, with what it created added, or else to a
site that is `Astray`: something failed, but the records are right.

The two outcomes of an operation are not symmetric.  If it succeeds, everything is known: what was
created, how many writes went through, and that nothing was in the way.  If it fails, all that is
kept is what undoing needs, since the program goes no further.
-/

set_option autoImplicit false

namespace SignalRoute

/-! ## Sites -/

/-- The link, which was `start` when the board was `b`, reaches `now`, and the records of the site
are what was created in between. -/
structure Site.Tracks (s : Site) (start : Link) (b now : SimulatedBoard) (commands : List Bytes)
    (made : Creations) : Prop where
  wired : s.link.Wired now
  refuse : s.link.transport.refuse ≤ start.transport.refuse
  placed : s.placed = made.placed
  loggers : s.loggers = made.loggers.map Prod.fst
  events : s.events = made.events.map Prod.fst
  grown : b.Grown commands made now

/-- Something failed, but the records are right. -/
def Site.Astray (start : Link) (b : SimulatedBoard) (s : Site) : Prop :=
  ∃ now commands made, s.Tracks start b now commands made

/-- Since the link was `start` and the board was `b`, so many creations and writes went through. -/
structure Link.Unhindered (start : Link) (b now : SimulatedBoard) (created written : Nat)
    (l : Link) : Prop where
  refuse : l.transport.refuse = start.transport.refuse
  skip : start.transport.refuse ≠ 0 → l.transport.skip + written = start.transport.skip
  dropAt : now.dropAt = b.dropAt
  creates : now.creates = b.creates + created
  carriedOut : ∀ k, 0 < k → k ≤ created → b.dropAt ≠ some (b.creates + k)

/-- Nothing failed: `made` is what was created, and `others` is how many writes created nothing. -/
def Site.Onward (start : Link) (b : SimulatedBoard) (made : Creations) (others : Nat)
    (s : Site) : Prop :=
  ∃ now commands, s.Tracks start b now commands made ∧
    start.Unhindered b now made.count (made.count + others) s.link

section

variable {start l l' : Link} {b now now' : SimulatedBoard} {made : Creations} {others : Nat}
  {s : Site} {commands : List Bytes} {command : Bytes} {created written : Nat}

theorem Site.Onward.astray (h : s.Onward start b made others) : s.Astray start b := by
  obtain ⟨now, commands, ht, -⟩ := h
  exact ⟨now, commands, made, ht⟩

/-- At the beginning nothing has been created. -/
theorem Link.Wired.onward (h : l.Wired b) : Site.Onward l b .none 0 ⟨l, [], [], []⟩ := by
  refine ⟨b, [], ⟨h, Nat.le_refl _, rfl, rfl, rfl, .start b⟩, rfl, fun _ => rfl, rfl, rfl, ?_⟩
  intro k hk hle
  rw [Creations.none, Creations.count] at hle
  simp only [List.length_nil] at hle
  omega

namespace Link.Unhindered

theorem write (h : start.Unhindered b now created written l)
    (hspend : l.transport.Spends l'.transport) (hdrop : now'.dropAt = now.dropAt)
    (hcreates : now'.creates = now.creates) :
    start.Unhindered b now' created (written + 1) l' where
  refuse := hspend.refuse.trans h.refuse
  skip := fun hr => by
    have := hspend.skip (h.refuse ▸ hr)
    have := h.skip hr
    omega
  dropAt := hdrop.trans h.dropAt
  creates := hcreates.trans h.creates
  carriedOut := h.carriedOut

theorem create (h : start.Unhindered b now created written l)
    (hspend : l.transport.Spends l'.transport) (hdrop : now.dropAt ≠ some (now.creates + 1))
    (hsame : now'.dropAt = now.dropAt) (hcreates : now'.creates = now.creates + 1) :
    start.Unhindered b now' (created + 1) (written + 1) l' where
  refuse := hspend.refuse.trans h.refuse
  skip := fun hr => by
    have := hspend.skip (h.refuse ▸ hr)
    have := h.skip hr
    omega
  dropAt := hsame.trans h.dropAt
  creates := by rw [hcreates, h.creates, Nat.add_assoc]
  carriedOut := fun k hk hle => by
    rcases Nat.lt_or_eq_of_le hle with hlt | rfl
    · exact h.carriedOut k hk (by omega)
    · rwa [h.dropAt, h.creates, Nat.add_assoc] at hdrop

end Link.Unhindered

/-! ## One command at a site -/

namespace Site.Tracks

theorem withLink (h : s.Tracks start b now commands made) (hw : l.Wired now)
    (hrefuse : l.transport.refuse ≤ s.link.transport.refuse) :
    ({ s with link := l } : Site).Tracks start b now commands made :=
  { h with wired := hw, refuse := Nat.le_trans hrefuse h.refuse }

theorem unanswered (h : s.Tracks start b now commands made) (hw : l.Wired now')
    (hrefuse : l.transport.refuse ≤ s.link.transport.refuse)
    (hc : now.handle command = ([], now')) (hsame : now.Unmoved command now')
    (hrem : isRemoval command = false) :
    ({ s with link := l } : Site).Tracks start b now' (commands ++ [command]) made :=
  { h with
    wired := hw
    refuse := Nat.le_trans hrefuse h.refuse
    grown := h.grown.unanswered hc hsame hrem }

end Site.Tracks

namespace Programming

theorem onLink_of_ok {α : Type} {op : Linked α} {a : α} (h : op s.link = (.ok a, l)) :
    onLink op s = (.ok a, { s with link := l }) := by
  rw [onLink, h]

theorem onLink_of_error {α : Type} {op : Linked α} {fault : Fault}
    (h : op s.link = (.error fault, l)) :
    onLink op s = (.error fault, { s with link := l }) := by
  rw [onLink, h]

/-- A creation that the board does not answer fails, and nothing was created. -/
theorem create_of_silent (h : s.Tracks start b now commands made)
    (hc : now.handle command = ([], now')) (hsame : now.Unmoved command now')
    (hrem : isRemoval command = false) (key : ReplyKey) (what : String) :
    ∃ fault s', create command key what s = (.error fault, s') ∧ s'.Astray start b := by
  by_cases hr : s.link.transport.Refuses
  · have hrequest := Link.request_of_refuses h.wired hr command key what
    exact ⟨_, _, bind_apply_error (onLink_of_error hrequest), now, commands, made,
      h.withLink (h.wired.refused command).idle (Nat.sub_le _ _)⟩
  · have hrequest := Link.request_of_silent h.wired hr hc key what
    have hw := (h.wired.carried command (hsame.connected.trans h.wired.live)).idle
    exact ⟨_, _, bind_apply_error (onLink_of_error hrequest), now', commands ++ [command], made,
      h.unanswered hw (Nat.le_refl _) hc hsame hrem⟩

/-- A creation that the board answers gives the id in the answer, unless its write is refused. -/
theorem create_of_reply (h : s.Tracks start b now commands made) {m r id : UInt8}
    (hc : now.handle command = ([.frame [m, r, id]], now'))
    (hlive : now'.connected = now.connected) (what : String) :
    (∃ fault s', create command (.register m r) what s = (.error fault, s') ∧ s'.Astray start b) ∨
      ∃ l, create command (.register m r) what s = (.ok id, { s with link := l }) ∧
        l.Wired now' ∧ s.link.transport.Spends l.transport := by
  by_cases hr : s.link.transport.Refuses
  · have hrequest := Link.request_of_refuses h.wired hr command (.register m r) what
    exact .inl ⟨_, _, bind_apply_error (onLink_of_error hrequest), now, commands, made,
      h.withLink (h.wired.refused command).idle (Nat.sub_le _ _)⟩
  · have hkey : (ReplyKey.register m r).admits [m, r, id] = true := by
      simp [ReplyKey.register, ReplyKey.admits]
    have hrequest := Link.request_of_reply h.wired hr hc hkey what
    exact .inr ⟨_, bind_apply_ok (onLink_of_ok hrequest),
      (h.wired.carried command (hlive.trans h.wired.live)).idle,
      Transport.spends_carried hr command now'⟩

/-- A command that is not answered and changes no table goes out, unless it is refused. -/
theorem leads_send {command : Bytes} {R : SimulatedBoard → Prop}
    (hrem : isRemoval command = false)
    (hc : ∀ now : SimulatedBoard, ∃ now', now.handle command = ([], now') ∧
      now.Unmoved command now' ∧ now'.dropAt = now.dropAt ∧ now'.creates = now.creates ∧ R now') :
    Leads (Site.Onward start b made others) (onLink (Link.send command))
      (fun _ s => ∃ now commands, s.Tracks start b now commands made ∧
        start.Unhindered b now made.count (made.count + (others + 1)) s.link ∧ R now)
      (fun _ => Site.Astray start b) := by
  rintro s ⟨now, commands, ht, hu⟩
  by_cases hr : s.link.transport.Refuses
  · rw [onLink, Link.send_of_refuses ht.wired hr]
    exact ⟨now, commands, made, ht.withLink (ht.wired.refused command) (Nat.sub_le _ _)⟩
  · obtain ⟨now', hc, hsame, hdrop, hcreates, hR⟩ := hc now
    rw [onLink, Link.send_of_silent ht.wired hr hc]
    have hw := ht.wired.carried command (hsame.connected.trans ht.wired.live)
    exact ⟨now', commands ++ [command], ht.unanswered hw (Nat.le_refl _) hc hsame hrem,
      hu.write (Transport.spends_carried hr command now') hdrop hcreates, hR⟩

/-! ## The operations of programming -/

/-- A stage as it is created behind the stages `placed`. -/
def placing (stage : PlannedStage) (placed : List Placed) (id : UInt8) : Placed :=
  ⟨id, stage.source.resolve placed, settle stage placed⟩

theorem leads_createStage (stage : PlannedStage) :
    Leads (Site.Onward start b made others) (createStage stage)
      (fun _ s => ∃ id,
        s.Onward start b (made.withPlaced (placing stage made.placed id)) others)
      (fun _ => Site.Astray start b) := by
  rintro s ⟨now, commands, ht, hu⟩
  rw [createStage, get_bind_apply, ht.placed]
  rcases now.handle_createCommand (stage.source.resolve made.placed) (settle stage made.placed)
    with hc | ⟨id, hfree, hdrop, hc⟩
  · obtain ⟨fault, s', heq, ha⟩ := create_of_silent ht hc ⟨rfl, rfl, rfl, rfl, rfl⟩ rfl
      (.register Module.processor ProcessorReg.add) "processor create"
    rw [bind_apply_error heq]
    exact ha
  · rcases create_of_reply ht hc rfl "processor create" with
      ⟨fault, s', heq, ha⟩ | ⟨l, heq, hw, hspend⟩
    · rw [bind_apply_error heq]
      exact ha
    · rw [bind_apply_ok heq, modify_apply]
      refine ⟨id, _, _, ⟨hw, hspend.refuse ▸ ht.refuse, ?_, ht.loggers, ht.events,
        ht.grown.withPlaced hfree hc rfl⟩, ?_⟩
      · rw [Creations.withPlaced, ← ht.placed]
        rfl
      · rw [Creations.count_withPlaced, Nat.add_right_comm]
        exact hu.create hspend hdrop rfl rfl

theorem leads_createLogger (signal : Signal) (chunk : UInt8 × UInt8) :
    Leads (Site.Onward start b made others) (createLogger signal chunk)
      (fun id s => s.Onward start b (made.withLogger id (signal.logRow chunk)) others)
      (fun _ => Site.Astray start b) := by
  rintro s ⟨now, commands, ht, hu⟩
  rw [createLogger]
  rcases now.handle_logCommand signal.address chunk.2 (signal.shape.offset + chunk.1)
    with hc | ⟨id, hfree, hdrop, hc⟩
  · obtain ⟨fault, s', heq, ha⟩ := create_of_silent ht hc ⟨rfl, rfl, rfl, rfl, rfl⟩ rfl
      (.register Module.logging LogReg.trigger) "log trigger create"
    rw [bind_apply_error heq]
    exact ha
  · rcases create_of_reply ht hc rfl "log trigger create" with
      ⟨fault, s', heq, ha⟩ | ⟨l, heq, hw, hspend⟩
    · rw [bind_apply_error heq]
      exact ha
    · rw [bind_apply_ok heq]
      refine ⟨_, _, ⟨hw, hspend.refuse ▸ ht.refuse, ht.placed, ?_, ht.events,
        ht.grown.withLogger hfree hc rfl⟩, ?_⟩
      · rw [Creations.withLogger, List.map_append, ← ht.loggers]
        rfl
      · rw [Creations.count_withLogger, Nat.add_right_comm]
        exact hu.create hspend hdrop rfl rfl

theorem leads_createEvent (entry parameters : Bytes) :
    Leads (Site.Onward start b made others) (createEvent entry parameters)
      (fun _ s => ∃ id, s.Onward start b (made.withEvent id ⟨entry, parameters⟩) (others + 1))
      (fun _ => Site.Astray start b) := by
  refine Leads.bind (leads_send (R := fun now => now.pendingEvent = some entry) rfl fun now =>
    ⟨_, now.handle_eventCommand entry, ⟨rfl, rfl, rfl, rfl, rfl⟩, rfl, rfl, rfl⟩) fun _ => ?_
  rintro s ⟨now, commands, ht, hu, hpending⟩
  rcases SimulatedBoard.handle_parameterCommand hpending parameters with hc | ⟨id, hfree, hdrop, hc⟩
  · obtain ⟨fault, s', heq, ha⟩ := create_of_silent ht hc ⟨rfl, rfl, rfl, rfl, rfl⟩ rfl
      (.register Module.event EventReg.entry) "event create"
    rw [SimulatedBoard.parameterCommand] at heq
    rw [bind_apply_error heq]
    exact ha
  · rcases create_of_reply ht hc rfl "event create" with
      ⟨fault, s', heq, ha⟩ | ⟨l, heq, hw, hspend⟩
    · rw [SimulatedBoard.parameterCommand] at heq
      rw [bind_apply_error heq]
      exact ha
    · rw [SimulatedBoard.parameterCommand] at heq
      rw [bind_apply_ok heq, modify_apply]
      refine ⟨id, _, _, ⟨hw, hspend.refuse ▸ ht.refuse, ht.placed, ht.loggers, ?_,
        ht.grown.withEvent hfree hc rfl⟩, ?_⟩
      · rw [Creations.withEvent, List.map_append, ← ht.events]
        rfl
      · rw [Creations.count_withEvent, Nat.add_right_comm]
        exact hu.create hspend hdrop rfl rfl

end Programming
end
end SignalRoute
