import SignalRoute.Proofs.Board.Creation
import SignalRoute.Proofs.Link.Wired
import SignalRoute.Route.Realize

/-!
# Sending removals

A failed realization and a teardown both end with removals, sent one after the other whatever comes
of each.  `Link.Wired.sendAll_removals` says where this leads if none of the writes is refused: to a
link that is wired to the board without what was removed.  If some are, `Link.Wired.sendAll_keeps`
says what is left to rely on.

Only quiet commands are sent here, those that are not answered by any board (`IsQuiet`), so nothing
has to be read in between and the faults of one do not reach the next.
-/

set_option autoImplicit false

namespace SignalRoute

/-- Sending commands for their faults and sending them for nothing go to the same link. -/
theorem sendAll_snd (commands : List Bytes) (l : Link) :
    (sendAll commands l).2 = commands.foldl Link.trySend l := by
  induction commands generalizing l with
  | nil => rfl
  | cons command rest ih =>
    rw [List.foldl_cons, Link.trySend, ← ih, sendAll]
    rcases Link.send command l with ⟨_ | _, l'⟩ <;> rfl

theorem sendAll_cons_of_ok {command : Bytes} {l l' : Link} (h : Link.send command l = (.ok (), l'))
    (rest : List Bytes) : sendAll (command :: rest) l = sendAll rest l' := by
  rw [sendAll, h]

theorem sendAll_cons_of_error {command : Bytes} {l l' : Link} {fault : Fault}
    (h : Link.send command l = (.error fault, l')) (rest : List Bytes) :
    (sendAll (command :: rest) l).1 = some fault := by
  rw [sendAll, h]

/-- Does a board take a command without a word, whatever is on it? -/
def IsQuiet (command : Bytes) : Prop :=
  ∀ b : SimulatedBoard, (b.handle command).1 = [] ∧ (b.handle command).2.connected = b.connected

theorem isQuiet_of_mem_removals {processors loggers events : List UInt8} {command : Bytes}
    (h : command ∈ SimulatedBoard.removals processors loggers events) : IsQuiet command := by
  rw [SimulatedBoard.removals, List.mem_append, List.mem_append] at h
  rcases h with (h | h) | h <;> obtain ⟨id, -, rfl⟩ := List.mem_map.1 h
  all_goals exact fun b => ⟨rfl, rfl⟩

namespace Link

variable {l : Link} {b : SimulatedBoard}

/-- Quiet commands, none of which is refused, all reach the board. -/
theorem Wired.sendAll {commands : List Bytes} (h : l.Wired b) (hq : ∀ c ∈ commands, IsQuiet c)
    (hok : (sendAll commands l).1 = none) :
    (SignalRoute.sendAll commands l).2.Wired (b.run commands).2 := by
  induction commands generalizing l b with
  | nil => exact h
  | cons command rest ih =>
    obtain ⟨hsilent, hlive⟩ := hq command List.mem_cons_self b
    by_cases hr : l.transport.Refuses
    · rw [sendAll_cons_of_error (send_of_refuses h hr command)] at hok
      cases hok
    · have hsend := send_of_silent h hr (Prod.ext hsilent rfl)
      rw [sendAll_cons_of_ok hsend] at hok ⊢
      exact ih (h.carried command (hlive.trans h.live))
        (fun c hc => hq c (List.mem_cons_of_mem _ hc)) hok

/-- Whatever is refused, a link stays wired while quiet commands are sent over it, and what each of
them keeps of a board is kept. -/
theorem Wired.sendAll_keeps {I : SimulatedBoard → Prop} {commands : List Bytes} (h : l.Wired b)
    (hq : ∀ c ∈ commands, IsQuiet c)
    (hkeep : ∀ c ∈ commands, ∀ b : SimulatedBoard, I b → I (b.handle c).2) (hb : I b) :
    ∃ b', (SignalRoute.sendAll commands l).2.Wired b' ∧ I b' ∧
      (SignalRoute.sendAll commands l).2.transport.sent = l.transport.sent ++ commands := by
  induction commands generalizing l b with
  | nil => exact ⟨b, h, hb, (List.append_nil _).symm⟩
  | cons command rest ih =>
    have hqrest := fun c hc => hq c (List.mem_cons_of_mem _ hc)
    have hkeeprest := fun c hc => hkeep c (List.mem_cons_of_mem _ hc)
    have hnext : ∃ l' b', (Link.send command l).2 = l' ∧ l'.Wired b' ∧ I b' ∧
        l'.transport.sent = l.transport.sent ++ [command] := by
      by_cases hr : l.transport.Refuses
      · exact ⟨_, b, congrArg Prod.snd (send_of_refuses h hr command), h.refused command, hb, rfl⟩
      · obtain ⟨hsilent, hlive⟩ := hq command List.mem_cons_self b
        exact ⟨_, _, congrArg Prod.snd (send_of_silent h hr (Prod.ext hsilent rfl)),
          h.carried command (hlive.trans h.live), hkeep command List.mem_cons_self b hb, rfl⟩
    obtain ⟨l', b', hl', hwired, hb', hsent⟩ := hnext
    obtain ⟨b'', hwired', hb'', hsent'⟩ := ih hwired hqrest hkeeprest hb'
    rw [sendAll_snd, List.foldl_cons, trySend, hl', ← sendAll_snd]
    refine ⟨b'', hwired', hb'', ?_⟩
    rw [hsent', hsent, List.append_assoc]
    rfl

/-- If no writes are refused, none of these are. -/
theorem Wired.sendAll_of_refuse_eq_zero {commands : List Bytes} (h : l.Wired b)
    (hq : ∀ c ∈ commands, IsQuiet c) (hrefuse : l.transport.refuse = 0) :
    (SignalRoute.sendAll commands l).1 = none ∧
      (SignalRoute.sendAll commands l).2.transport.refuse = 0 := by
  induction commands generalizing l b with
  | nil => exact ⟨rfl, hrefuse⟩
  | cons command rest ih =>
    obtain ⟨hsilent, hlive⟩ := hq command List.mem_cons_self b
    have hsend := send_of_silent h (fun hr => hr.1 hrefuse) (Prod.ext hsilent rfl)
    rw [sendAll_cons_of_ok hsend]
    exact ih (h.carried command (hlive.trans h.live))
      (fun c hc => hq c (List.mem_cons_of_mem _ hc)) hrefuse

/-- **Removals, none of which is refused, take their ids off the board.** -/
theorem Wired.sendAll_removals {processors loggers events : List UInt8} (h : l.Wired b)
    (hok : (SignalRoute.sendAll (SimulatedBoard.removals processors loggers events) l).1 = none) :
    (SignalRoute.sendAll (SimulatedBoard.removals processors loggers events) l).2.Wired
      (b.cleared processors loggers events) := by
  have := h.sendAll (fun c hc => isQuiet_of_mem_removals hc) hok
  rwa [b.run_removals] at this

end Link
end SignalRoute
