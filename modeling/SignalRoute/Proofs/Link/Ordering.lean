import Mathlib.Data.List.Induction
import Mathlib.Logic.Relation
import SignalRoute.Proofs.Link.Traffic
import SignalRoute.Proofs.Lists

/-!
# What becomes of the frames that arrive

A request reads the queue up to its answer and puts what it passes over into the backlog, while more
frames arrive.  To look at it between two reads, `Link.readOnce` is one read of a request that
waits, and `Link.await_eq_readOnce` says that waiting is to read once and to go on.

The two forms of a request are there for different questions.  `Link.request` reads the queue in one
go, because as long as nothing comes in meanwhile this is all that there is to it, and whoever makes
a request only wants its outcome.  Who asks what becomes of the frames has to allow for arrivals
between any two reads, and for those there is no place in a function from link to link.  So a
request is split into reads here, and put together again afterwards: `Watched.run_request` says that
`Link.request` is a run of steps in which nothing arrives between the reads.

A `Watched` link comes with a record of what happened to it: which frames arrived, which of them
were returned as replies, and which ones `Link.tryNext` returned.  Arrivals, reads and all else that
is done come in any order (`Watched.Step`), but that one request runs at a time.

* `Watched.Orderly` is the invariant, which every step keeps (`Watched.Step.orderly`).
* `Watched.order_kept`: at every moment, the frames that arrived and were not returned as replies
  are those that were taken, those of the backlog and those of the queue, in this order.
* `Watched.request_keeps_order` is what this means for one request, made as a whole on a link to
  which anything may have happened before.

`Link.recv` passes the backlog by, so it is not one of the steps.
-/

set_option autoImplicit false

namespace SignalRoute

/-! ## Frames in a queue -/

/-- The frame that comes in with an event. -/
def LinkEvent.frame? : LinkEvent → Option Bytes
  | .frame f => some f
  | .disconnected => none

/-- The frames among events. -/
def framesOf (events : List LinkEvent) : List Bytes := events.filterMap LinkEvent.frame?

theorem framesOf_append (events later : List LinkEvent) :
    framesOf (events ++ later) = framesOf events ++ framesOf later :=
  List.filterMap_append

theorem framesOf_frame (f : Bytes) (rest : List LinkEvent) :
    framesOf (.frame f :: rest) = f :: framesOf rest := rfl

theorem framesOf_disconnected (rest : List LinkEvent) :
    framesOf (.disconnected :: rest) = framesOf rest := rfl

namespace Link

/-! ## One read -/

/-- One read of a request that waits for its answer, and what the request comes to if this ends
it. -/
def readOnce (what : String) (l : Link) : Option (Except Fault Bytes) × Link :=
  match l.queue with
  | [] =>
    if l.isOpen then (some (.error (.timeout what l.timeoutMs)), { l with slot := .empty })
    else (some (.error closedFault), { l with slot := .empty, connected := false })
  | .disconnected :: rest =>
    (some (.error (.connectionLost ("while waiting for " ++ what))),
      { l with queue := rest, slot := .empty, connected := false })
  | .frame f :: rest =>
    if l.slot.accepts f then (some (.ok f), { l with queue := rest, slot := .empty })
    else (none, { l with queue := rest }.defer f)

variable {what : String} {l : Link}

/-- What is to be read is the list, not the queue of the link. -/
theorem await_withQueue (events queue : List LinkEvent) (l : Link) :
    await what events { l with queue := queue } = await what events l := by
  induction events generalizing l with
  | nil => rfl
  | cons e rest ih =>
    cases e with
    | disconnected => rfl
    | frame f =>
      rw [await, await]
      split
      · rfl
      · exact ih (l.defer f)

/-- **To wait is to read once and to go on**, if that was not the end. -/
theorem await_eq_readOnce (what : String) (l : Link) :
    await what l.queue l = match l.readOnce what with
      | (some outcome, after) => (outcome, after)
      | (none, after) => await what after.queue after := by
  obtain ⟨transport, queue, capacity, isOpen, slot, backlog, timeoutMs, connected⟩ := l
  cases queue with
  | nil => cases isOpen <;> rfl
  | cons e rest =>
    cases e with
    | disconnected => rfl
    | frame f =>
      rw [await, readOnce]
      dsimp only
      split
      · rfl
      · exact (await_withQueue rest rest _).symm

/-- A read fails without having met a frame, or it meets one: the answer, or one that goes to the
backlog. -/
theorem readOnce_cases (what : String) (l : Link) :
    (∃ fault after, l.readOnce what = (some (.error fault), after) ∧
      framesOf after.queue = framesOf l.queue ∧ after.backlog = l.backlog ∧
      after.slot.isArmed = false) ∨
    (∃ f after, l.readOnce what = (some (.ok f), after) ∧
      framesOf l.queue = f :: framesOf after.queue ∧ after.backlog = l.backlog ∧
      after.slot.isArmed = false) ∨
    ∃ f after, l.readOnce what = (none, after) ∧
      framesOf l.queue = f :: framesOf after.queue ∧ after.backlog = l.backlog ++ [f] := by
  obtain ⟨transport, queue, capacity, isOpen, slot, backlog, timeoutMs, connected⟩ := l
  cases queue with
  | nil => cases isOpen <;> exact .inl ⟨_, _, rfl, rfl, rfl, rfl⟩
  | cons e rest =>
    cases e with
    | disconnected => exact .inl ⟨_, _, rfl, (framesOf_disconnected rest).symm, rfl, rfl⟩
    | frame f =>
      rw [readOnce]
      dsimp only
      split
      · exact .inr (.inl ⟨f, _, rfl, framesOf_frame f rest, rfl, rfl⟩)
      · exact .inr (.inr ⟨f, _, rfl, framesOf_frame f rest, rfl⟩)

/-- The next frame is the first one of the backlog, or of the queue if the backlog is empty; or there
is none. -/
theorem tryNext_cases (l : Link) :
    (∃ f after, tryNext l = (.ok (some f), after) ∧ after.slot = l.slot ∧
      (l.backlog = f :: after.backlog ∧ after.queue = l.queue ∨
        l.backlog = [] ∧ after.backlog = [] ∧ framesOf l.queue = f :: framesOf after.queue)) ∨
    ∃ outcome after, tryNext l = (outcome, after) ∧ (∀ f, outcome ≠ .ok (some f)) ∧
      framesOf after.queue = framesOf l.queue ∧ after.backlog = l.backlog ∧
      after.slot = l.slot := by
  obtain ⟨transport, queue, capacity, isOpen, slot, backlog, timeoutMs, connected⟩ := l
  cases backlog with
  | cons f rest => exact .inl ⟨f, _, rfl, rfl, .inl ⟨rfl, rfl⟩⟩
  | nil =>
    cases queue with
    | nil => cases isOpen <;> exact .inr ⟨_, _, rfl, nofun, rfl, rfl, rfl⟩
    | cons e rest =>
      cases e with
      | disconnected =>
        exact .inr ⟨_, _, rfl, nofun, (framesOf_disconnected rest).symm, rfl, rfl⟩
      | frame f => exact .inl ⟨f, _, rfl, rfl, .inr ⟨rfl, rfl, framesOf_frame f rest⟩⟩

end Link

/-! ## Links that are watched

Replies are kept with their places among the arrivals, since two frames may be equal.  Arrivals are
read off the queue before and after, so a frame for which the queue has no room never arrives.
-/

/-- A link, and what has happened to it. -/
structure Watched where
  link : Link
  /-- What the request that runs waits for, if one does. -/
  running : Option String
  /-- The frames that arrived, oldest first. -/
  arrived : List Bytes
  /-- How many of them have left the queue. -/
  read : Nat
  /-- The replies that requests returned, oldest first, with their places among the arrivals. -/
  replies : List (Nat × Bytes)
  /-- The frames that were taken besides, oldest first. -/
  taken : List Bytes

namespace Watched

/-- The places of the replies among the arrivals. -/
def places (s : Watched) : List Nat := s.replies.map Prod.fst

/-- A link that has not been used, with what waits in its queue. -/
def start (l : Link) : Watched := ⟨l, none, framesOf l.queue, 0, [], []⟩

/-- Something came in, and left the link as it is now. -/
def cameIn (s : Watched) (l : Link) : Watched :=
  { s with
    link := l
    arrived := s.arrived ++ framesOf (l.queue.drop s.link.queue.length) }

/-- Something was read, and left the link as it is now. -/
def wentOut (s : Watched) (l : Link) : Watched :=
  { s with
    link := l
    read := s.read + ((framesOf s.link.queue).length - (framesOf l.queue).length) }

/-- A request begins, unless its command cannot be sent. -/
def ask (s : Watched) (command : Bytes) (key : ReplyKey) (what : String) : Watched :=
  match Link.send command { s.link with slot := s.link.slot.arm key } with
  | (.ok _, l) => { s.cameIn l with running := some what }
  | (.error _, l) => s.cameIn { l with slot := .empty }

/-- The request that runs reads once. -/
def readOnce (s : Watched) (what : String) : Watched :=
  match s.link.readOnce what with
  | (some (.ok f), l) =>
    { s.wentOut l with running := none, replies := s.replies ++ [(s.read, f)] }
  | (some (.error _), l) => { s.wentOut l with running := none }
  | (none, l) => s.wentOut l

/-- The next frame is taken, if there is one. -/
def next (s : Watched) : Watched :=
  match Link.tryNext s.link with
  | (.ok (some f), l) => { s.wentOut l with taken := s.taken ++ [f] }
  | (_, l) => s.wentOut l

/-- What can happen next. -/
inductive Step (s : Watched) : Watched → Prop
  /-- An event comes in, also while a request runs. -/
  | arrived (e : LinkEvent) : Step s (s.cameIn (s.link.receive e))
  | asked (hidle : s.running = none) (command : Bytes) (key : ReplyKey) (what : String) :
      Step s (s.ask command key what)
  | read {what : String} (hrunning : s.running = some what) : Step s (s.readOnce what)
  | next (hidle : s.running = none) : Step s s.next
  | reconnected (hidle : s.running = none) : Step s { s with link := s.link.reconnected }
  /-- Nothing can come in any more. -/
  | closed : Step s { s with link := { s.link with isOpen := false } }

/-! ## Whole requests -/

/-- The record of a request that ran: its reply, if it returned one, is the only news. -/
structure Answered (s : Watched) (outcome : Except Fault Bytes) (s' : Watched) : Prop where
  idle : s'.running = none
  taken : s'.taken = s.taken
  ok : ∀ f, outcome = .ok f → ∃ place, s'.replies = s.replies ++ [(place, f)]
  error : ∀ fault, outcome = .error fault → s'.replies = s.replies

/-- To wait for an answer is a run of reads. -/
theorem run_await {s : Watched} {what : String} (hrunning : s.running = some what) :
    ∃ s', Relation.ReflTransGen Step s s' ∧
      s'.link = (Link.await what s.link.queue s.link).2 ∧
      s.Answered (Link.await what s.link.queue s.link).1 s' := by
  have hstep : Step s (s.readOnce what) := .read hrunning
  rw [Link.await_eq_readOnce]
  rw [readOnce] at hstep
  obtain ⟨fault, l, hread, -⟩ | ⟨f, l, hread, -⟩ | ⟨f, l, hread, hqueue, -⟩ :=
    s.link.readOnce_cases what <;> rw [hread] at hstep ⊢
  · exact ⟨_, .single hstep, rfl, rfl, rfl, nofun, fun _ _ => rfl⟩
  · exact ⟨_, .single hstep, rfl, rfl, rfl, fun _ hf => ⟨s.read, Except.ok.inj hf ▸ rfl⟩, nofun⟩
  · -- the queue has one frame less
    have hshorter :
        (framesOf (s.wentOut l).link.queue).length < (framesOf s.link.queue).length := by
      rw [hqueue]
      exact Nat.lt_succ_self _
    obtain ⟨s', hrun, hlink, hanswered⟩ := run_await (s := s.wentOut l) hrunning
    exact ⟨s', .head hstep hrun, hlink, hanswered.idle, hanswered.taken, hanswered.ok,
      hanswered.error⟩
termination_by (framesOf s.link.queue).length

/-- **A request is a run of steps** that starts and ends without one, and leaves the record of its
reply. -/
theorem run_request {s : Watched} (hidle : s.running = none) (command : Bytes) (key : ReplyKey)
    (what : String) :
    ∃ s', Relation.ReflTransGen Step s s' ∧
      s'.link = (Link.request command key what s.link).2 ∧
      s.Answered (Link.request command key what s.link).1 s' := by
  have hstep : Step s (s.ask command key what) := .asked hidle command key what
  rw [ask] at hstep
  rw [Link.request]
  rcases hsend : Link.send command { s.link with slot := s.link.slot.arm key } with
    ⟨fault | _, l⟩ <;> rw [hsend] at hstep
  · exact ⟨_, .single hstep, rfl, hidle, rfl, fun _ h => (by cases h), fun _ _ => rfl⟩
  · obtain ⟨s', hrun, hlink, hanswered⟩ :=
      run_await (s := { s.cameIn l with running := some what }) rfl
    exact ⟨s', .head hstep hrun, hlink, hanswered.idle, hanswered.taken, hanswered.ok,
      hanswered.error⟩

/-! ## The order of frames

The invariant is stated with a list that no record has, the arrivals that have left the queue.  It
is the arrivals cut at the number of those that were read, and naming it keeps the cut out of the
proofs.
-/

/-- Of the arrivals, `seen` left the queue; without the replies these are the frames that were taken
and those of the backlog. -/
structure Orderly (s : Watched) (seen : List Bytes) : Prop where
  arrived : s.arrived = seen ++ framesOf s.link.queue
  read : s.read = seen.length
  replies : ∀ r ∈ s.replies, seen[r.1]? = some r.2
  places : s.places.Pairwise (· < ·)
  rest : without s.places seen = s.taken ++ s.link.backlog
  slot : s.running = none → s.link.slot.isArmed = false

variable {s s' : Watched} {seen : List Bytes}

theorem Orderly.place_lt (h : s.Orderly seen) : ∀ i ∈ s.places, i < seen.length := by
  intro i hi
  obtain ⟨r, hr, rfl⟩ := List.mem_map.1 hi
  exact (List.getElem?_eq_some_iff.1 (h.replies r hr)).1

/-- What comes in is behind everything else. -/
theorem Orderly.cameIn (h : s.Orderly seen) {l : Link} {new : List LinkEvent}
    (hqueue : l.queue = s.link.queue ++ new) (hbacklog : l.backlog = s.link.backlog)
    {running : Option String} (hslot : running = none → l.slot.isArmed = false) :
    Orderly { s.cameIn l with running := running } seen := by
  refine ⟨?_, h.read, h.replies, h.places, hbacklog ▸ h.rest, hslot⟩
  show s.arrived ++ framesOf (l.queue.drop s.link.queue.length) = seen ++ framesOf l.queue
  rw [hqueue, List.drop_left, h.arrived, framesOf_append, List.append_assoc]

/-- A link from whose queue no frame went out. -/
theorem Orderly.kept (h : s.Orderly seen) {l : Link}
    (hqueue : framesOf l.queue = framesOf s.link.queue) (hbacklog : l.backlog = s.link.backlog)
    {running : Option String} (hslot : running = none → l.slot.isArmed = false) :
    Orderly { s.wentOut l with running := running } seen := by
  refine ⟨?_, ?_, h.replies, h.places, hbacklog ▸ h.rest, hslot⟩
  · show s.arrived = seen ++ framesOf l.queue
    rw [hqueue, h.arrived]
  · show s.read + _ = _
    rw [hqueue, Nat.sub_self, Nat.add_zero, h.read]

/-- The first frame of the queue goes out, and is not a reply. -/
theorem Orderly.passed (h : s.Orderly seen) {f : Bytes} {l : Link}
    (hqueue : framesOf s.link.queue = f :: framesOf l.queue) (taken : List Bytes)
    (hrest : taken ++ l.backlog = s.taken ++ s.link.backlog ++ [f])
    (hslot : s.running = none → l.slot.isArmed = false) :
    Orderly { s.wentOut l with taken := taken } (seen ++ [f]) := by
  refine ⟨?_, ?_, fun r hr => ?_, h.places, ?_, hslot⟩
  · show s.arrived = seen ++ [f] ++ framesOf l.queue
    rw [h.arrived, hqueue, List.append_assoc]
    rfl
  · show s.read + _ = _
    rw [hqueue, List.length_cons, Nat.add_sub_cancel_left, List.length_append, h.read]
    rfl
  · have hlt := h.place_lt r.1 (List.mem_map_of_mem hr)
    rw [List.getElem?_append_left hlt]
    exact h.replies r hr
  · show without s.places (seen ++ [f]) = taken ++ l.backlog
    rw [without_append h.place_lt, h.rest, hrest]

/-- The first frame of the queue is returned as a reply. -/
theorem Orderly.replied (h : s.Orderly seen) {f : Bytes} {l : Link}
    (hqueue : framesOf s.link.queue = f :: framesOf l.queue) (hbacklog : l.backlog = s.link.backlog)
    (hslot : l.slot.isArmed = false) :
    Orderly { s.wentOut l with running := none, replies := s.replies ++ [(s.read, f)] }
      (seen ++ [f]) := by
  have hplaces : (s.replies ++ [(s.read, f)]).map Prod.fst = s.places ++ [seen.length] := by
    rw [List.map_append, h.read]
    rfl
  refine ⟨?_, ?_, fun r hr => ?_, ?_, ?_, fun _ => hslot⟩
  · show s.arrived = seen ++ [f] ++ framesOf l.queue
    rw [h.arrived, hqueue, List.append_assoc]
    rfl
  · show s.read + _ = _
    rw [hqueue, List.length_cons, Nat.add_sub_cancel_left, List.length_append, h.read]
    rfl
  · rcases List.mem_append.1 hr with hold | hnew
    · rw [List.getElem?_append_left (h.place_lt r.1 (List.mem_map_of_mem hold))]
      exact h.replies r hold
    · rw [List.mem_singleton.1 hnew, h.read, List.getElem?_concat_length]
  · show ((s.replies ++ [(s.read, f)]).map Prod.fst).Pairwise (· < ·)
    rw [hplaces, List.pairwise_append]
    refine ⟨h.places, List.pairwise_singleton _ _, fun i hi j hj => ?_⟩
    rw [List.mem_singleton.1 hj]
    exact h.place_lt i hi
  · show without ((s.replies ++ [(s.read, f)]).map Prod.fst) (seen ++ [f]) = s.taken ++ l.backlog
    rw [hplaces, without_concat, h.rest, hbacklog]

theorem orderly_start {l : Link} (hbacklog : l.backlog = []) (hslot : l.slot.isArmed = false) :
    (start l).Orderly [] :=
  ⟨rfl, rfl, List.forall_mem_nil _, .nil, hbacklog.symm, fun _ => hslot⟩

theorem Orderly.ask (h : s.Orderly seen) (command : Bytes) (key : ReplyKey) (what : String) :
    (s.ask command key what).Orderly seen := by
  obtain ⟨new, hqueue, hbacklog⟩ :=
    Link.send_queue command { s.link with slot := s.link.slot.arm key }
  rw [Watched.ask]
  rcases hsend : Link.send command { s.link with slot := s.link.slot.arm key } with
    ⟨fault | _, l⟩ <;> rw [hsend] at hqueue hbacklog
  · exact h.cameIn (l := { l with slot := .empty }) hqueue hbacklog fun _ => rfl
  · exact h.cameIn hqueue hbacklog nofun

theorem Orderly.readOnce (h : s.Orderly seen) {what : String} (hrunning : s.running = some what) :
    ∃ seen', (s.readOnce what).Orderly seen' := by
  rw [Watched.readOnce]
  obtain ⟨fault, l, hread, hqueue, hbacklog, hslot⟩ | ⟨f, l, hread, hqueue, hbacklog, hslot⟩ |
    ⟨f, l, hread, hqueue, hbacklog⟩ := s.link.readOnce_cases what <;> rw [hread]
  · exact ⟨seen, h.kept hqueue hbacklog fun _ => hslot⟩
  · exact ⟨_, h.replied hqueue hbacklog hslot⟩
  · refine ⟨_, h.passed hqueue s.taken ?_ fun hidle => ?_⟩
    · rw [hbacklog, List.append_assoc]
    · rw [hrunning] at hidle
      cases hidle

theorem Orderly.next (h : s.Orderly seen) (hidle : s.running = none) :
    ∃ seen', s.next.Orderly seen' := by
  have hslot := h.slot hidle
  rw [Watched.next]
  obtain ⟨f, l, hnext, hsame, ⟨hbacklog, hqueue⟩ | ⟨hempty, hbacklog, hqueue⟩⟩ |
    ⟨outcome, l, hnext, hnone, hqueue, hbacklog, hsame⟩ := s.link.tryNext_cases <;> rw [hnext]
  · have hkept := h.rest
    rw [hbacklog] at hkept
    refine ⟨seen, ?_, ?_, h.replies, h.places, ?_, fun _ => hsame ▸ hslot⟩
    · show s.arrived = seen ++ framesOf l.queue
      rw [hqueue, h.arrived]
    · show s.read + _ = _
      rw [hqueue, Nat.sub_self, Nat.add_zero, h.read]
    · show without s.places seen = s.taken ++ [f] ++ l.backlog
      rw [hkept, List.append_assoc]
      rfl
  · refine ⟨_, h.passed hqueue _ ?_ fun _ => hsame ▸ hslot⟩
    rw [hempty, hbacklog, List.append_nil, List.append_nil]
  · have hkept : (s.wentOut l).Orderly seen := h.kept hqueue hbacklog fun _ => hsame ▸ hslot
    refine ⟨seen, ?_⟩
    split
    · rename_i f _ houtcome
      exact absurd (Prod.mk.inj houtcome).1 (hnone f)
    · rename_i hsplit
      exact (Prod.mk.inj hsplit).2 ▸ hkept

theorem Step.orderly (hstep : s.Step s') (h : s.Orderly seen) : ∃ seen', s'.Orderly seen' := by
  cases hstep with
  | arrived e =>
    obtain ⟨new, -, hl⟩ := Link.exists_receiveAll [e] s.link
    have hqueue := congrArg Link.queue hl
    have hbacklog := congrArg Link.backlog hl
    have hslot := congrArg Link.slot hl
    exact ⟨seen, h.cameIn hqueue hbacklog fun hidle => hslot ▸ h.slot hidle⟩
  | asked hidle command key what => exact ⟨seen, h.ask command key what⟩
  | read hrunning => exact h.readOnce hrunning
  | next hidle => exact h.next hidle
  | reconnected hidle => exact ⟨seen, h.arrived, h.read, h.replies, h.places, h.rest, fun _ => rfl⟩
  | closed => exact ⟨seen, h.arrived, h.read, h.replies, h.places, h.rest, h.slot⟩

/-- Every run keeps the order. -/
theorem orderly_of_run {l : Link} (hbacklog : l.backlog = []) (hslot : l.slot.isArmed = false)
    (hrun : Relation.ReflTransGen Step (start l) s) : ∃ seen, s.Orderly seen := by
  induction hrun with
  | refl => exact ⟨[], orderly_start hbacklog hslot⟩
  | tail _ hstep ih =>
    obtain ⟨seen, h⟩ := ih
    exact hstep.orderly h

/-- A reply is the frame that arrived at its place. -/
theorem Orderly.arrived_of_mem (h : s.Orderly seen) :
    ∀ r ∈ s.replies, s.arrived[r.1]? = some r.2 := by
  intro r hr
  have hlt := h.place_lt r.1 (List.mem_map_of_mem hr)
  rw [h.arrived, List.getElem?_append_left hlt]
  exact h.replies r hr

theorem Orderly.without_arrived (h : s.Orderly seen) :
    without s.places s.arrived = s.taken ++ s.link.backlog ++ framesOf s.link.queue := by
  rw [h.arrived, without_append h.place_lt, h.rest]

/-- **No frame is lost, returned twice or overtaken.**  However arrivals, requests and calls of
`Link.tryNext` interleave, and however the requests end: at every moment the replies are frames that
arrived, each at a place of its own and in the order of these places, and without them the frames
that arrived are those that were taken, those of the backlog and those of the queue, in this order.
While no request runs, nothing is waited for. -/
theorem order_kept {l : Link} (hbacklog : l.backlog = []) (hslot : l.slot.isArmed = false)
    (hrun : Relation.ReflTransGen Step (start l) s) :
    (∀ r ∈ s.replies, s.arrived[r.1]? = some r.2) ∧ s.places.Pairwise (· < ·) ∧
      without s.places s.arrived = s.taken ++ s.link.backlog ++ framesOf s.link.queue ∧
      (s.running = none → s.link.slot.isArmed = false) := by
  obtain ⟨seen, h⟩ := orderly_of_run hbacklog hslot hrun
  exact ⟨h.arrived_of_mem, h.places, h.without_arrived, h.slot⟩

/-- What has arrived stays in the record. -/
theorem Step.arrived_prefix (hstep : s.Step s') : s.arrived <+: s'.arrived := by
  cases hstep with
  | arrived e => exact List.prefix_append _ _
  | asked hidle command key what =>
    rw [Watched.ask]
    rcases Link.send command { s.link with slot := s.link.slot.arm key } with ⟨fault | _, l⟩ <;>
      exact List.prefix_append _ _
  | read hrunning =>
    rw [Watched.readOnce]
    split <;> exact List.prefix_refl _
  | next hidle =>
    rw [Watched.next]
    split <;> exact List.prefix_refl _
  | _ => exact List.prefix_refl _

theorem arrived_prefix_of_run (hrun : Relation.ReflTransGen Step s s') :
    s.arrived <+: s'.arrived := by
  induction hrun with
  | refl => exact List.prefix_refl _
  | tail _ hstep ih => exact ih.trans hstep.arrived_prefix

/-- **A request takes one frame at most, and keeps the others in order.**  Whatever has happened to
a link before, and whatever comes in while a request is made: if the request returns a frame, this
is one that arrived, behind the replies of all requests before it; and all frames that arrived but
the replies are those that were taken, those of the backlog and those of the queue, in this order.
If the request fails, it has taken none.  Nothing is waited for after it. -/
theorem request_keeps_order {l : Link} (hbacklog : l.backlog = []) (hslot : l.slot.isArmed = false)
    (hrun : Relation.ReflTransGen Step (start l) s) (hidle : s.running = none) (command : Bytes)
    (key : ReplyKey) (what : String) :
    ∃ entered : List Bytes,
      (Link.request command key what s.link).2.slot.isArmed = false ∧
      (∀ f, (Link.request command key what s.link).1 = .ok f →
        ∃ place, (s.arrived ++ entered)[place]? = some f ∧ (∀ i ∈ s.places, i < place) ∧
          without (s.places ++ [place]) (s.arrived ++ entered) =
            s.taken ++ (Link.request command key what s.link).2.backlog ++
              framesOf (Link.request command key what s.link).2.queue) ∧
      ∀ fault, (Link.request command key what s.link).1 = .error fault →
        without s.places (s.arrived ++ entered) =
          s.taken ++ (Link.request command key what s.link).2.backlog ++
            framesOf (Link.request command key what s.link).2.queue := by
  obtain ⟨s', hsteps, hlink, hanswered⟩ := run_request hidle command key what
  obtain ⟨seen, h⟩ := orderly_of_run hbacklog hslot (hrun.trans hsteps)
  obtain ⟨entered, hentered⟩ := arrived_prefix_of_run hsteps
  have hrest := h.without_arrived
  rw [← hentered, hanswered.taken, hlink] at hrest
  refine ⟨entered, hlink ▸ h.slot hanswered.idle, fun f hf => ?_, fun fault hfault => ?_⟩
  · obtain ⟨place, hreplies⟩ := hanswered.ok f hf
    have hplaces : s'.places = s.places ++ [place] := by
      rw [places, hreplies, List.map_append]
      rfl
    have hsorted := h.places
    rw [hplaces] at hrest hsorted
    refine ⟨place, ?_, fun i hi => ?_, hrest⟩
    · rw [hentered]
      refine h.arrived_of_mem (place, f) ?_
      rw [hreplies]
      exact List.mem_append_right _ (List.mem_singleton_self _)
    · exact (List.pairwise_append.1 hsorted).2.2 i hi place (List.mem_singleton_self _)
  · have hplaces : s'.places = s.places := by
      rw [places, hanswered.error fault hfault, ← places]
    rwa [hplaces] at hrest

/-- A notification, the answer to a creation, and what comes later. -/
def arrivals : List Bytes := [[0x01, 0x01, 0x01], [0x09, 0x02, 0x05], [0x01, 0x01, 0x00]]

/-- A link that nothing answers but by chance. -/
def unanswered : Link := .start .void 4 1000

/-- A request is made when a notification has arrived. -/
def requesting : Watched :=
  ((start unanswered).cameIn (unanswered.receive (.frame arrivals[0]))).ask
    [0x09, 0x02] (.register 0x09 0x02) "create"

/-- While the request passes the notification over, its answer arrives, and another notification. -/
def overtaken : Watched :=
  let passed := requesting.readOnce "create"
  let answered := passed.cameIn (passed.link.receive (.frame arrivals[1]))
  answered.cameIn (answered.link.receive (.frame arrivals[2]))

/-- The request reads its answer, and the notification from before is taken. -/
def interleaved : Watched := (overtaken.readOnce "create").next

theorem order_kept_interleaved :
    interleaved.replies = [(1, arrivals[1])] ∧ interleaved.taken = [arrivals[0]] ∧
      without interleaved.places interleaved.arrived =
        interleaved.taken ++ interleaved.link.backlog ++ framesOf interleaved.link.queue ∧
      interleaved.link.slot.isArmed = false := by
  have hrequesting : requesting.running = some "create" := by decide
  have hovertaken : overtaken.running = some "create" := by decide
  have hidle : (overtaken.readOnce "create").running = none := by decide
  have hasked : Relation.ReflTransGen Step (start unanswered) requesting :=
    .tail (.single (.arrived _)) (.asked rfl _ _ _)
  have hpassed : Relation.ReflTransGen Step requesting overtaken :=
    .tail (.tail (.single (.read hrequesting)) (.arrived _)) (.arrived _)
  have hrun : Relation.ReflTransGen Step (start unanswered) interleaved :=
    (hasked.trans hpassed).trans (.tail (.single (.read hovertaken)) (.next hidle))
  obtain ⟨-, -, hrest, hslot⟩ := order_kept rfl rfl hrun
  exact ⟨by decide, by decide, hrest, hslot hidle⟩

end Watched
end SignalRoute
