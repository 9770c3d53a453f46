import SignalRoute.Proofs.Host.Session
import SignalRoute.Proofs.Route.Ownership

/-!
# Handles of routes

A board hands an id out again once what had it is gone.  So the handle of a route that has been
taken off may name ids that belong to another route by now, and to remove it once more takes these
off the board.

A `Registry` is a host with the handles of all routes that it ever returned.  It goes on by building
routes, by removing them through any handle, any number of times, and by interference with the
board: creations that are not answered, writes that are refused.

* `Registry.Good`: what is in the graph is on the board, and belongs to the last route that was
  given its id, which has not been removed since.
* `Registry.remove_spares_others`: a handle removes nothing but its own route, unless one of
  its ids was handed out again and is in use.
* `Registry.not_spares_reissued`: if one was, the handle does remove what belongs to another
  route.

This is where a session stops short.  `Session.Step` removes each route at most once, and keeps host
and board in step; here a handle may be used as often as one likes, and the board may refuse to do
its part.  What remains is weaker: what is in the graph is on the board, though not the other way
round, and every entry of the graph has one handle that it belongs to.  Ownership is what the
theorem needs.  A removal goes by ids and asks nobody whose they are, so it is right exactly if each
id is still held by the route that it is removed for.
-/

set_option autoImplicit false

namespace SignalRoute

/-! ## Registries

Handles are never thrown away, so the list of them is the history of ids.  `lastHolder` finds the
newest route that was given an id.  An older one may still name it, but does not have it any more:
the board had the id free when it gave it out again.
-/

/-- A route that was returned, and whether it has been removed since. -/
structure Handle where
  route : Route
  removed : Bool

/-- A host, and all that it ever returned, newest first. -/
structure Registry where
  host : Host
  handles : List Handle

/-- The last route that was given an id. -/
def lastHolder (handles : List Handle) (k : Resource) (id : UInt8) : Option Handle :=
  handles.find? fun h => decide (id ∈ h.route.ids k)

section

variable {later earlier rest : List Handle} {h h' : Handle} {k : Resource} {id : UInt8}

theorem lastHolder_cons_of_mem (hid : id ∈ h.route.ids k) :
    lastHolder (h :: rest) k id = some h := by
  simp [lastHolder, hid]

theorem lastHolder_cons_of_not_mem (hid : id ∉ h.route.ids k) :
    lastHolder (h :: rest) k id = lastHolder rest k id := by
  simp [lastHolder, hid]

theorem lastHolder_append :
    lastHolder (later ++ rest) k id = (lastHolder later k id).or (lastHolder rest k id) :=
  List.find?_append

/-- The last holder of an id of a route is the route, or it came later. -/
theorem mem_of_lastHolder (hlast : lastHolder (later ++ h :: earlier) k id = some h')
    (hid : id ∈ h.route.ids k) : h' = h ∨ h' ∈ later ∧ id ∈ h'.route.ids k := by
  rw [lastHolder_append, lastHolder_cons_of_mem hid] at hlast
  cases hlater : lastHolder later k id with
  | none =>
    rw [hlater, Option.none_or, Option.some.injEq] at hlast
    exact .inl hlast.symm
  | some j =>
    rw [hlater, Option.some_or, Option.some.injEq] at hlast
    subst hlast
    rw [lastHolder] at hlater
    have hfound := List.find?_some hlater
    exact .inr ⟨List.mem_of_find?_eq_some hlater, of_decide_eq_true hfound⟩

end

namespace Registry

/-- Build a route. -/
def build (s : Registry) (producer : String) (expression : Cursor → Drafting Cursor) : Registry :=
  match Host.buildRoute producer expression s.host with
  | (.ok r, host) => ⟨host, ⟨r, false⟩ :: s.handles⟩
  | (.error _, host) => ⟨host, s.handles⟩

/-- Remove the route of a handle. -/
def remove (s : Registry) (i : Nat) : Registry :=
  match s.handles[i]? with
  | none => s
  | some h => ⟨(Host.removeRoute h.route s.host).2, s.handles.set i { h with removed := true }⟩

/-- The registry with its board told not to carry out the `k`-th creation from now on. -/
def dropReply (s : Registry) (k : Nat) : Registry :=
  { s with host := s.host.mapLink fun l =>
    { l with transport := l.transport.mapBoard fun b => b.dropReply k } }

/-- The registry with its transport told to refuse `count` writes after the next `skip`. -/
def planFailures (s : Registry) (skip count : Nat) : Registry :=
  { s with host := s.host.mapLink fun l =>
    { l with transport := l.transport.planFailures skip count } }

/-- What can happen next. -/
inductive Step (s : Registry) : Registry → Prop
  | build (producer : String) (expression : Cursor → Drafting Cursor) :
      Step s (s.build producer expression)
  /-- A route is removed, which may have been removed before. -/
  | remove (i : Nat) : Step s (s.remove i)
  | dropReply (k : Nat) : Step s (s.dropReply k)
  | planFailures (skip count : Nat) : Step s (s.planFailures skip count)

/-- A registry begins without routes, over a link that is wired to some board. -/
structure Begins (s : Registry) : Prop where
  graph : s.host.station.graph = .empty
  handles : s.handles = []
  board : ∃ b, s.host.station.link.Wired b

/-- What is in the graph is on the board, and belongs to the last route that was given its id, which
has not been removed since. -/
structure Good (s : Registry) : Prop where
  holds : s.host.station.Holds
  owned : ∀ k, ∀ x ∈ s.host.station.graph.owners k, ∃ h, lastHolder s.handles k x.1 = some h ∧
    h.removed = false ∧ h.route.id = x.2

variable {s s' : Registry}

theorem Begins.good (h : s.Begins) : s.Good := by
  have hnone (k : Resource) : s.host.station.graph.owners k = [] := by
    rw [h.graph]
    cases k <;> rfl
  obtain ⟨b, hb⟩ := h.board
  refine ⟨⟨b, hb, fun k x hx => ?_⟩, fun k x hx => ?_⟩
  · rw [hnone] at hx
    cases hx
  · rw [hnone] at hx
    cases hx

theorem Good.build (h : s.Good) (producer : String) (expression : Cursor → Drafting Cursor) :
    (s.build producer expression).Good := by
  rw [Registry.build, Host.buildRoute]
  cases hplan : s.host.plan producer expression with
  | error fault => exact h
  | ok plan =>
    simp only [Host.onStation]
    rcases hr : realize s.host.catalog s.host.nextRoute plan s.host.station with
      ⟨fault | r, station⟩
    · obtain ⟨hholds, hgraph⟩ := h.holds.realize_error hr
      exact ⟨hholds, fun k x hx => h.owned k x (hgraph ▸ hx)⟩
    · obtain ⟨hholds, hfresh, hnew⟩ := h.holds.realize_ok hr
      refine ⟨hholds, fun k x hx => ?_⟩
      show ∃ h, lastHolder (⟨r, false⟩ :: s.handles) k x.1 = some h ∧ _
      rcases hnew k x hx with hold | ⟨hroute, hid⟩
      · rw [lastHolder_cons_of_not_mem (hfresh k x hold)]
        exact h.owned k x hold
      · exact ⟨_, lastHolder_cons_of_mem hid, rfl, hroute.symm⟩

theorem Good.remove (h : s.Good) (i : Nat) : (s.remove i).Good := by
  rw [Registry.remove]
  cases hi : s.handles[i]? with
  | none => exact h
  | some handle =>
    obtain ⟨hlt, hget⟩ := List.getElem?_eq_some_iff.1 hi
    have hsplit : s.handles = s.handles.take i ++ handle :: s.handles.drop (i + 1) := by
      rw [← hget, List.getElem_cons_drop, List.take_append_drop]
    refine ⟨(h.holds.teardown handle.route).1, fun k x hx => ?_⟩
    have hgraph := congrArg Station.graph (teardown_snd handle.route s.host.station)
    obtain ⟨hold, hnot⟩ := Graph.mem_owners_forget (hgraph ▸ hx)
    obtain ⟨holder, hlast, hrest⟩ := h.owned k x hold
    refine ⟨holder, ?_, hrest⟩
    show lastHolder (s.handles.set i { handle with removed := true }) k x.1 = some holder
    rw [hsplit, lastHolder_append, lastHolder_cons_of_not_mem hnot] at hlast
    have hmarked : lastHolder ({ handle with removed := true } :: s.handles.drop (i + 1)) k x.1 =
        lastHolder (s.handles.drop (i + 1)) k x.1 := lastHolder_cons_of_not_mem hnot
    rw [List.set_eq_take_append_cons_drop, if_pos hlt, lastHolder_append, hmarked, hlast]

theorem Good.mapLink (h : s.Good) {f : Link → Link}
    (hf : ∀ l b, Link.Wired l b → ∃ b', (f l).Wired b' ∧ ∀ k, b'.ids k = b.ids k) :
    Good { s with host := s.host.mapLink f } := by
  obtain ⟨⟨b, hwired, hwithin⟩, howned⟩ := h
  obtain ⟨b', hwired', hids⟩ := hf _ b hwired
  exact ⟨⟨b', hwired', fun k x hx => hids k ▸ hwithin k x hx⟩, howned⟩

theorem Step.good (hstep : Step s s') (h : s.Good) : s'.Good := by
  cases hstep with
  | build producer expression => exact h.build producer expression
  | remove i => exact h.remove i
  | dropReply k =>
    refine h.mapLink fun l b hl => ⟨b.dropReply k, ⟨?_, hl.scripts, hl.queue, hl.room, hl.isOpen,
      hl.connected, hl.live⟩, fun k => by cases k <;> rfl⟩
    show l.transport.board.map _ = _
    rw [hl.board]
    rfl
  | planFailures skip count => exact h.mapLink fun l b hl => ⟨b, { hl with }, fun k => rfl⟩

theorem good_of_run {start : Registry} (hstart : start.Begins)
    (hrun : Relation.ReflTransGen Step start s) : s.Good := by
  induction hrun with
  | refl => exact hstart.good
  | tail _ hstep ih => exact hstep.good ih

end Registry

/-- **A handle removes nothing but its own route**, however often and whenever it is used, as long
as none of its ids belongs to a route that was built later and has not been removed. -/
theorem Registry.remove_spares_others {start s : Registry} (hstart : start.Begins)
    (hrun : Relation.ReflTransGen Registry.Step start s) {later earlier : List Handle} {h : Handle}
    (hhandles : s.handles = later ++ h :: earlier)
    (hunused : ∀ h' ∈ later, h'.removed = false → ∀ k, (h'.route.ids k).Disjoint (h.route.ids k)) :
    s.host.station.Spares h.route.id (Host.removeRoute h.route s.host).2.station := by
  have hgood := Registry.good_of_run hstart hrun
  refine hgood.holds.spares fun k x hx hid => ?_
  obtain ⟨h', hlast, hremoved, hroute⟩ := hgood.owned k x hx
  rw [hhandles] at hlast
  rcases mem_of_lastHolder hlast hid with rfl | ⟨hlater, hid'⟩
  · exact hroute.symm
  · exact absurd hid (hunused h' hlater hremoved k hid')

namespace Registry

/-- A host at rest with a fresh board. -/
def fresh : Registry := ⟨.atRest .standard (.toBoard (.start .standard)) 0, []⟩

theorem fresh_begins : fresh.Begins :=
  ⟨rfl, rfl, .start .standard, rfl, rfl, rfl, by decide, rfl, rfl, rfl⟩

/-- A count of the switch is logged, the route is removed, and a delayed temperature is logged under
the same ids. -/
def reissued : Registry :=
  ((fresh.build "switch" fun c => SignalRoute.Step.run c [.count, .log]).remove 0).build
    "temperature" fun c => SignalRoute.Step.run c [.delay 4, .log]

theorem reissued_reached : Relation.ReflTransGen Step fresh reissued :=
  .tail (.tail (.single (.build _ _)) (.remove 0)) (.build _ _)

/-- Once the temperature has been removed, the handle of the count does no harm any more. -/
theorem remove_spares_others_reissued :
    ∃ current stale, (reissued.remove 0).handles = [current, stale] ∧ stale.removed = true ∧
      (reissued.remove 0).host.station.Spares stale.route.id
        (Host.removeRoute stale.route (reissued.remove 0).host).2.station := by
  have hmarks : (reissued.remove 0).handles.map Handle.removed = [true, true] := by
    decide +kernel
  obtain ⟨current, stale, hhandles⟩ : ∃ current stale, (reissued.remove 0).handles =
      [current, stale] := by
    rw [← List.length_eq_two, ← List.length_map Handle.removed, hmarks]
    rfl
  rw [hhandles] at hmarks
  obtain ⟨hcurrent, hmarks⟩ := List.cons.inj hmarks
  obtain ⟨hstale, -⟩ := List.cons.inj hmarks
  refine ⟨current, stale, hhandles, hstale, ?_⟩
  have hsplit : (reissued.remove 0).handles = [current] ++ stale :: [] := hhandles
  refine Registry.remove_spares_others fresh_begins (.tail reissued_reached (.remove 0)) hsplit
    fun h' hlater hremoved => ?_
  rw [List.mem_singleton.1 hlater, hcurrent] at hremoved
  cases hremoved

/-- **While the temperature is on the board, the handle of the count removes its logger.** -/
theorem not_spares_reissued :
    Relation.ReflTransGen Step fresh reissued ∧
      ∃ h ∈ reissued.handles, ¬reissued.host.station.Spares h.route.id
        (Host.removeRoute h.route reissued.host).2.station := by
  refine ⟨reissued_reached, ?_⟩
  have hbad : ∃ h ∈ reissued.handles,
      ((Host.removeRoute h.route reissued.host).2.station.graph.loggers.filter
        fun e => e.route != h.route.id).length ≠
      (reissued.host.station.graph.loggers.filter fun e => e.route != h.route.id).length := by
    decide +kernel
  obtain ⟨h, hmem, hlength⟩ := hbad
  exact ⟨h, hmem, fun honly => hlength (congrArg List.length honly.loggers)⟩

end Registry
end SignalRoute
