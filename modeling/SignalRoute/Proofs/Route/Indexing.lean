import SignalRoute.Proofs.Route.Backward
import SignalRoute.Proofs.Route.Placement
import SignalRoute.Proofs.Link.Traffic

/-!
# Programs ask only for what is there

A program takes the ids and the configurations that it needs from what it has created so far.  Where
there is nothing to take it would go on with what was planned, and nobody would notice.

`Plan.programStrictly` is the program that does not go on: it finds the signal of a cursor by going
back through the plan, stage by stage, and whatever it takes must be there, or it fails with
`Fault.overrun`.  For a plan that only refers backwards there is no difference, whatever the link
does: each stage is created when all that it refers to has been
(`Plan.Backward.programStrictly_eq`).  And that is so for all plans that expressions make
(`Drafting.refers_backwards`).

The strict program is not how the program is written, and it is not meant to be run.  It is there to
give a meaning to a question that the program cannot be asked: it takes what it finds and has a
default for everything that it does not find, so there is no access out of range to be seen in it.
The strict one makes each of them a fault that nothing else has, and the two being equal is the
statement that none occurs.
-/

set_option autoImplicit false

namespace SignalRoute

/-! ## The strict program -/

/-- An entry of a list, which must be there. -/
def fetch {α : Type} (l : List α) (i : Nat) : Except Fault α :=
  match l[i]? with
  | some a => .ok a
  | none => .error .overrun

/-- The signal of a cursor, found by going back through at most `fuel` stages. -/
def Cursor.trace (stages : List PlannedStage) (placed : List Placed) (fuel : Nat) (c : Cursor) :
    Except Fault Signal :=
  match c.stage with
  | none => .ok c.signal
  | some i =>
    match fuel with
    | 0 => .error .overrun
    | fuel + 1 => do
      let stage ← fetch stages i
      let input ← trace stages placed fuel stage.source
      let p ← fetch placed i
      return (c.signal.withId p.id).withInput input

/-- The id of a named processor, which must have been created. -/
def NamedRef.fetch (r : NamedRef) (placed : List Placed) : Except Fault UInt8 :=
  match r with
  | .realized id => .ok id
  | .planned i => do
    let p ← SignalRoute.fetch placed i
    return p.id

namespace Programming

/-- Take over the outcome of a computation. -/
def check {α : Type} (outcome : Except Fault α) : Programming α := fun site => (outcome, site)

/-- The configuration of a stage whose buffers must have been created. -/
def settleStrictly (stage : PlannedStage) (placed : List Placed) : Except Fault Processor :=
  match stage.processor with
  | .fuser _ => do
    let ids ← stage.fuse.mapM fun r => r.fetch placed
    return .fuser ⟨ids⟩
  | p => .ok p

def createStageStrictly (stages : List PlannedStage) (stage : PlannedStage) : Programming Unit := do
  let placed := (← get).placed
  let source ← check (stage.source.trace stages placed stages.length)
  let p ← check (settleStrictly stage placed)
  let id ← create (createCommand source p) (.register Module.processor ProcessorReg.add)
    "processor create"
  modify fun site => { site with placed := site.placed ++ [⟨id, source, p⟩] }

def createLogStrictly (stages : List PlannedStage) (c : Cursor) : Programming (List UInt8) := do
  let s ← check (c.trace stages (← get).placed stages.length)
  s.logChunks.mapM (createLogger s)

def createReactionStrictly (stages : List PlannedStage) (r : Reaction) : Programming Unit := do
  let source ← check (r.source.trace stages (← get).placed stages.length)
  r.commands.forM fun c =>
    createEvent (source.address.toBytes ++ [c.module, c.register, UInt8.ofNat c.payload.length])
      c.payload

def createFeedbackStrictly (f : Feedback) : Programming Unit := do
  let placed := (← get).placed
  let producer := f.signal.withId (← check (f.producer.fetch placed))
  let target ← check (fetch placed f.stage)
  let config := target.processor.encode
  createEvent
    (producer.address.toBytes ++ [Module.processor, ProcessorReg.parameter,
      UInt8.ofNat (config.length + 1), dataToken producer.shape.length producer.shape.offset,
      f.offset])
    (target.id :: config)

def enableStreamStrictly (stages : List PlannedStage) (c : Cursor) : Programming Unit := do
  let s ← check (c.trace stages (← get).placed stages.length)
  if s.isOutput then onLink (Link.send (notifyCommand s.address.id))

end Programming

open Programming in
/-- `Plan.program`, but nothing is taken that is not there. -/
def Plan.programStrictly (p : Plan) : Programming (List (List UInt8)) := do
  p.stages.forM (createStageStrictly p.stages)
  let loggers ← p.logs.mapM (createLogStrictly p.stages)
  p.reactions.forM (createReactionStrictly p.stages)
  p.feedback.forM createFeedbackStrictly
  p.streams.forM (enableStreamStrictly p.stages)
  return loggers

/-! ## What is taken -/

theorem fetch_eq {α : Type} {l : List α} {i : Nat} {a : α} (h : l[i]? = some a) :
    fetch l i = .ok a := by
  rw [fetch, h]

theorem NamedRef.fetch_eq {r : NamedRef} {placed : List Placed} (h : r.Before placed.length) :
    r.fetch placed = .ok (r.resolve placed) := by
  cases r with
  | realized id => rfl
  | planned i =>
    have hi : i < placed.length := h i rfl
    have hp : placed[i]? = some placed[i] := List.getElem?_eq_getElem hi
    rw [fetch, SignalRoute.fetch_eq hp, resolve, hp]
    rfl

/-- What was created later does not matter to a cursor. -/
theorem Cursor.resolve_take {c : Cursor} {n : Nat} (h : c.Among n) (placed : List Placed) :
    c.resolve (placed.take n) = c.resolve placed := by
  rw [resolve, resolve]
  cases hstage : c.stage with
  | none => rfl
  | some i => rw [Option.bind_some, Option.bind_some, List.getElem?_take_of_lt (h i hstage)]

variable {p : Plan} {placed : List Placed}

theorem Cursor.trace_of_none {c : Cursor} (hstage : c.stage = none) (stages : List PlannedStage)
    (placed : List Placed) (fuel : Nat) : c.trace stages placed fuel = .ok (c.resolve placed) := by
  rw [trace, resolve, hstage]
  rfl

theorem Cursor.trace_of_some {c : Cursor} {i fuel : Nat} (hstage : c.stage = some i)
    {stages : List PlannedStage} {stage : PlannedStage} {q : Placed} {input : Signal}
    (hget : stages[i]? = some stage) (hq : placed[i]? = some q)
    (hinput : stage.source.trace stages placed fuel = .ok input) :
    c.trace stages placed (fuel + 1) = .ok ((c.signal.withId q.id).withInput input) := by
  rw [trace, hstage]
  dsimp only
  rw [fetch_eq hget, fetch_eq hq]
  show (stage.source.trace stages placed fuel >>= fun input => _) = _
  rw [hinput]
  rfl

/-- **Going back through the plan comes to an end**, and finds the signal that was recorded. -/
theorem Plan.Backward.trace_eq (h : p.Backward) {k : Nat}
    (hplaced : StagesPlaced (p.stages.take k) placed) {c : Cursor} {n fuel : Nat} (hc : c.Among n)
    (hn : n ≤ (p.stages.take k).length) (hfuel : n ≤ fuel) :
    c.trace p.stages placed fuel = .ok (c.resolve placed) := by
  induction fuel generalizing c n with
  | zero =>
    cases hstage : c.stage with
    | none => exact c.trace_of_none hstage _ _ _
    | some i =>
      have := hc i hstage
      omega
  | succ fuel ih =>
    cases hstage : c.stage with
    | none => exact c.trace_of_none hstage _ _ _
    | some i =>
      have hi := hc i hstage
      have hlt : i < (p.stages.take k).length := Nat.lt_of_lt_of_le hi hn
      have htaken : (p.stages.take k)[i]? = some (p.stages.take k)[i] :=
        List.getElem?_eq_getElem hlt
      have hget : p.stages[i]? = some (p.stages.take k)[i] := by
        rwa [List.getElem?_take_of_lt (by rw [List.length_take] at hlt; omega)] at htaken
      obtain ⟨id, hp⟩ := hplaced.getElem?_placing htaken
      -- the stage reads what comes before it, so less of the plan is left to go back through
      have hsource := (h.stages i _ hget).source
      have hinput := ih hsource (Nat.le_trans (Nat.le_of_lt hi) hn) (by omega)
      rw [Programming.placing, Cursor.resolve_take hsource] at hp
      have hresolve : c.resolve placed = (c.signal.withId id).withInput
          ((p.stages.take k)[i].source.resolve placed) := by
        rw [Cursor.resolve, hstage, Option.bind_some, hp]
      rw [Cursor.trace_of_some hstage hget hp hinput, hresolve]

/-! ## What the two programs have in common

Two operations are compared state by state, and what they lead to is carried along, because they
agree only where what has been created so far is what the plan asked for.
-/

/-- From the states in `P` two operations come to the same, and if they succeed they lead to `Q`. -/
def Agrees {ε σ α : Type} (P : σ → Prop) (x y : ExceptT ε (StateM σ) α) (Q : α → σ → Prop) : Prop :=
  (∀ s, P s → x s = y s) ∧ Leads P y Q fun _ _ => True

namespace Agrees

variable {ε σ α β : Type} {P : σ → Prop} {Q : α → σ → Prop} {R : β → σ → Prop}
  {x y : ExceptT ε (StateM σ) α}

theorem of_leads {E : ε → σ → Prop} (hsame : ∀ s, P s → x s = y s) (hy : Leads P y Q E) :
    Agrees P x y Q :=
  ⟨hsame, hy.weaken (fun _ hs => hs) (fun _ _ hs => hs) fun _ _ _ => trivial⟩

theorem bind {f g : α → ExceptT ε (StateM σ) β} (h : Agrees P x y Q)
    (hf : ∀ a, Agrees (Q a) (f a) (g a) R) : Agrees P (x >>= f) (y >>= g) R := by
  refine ⟨fun s hs => ?_, h.2.bind fun a => (hf a).2⟩
  rw [bind_apply, bind_apply, h.1 s hs]
  rcases hy : y s with ⟨e | a, s'⟩
  · rfl
  · exact (hf a).1 s' (h.2.ok hs hy)

theorem pure (a : α) (h : ∀ s, P s → Q a s) :
    Agrees P (Pure.pure a : ExceptT ε (StateM σ) α) (Pure.pure a) Q := ⟨fun _ _ => rfl, h⟩

theorem mapM {f g : α → ExceptT ε (StateM σ) β} {l : List α}
    (h : ∀ a ∈ l, Agrees P (f a) (g a) fun _ => P) :
    Agrees P (l.mapM f) (l.mapM g) fun _ => P := by
  induction l with
  | nil => exact pure [] fun _ hs => hs
  | cons a rest ih =>
    rw [List.mapM_cons, List.mapM_cons]
    refine (h a List.mem_cons_self).bind fun b => ?_
    refine (ih fun a' ha' => h a' (List.mem_cons_of_mem _ ha')).bind fun bs => ?_
    exact pure _ fun _ hs => hs

theorem forM {f g : α → ExceptT ε (StateM σ) PUnit} (I : List α → σ → Prop) (l : List α)
    (step : ∀ done a rest, l = done ++ a :: rest →
      Agrees (I done) (f a) (g a) fun _ => I (done ++ [a])) :
    Agrees (I []) (l.forM f) (l.forM g) fun _ => I l := by
  suffices h : ∀ rest done, l = done ++ rest →
      Agrees (I done) (rest.forM f) (rest.forM g) fun _ => I l from h l [] rfl
  intro rest
  induction rest with
  | nil =>
    intro done hl
    rw [hl, List.append_nil]
    exact pure _ fun _ hs => hs
  | cons a rest ih =>
    intro done hl
    exact (step done a rest hl).bind fun _ => ih (done ++ [a]) (by rw [hl]; simp)

end Agrees

theorem Link.send_ne_overrun (command : Bytes) (l : Link) :
    (send command l).1 ≠ .error .overrun := by
  rw [send_apply]
  split
  · rcases hwrite : write command l with ⟨fault | _, l'⟩
    · obtain ⟨reason, rfl⟩ := write_error hwrite
      simp
    · simp
  · simp

theorem Link.request_ne_overrun (command : Bytes) (key : ReplyKey) (what : String) (l : Link) :
    (request command key what l).1 ≠ .error .overrun := by
  have hawait (events : List LinkEvent) (l : Link) : (await what events l).1 ≠ .error .overrun := by
    induction events generalizing l with
    | nil =>
      rw [await]
      split <;> simp [closedFault]
    | cons e rest ih =>
      cases e with
      | disconnected => simp [await]
      | frame f =>
        rw [await]
        split
        · simp
        · exact ih _
  have hsend := send_ne_overrun command { l with slot := l.slot.arm key }
  rw [request]
  rcases hout : send command { l with slot := l.slot.arm key } with ⟨fault | _, l'⟩
  · rw [hout] at hsend
    exact fun hover => hsend (congrArg Except.error (Except.error.inj hover))
  · exact hawait _ _

namespace Programming

theorem check_ok_bind {α β : Type} (a : α) (f : α → Programming β) :
    (check (.ok a) >>= f) = f a := rfl

theorem settleStrictly_eq {stage : PlannedStage} (h : ∀ r ∈ stage.fuse, r.Before placed.length) :
    settleStrictly stage placed = .ok (settle stage placed) := by
  have hids : ∀ refs : List NamedRef, (∀ r ∈ refs, r.Before placed.length) →
      refs.mapM (fun r => r.fetch placed) = .ok (refs.map fun r => r.resolve placed) := by
    intro refs hrefs
    induction refs with
    | nil => rfl
    | cons r rest ih =>
      obtain ⟨hr, hrest⟩ := List.forall_mem_cons.1 hrefs
      rw [List.mapM_cons, NamedRef.fetch_eq hr, ih hrest]
      rfl
  rw [settleStrictly, settle]
  cases stage.processor with
  | fuser c =>
    dsimp only
    rw [hids stage.fuse h]
    rfl
  | _ => rfl

/-- A stage is created in the same way, if all that it refers to has been created. -/
theorem agrees_createStage (h : p.Backward) {done rest : List PlannedStage} {stage : PlannedStage}
    (hstages : p.stages = done ++ stage :: rest) :
    Agrees (fun s => StagesPlaced done s.placed) (createStageStrictly p.stages stage)
      (createStage stage) fun _ s => StagesPlaced (done ++ [stage]) s.placed := by
  refine ⟨fun s hs => ?_, leads_createStage_placed done stage⟩
  have htake : p.stages.take done.length = done := by rw [hstages, List.take_left' rfl]
  have hget : p.stages[done.length]? = some stage := by
    rw [hstages, List.getElem?_append_right (Nat.le_refl _), Nat.sub_self]
    rfl
  have hlength : done.length ≤ p.stages.length := by
    rw [hstages, List.length_append]
    exact Nat.le_add_right _ _
  obtain ⟨hsource, hfuse⟩ := h.stages _ _ hget
  have htrace : stage.source.trace p.stages s.placed p.stages.length =
      .ok (stage.source.resolve s.placed) :=
    h.trace_eq (k := done.length) (by rwa [htake]) hsource (by rw [htake]) hlength
  have hsettle : settleStrictly stage s.placed = .ok (settle stage s.placed) :=
    settleStrictly_eq (by rwa [hs.length_eq])
  rw [createStageStrictly, createStage, get_bind_apply, get_bind_apply, htrace, check_ok_bind,
    hsettle, check_ok_bind]

theorem agrees_createFeedback (hplaced : StagesPlaced p.stages placed) {f : Feedback}
    (hf : f.producer.Before f.stage ∧ f.stage < p.stages.length) :
    Agrees (fun s => s.placed = placed) (createFeedbackStrictly f) (createFeedback f)
      fun _ s => s.placed = placed := by
  refine .of_leads (fun s hs => ?_) (Leads.createFeedback (leads_createEvent_placed (· = placed))
    (fun _ _ hs => hs) f)
  have hlt : f.stage < placed.length := by rw [hplaced.length_eq]; exact hf.2
  have htarget : placed[f.stage]? = some placed[f.stage] := List.getElem?_eq_getElem hlt
  have hproducer : f.producer.fetch placed = .ok (f.producer.resolve placed) :=
    NamedRef.fetch_eq (hf.1.mono (Nat.le_of_lt hlt))
  rw [createFeedbackStrictly, createFeedback, get_bind_apply, get_bind_apply, hs, hproducer,
    check_ok_bind, fetch_eq htarget, check_ok_bind, htarget]

section

variable (h : p.Backward) (hplaced : StagesPlaced p.stages placed)
include h hplaced

theorem trace_all {c : Cursor} (hc : c.Among p.stages.length) :
    c.trace p.stages placed p.stages.length = .ok (c.resolve placed) :=
  h.trace_eq (k := p.stages.length) (by rwa [List.take_length]) hc
    (by rw [List.take_length]) (Nat.le_refl _)

/-- A cursor is traced to the signal that it is resolved to, so the operation goes on alike. -/
theorem agrees_traced {α : Type} {c : Cursor} (hc : c.Among p.stages.length)
    {f : Signal → Programming α} {E : Fault → Site → Prop}
    (hf : Leads (fun s => s.placed = placed) (get >>= fun site => f (c.resolve site.placed))
      (fun _ s => s.placed = placed) E) :
    Agrees (fun s => s.placed = placed)
      (get >>= fun site => check (c.trace p.stages site.placed p.stages.length) >>= f)
      (get >>= fun site => f (c.resolve site.placed)) fun _ s => s.placed = placed := by
  refine .of_leads (fun s hs => ?_) hf
  rw [get_bind_apply, get_bind_apply, hs, trace_all h hplaced hc, check_ok_bind]

theorem agrees_createLog {c : Cursor} (hc : c.Among p.stages.length) :
    Agrees (fun s => s.placed = placed) (createLogStrictly p.stages c) (createLog c)
      fun _ s => s.placed = placed :=
  agrees_traced h hplaced hc (Leads.createLog (leads_createLogger_placed (· = placed)) c)

theorem agrees_createReaction {r : Reaction} (hr : r.source.Among p.stages.length) :
    Agrees (fun s => s.placed = placed) (createReactionStrictly p.stages r) (createReaction r)
      fun _ s => s.placed = placed :=
  agrees_traced h hplaced hr (Leads.createReaction (leads_createEvent_placed (· = placed)) r)

theorem agrees_enableStream {c : Cursor} (hc : c.Among p.stages.length) :
    Agrees (fun s => s.placed = placed) (enableStreamStrictly p.stages c) (enableStream c)
      fun _ s => s.placed = placed :=
  agrees_traced h hplaced hc (Leads.enableStream (fun _ => leads_onLink_placed (· = placed) _) c)

end

/-- Links fail for what comes over them, not for what they are asked. -/
theorem leads_onLink_fault {α : Type} {op : Linked α}
    (hop : ∀ l, (op l).1 ≠ .error .overrun) :
    Leads (fun _ => True) (onLink op) (fun _ _ => True) fun fault _ => fault ≠ .overrun := by
  intro s _
  have hlink := hop s.link
  rw [onLink]
  rcases hout : op s.link with ⟨fault | a, l⟩
  · rw [hout] at hlink
    exact fun hover => hlink (congrArg Except.error hover)
  · trivial

theorem leads_create_fault (command : Bytes) (key : ReplyKey) (what : String) :
    Leads (fun _ => True) (create command key what) (fun _ _ => True)
      fun fault _ => fault ≠ .overrun := by
  refine (leads_onLink_fault (Link.request_ne_overrun command key what)).bind fun reply s _ => ?_
  rw [replyId]
  cases reply[2]? with
  | some id => trivial
  | none => exact Fault.noConfusion

/-- Programs may fail, but not for what they take. -/
theorem leads_program_fault (p : Plan) :
    Leads (fun _ => True) p.program (fun _ _ => True) fun fault _ => fault ≠ .overrun := by
  have hstage (stage : PlannedStage) : Leads (fun _ => True) (createStage stage) (fun _ _ => True)
      fun fault _ => fault ≠ .overrun :=
    Leads.get_bind fun _ _ => (leads_create_fault _ _ _).bind fun _ _ _ => trivial
  have hlogger (s : Signal) (chunk : UInt8 × UInt8) : Leads (fun _ => True) (createLogger s chunk)
      (fun _ _ => True) fun fault _ => fault ≠ .overrun :=
    (leads_create_fault _ _ _).bind fun _ _ _ => trivial
  have hevent (entry parameters : Bytes) : Leads (fun _ => True) (createEvent entry parameters)
      (fun _ _ => True) fun fault _ => fault ≠ .overrun :=
    (leads_onLink_fault (Link.send_ne_overrun _)).bind fun _ =>
      (leads_create_fault _ _ _).bind fun _ _ _ => trivial
  exact (Leads.forM (fun _ _ => True) p.stages fun _ stage _ _ => hstage stage).bind fun _ =>
    Leads.behindStages hevent hlogger (fun _ => leads_onLink_fault (Link.send_ne_overrun _))
      (fun _ _ _ => Fault.noConfusion) p

end Programming

open Programming in
/-- **A plan that refers backwards takes only what is there**, whatever comes over the link. -/
theorem Plan.Backward.programStrictly_eq (h : p.Backward) (link : Link) :
    p.programStrictly ⟨link, [], [], []⟩ = p.program ⟨link, [], [], []⟩ := by
  have hstages := Agrees.forM (fun done (s : Site) => StagesPlaced done s.placed) p.stages
    fun _ _ _ hp => agrees_createStage h hp
  -- what has been placed by then stays as it is, and is all that the rest takes from
  have hrest (placed : List Placed) (hplaced : StagesPlaced p.stages placed) :
      Agrees (fun s => s.placed = placed)
        (do
          let loggers ← p.logs.mapM (createLogStrictly p.stages)
          p.reactions.forM (createReactionStrictly p.stages)
          p.feedback.forM createFeedbackStrictly
          p.streams.forM (enableStreamStrictly p.stages)
          return loggers)
        (do
          let loggers ← p.logs.mapM createLog
          p.reactions.forM createReaction
          p.feedback.forM createFeedback
          p.streams.forM enableStream
          return loggers) fun _ s => s.placed = placed := by
    refine (Agrees.mapM fun c hc => agrees_createLog h hplaced (h.logs c hc)).bind fun loggers => ?_
    refine (Agrees.forM (fun _ (s : Site) => s.placed = placed) _ fun done r rest hr =>
      agrees_createReaction h hplaced (h.reactions r (by rw [hr]; simp))).bind fun _ => ?_
    refine (Agrees.forM (fun _ (s : Site) => s.placed = placed) _ fun done f rest hf =>
      agrees_createFeedback hplaced (h.feedback f (by rw [hf]; simp))).bind fun _ => ?_
    refine (Agrees.forM (fun _ (s : Site) => s.placed = placed) _ fun done c rest hc =>
      agrees_enableStream h hplaced (h.streams c (by rw [hc]; simp))).bind fun _ => ?_
    exact Agrees.pure loggers fun _ hs => hs
  have hprogram : Agrees (fun s => StagesPlaced [] s.placed) p.programStrictly p.program
      fun _ _ => True :=
    hstages.bind fun _ => ⟨fun s hs => (hrest s.placed hs).1 s rfl, fun s hs =>
      ((hrest s.placed hs).2.weaken (fun _ hs => hs) (fun _ _ _ => trivial) fun _ _ _ => trivial) s
        rfl⟩
  exact hprogram.1 _ .nil

/-- **Expressions only make plans that refer backwards.**  Whatever has been built over one draft, by
whatever expressions, failed ones included: each stage reads and fuses only stages before it,
operands are only fed from stages before their own, and all else, open branches included, refers to
stages that are there.  So programming the plan takes only what is there, whatever the link is and is
prepared to answer, and going back through the plan to find a signal comes to an end. -/
theorem Drafting.refers_backwards (device : Device) (known : List KnownProcessor)
    (expressions : List (Signal × List Step)) :
    let d := (Draft.start device known).build expressions
    d.plan.Backward ∧ (∀ b ∈ d.branches, b.anchor.Among d.plan.stages.length) ∧
      (∀ e ∈ d.names, e.2 < d.plan.stages.length) ∧
      ∀ link, d.plan.programStrictly ⟨link, [], [], []⟩ = d.plan.program ⟨link, [], [], []⟩ ∧
        (d.plan.programStrictly ⟨link, [], [], []⟩).1 ≠ .error .overrun := by
  intro d
  obtain ⟨c, hbackward⟩ : ∃ c, d.Backward c := Draft.backward_build device known expressions
  refine ⟨hbackward.plan, hbackward.anchored.branches, hbackward.names, fun link => ?_⟩
  have hsame := hbackward.plan.programStrictly_eq link
  refine ⟨hsame, fun hover => ?_⟩
  have hfault := Programming.leads_program_fault d.plan ⟨link, [], [], []⟩ trivial
  rw [hsame] at hover
  rcases hrun : d.plan.program ⟨link, [], [], []⟩ with ⟨outcome, site⟩
  rw [hrun] at hover hfault
  cases hover
  exact hfault rfl

end SignalRoute
