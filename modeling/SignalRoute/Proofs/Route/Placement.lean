import SignalRoute.Proofs.Route.Program

/-!
# Placed stages

Behind the stages, a program creates loggers and events and switches notifications on.  What each of
these keeps is kept by all of them together (`Leads.behindStages`).

Whatever the link does, only the creation of a stage records a stage.  So a plan that was programmed
has all its stages placed, each behind those before it: `Plan.stagesPlaced_of_program`.
`leads_program` says more than that, but only of links that are wired to a board.

This is the part of programming that needs no board.  It is a statement about the records of a site,
and it holds for answers of any kind, late ones and invented ones included.
-/

set_option autoImplicit false

namespace SignalRoute

open Programming

/-! ## Behind the stages -/

namespace Leads

variable {I : Site → Prop} {E : Fault → Site → Prop}

theorem createLog (hlogger : ∀ s chunk, Leads I (createLogger s chunk) (fun _ => I) E)
    (c : Cursor) : Leads I (Programming.createLog c) (fun _ => I) E :=
  get_bind fun _ _ => mapM (fun _ _ => I) _ fun _ _ _ _ _ => hlogger _ _

theorem enableStream
    (hswitch : ∀ id, Leads I (onLink (Link.send (notifyCommand id))) (fun _ => I) E) (c : Cursor) :
    Leads I (Programming.enableStream c) (fun _ => I) E := by
  refine get_bind fun site _ => ?_
  dsimp only
  split
  · exact hswitch _
  · exact pure () fun _ hs => hs

variable (hevent : ∀ entry parameters, Leads I (createEvent entry parameters) (fun _ => I) E)

include hevent

theorem createReaction (r : Reaction) : Leads I (Programming.createReaction r) (fun _ => I) E :=
  get_bind fun _ _ => forM (fun _ => I) _ fun _ _ _ _ => hevent _ _

theorem createFeedback (herror : ∀ reason s, I s → E (.protocol reason) s) (f : Feedback) :
    Leads I (Programming.createFeedback f) (fun _ => I) E := by
  refine get_bind fun site _ => ?_
  dsimp only
  split
  · exact fun s hs => herror _ s hs
  · exact hevent _ _

/-- What is kept by each logger, each event and each switch is kept behind the stages. -/
theorem behindStages (hlogger : ∀ s chunk, Leads I (createLogger s chunk) (fun _ => I) E)
    (hswitch : ∀ id, Leads I (onLink (Link.send (notifyCommand id))) (fun _ => I) E)
    (herror : ∀ reason s, I s → E (.protocol reason) s) (p : Plan) :
    Leads I (do
      let loggers ← p.logs.mapM Programming.createLog
      p.reactions.forM Programming.createReaction
      p.feedback.forM Programming.createFeedback
      p.streams.forM Programming.enableStream
      return loggers) (fun _ => I) E := by
  refine (mapM (fun _ _ => I) _ fun _ _ _ _ _ => createLog hlogger _).bind fun loggers => ?_
  refine (forM (fun _ => I) _ fun _ _ _ _ => createReaction hevent _).bind fun _ => ?_
  refine (forM (fun _ => I) _ fun _ _ _ _ => createFeedback hevent herror _).bind fun _ => ?_
  refine (forM (fun _ => I) _ fun _ _ _ _ => enableStream hswitch _).bind fun _ => ?_
  exact pure loggers fun _ hs => hs

end Leads

/-! ## What is placed -/

namespace Programming

section

variable (P : List Placed → Prop)

/-- The link does not matter for what is placed. -/
theorem leads_onLink_placed {α : Type} (op : Linked α) :
    Leads (fun s => P s.placed) (onLink op) (fun _ s => P s.placed) (fun _ s => P s.placed) := by
  intro s hs
  rw [onLink]
  rcases op s.link with ⟨fault | a, l⟩ <;> exact hs

theorem leads_create_placed (command : Bytes) (key : ReplyKey) (what : String) :
    Leads (fun s => P s.placed) (create command key what) (fun _ s => P s.placed)
      (fun _ s => P s.placed) := by
  refine (leads_onLink_placed P _).bind fun reply s hs => ?_
  cases replyId reply what <;> exact hs

theorem leads_createLogger_placed (signal : Signal) (chunk : UInt8 × UInt8) :
    Leads (fun s => P s.placed) (createLogger signal chunk) (fun _ s => P s.placed)
      (fun _ s => P s.placed) :=
  (leads_create_placed P _ _ _).bind fun _ _ hs => hs

theorem leads_createEvent_placed (entry parameters : Bytes) :
    Leads (fun s => P s.placed) (createEvent entry parameters) (fun _ s => P s.placed)
      (fun _ s => P s.placed) :=
  (leads_onLink_placed P _).bind fun _ => (leads_create_placed P _ _ _).bind fun _ _ hs => hs

end

/-- A stage is placed behind those before it, if it is. -/
theorem leads_createStage_placed (stages : List PlannedStage) (stage : PlannedStage) :
    Leads (fun s => StagesPlaced stages s.placed) (createStage stage)
      (fun _ s => StagesPlaced (stages ++ [stage]) s.placed) fun _ _ => True := by
  intro s hs
  rw [createStage, get_bind_apply]
  refine Leads.bind ((leads_create_placed (· = s.placed) _ _ _).weaken (fun _ hs => hs)
    (fun _ _ hs => hs) fun _ _ _ => trivial) (fun id s' hplaced => ?_) s rfl
  show StagesPlaced _ (s'.placed ++ [placing stage s.placed id])
  rw [hplaced]
  exact .concat hs stage id

end Programming

/-- **A plan that was programmed had its stages placed**, whatever the link was. -/
theorem Plan.stagesPlaced_of_program {p : Plan} {link : Link} {loggers : List (List UInt8)}
    {site : Site} (h : p.program ⟨link, [], [], []⟩ = (.ok loggers, site)) :
    StagesPlaced p.stages site.placed := by
  have hprogram : Leads (fun s => StagesPlaced [] s.placed) p.program
      (fun _ s => StagesPlaced p.stages s.placed) fun _ _ => True :=
    (Leads.forM (fun done s => StagesPlaced done s.placed) p.stages
      fun done stage _ _ => leads_createStage_placed done stage).bind fun _ =>
        (Leads.behindStages (leads_createEvent_placed _) (leads_createLogger_placed _)
          (fun _ => leads_onLink_placed _ _) (fun _ _ hs => hs) p).weaken (fun _ hs => hs)
            (fun _ _ hs => hs) fun _ _ _ => trivial
  exact hprogram.ok .nil h

end SignalRoute
