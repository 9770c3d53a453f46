import SignalRoute.Proofs.Host.Conservation
import SignalRoute.Proofs.Link.Journal

/-!
# What a download gives back

A download takes frames that are not for it, and puts them back in the end.  It leaves the clock
running, and switches the notices of the readout off again.  All this does not depend on what comes
in, on which writes are refused, or on how the download ends.

* `Download.Follows` is the invariant of the reading: what was taken and is not of a readout is
  parked.  `Download.Goes.readFrames` carries it from frame to frame.
* `Host.downloadLog_hands_back` adds up where the frames are at the end.  Of the commands that
  switch the notices off, it says how far they get: as far as the first that is refused.

Where a frame goes is a matter of bookkeeping over a run of the link.  `Link.Journal` lists what
came in and what was sent, in order, and is extended by every operation; at the end it is compared
with what the host has.  Doing it this way, nothing has to be known of the board.  It may send
whatever it likes, hang up, or never answer, and the frames that were taken are still in one of
three places: used up by the download, parked, or unread.
-/

set_option autoImplicit false

namespace SignalRoute

/-- Does a frame belong to a readout? -/
def isReadoutFrame (extended : Bool) : Bytes → Bool
  | module :: register :: _ =>
    module == Module.logging && (register == LogReg.readoutNotify ||
      register == LogReg.readoutProgress || register == LogReg.pageCompleted && extended)
  | _ => false

/-- The commands that switch the notices of a readout on or off. -/
def noticeCommands (extended on : Bool) : List Bytes :=
  let flag : UInt8 := if on then 1 else 0
  [[Module.logging, LogReg.readoutNotify, flag], [Module.logging, LogReg.readoutProgress, flag]] ++
    if extended then [[Module.logging, LogReg.pageCompleted, flag]] else []

theorem Downloading.setNotices_eq (extended on : Bool) :
    setNotices extended on = (noticeCommands extended on).forM Link.send := by
  have hpure (x : Linked Unit) : (x >>= fun _ => pure ()) = x := by
    funext l
    rw [bind_apply]
    rcases x l with ⟨fault | _, l'⟩ <;> rfl
  cases extended
  · rfl
  · funext l
    show (Link.send _ >>= fun _ => Link.send _ >>= fun _ => Link.send _) l =
      (Link.send _ >>= fun _ => Link.send _ >>= fun _ => Link.send _ >>= fun _ => pure ()) l
    simp only [hpure]

theorem Link.foldl_defer (frames : List Bytes) (l : Link) :
    frames.foldl defer l = { l with backlog := l.backlog ++ frames } := by
  induction frames generalizing l with
  | nil =>
    rw [List.append_nil]
    rfl
  | cons f rest ih =>
    rw [List.foldl_cons, ih, defer, List.append_assoc]
    rfl

namespace Download

/-- The link of the download was used as the journal says, and what was taken and is not of a
readout is parked. -/
structure Follows (extended : Bool) (d : Download) (j : Journal) : Prop where
  link : j.link = d.link
  parked : d.parked = j.taken.filter fun f => !isReadoutFrame extended f
  device : d.reconciler.device.extendedLogging = extended

/-- A run from one journal led to the download. -/
def Goes (extended : Bool) (origin : Journal) (d : Download) : Prop :=
  ∃ j, Journal.Run origin j ∧ j.replies = origin.replies ∧ d.Follows extended j

/-- A run led to the download, which has the last frame in hand. -/
def Holds (extended : Bool) (origin : Journal) (frame : Bytes) (d : Download) : Prop :=
  ∃ j, Journal.Run origin j ∧ j.replies = origin.replies ∧ j.link = d.link ∧
    (∃ before, j.taken = before ++ [frame] ∧
      d.parked = before.filter fun f => !isReadoutFrame extended f) ∧
    d.reconciler.device.extendedLogging = extended

open Downloading

variable {extended : Bool} {origin : Journal} {d d' : Download} {now : Instant} {total : UInt32}
  {frame : Bytes}

/-- Two downloads have the same link, the same frames for others, and the same board. -/
structure Alike (d d' : Download) : Prop where
  link : d'.link = d.link
  parked : d'.parked = d.parked
  device : d'.reconciler.device = d.reconciler.device

theorem Alike.refl (d : Download) : d.Alike d := ⟨rfl, rfl, rfl⟩

theorem Alike.trans {d'' : Download} (h : d.Alike d') (h' : d'.Alike d'') : d.Alike d'' :=
  ⟨h'.link.trans h.link, h'.parked.trans h.parked, h'.device.trans h.device⟩

/-! ## What is done with a frame

Between two frames a download holds nothing in hand (`Goes`); after it has taken one it holds this
one (`Holds`), and must either use it up or park it before it takes the next.  Each branch of
`takeFrame` does exactly one of the two.
-/

/-- A record changes the graph, the clock and the report. -/
theorem alike_takeRecord (now : Instant) (bytes : Bytes) (d : Download) :
    d.Alike (takeRecord now bytes d).2 := by
  rw [takeRecord]
  rcases LogRecord.parse bytes with fault | record
  · exact ⟨rfl, rfl, rfl⟩
  · dsimp only
    rw [get_bind_apply]
    have hdevice : (d.reconciler.handle now d.graph record).reconciler.device =
        d.reconciler.device := by
      rw [Reconciler.reconciler_handle]
    rcases (d.reconciler.handle now d.graph record).outcome with fault | _
    · cases fault <;> exact ⟨rfl, rfl, hdevice⟩
    · exact ⟨rfl, rfl, hdevice⟩

theorem alike_takeRecords (now : Instant) (pieces : List Bytes) (d : Download) :
    d.Alike (pieces.forM (takeRecord now) d).2 := by
  induction pieces generalizing d with
  | nil => exact .refl d
  | cons bytes rest ih =>
    have hone := alike_takeRecord now bytes d
    show d.Alike ((takeRecord now bytes >>= fun _ => rest.forM (takeRecord now)) d).2
    rcases htake : takeRecord now bytes d with ⟨fault | _, d₁⟩ <;> rw [htake] at hone
    · rw [bind_apply_error htake]
      exact hone
    · rw [bind_apply_ok htake]
      exact hone.trans (ih d₁)

/-- A frame of a readout is done with. -/
theorem Holds.drop (h : d.Holds extended origin frame)
    (hframe : isReadoutFrame extended frame = true) (hd : d.Alike d') : d'.Goes extended origin := by
  obtain ⟨j, hrun, hreplies, hlink, ⟨before, htaken, hparked⟩, hdevice⟩ := h
  refine ⟨j, hrun, hreplies, hlink.trans hd.link.symm, ?_, by rw [hd.device, hdevice]⟩
  rw [hd.parked, hparked, htaken, List.filter_append, List.filter_cons_of_neg (by simp [hframe]),
    List.filter_nil, List.append_nil]

/-- Any other frame is parked. -/
theorem Holds.park (h : d.Holds extended origin frame)
    (hframe : isReadoutFrame extended frame = false) :
    Goes extended origin { d with parked := d.parked ++ [frame] } := by
  obtain ⟨j, hrun, hreplies, hlink, ⟨before, htaken, hparked⟩, hdevice⟩ := h
  refine ⟨j, hrun, hreplies, hlink, ?_, hdevice⟩
  rw [htaken, List.filter_append, List.filter_cons_of_pos (by simp [hframe]), List.filter_nil]
  exact congrArg (· ++ [frame]) hparked

/-- Commands are sent on the way. -/
theorem Goes.sends (h : d.Goes extended origin) (commands : List Bytes) :
    Goes extended origin { d with link := (commands.forM Link.send d.link).2 } := by
  obtain ⟨j, hrun, hreplies, hlink, hparked, hdevice⟩ := h
  obtain ⟨j', hrun', hlink', hreplies', htaken'⟩ := Journal.run_sends commands j
  exact ⟨j', hrun.trans hrun', hreplies'.trans hreplies, by rw [hlink', hlink],
    by rw [htaken']; exact hparked, hdevice⟩

theorem Goes.send (h : d.Goes extended origin) (command : Bytes) :
    Goes extended origin { d with link := (Link.send command d.link).2 } := by
  obtain ⟨j, hrun, hreplies, hlink, hparked, hdevice⟩ := h
  refine ⟨j.send command, hrun.tail (.sent command), hreplies, ?_, hparked, hdevice⟩
  rw [Journal.send, hlink]

theorem isReadoutFrame_log (extended : Bool) (register : UInt8) (body : Bytes) :
    isReadoutFrame extended (Module.logging :: register :: body) = true ↔
      register = LogReg.readoutNotify ∨ register = LogReg.readoutProgress ∨
        register = LogReg.pageCompleted ∧ extended = true := by
  simp [isReadoutFrame, or_assoc]

theorem Holds.takeLogFrame {register : UInt8} {body : Bytes}
    (h : d.Holds extended origin (Module.logging :: register :: body)) :
    (takeLogFrame now total (Module.logging :: register :: body) register body d).2.Goes
      extended origin := by
  have hdevice : d.reconciler.device.extendedLogging = extended := by
    obtain ⟨-, -, -, -, -, hdevice⟩ := h
    exact hdevice
  have hreadout := isReadoutFrame_log extended register body
  rw [Downloading.takeLogFrame, get_bind_apply]
  by_cases hnotify : register = LogReg.readoutNotify
  · rw [if_pos hnotify]
    have halike := alike_takeRecords now (LogRecord.cut body) d
    rcases htake : (LogRecord.cut body).forM (takeRecord now) d with ⟨fault | _, d₁⟩ <;>
      rw [htake] at halike
    · rw [bind_apply_error htake]
      exact h.drop (hreadout.2 (.inl hnotify)) halike
    · rw [bind_apply_ok htake]
      exact h.drop (hreadout.2 (.inl hnotify)) halike
  rw [if_neg hnotify]
  by_cases hprogress : register = LogReg.readoutProgress
  · rw [if_pos hprogress]
    have hframe := hreadout.2 (.inr (.inl hprogress))
    rcases Reconciler.readCounter d.reconciler.device body with fault | left
    · exact h.drop hframe (.refl d)
    · exact h.drop hframe ⟨rfl, rfl, rfl⟩
  rw [if_neg hprogress]
  by_cases hpage : register = LogReg.pageCompleted ∧
      d.reconciler.device.extendedLogging = true
  · rw [if_pos hpage]
    have hframe := hreadout.2 (.inr (.inr ⟨hpage.1, hdevice ▸ hpage.2⟩))
    have hgone := (h.drop hframe (.refl d)).send [Module.logging, LogReg.pageConfirm]
    rw [bind_apply, onLink]
    rcases hsend : Link.send [Module.logging, LogReg.pageConfirm] d.link with ⟨fault | _, l⟩ <;>
      rw [hsend] at hgone <;> exact hgone
  · rw [if_neg hpage]
    refine h.park (Bool.eq_false_iff.2 fun hframe => ?_)
    rcases hreadout.1 hframe with hn | hp | ⟨hregister, hextended⟩
    · exact hnotify hn
    · exact hprogress hp
    · exact hpage ⟨hregister, hdevice.trans hextended⟩

/-- **A frame is done with or parked**, whatever it does to the download. -/
theorem Holds.takeFrame (h : d.Holds extended origin frame) :
    (takeFrame now total frame d).2.Goes extended origin := by
  rcases frame with _ | ⟨module, _ | ⟨register, body⟩⟩
  · exact h.park rfl
  · exact h.park rfl
  · rw [Downloading.takeFrame]
    by_cases hmodule : module = Module.logging
    · subst hmodule
      rw [if_pos rfl]
      exact h.takeLogFrame
    · rw [if_neg hmodule]
      exact h.park (by simp [isReadoutFrame, hmodule])

/-! ## The reading

The induction is on the frames that may still be read.  It does not matter why the loop stops,
whether the readout is over, nothing more comes, the link is lost or a write is refused: `Leads`
asks for the invariant where an operation succeeds and where it fails.
-/

/-- The next frame is taken in hand, unless there is none. -/
theorem Goes.nextFrame (h : d.Goes extended origin) :
    (∃ frame d', onLink nextFrame d = (.ok frame, d') ∧ d'.Holds extended origin frame) ∨
      ∃ fault d', onLink nextFrame d = (.error fault, d') ∧ d'.Goes extended origin := by
  obtain ⟨j, hrun, hreplies, hlink, hparked, hdevice⟩ := h
  have hstep : Journal.Run origin j.next := hrun.tail .next
  have hgone (l : Link) (hj : j.next = { j with link := l }) :
      Goes extended origin { d with link := l } :=
    ⟨{ j with link := l }, hj ▸ hstep, hreplies, rfl, hparked, hdevice⟩
  rcases hnext : Link.tryNext d.link with ⟨fault | found, l⟩ <;> have hj := hlink ▸ hnext
  · replace hj := Journal.next_of_none hj fun frame h => by cases h
    have hframe : onLink Downloading.nextFrame d = (.error fault, { d with link := l }) := by
      rw [onLink, Downloading.nextFrame, bind_apply_error hnext]
    exact .inr ⟨_, _, hframe, hgone l hj⟩
  · cases found with
    | none =>
      replace hj := Journal.next_of_none hj fun frame h => by cases h
      have hframe : onLink Downloading.nextFrame d =
          (.error (.timeout "log readout" l.timeoutMs), { d with link := l }) := by
        rw [onLink, Downloading.nextFrame, bind_apply_ok hnext]
        rfl
      exact .inr ⟨_, _, hframe, hgone l hj⟩
    | some f =>
      replace hj := Journal.next_of_frame hj
      have hframe : onLink Downloading.nextFrame d = (.ok f, { d with link := l }) := by
        rw [onLink, Downloading.nextFrame, bind_apply_ok hnext]
        rfl
      exact .inl ⟨_, _, hframe, { j with link := l, taken := j.taken ++ [f] }, hj ▸ hstep, hreplies,
        rfl, ⟨_, rfl, hparked⟩, hdevice⟩

/-- **However long frames are read, and however that ends, what was taken and is not of a readout is
parked.** -/
theorem Goes.readFrames (h : d.Goes extended origin) (fuel : Nat) :
    (readFrames now total fuel d).2.Goes extended origin := by
  induction fuel generalizing d with
  | zero => exact h
  | succ n ih =>
    rw [Downloading.readFrames]
    obtain ⟨frame, d₁, hframe, hholds⟩ | ⟨fault, d₁, hframe, hgoes⟩ := h.nextFrame
    · rw [bind_apply_ok hframe]
      have htaken : (Downloading.takeFrame now total frame d₁).2.Goes extended origin :=
        hholds.takeFrame
      rcases htake : Downloading.takeFrame now total frame d₁ with ⟨fault | progress, d₂⟩ <;>
        rw [htake] at htaken
      · rw [bind_apply_error htake]
        exact htaken
      · rw [bind_apply_ok htake]
        cases progress with
        | more => exact ih htaken
        | done => exact htaken
    · rw [bind_apply_error hframe]
      exact hgoes

theorem Goes.readOut (h : d.Goes extended origin) :
    (readOut now total d).2.Goes extended origin := by
  have hon := h.sends (noticeCommands d.reconciler.device.extendedLogging true)
  rw [Downloading.readOut, get_bind_apply, bind_apply, onLink, setNotices_eq]
  rcases hswitch : List.forM (noticeCommands d.reconciler.device.extendedLogging true) Link.send
    d.link with ⟨fault | _, l⟩ <;> rw [hswitch] at hon
  · exact hon
  · have hstart := hon.send (readoutCommand total
      (progressInterval total d.reconciler.progressUpdates))
    dsimp only at hstart ⊢
    rw [bind_apply, onLink]
    rcases hsend : Link.send (readoutCommand total
      (progressInterval total d.reconciler.progressUpdates)) l with ⟨fault | _, l'⟩ <;>
      rw [hsend] at hstart
    · exact hstart
    · dsimp only
      rw [get_bind_apply]
      exact hstart.readFrames _

/-! ## The whole download

Cleaning up has two halves that do not depend on each other.  The clock and the backlog belong to
the host, so they are put in order in any case.  The notices belong to the board, and switching them
off takes commands, which need a link.
-/

/-- How the reading ended and the download at that moment, if a readout was started. -/
def reading? (now : Instant) (d : Download) : Option (Except Fault Unit × Download) :=
  match Reconciler.entryCount d.reconciler.device d.link with
  | (.ok total, link) =>
    if total = 0 then none
    else some (Downloading.readOut now total
      { d with link := link, reconciler := d.reconciler.mapClock TickClock.freeze })
  | (.error _, _) => none

/-- The question for the number of entries, and what its answer starts with. -/
def countCommand : Bytes := [Module.logging, readForm LogReg.length]

def countKey : ReplyKey := .register Module.logging (readForm LogReg.length)

theorem link_entryCount (device : Device) (l : Link) :
    (Reconciler.entryCount device l).2 = (Link.request countCommand countKey "log length" l).2 := by
  rcases hrequest : Link.request countCommand countKey "log length" l with ⟨fault | reply, l'⟩
  · exact congrArg Prod.snd (bind_apply_error hrequest)
  · refine (congrArg Prod.snd (bind_apply_ok hrequest)).trans ?_
    rcases Reconciler.readCounter device (reply.drop 2) with fault | n <;> rfl

/-- Without a readout nothing was done but to ask. -/
theorem download_of_none (h : d.reading? now = none) :
    (download now d).2.link = (Reconciler.entryCount d.reconciler.device d.link).2 ∧
      (download now d).2.reconciler = d.reconciler := by
  rw [reading?] at h
  rw [download]
  rcases hcount : Reconciler.entryCount d.reconciler.device d.link with ⟨fault | total, l⟩ <;>
    rw [hcount] at h
  · exact ⟨rfl, rfl⟩
  · dsimp only at h ⊢
    by_cases hzero : total = 0
    · rw [if_pos hzero]
      exact ⟨rfl, rfl⟩
    · rw [if_neg hzero] at h
      cases h

/-- After a readout the notices are switched off if the link works, and what was parked goes
back. -/
theorem download_of_some {outcome : Except Fault Unit} {r : Download}
    (h : d.reading? now = some (outcome, r)) :
    ∃ outcome', (download now d).2.reconciler = r.reconciler.mapClock (settleClock outcome') ∧
      (download now d).2.link = r.parked.foldl Link.defer (if r.link.connected then
        ((noticeCommands r.reconciler.device.extendedLogging false).forM Link.send r.link).2
        else r.link) := by
  rw [reading?] at h
  rw [download]
  rcases hcount : Reconciler.entryCount d.reconciler.device d.link with ⟨fault | total, l⟩ <;>
    rw [hcount] at h
  · cases h
  · dsimp only at h ⊢
    by_cases hzero : total = 0
    · rw [if_pos hzero] at h
      cases h
    · rw [if_neg hzero] at h ⊢
      rw [Option.some.inj h]
      refine ⟨_, rfl, ?_⟩
      rw [← setNotices_eq]
      dsimp only
      rw [quieten]
      split
      · rcases setNotices r.reconciler.device.extendedLogging false r.link with ⟨off, l'⟩
        cases outcome <;> rfl
      · rfl

/-- A download that ends, however it does, lets the clock take references again. -/
theorem frozen_settleClock (outcome : Except Fault Unit) (c : TickClock) :
    (settleClock outcome c).frozen = false := by
  unfold settleClock
  split <;> rfl

theorem frozen_download (hd : d.reconciler.clock.frozen = false) :
    (download now d).2.reconciler.clock.frozen = false := by
  cases hreading : d.reading? now with
  | none => rwa [(download_of_none hreading).2]
  | some reading =>
    obtain ⟨outcome, hreconciler, -⟩ := download_of_some hreading
    rw [hreconciler]
    exact frozen_settleClock outcome _

/-! ### Where the frames are -/

/-- What the question for the number of entries returns is one answer at most. -/
theorem replied_countCommand (l : Link) :
    (Link.replied (Link.request countCommand countKey "log length" l).1).length ≤ 1 ∧
      ∀ f ∈ Link.replied (Link.request countCommand countKey "log length" l).1,
        countKey.admits f = true := by
  rcases hrequest : Link.request countCommand countKey "log length" l with ⟨fault | reply, l'⟩
  · exact ⟨Nat.zero_le 1, fun f hf => nomatch hf⟩
  · refine ⟨Nat.le_refl 1, fun f hf => ?_⟩
    rw [List.mem_singleton.1 hf]
    exact Link.admits_of_request hrequest

/-- The link after the question for the number of entries. -/
def asked (d : Download) : Journal := (Journal.start d.link).ask countCommand countKey "log length"

theorem link_asked (d : Download) :
    d.asked.link = (Reconciler.entryCount d.reconciler.device d.link).2 :=
  (link_entryCount d.reconciler.device d.link).symm

/-- At the end of the reading everything is accounted for. -/
theorem goes_reading (hparked : d.parked = []) {outcome : Except Fault Unit} {r : Download}
    (h : d.reading? now = some (outcome, r)) :
    r.Goes d.reconciler.device.extendedLogging d.asked := by
  have hlink := d.link_asked
  rw [reading?] at h
  rcases hcount : Reconciler.entryCount d.reconciler.device d.link with ⟨fault | total, l⟩ <;>
    rw [hcount] at h hlink
  · cases h
  · dsimp only at h
    split at h
    · cases h
    · have hbegin : Goes d.reconciler.device.extendedLogging d.asked
          { d with link := l, reconciler := d.reconciler.mapClock TickClock.freeze } :=
        ⟨d.asked, .refl, rfl, hlink, hparked, rfl⟩
      have hend : (Downloading.readOut now total _).2.Goes _ _ := hbegin.readOut
      rwa [Option.some.inj h] at hend

/-- **What a download took and is not for it is in the backlog**, behind what it did not read. -/
theorem exists_journal_download (hparked : d.parked = []) :
    ∃ j, Journal.Run (.start d.link) j ∧ j.replies = d.asked.replies ∧
      (download now d).2.link = { j.link with
        backlog := j.link.backlog ++ j.taken.filter fun f =>
          !isReadoutFrame d.reconciler.device.extendedLogging f } := by
  have hasked : Journal.Run (.start d.link) d.asked := .single (.asked _ _ _)
  cases hreading : d.reading? now with
  | none =>
    refine ⟨d.asked, hasked, rfl, ?_⟩
    rw [(download_of_none hreading).1, ← d.link_asked]
    exact congrArg (fun b => { d.asked.link with backlog := b }) (List.append_nil _).symm
  | some reading =>
    obtain ⟨outcome, r⟩ := reading
    obtain ⟨j, hrun, hreplies, hr, hkept, hdevice⟩ := goes_reading hparked hreading
    obtain ⟨-, -, hfinal⟩ := download_of_some hreading
    rw [hfinal, Link.foldl_defer, hkept]
    cases hconnected : r.link.connected with
    | false => exact ⟨j, hasked.trans hrun, hreplies, by rw [if_neg Bool.false_ne_true, hr]⟩
    | true =>
      obtain ⟨j', hrun', hlink', hreplies', htaken'⟩ :=
        Journal.run_sends (noticeCommands r.reconciler.device.extendedLogging false) j
      refine ⟨j', (hasked.trans hrun).trans hrun', hreplies'.trans hreplies, ?_⟩
      rw [if_pos rfl, hlink', htaken', hr]

/-- The notices are switched off as far as the transport takes the commands, if the link works. -/
theorem exists_attempted_download (hparked : d.parked = []) {outcome : Except Fault Unit}
    {r : Download} (h : d.reading? now = some (outcome, r)) :
    (download now d).2.link.connected = r.link.connected ∧
      (r.link.connected = true → ∃ attempted rest,
        noticeCommands d.reconciler.device.extendedLogging false = attempted ++ rest ∧
        (download now d).2.link.transport.sent = r.link.transport.sent ++ attempted ∧
        (rest = [] ↔ r.link.transport.Takes
          (noticeCommands d.reconciler.device.extendedLogging false).dropLast)) := by
  obtain ⟨-, -, -, -, -, hdevice⟩ := goes_reading hparked h
  obtain ⟨-, -, hlink⟩ := download_of_some h
  rw [hlink, hdevice, Link.foldl_defer]
  cases hconnected : r.link.connected with
  | false => exact ⟨hconnected, fun h => nomatch h⟩
  | true =>
    obtain ⟨hstill, hattempted⟩ := Link.exists_attempted hconnected
      (noticeCommands d.reconciler.device.extendedLogging false)
    exact ⟨hstill, fun _ => hattempted⟩

end Download

namespace Host

/-- **A download hands everything back**, however it ends.

* The clock takes references again.
* If a readout was started and the link still works, the notices are switched off, by commands that
  are sent in turn until one is refused; so all of them are sent exactly if none before the last is
  refused.
* Of the frames that were in the link or came in, one at most was the number of entries, some were
  of the readout, and each of the others is in the backlog, or has not been read yet. -/
theorem downloadLog_hands_back (h : Host) :
    (h.reconciler.clock.frozen = false → h.downloadLog.2.reconciler.clock.frozen = false) ∧
    (∀ outcome r, h.outset.reading? h.now = some (outcome, r) →
      h.downloadLog.2.station.link.connected = r.link.connected ∧
      (r.link.connected = true → ∃ attempted rest,
        noticeCommands h.reconciler.device.extendedLogging false = attempted ++ rest ∧
        h.downloadLog.2.station.link.transport.sent = r.link.transport.sent ++ attempted ∧
        (rest = [] ↔ r.link.transport.Takes
          (noticeCommands h.reconciler.device.extendedLogging false).dropLast))) ∧
    ∃ j, Journal.Run (.start h.station.link) j ∧
      j.replies.length ≤ 1 ∧ (∀ f ∈ j.replies, Download.countKey.admits f = true) ∧
      h.downloadLog.2.station.link = { j.link with
        backlog := j.link.backlog ++ j.taken.filter fun f =>
          !isReadoutFrame h.reconciler.device.extendedLogging f } ∧
      j.entered.Perm (j.replies ++
        (j.taken.filter (fun f => isReadoutFrame h.reconciler.device.extendedLogging f) ++
          (h.downloadLog.2.station.link.backlog ++
            framesOf h.downloadLog.2.station.link.queue))) := by
  obtain ⟨j, hrun, hreplies, hlink⟩ := @Download.exists_journal_download h.outset h.now rfl
  obtain ⟨hone, hadmits⟩ := Download.replied_countCommand h.station.link
  have hafter : h.downloadLog.2.station.link = (download h.now h.outset).2.link := rfl
  refine ⟨Download.frozen_download (d := h.outset), fun outcome r hreading =>
    Download.exists_attempted_download rfl hreading, j, hrun, ?_, ?_, hafter.trans hlink, ?_⟩
  · rw [hreplies]
    exact hone
  · rw [hreplies]
    exact hadmits
  · rw [hafter, hlink]
    have hbalanced := Journal.balanced_of_run hrun
    refine hbalanced.trans (List.Perm.append_left _ ?_)
    have hsplit := List.filter_append_perm
      (isReadoutFrame h.reconciler.device.extendedLogging) j.taken
    refine (hsplit.symm.append_right _).trans ?_
    rw [List.append_assoc]
    refine List.Perm.append_left _ ?_
    -- what was parked is behind the backlog
    rw [← List.append_assoc]
    exact List.perm_append_comm.append_right _

/-! ### Two boards with one entry -/

/-- A board that says that it has one entry, and then that nothing is left.  A notification has come
in before. -/
def quickBoard (skip refuse : Nat) : Host :=
  let count : Script := ⟨[0x0b, 0x85], [.frame [0x0b, 0x85, 1, 0, 0, 0]]⟩
  let nothingLeft : Script := ⟨[0x0b, 0x06], [.frame [0x0b, 0x08, 0, 0, 0, 0]]⟩
  let host : Host := .atRest .standard ⟨[], skip, refuse, [count, nothingLeft], none⟩ 0
  host.mapLink fun l => l.receive (.frame [0x03, 0x04, 1, 2, 3, 4, 5, 6])

/-- Nothing is refused: all commands are sent, and the notification is in the backlog. -/
theorem downloadLog_hands_back_quickBoard :
    (quickBoard 0 0).downloadLog.2.reconciler.clock.frozen = false ∧
      (∃ outcome r, (quickBoard 0 0).outset.reading? 0 = some (outcome, r) ∧
        (quickBoard 0 0).downloadLog.2.station.link.transport.sent =
          r.link.transport.sent ++ noticeCommands true false) ∧
      (quickBoard 0 0).downloadLog.2.station.link.backlog = [[0x03, 0x04, 1, 2, 3, 4, 5, 6]] := by
  obtain ⟨hclock, hoff, -⟩ := downloadLog_hands_back (quickBoard 0 0)
  have hread : ((quickBoard 0 0).outset.reading? 0).any (fun x => x.2.link.connected &&
      decide (x.2.link.transport.Takes (noticeCommands true false).dropLast)) = true := by
    decide +kernel
  obtain ⟨⟨outcome, r⟩, hreading, hx⟩ := (Option.any_eq_true _ _).1 hread
  obtain ⟨hconnected, htakes⟩ := Bool.and_eq_true_iff.1 hx
  obtain ⟨-, hsent⟩ := hoff outcome r hreading
  obtain ⟨attempted, rest, hall, hsent, hrest⟩ := hsent hconnected
  refine ⟨hclock rfl, ⟨outcome, r, hreading, ?_⟩, by decide +kernel⟩
  rw [hrest.2 (of_decide_eq_true htakes), List.append_nil] at hall
  rw [hsent, ← hall]
  rfl

/-- **A refused command leaves the notices on.**  When the first of the commands that switch the
notices off is refused, the others are not even attempted, though the link works. -/
theorem downloadLog_leaves_notices_on :
    (∃ outcome r, (quickBoard 5 1).outset.reading? 0 = some (outcome, r)) ∧
      (quickBoard 5 1).downloadLog.2.station.link.connected = true ∧
      noticeCommands (quickBoard 5 1).reconciler.device.extendedLogging false =
        [[0x0b, 0x07, 0], [0x0b, 0x08, 0], [0x0b, 0x0d, 0]] ∧
      [0x0b, 0x08, 0] ∉ (quickBoard 5 1).downloadLog.2.station.link.transport.sent ∧
      [0x0b, 0x0d, 0] ∉ (quickBoard 5 1).downloadLog.2.station.link.transport.sent := by
  have hread : ((quickBoard 5 1).outset.reading? 0).isSome = true := by decide +kernel
  obtain ⟨⟨outcome, r⟩, hreading⟩ := Option.isSome_iff_exists.1 hread
  exact ⟨⟨outcome, r, hreading⟩, by decide +kernel, by decide, by decide +kernel,
    by decide +kernel⟩

end Host
end SignalRoute
