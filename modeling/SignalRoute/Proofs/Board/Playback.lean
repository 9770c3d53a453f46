import SignalRoute.Log.Download
import SignalRoute.Proofs.Board.Creation
import SignalRoute.Proofs.Codec.Field

/-!
# What a board plays back

A playback is a sequence of parcels, each a frame with one or two entries and what the board sends
behind it; in the end the board says that nothing is left, or the connection is lost.

* `SimulatedBoard.readout_whole` and `SimulatedBoard.readout_short`: the events of a readout that
  comes to its end and of one that is cut short.  The latter sends the parcels of the entries before
  the cut and keeps the log.
* `SimulatedBoard.left_of_mem_parcels` and `SimulatedBoard.page_eq_false`: a parcel never says that
  nothing is left, and a page ends in none if it does not end within the entries.

The other commands of a download have equations here too.

Cutting a playback into parcels is not needed to say what the board sends; it is needed because the
host reads frame by frame, and what a frame means to it depends on what came before.  A parcel is
the smallest piece after which host and board agree again on how much has been sent.
-/

set_option autoImplicit false

namespace SignalRoute

/-! ## Parcels -/

/-- A frame of entries, and what the board sends behind it. -/
structure Parcel where
  records : List LogRecord
  /-- How many entries are left, if the board says so. -/
  left : Option Nat
  /-- Does a page end here? -/
  page : Bool

namespace SimulatedBoard

/-- The frame that says how many entries are left. -/
def progressFrame (d : Device) (left : Nat) : Bytes :=
  Module.logging :: LogReg.readoutProgress :: counterBytes d left

/-- The frame that says that a page ends. -/
def pageFrame : Bytes := [Module.logging, LogReg.pageCompleted]

/-- What comes in of a parcel. -/
def eventsOf (d : Device) (p : Parcel) : List LinkEvent :=
  recordFrame p.records :: ((p.left.map fun n => .frame (progressFrame d n)).toList ++
    if p.page then [.frame pageFrame] else [])

/-- The parcel of the entries behind the first `before`. -/
def parcel (d : Device) (page : Option Nat) (total every before : Nat)
    (records : List LogRecord) : Parcel where
  records := records
  left :=
    if before + records.length < total && passes every before (before + records.length) then
      some (total - (before + records.length))
    else none
  page := d.extendedLogging && page.any (passes · before (before + records.length))

/-- The parcels of the entries behind the first `sent`. -/
def parcels (d : Device) (page : Option Nat) (total every : Nat) :
    Nat → List LogRecord → List Parcel
  | _, [] => []
  | sent, [a] => [parcel d page total every sent [a]]
  | sent, a :: b :: rest =>
    parcel d page total every sent [a, b] :: parcels d page total every (sent + 2) rest

variable {d : Device} {page : Option Nat} {total every sent : Nat} {records : List LogRecord}
  {p : Parcel}

theorem eventsOf_parcel (before : Nat) (records : List LogRecord) :
    eventsOf d (parcel d page total every before records) =
      recordFrame records ::
        marksBetween d page total every before (before + records.length) := by
  rw [eventsOf, parcel, marksBetween]
  congr 2
  split <;> rfl

/-- Nothing is lost between parcels. -/
theorem records_parcels : (parcels d page total every sent records).flatMap Parcel.records =
    records := by
  fun_induction parcels with
  | case1 => rfl
  | case2 => rfl
  | case3 sent a b rest ih =>
    rw [List.flatMap_cons, ih]
    rfl

/-- Parcels end where entries have been sent in twos. -/
theorem parcels_append (rest : List LogRecord) (heven : records.length % 2 = 0) :
    parcels d page total every sent (records ++ rest) =
      parcels d page total every sent records ++
        parcels d page total every (sent + records.length) rest := by
  fun_induction parcels d page total every sent records with
  | case1 => rfl
  | case2 => simp at heven
  | case3 sent a b records ih =>
    rw [List.length_cons, List.length_cons] at heven ⊢
    rw [List.cons_append, List.cons_append, parcels, ih (by omega), List.cons_append]
    congr 3
    omega

/-- While parcels come, some entries are left. -/
theorem left_of_mem_parcels (hp : p ∈ parcels d page total every sent records) {n : Nat}
    (hn : p.left = some n) : 0 < n ∧ n ≤ total := by
  have hparcel (before : Nat) (records : List LogRecord)
      (h : (parcel d page total every before records).left = some n) : 0 < n ∧ n ≤ total := by
    rw [parcel] at h
    dsimp only at h
    split at h
    · rename_i hlt
      rw [Bool.and_eq_true, decide_eq_true_iff] at hlt
      cases h
      omega
    · cases h
  fun_induction parcels with
  | case1 => cases hp
  | case2 sent a =>
    obtain rfl := List.mem_singleton.1 hp
    exact hparcel sent [a] hn
  | case3 sent a b rest ih =>
    rcases List.mem_cons.1 hp with rfl | hp
    · exact hparcel sent [a, b] hn
    · exact ih hp

/-- Pages end on boards that know of them only. -/
theorem extended_of_mem_parcels (hp : p ∈ parcels d page total every sent records)
    (hpage : p.page = true) : d.extendedLogging = true := by
  fun_induction parcels with
  | case1 => cases hp
  | case2 =>
    obtain rfl := List.mem_singleton.1 hp
    exact (Bool.and_eq_true_iff.1 hpage).1
  | case3 sent a b rest ih =>
    rcases List.mem_cons.1 hp with rfl | hp
    · exact (Bool.and_eq_true_iff.1 hpage).1
    · exact ih hp

/-- Who passes a multiple on a part of the way passes one on the whole way. -/
theorem passes_mono {every before after bound : Nat} (h : passes every before after = true)
    (hle : before ≤ after) (hbound : after ≤ bound) : passes every 0 bound = true := by
  rw [passes, Bool.and_eq_true, bne_iff_ne, bne_iff_ne] at h ⊢
  have hlow := Nat.div_le_div_right (c := every) hle
  have hhigh := Nat.div_le_div_right (c := every) hbound
  refine ⟨h.1, ?_⟩
  rw [Nat.zero_div]
  have hne := h.2
  generalize before / every = x at hlow hne
  generalize after / every = y at hlow hhigh hne
  omega

/-- If no page ends within the first `bound` entries, none ends in their parcels. -/
theorem page_eq_false {bound : Nat} (hbound : sent + records.length ≤ bound)
    (hpage : page.any (passes · 0 bound) = false)
    (hp : p ∈ parcels d page total every sent records) : p.page = false := by
  have hparcel (before : Nat) (records : List LogRecord) (h : before + records.length ≤ bound) :
      (parcel d page total every before records).page = false := by
    cases page with
    | none => exact Bool.and_false _
    | some n =>
      have hn : passes n before (before + records.length) = false := by
        by_contra hne
        have := passes_mono (Bool.not_eq_false _ ▸ hne) (Nat.le_add_right _ _) h
        rw [Option.any_some, this] at hpage
        cases hpage
      rw [parcel, Option.any_some, hn, Bool.and_false]
  fun_induction parcels with
  | case1 => cases hp
  | case2 sent a =>
    obtain rfl := List.mem_singleton.1 hp
    exact hparcel sent [a] hbound
  | case3 sent a b rest ih =>
    simp only [List.length_cons] at hbound
    rcases List.mem_cons.1 hp with rfl | hp
    · exact hparcel sent [a, b] (by simp only [List.length_cons, List.length_nil]; omega)
    · exact ih (by omega) hp

/-! ## Playbacks

A cut is checked before each frame, so a playback ends after an even number of entries, or with the
last one.
-/

/-- Before the cut, two entries go out and the playback goes on. -/
theorem playback_pair {cut : Option Nat} (h : cut.any (· ≤ sent) = false) (a b : LogRecord)
    (rest : List LogRecord) : playback d page cut total every sent (a :: b :: rest) =
      (eventsOf d (parcel d page total every sent [a, b]) ++
          (playback d page cut total every (sent + 2) rest).1,
        (playback d page cut total every (sent + 2) rest).2) := by
  rw [eventsOf_parcel, playback, h, if_neg Bool.false_ne_true]
  rfl

/-- Before the cut, the last entry goes out if it is alone. -/
theorem playback_single {cut : Option Nat} (h : cut.any (· ≤ sent) = false) (a : LogRecord) :
    playback d page cut total every sent [a] =
      (eventsOf d (parcel d page total every sent [a]) ++ [.frame (progressFrame d 0)], true) := by
  rw [eventsOf_parcel, playback, h, if_neg Bool.false_ne_true]
  rfl

/-- A playback that nothing cuts short. -/
theorem playback_whole : playback d page none total every sent records =
    ((parcels d page total every sent records).flatMap (eventsOf d) ++
      [.frame (progressFrame d 0)], true) := by
  fun_induction parcels with
  | case1 => rfl
  | case2 sent a =>
    rw [playback_single Option.any_none, List.flatMap_cons, List.flatMap_nil, List.append_nil]
  | case3 sent a b rest ih =>
    rw [playback_pair Option.any_none, ih, List.flatMap_cons, List.append_assoc]

/-- Where a playback ends that is to be cut behind `n` entries: entries are sent in twos. -/
def cutAt (n : Nat) : Nat := n + n % 2

/-- A playback that is cut short, unless it comes to its end before. -/
theorem playback_cut {n : Nat} (hsent : sent % 2 = 0) :
    playback d page (some n) total every sent records =
      if records.length ≤ cutAt n - sent then
        playback d page none total every sent records
      else ((parcels d page total every sent (records.take (cutAt n - sent))).flatMap (eventsOf d) ++
        [.disconnected], false) := by
  fun_induction parcels d page total every sent records with
  | case1 => rfl
  | case2 sent a =>
    by_cases hcut : n ≤ sent
    · have hzero : cutAt n - sent = 0 := by rw [cutAt]; omega
      rw [playback, Option.any_some, decide_eq_true hcut, hzero]
      rfl
    · have hbefore : (some n).any (· ≤ sent) = false := decide_eq_false hcut
      have hpos : [a].length ≤ cutAt n - sent := by
        rw [cutAt, List.length_singleton]
        omega
      rw [if_pos hpos, playback_single hbefore, playback_single Option.any_none]
  | case3 sent a b rest ih =>
    by_cases hcut : n ≤ sent
    · have hzero : cutAt n - sent = 0 := by rw [cutAt]; omega
      rw [playback, Option.any_some, decide_eq_true hcut, hzero]
      rfl
    · have hbefore : (some n).any (· ≤ sent) = false := decide_eq_false hcut
      obtain ⟨k, hk, hk'⟩ : ∃ k, cutAt n - sent = k + 2 ∧ cutAt n - (sent + 2) = k :=
        ⟨cutAt n - (sent + 2), by rw [cutAt]; omega, rfl⟩
      rw [playback_pair hbefore, ih (by omega), hk, hk']
      by_cases hshort : rest.length ≤ k
      · have hwhole : (a :: b :: rest).length ≤ k + 2 := by simpa using hshort
        rw [if_pos hshort, if_pos hwhole, playback_pair Option.any_none]
      · have hpart : ¬(a :: b :: rest).length ≤ k + 2 := by simpa using hshort
        rw [if_neg hshort, if_neg hpart, List.take_succ_cons, List.take_succ_cons, parcels,
          List.flatMap_cons, List.append_assoc]

/-! ## Readouts -/

variable {b : SimulatedBoard} {requested : Nat}

/-- The parcels of a readout. -/
def shipment (b : SimulatedBoard) (every : Nat) (entries : List LogRecord) : List Parcel :=
  parcels b.device b.pageEvery entries.length every 0 entries

/-- A readout that comes to its end: everything is sent and gone from the log. -/
theorem readout_whole
    (h : ∀ n, b.cutAfter = some n → (b.log.take requested).length ≤ cutAt n) (every : Nat) :
    b.readout requested every =
      ((b.shipment every (b.log.take requested)).flatMap (eventsOf b.device) ++
        [.frame (progressFrame b.device 0)], { b with log := b.log.drop requested }) := by
  have hplayback : playback b.device b.pageEvery b.cutAfter (b.log.take requested).length every 0
      (b.log.take requested) = playback b.device b.pageEvery none (b.log.take requested).length
        every 0 (b.log.take requested) := by
    cases hcut : b.cutAfter with
    | none => rfl
    | some n => rw [playback_cut rfl, Nat.sub_zero, if_pos (h n hcut)]
  rw [readout, hplayback, playback_whole]
  rfl

/-- A readout that is cut short: what is behind the cut is not sent, and the log stays. -/
theorem readout_short {n : Nat} (hcut : b.cutAfter = some n)
    (h : cutAt n < (b.log.take requested).length) (every : Nat) :
    b.readout requested every =
      ((parcels b.device b.pageEvery (b.log.take requested).length every 0
          ((b.log.take requested).take (cutAt n))).flatMap (eventsOf b.device) ++ [.disconnected],
        { b with cutAfter := none, connected := false }) := by
  rw [readout, hcut, playback_cut rfl, Nat.sub_zero, if_neg (Nat.not_le.2 h)]
  rfl

/-- A cut takes events away. -/
theorem length_readout_cut_le (n every : Nat) :
    (readout { b with cutAfter := some n } requested every).1.length ≤
      (readout { b with cutAfter := none } requested every).1.length := by
  rw [readout_whole (b := { b with cutAfter := none }) nofun]
  rcases Nat.lt_or_ge (cutAt n) (b.log.take requested).length with hshort | hwhole
  · have hsplit := List.take_append_drop (cutAt n) (b.log.take requested)
    have heven : ((b.log.take requested).take (cutAt n)).length % 2 = 0 := by
      rw [List.length_take, Nat.min_eq_left (Nat.le_of_lt hshort), cutAt]
      omega
    have hparcels : b.shipment every (b.log.take requested) =
        parcels b.device b.pageEvery (b.log.take requested).length every 0
            ((b.log.take requested).take (cutAt n)) ++
          parcels b.device b.pageEvery (b.log.take requested).length every
            (0 + ((b.log.take requested).take (cutAt n)).length)
            ((b.log.take requested).drop (cutAt n)) := by
      rw [← parcels_append _ heven, hsplit, shipment]
    rw [readout_short (b := { b with cutAfter := some n }) rfl hshort]
    show (_ ++ [_]).length ≤ ((b.shipment every (b.log.take requested)).flatMap _ ++ [_]).length
    rw [hparcels, List.flatMap_append, List.length_append, List.length_append, List.length_append]
    exact Nat.add_le_add_right (Nat.le_add_right _ _) _
  · rw [readout_whole (b := { b with cutAfter := some n }) fun m hm => by cases hm; exact hwhole]
    exact Nat.le_refl _

/-! ## Commands of a download -/

variable (b)

theorem handle_readLength : b.handle [Module.logging, readForm LogReg.length] =
    ([.frame ([Module.logging, readForm LogReg.length] ++ counterBytes b.device b.log.length)],
      b.heard [Module.logging, readForm LogReg.length]) := rfl

/-- Notices are switched on and off without an answer. -/
theorem handle_notices {register : UInt8} (flag : UInt8)
    (h : register = LogReg.readoutNotify ∨ register = LogReg.readoutProgress ∨
      register = LogReg.pageCompleted) :
    b.handle [Module.logging, register, flag] =
      ([], b.heard [Module.logging, register, flag]) := by
  rcases h with rfl | rfl | rfl <;> rfl

theorem handle_pageConfirm : b.handle [Module.logging, LogReg.pageConfirm] =
    ([], b.heard [Module.logging, LogReg.pageConfirm]) := rfl

theorem handle_readoutCommand (entries every : UInt32) :
    b.handle (Downloading.readoutCommand entries every) =
      (b.heard (Downloading.readoutCommand entries every)).readout entries.toNat every.toNat := by
  obtain ⟨n0, n1, n2, n3, hentries, hn⟩ := leBytes_four entries
  obtain ⟨e0, e1, e2, e3, hevery, he⟩ := leBytes_four every
  rw [Downloading.readoutCommand, hentries, hevery, ← hn, ← he]
  rfl

end SimulatedBoard
end SignalRoute
