import Polygon.Lib.LongestWithin
import Polygon.RetransmitSpec
import Polygon.RtbAcks
import Polygon.StreamDelivery

/-!
# Which frames of a lost packet are sent again

What the loop of `conn_retransmit_protected` writes from a chain in which frames have
become obsolete, and where a cancelled STOP_SENDING frame leads it astray.
-/
namespace Ngtcp2

open LongestWithin

/-- The length of a frame that can be encoded. -/
def frameSize (fr : Frame) : Nat := (frameLen fr).getD 0

/-- The frames that no rule cancels. -/
def liveFrames (conn : Conn) (frc : List Frame) : List Frame :=
  frc.filter fun fr => !retransmitDrops conn fr

namespace Conn

/-- The same connection of an application that answers otherwise. -/
def setCallbacks (conn : Conn) (callbacks : Callbacks) : Conn := { conn with callbacks }

end Conn

/-- The packet that `connRetransmitProtected` begins. -/
def retransmitPpe (conn : Conn) (destlen : Nat) (ent : RtbEntry) : Except Err Ppe :=
  ppeEncodeHd destlen conn.aeadOverhead conn.txCkm
    { resentHd conn ent with type := connSelectPktType conn conn.nextPktNum }

/-- Whatever the application answers, the loop over the chain of the lost packet stays in the
chain, and it writes as many of the live frames as fit. -/
structure RetransmitsLive (conn : Conn) (destlen : Nat) (ent : RtbEntry) : Prop where
  inChain : ∀ callbacks ppe, retransmitPpe conn destlen ent = .ok ppe →
    (retransmitFrames (conn.setCallbacks callbacks) ent.frc ppe (conn.setCallbacks callbacks)).1 ≠
      .error .abort
  written : ∀ callbacks ppe w conn', retransmitPpe conn destlen ent = .ok ppe →
    retransmitFrames (conn.setCallbacks callbacks) ent.frc ppe (conn.setCallbacks callbacks) =
      (.ok w, conn') →
    Longest frameSize (ppeLeft ppe) (liveFrames conn ent.frc) w.done
  packet : ∀ callbacks ppe ts pkt ent' conn', retransmitPpe conn destlen ent = .ok ppe →
    connRetransmitProtected (conn.setCallbacks callbacks) destlen ent ts =
      (.ok (some pkt), ent', conn') →
    ∃ frs, Longest frameSize (ppeLeft ppe) (liveFrames conn ent.frc) frs ∧ Carries pkt frs

/-- The first cancelled STOP_SENDING frame that has no live frame right behind it: the frames
before it and those after it. -/
def firstSlip (conn : Conn) : List Frame → Option (List Frame × List Frame)
  | [] => none
  | fr :: frc =>
    if stopSendingCancelled conn fr && frc.head?.all (retransmitDrops conn) then some ([], frc)
    else (firstSlip conn frc).map fun (before, after) => (fr :: before, after)

/-- The first slip is not reached, because the live frames before it fill the packet, or what is
behind it finds no room: neither the next frame nor the first live one after that. -/
def SlipHarmless (conn : Conn) (room : Nat) (frc : List Frame) : Prop :=
  ∀ before after, firstSlip conn frc = some (before, after) →
    room < ((liveFrames conn before).map frameSize).sum ∨
      ∃ fr frc', after = fr :: frc' ∧
        ∀ fr' ∈ fr :: (liveFrames conn frc').head?.toList,
          room - ((liveFrames conn before).map frameSize).sum < frameSize fr'

/-- What the loop writes into `room` bytes, or `none` where it runs over the end of the chain. -/
def writtenFrames (conn : Conn) : Nat → List Frame → Option (List Frame)
  | _, [] => some []
  | room, fr :: frc =>
    if retransmitCancelled conn fr then writtenFrames conn room frc
    else if stopSendingCancelled conn fr then
      match frc with
      | [] => none
      | fr' :: frc' =>
        if room < frameSize fr' then some []
        else (writtenFrames conn (room - frameSize fr') frc').map (fr' :: ·)
    else if room < frameSize fr then some []
    else (writtenFrames conn (room - frameSize fr) frc).map (fr :: ·)

/-! ## Chains -/

section
variable {conn : Conn} {room : Nat} {fr fr' : Frame} {frc : List Frame}

theorem retransmitDrops_of_stopSending (h : stopSendingCancelled conn fr = true) :
    retransmitDrops conn fr = true := by
  rw [retransmitDrops, h, Bool.or_true]

theorem not_stopSending_of_cancelled (h : retransmitCancelled conn fr = true) :
    stopSendingCancelled conn fr = false := by
  cases fr with
  | stopSending fr => cases h
  | _ => rfl

theorem live_not_cancelled (h : retransmitDrops conn fr = false) :
    retransmitCancelled conn fr = false ∧ stopSendingCancelled conn fr = false :=
  Bool.or_eq_false_iff.mp h

@[simp] theorem liveFrames_nil : liveFrames conn [] = [] := rfl

theorem liveFrames_dropped (h : retransmitDrops conn fr = true) :
    liveFrames conn (fr :: frc) = liveFrames conn frc :=
  List.filter_cons_of_neg (by simp [h])

theorem liveFrames_live (h : retransmitDrops conn fr = false) :
    liveFrames conn (fr :: frc) = fr :: liveFrames conn frc :=
  List.filter_cons_of_pos (by simp [h])

theorem mem_liveFrames (h : fr ∈ liveFrames conn frc) : retransmitDrops conn fr = false := by
  simpa using (List.mem_filter.mp h).2

theorem firstSlip_cons (h : (stopSendingCancelled conn fr &&
      frc.head?.all (retransmitDrops conn)) = false) :
    firstSlip conn (fr :: frc) =
      (firstSlip conn frc).map fun (before, after) => (fr :: before, after) := by
  rw [firstSlip, h]
  rfl

/-- A frame that is dropped without a slip changes nothing. -/
theorem slipHarmless_dropped (hdrop : retransmitDrops conn fr = true)
    (h : (stopSendingCancelled conn fr && frc.head?.all (retransmitDrops conn)) = false) :
    SlipHarmless conn room (fr :: frc) ↔ SlipHarmless conn room frc := by
  unfold SlipHarmless
  rw [firstSlip_cons h]
  constructor
  · intro hall before after hslip
    have := hall (fr :: before) after (by rw [hslip]; rfl)
    rwa [liveFrames_dropped hdrop] at this
  · intro hall before after hslip
    obtain ⟨⟨before', after'⟩, hrest, heq⟩ := Option.map_eq_some_iff.mp hslip
    obtain ⟨rfl, rfl⟩ := Prod.mk.inj heq
    rw [liveFrames_dropped hdrop]
    exact hall before' after' hrest

/-- A live frame takes its room, or it ends the packet. -/
theorem slipHarmless_live (hlive : retransmitDrops conn fr = false) :
    SlipHarmless conn room (fr :: frc) ↔
      (frameSize fr ≤ room → SlipHarmless conn (room - frameSize fr) frc) := by
  obtain ⟨-, hstop⟩ := live_not_cancelled hlive
  unfold SlipHarmless
  rw [firstSlip_cons (by rw [hstop, Bool.false_and])]
  constructor
  · intro hall hroom before after hslip
    have := hall (fr :: before) after (by rw [hslip]; rfl)
    rw [liveFrames_live hlive, List.map_cons, List.sum_cons, ← Nat.sub_sub] at this
    exact this.imp_left fun hlt => by omega
  · intro hall before after hslip
    obtain ⟨⟨before', after'⟩, hrest, heq⟩ := Option.map_eq_some_iff.mp hslip
    obtain ⟨rfl, rfl⟩ := Prod.mk.inj heq
    rw [liveFrames_live hlive, List.map_cons, List.sum_cons, ← Nat.sub_sub]
    rcases Nat.lt_or_ge room (frameSize fr) with hlt | hroom
    · exact .inl (by omega)
    · exact (hall hroom before' after' hrest).imp_left fun hlt => by omega

/-- At a slip the next frame is not wanted, so nothing may be written any more. -/
theorem slipHarmless_slip (hstop : stopSendingCancelled conn fr = true)
    (hnext : frc.head?.all (retransmitDrops conn) = true) :
    SlipHarmless conn room (fr :: frc) ↔
      ∃ fr' frc', frc = fr' :: frc' ∧ room < frameSize fr' ∧
        takeWithin frameSize room (liveFrames conn frc') = [] := by
  have hslip : firstSlip conn (fr :: frc) = some ([], frc) := by
    rw [firstSlip, hstop, hnext]
    rfl
  unfold SlipHarmless
  rw [hslip]
  simp only [Option.some.injEq, Prod.mk.injEq, takeWithin_eq_nil_iff]
  constructor
  · intro hall
    rcases hall [] frc ⟨rfl, rfl⟩ with hlt | ⟨fr', frc', rfl, hno⟩
    · simp at hlt
    · simp only [liveFrames_nil, List.map_nil, List.sum_nil, Nat.sub_zero] at hno
      exact ⟨fr', frc', rfl, hno fr' List.mem_cons_self, fun x hx =>
        hno x (List.mem_cons_of_mem _ (by rw [hx]; simp))⟩
  · rintro ⟨fr', frc', rfl, hfirst, hrest⟩ before after ⟨rfl, rfl⟩
    refine .inr ⟨fr', frc', rfl, fun x hx => ?_⟩
    simp only [liveFrames_nil, List.map_nil, List.sum_nil, Nat.sub_zero]
    rcases List.mem_cons.mp hx with rfl | hx
    · exact hfirst
    · exact hrest x (by simpa using hx)

/-- A live frame at the cursor is written as it should be. -/
theorem written_live_iff (hlive : retransmitDrops conn fr = false)
    (ih : writtenFrames conn (room - frameSize fr) frc =
        some (takeWithin frameSize (room - frameSize fr) (liveFrames conn frc)) ↔
      SlipHarmless conn (room - frameSize fr) frc) :
    (if room < frameSize fr then some []
      else (writtenFrames conn (room - frameSize fr) frc).map (fr :: ·)) =
        some (takeWithin frameSize room (liveFrames conn (fr :: frc))) ↔
      SlipHarmless conn room (fr :: frc) := by
  rw [slipHarmless_live hlive, liveFrames_live hlive, ← ih]
  rcases Nat.lt_or_ge room (frameSize fr) with hlt | hroom
  · rw [if_pos hlt, takeWithin_of_lt hlt]
    exact iff_of_true rfl fun hle => absurd hlt (Nat.not_lt_of_le hle)
  · rw [if_neg (Nat.not_lt_of_le hroom), takeWithin_of_le hroom]
    generalize writtenFrames conn (room - frameSize fr) frc = written
    cases written <;> simp [hroom]

/-- At a slip the loop writes what it should exactly when there is no room for anything. -/
theorem written_slip_iff (hdrop : retransmitDrops conn fr = true) :
    (if room < frameSize fr then some []
      else (writtenFrames conn (room - frameSize fr) frc).map (fr :: ·)) =
        some (takeWithin frameSize room (liveFrames conn frc)) ↔
      room < frameSize fr ∧ takeWithin frameSize room (liveFrames conn frc) = [] := by
  split
  · next hlt =>
    rw [Option.some.injEq]
    exact ⟨fun heq => ⟨hlt, heq.symm⟩, fun h => h.2.symm⟩
  · next hle =>
    refine iff_of_false (fun heq => ?_) fun h => hle h.1
    obtain ⟨written, -, hwritten⟩ := Option.map_eq_some_iff.mp heq
    have hmem : fr ∈ takeWithin frameSize room (liveFrames conn frc) := by
      rw [← hwritten]
      exact List.mem_cons_self
    rw [mem_liveFrames (mem_of_mem_takeWithin hmem)] at hdrop
    cases hdrop

/-- The loop writes the live frames that fit, exactly when the first slip does no harm. -/
theorem writtenFrames_iff (conn : Conn) (room : Nat) (frc : List Frame) :
    writtenFrames conn room frc =
        some (takeWithin frameSize room (liveFrames conn frc)) ↔
      SlipHarmless conn room frc := by
  obtain ⟨n, hn⟩ : ∃ n, frc.length ≤ n := ⟨_, Nat.le_refl _⟩
  induction n generalizing room frc with
  | zero =>
    obtain rfl := List.length_eq_zero_iff.mp (Nat.le_zero.mp hn)
    exact iff_of_true rfl fun before after hslip => by cases hslip
  | succ n ih =>
    cases frc with
    | nil => exact iff_of_true rfl fun before after hslip => by cases hslip
    | cons fr frc =>
      have hlen : frc.length ≤ n := Nat.le_of_succ_le_succ hn
      unfold writtenFrames
      split
      · next hc =>
        have hdrop : retransmitDrops conn fr = true := by rw [retransmitDrops, hc, Bool.true_or]
        have hstop := not_stopSending_of_cancelled hc
        rw [liveFrames_dropped hdrop, slipHarmless_dropped hdrop (by rw [hstop, Bool.false_and])]
        exact ih room frc hlen
      next hc =>
      split
      · next hstop =>
        have hdrop := retransmitDrops_of_stopSending hstop
        cases frc with
        | nil =>
          rw [slipHarmless_slip hstop rfl]
          simp
        | cons fr' frc' =>
          have hlen' : frc'.length ≤ n := Nat.le_of_succ_le hlen
          rw [liveFrames_dropped hdrop]
          cases hnext : retransmitDrops conn fr' with
          | false =>
            -- The frame that is written unchecked is a live one.
            rw [slipHarmless_dropped hdrop (by simp [hnext])]
            exact written_live_iff hnext (ih _ frc' hlen')
          | true =>
            rw [slipHarmless_slip hstop (by simp [hnext]), liveFrames_dropped hnext]
            simpa using written_slip_iff hnext
      · next hstop =>
        have hlive : retransmitDrops conn fr = false := by simp [retransmitDrops, hc, hstop]
        exact written_live_iff hlive (ih _ frc hlen)

end

/-! ## The loop -/

section
variable {conn conn' : Conn} {destlen ts len : Nat} {ent : RtbEntry} {ppe : Ppe} {fr : Frame}
  {frc : List Frame}

/-- What is in the packet leaves room for the AEAD overhead. -/
def Ppe.Bounded (ppe : Ppe) : Prop := ppe.len + ppe.aeadOverhead ≤ ppe.destlen

theorem retransmitPpe_bounded (h : retransmitPpe conn destlen ent = .ok ppe) : ppe.Bounded := by
  unfold retransmitPpe ppeEncodeHd at h
  split at h
  · cases h
  next hoverhead =>
  split at h
  · cases h
  next len hlen =>
  split at h
  · cases h
  next hroom =>
  obtain rfl := Except.ok.inj h
  have hlen' : len ≤ destlen - conn.aeadOverhead := Nat.le_of_not_lt hroom
  change len + conn.aeadOverhead ≤ destlen
  omega

theorem ppeEncodeFrame_eq (hppe : ppe.Bounded) (hlen : frameLen fr = some len) :
    ppeEncodeFrame ppe fr =
      if ppeLeft ppe < len then .error .noBuf
      else .ok { ppe with len := ppe.len + len, frames := ppe.frames ++ [fr] } := by
  have hoverhead : ¬ppe.destlen - ppe.len < ppe.aeadOverhead := by
    unfold Ppe.Bounded at hppe
    omega
  unfold ppeEncodeFrame ppeLeft
  rw [if_neg hoverhead, hlen]

/-- The calls for a frame that was encoded. -/
theorem connPpeWriteFrame_eq (hppe : ppe.Bounded) (hlen : frameLen fr = some len)
    (hroom : len ≤ ppeLeft ppe) :
    connPpeWriteFrame conn ppe fr =
      (Result.andThen (if ppe.sendPktCbCalled then (.ok (), conn) else connCallSendPkt conn ppe.hd)
        fun _ conn => (connCallSendFrame conn ppe.hd fr).andThen fun _ conn =>
        (.ok { ppe with
          len := ppe.len + len
          frames := ppe.frames ++ [fr]
          sendPktCbCalled := true }, conn)) := by
  unfold connPpeWriteFrame
  rw [ppeEncodeFrame_eq hppe hlen, if_neg (Nat.not_lt_of_le hroom)]

/-- A call fails only where the application says so. -/
theorem connCall_or (conn : Conn) (ev : Event) :
    connCall conn ev = (.ok (), conn.tell ev) ∨
      (connCall conn ev = (.error .callbackFailure, conn.tell ev) ∧ ¬CallbacksSucceed conn) := by
  unfold connCall
  split
  · exact .inl rfl
  · next e he =>
    refine .inr ⟨rfl, fun hcall => ?_⟩
    rw [hcall] at he
    cases he

/-- How the loop may end where `expected` is what it writes. -/
inductive LoopEnds (conn : Conn) : Option (List Frame) → Except Err Written → Prop where
  | failed (expected : Option (List Frame)) (unlucky : ¬CallbacksSucceed conn) :
    LoopEnds conn expected (.error .callbackFailure)
  | overrun : LoopEnds conn none (.error .abort)
  | wrote (w : Written) : LoopEnds conn (some w.done) (.ok w)

theorem LoopEnds.callbacks {expected : Option (List Frame)} {r : Except Err Written}
    (h : LoopEnds conn' expected r) (hcall : conn'.callbacks = conn.callbacks) :
    LoopEnds conn expected r := by
  cases h with
  | failed expected unlucky =>
    unfold CallbacksSucceed at unlucky
    rw [hcall] at unlucky
    exact .failed expected unlucky
  | overrun => exact .overrun
  | wrote w => exact .wrote w

theorem LoopEnds.expected_of_ok {expected : Option (List Frame)} {w : Written}
    (h : LoopEnds conn expected (.ok w)) : expected = some w.done := by
  cases h with
  | wrote w => rfl

theorem LoopEnds.expected_of_abort {expected : Option (List Frame)}
    (h : LoopEnds conn expected (.error .abort)) : expected = none := by
  cases h with
  | overrun => rfl

/-- A frame was written in front of what the rest of the loop writes. -/
theorem LoopEnds.cons {expected : Option (List Frame)} {r : Result Written}
    (h : LoopEnds conn expected r.1) (fr : Frame) :
    LoopEnds conn (expected.map (fr :: ·))
      (r.andThen fun w conn => (.ok { w with done := fr :: w.done }, conn)).1 := by
  obtain ⟨res, conn'⟩ := r
  cases h with
  | failed expected unlucky => exact .failed _ unlucky
  | overrun => exact .overrun
  | wrote w => exact .wrote { w with done := fr :: w.done }

/-- One turn of the loop at a frame that is written if it fits. -/
theorem writeFrame_ends {next : Ppe → Conn → Result Written} {expected : Option (List Frame)}
    (hppe : ppe.Bounded) (hlen : frameLen fr = some len)
    (hnext : ∀ ppe' conn', ppe'.Bounded → ppeLeft ppe' = ppeLeft ppe - len →
      LoopEnds conn' expected (next ppe' conn').1) :
    LoopEnds conn (if ppeLeft ppe < len then some [] else expected.map (fr :: ·))
      (writeFrame fr frc ppe conn next).1 := by
  unfold writeFrame
  rcases Nat.lt_or_ge (ppeLeft ppe) len with hfull | hroom
  · rw [if_pos hfull]
    unfold connPpeWriteFrame
    rw [ppeEncodeFrame_eq hppe hlen, if_pos hfull]
    exact .wrote ⟨ppe, [], fr :: frc, true⟩
  · rw [if_neg (Nat.not_lt_of_le hroom), connPpeWriteFrame_eq hppe hlen hroom]
    -- The packet is announced with its first frame.
    have hfirst : ∀ r : Result Unit,
        r = (if ppe.sendPktCbCalled then (.ok (), conn) else connCallSendPkt conn ppe.hd) →
        (∃ conn₁, r = (.ok (), conn₁) ∧ conn₁.callbacks = conn.callbacks) ∨
          ∃ conn₁, r = (.error .callbackFailure, conn₁) ∧ ¬CallbacksSucceed conn := by
      rintro r rfl
      split
      · exact .inl ⟨conn, rfl, rfl⟩
      · rcases connCall_or conn (.sendPkt ppe.hd) with hok | ⟨herr, hunlucky⟩
        · exact .inl ⟨_, hok, rfl⟩
        · exact .inr ⟨_, herr, hunlucky⟩
    rcases hfirst _ rfl with ⟨conn₁, hcall, hsame⟩ | ⟨conn₁, hcall, hunlucky⟩
    · rw [hcall, andThen_ok, connCallSendFrame]
      rcases connCall_or conn₁ (.sendFrame ppe.hd fr) with hok | ⟨herr, hunlucky⟩
      · rw [hok, andThen_ok]
        unfold Ppe.Bounded at hppe
        unfold ppeLeft at hroom
        refine ((hnext _ _ ?_ ?_).cons fr).callbacks hsame
        · unfold Ppe.Bounded
          dsimp only
          omega
        · unfold ppeLeft
          dsimp only
          omega
      · rw [herr, andThen_error]
        exact (LoopEnds.failed _ hunlucky).callbacks hsame
    · rw [hcall, andThen_error]
      exact .failed _ hunlucky

/-- The loop writes what `writtenFrames` says, unless the application stops it. -/
theorem retransmitFrames_ends {lookup lookup' : Conn}
    (hcancel : retransmitCancelled lookup = retransmitCancelled lookup')
    (hstop : stopSendingCancelled lookup = stopSendingCancelled lookup') (hppe : ppe.Bounded)
    (hframes : ∀ fr ∈ frc, (frameLen fr).isSome = true) :
    LoopEnds conn (writtenFrames lookup' (ppeLeft ppe) frc)
      (retransmitFrames lookup frc ppe conn).1 := by
  obtain ⟨n, hn⟩ : ∃ n, frc.length ≤ n := ⟨_, Nat.le_refl _⟩
  induction n generalizing frc ppe conn with
  | zero =>
    obtain rfl := List.length_eq_zero_iff.mp (Nat.le_zero.mp hn)
    exact .wrote ⟨ppe, [], [], false⟩
  | succ n ih =>
    -- One frame is written, and the loop goes on behind it.
    have hwrite : ∀ {fr : Frame} {frc : List Frame}, frc.length ≤ n →
        (∀ fr' ∈ fr :: frc, (frameLen fr').isSome = true) →
        LoopEnds conn (if ppeLeft ppe < frameSize fr then some []
            else (writtenFrames lookup' (ppeLeft ppe - frameSize fr) frc).map (fr :: ·))
          (writeFrame fr frc ppe conn (retransmitFrames lookup frc)).1 := by
      intro fr frc hlen hframes
      obtain ⟨hfr, hframes⟩ := List.forall_mem_cons.mp hframes
      obtain ⟨len, hfr⟩ := Option.isSome_iff_exists.mp hfr
      have hsize : frameSize fr = len := by rw [frameSize, hfr, Option.getD_some]
      rw [hsize]
      refine writeFrame_ends hppe hfr fun ppe' conn' hppe' hleft => ?_
      rw [← hleft]
      exact ih hppe' hframes hlen
    cases frc with
    | nil => exact .wrote ⟨ppe, [], [], false⟩
    | cons fr frc =>
      have hlen : frc.length ≤ n := Nat.le_of_succ_le_succ hn
      have hrest := (List.forall_mem_cons.mp hframes).2
      unfold retransmitFrames writtenFrames
      rw [hcancel, hstop]
      split
      · exact ih hppe hrest hlen
      split
      · cases frc with
        | nil => exact .overrun
        | cons fr' frc' => exact hwrite (Nat.le_of_succ_le hlen) hrest
      · exact hwrite hlen hframes

/-- A packet that goes out carries what the loop wrote. -/
theorem connRetransmitProtected_packet {ent' : RtbEntry} {pkt : Pkt}
    (hppe : retransmitPpe conn destlen ent = .ok ppe)
    (h : connRetransmitProtected conn destlen ent ts = (.ok (some pkt), ent', conn')) :
    ∃ w conn₁, retransmitFrames conn ent.frc ppe conn = (.ok w, conn₁) ∧ Carries pkt w.done := by
  unfold retransmitPpe at hppe
  unfold connRetransmitProtected at h
  rw [hppe] at h
  dsimp only at h
  split at h
  · simp at h
  next w conn₁ hw =>
  obtain ⟨-, ⟨e, he, -⟩ | ⟨w', gone, he, hf⟩⟩ := retransmitFrames_cases hw
  · simp at he
  obtain rfl := Except.ok.inj he
  have hwframes : w.ppe.frames = w.done := by
    rw [hf.frames, (ppeEncodeHd_ok hppe).2.1, List.nil_append]
  refine ⟨w, conn₁, hw, ?_⟩
  split at h
  · split at h <;> simp at h
  split at h
  · simp at h
  next ppe₂ conn₂ hack =>
  obtain ⟨-, ⟨e, he, -⟩ | ⟨ppe', post, he, -, hframes₂, hun⟩⟩ := retransmitAck_cases hack
  · simp at he
  obtain rfl := Except.ok.inj he
  -- Both ways to the packet finish the encoder that has the ACK frame.
  have hcarries : ∀ {conn₃ conn₄ : Conn} {pkt : Pkt}, ppeFinal conn₃ ppe₂ = (.ok pkt, conn₄) →
      Carries pkt w.done := by
    intro conn₃ conn₄ pkt hfin
    obtain ⟨-, ckm, -, rfl⟩ := ppeFinal_ok hfin
    exact ⟨[], post, by rw [hframes₂, hwframes, List.nil_append], by simpa using hun⟩
  split at h
  · split at h
    · simp at h
    · next hfin =>
      simp only [Prod.mk.injEq, Except.ok.injEq, Option.some.injEq] at h
      obtain ⟨rfl, -, -⟩ := h
      exact hcarries hfin
  · unfold retransmitPartial at h
    split at h
    · simp at h
    · next hfin =>
      simp only [Prod.mk.injEq, Except.ok.injEq, Option.some.injEq] at h
      obtain ⟨rfl, -, -⟩ := h
      exact hcarries hfin

/-- The loop of a connection whose application answers with `callbacks`. -/
theorem retransmitLoop_ends (hppe : retransmitPpe conn destlen ent = .ok ppe)
    (hframes : ∀ fr ∈ ent.frc, (frameLen fr).isSome = true) (callbacks : Callbacks) :
    LoopEnds (conn.setCallbacks callbacks) (writtenFrames conn (ppeLeft ppe) ent.frc)
      (retransmitFrames (conn.setCallbacks callbacks) ent.frc ppe
        (conn.setCallbacks callbacks)).1 :=
  -- The answers are not looked up.
  retransmitFrames_ends rfl rfl (retransmitPpe_bounded hppe) hframes

end

/-- The frames of the lost packet were encoded before. Then the retransmission stays in the chain
and sends the live frames that fit exactly when the first slip does no harm. -/
theorem connRetransmitProtected_live_iff (conn : Conn) (destlen : Nat) (ent : RtbEntry)
    (hframes : ∀ fr ∈ ent.frc, (frameLen fr).isSome = true) :
    RetransmitsLive conn destlen ent ↔
      ∀ ppe, retransmitPpe conn destlen ent = .ok ppe →
        SlipHarmless conn (ppeLeft ppe) ent.frc := by
  constructor
  · intro h ppe hppe
    rw [← writtenFrames_iff]
    have hends := retransmitLoop_ends hppe hframes quietCallbacks
    have hin := h.inChain quietCallbacks ppe hppe
    have hwritten := h.written quietCallbacks ppe
    generalize hloop : retransmitFrames (conn.setCallbacks quietCallbacks) ent.frc ppe
      (conn.setCallbacks quietCallbacks) = res at hends hin hwritten
    obtain ⟨r, conn'⟩ := res
    generalize writtenFrames conn (ppeLeft ppe) ent.frc = expected at hends
    cases hends with
    | failed expected unlucky => exact absurd (fun _ _ => rfl) unlucky
    | overrun => exact absurd rfl hin
    | wrote w => exact congrArg some (longest_iff.mp (hwritten w conn' hppe rfl))
  · intro h
    have hexpected : ∀ ppe, retransmitPpe conn destlen ent = .ok ppe →
        writtenFrames conn (ppeLeft ppe) ent.frc =
          some (takeWithin frameSize (ppeLeft ppe) (liveFrames conn ent.frc)) :=
      fun ppe hppe => (writtenFrames_iff conn _ _).mpr (h ppe hppe)
    have hwritten : ∀ callbacks ppe w conn', retransmitPpe conn destlen ent = .ok ppe →
        retransmitFrames (conn.setCallbacks callbacks) ent.frc ppe (conn.setCallbacks callbacks) =
          (.ok w, conn') →
        Longest frameSize (ppeLeft ppe) (liveFrames conn ent.frc) w.done := by
      intro callbacks ppe w conn' hppe hloop
      have hends := retransmitLoop_ends hppe hframes callbacks
      rw [hloop] at hends
      have hdone := hends.expected_of_ok
      rw [hexpected ppe hppe] at hdone
      exact longest_iff.mpr (Option.some.inj hdone).symm
    refine ⟨fun callbacks ppe hppe habort => ?_, hwritten, ?_⟩
    · have hends := retransmitLoop_ends hppe hframes callbacks
      rw [habort] at hends
      have hnone := hends.expected_of_abort
      rw [hexpected ppe hppe] at hnone
      cases hnone
    · intro callbacks ppe ts pkt ent' conn' hppe hsent
      have hppe' : retransmitPpe (conn.setCallbacks callbacks) destlen ent = .ok ppe := hppe
      obtain ⟨w, conn₁, hloop, hcarries⟩ := connRetransmitProtected_packet hppe' hsent
      exact ⟨w.done, hwritten callbacks ppe w conn₁ hppe hloop, hcarries⟩

/-- A server with keys, and no stream. -/
def keyedServer : Conn :=
  { smallServer with
    state := .postHandshake
    txCkm := some ⟨[], []⟩
    aeadOverhead := 16 }

/-- A lost packet whose first frame stops a stream that is gone by now. -/
def stoppedEntry (frc : List Frame) : RtbEntry :=
  { addr := 0
    hd := ⟨false, false, false, .pkt01, 1, 0, 1⟩
    frc := .stopSending ⟨4, 0⟩ :: frc
    expiry := 1, deadline := 100, count := 0, pktlen := 60, unprotected := false }

/-- With a live frame behind it the cancelled one does no harm. -/
theorem connRetransmitProtected_live_maxData :
    RetransmitsLive keyedServer 1200 (stoppedEntry [.maxData 1000]) :=
  (connRetransmitProtected_live_iff keyedServer 1200 (stoppedEntry [.maxData 1000]) (by decide)).mpr
    fun ppe hppe before after hslip => by cases hslip

/-- As the last frame it leads over the end of the chain, and an outdated limit behind it is
sent. -/
theorem stopSending_slips :
    ((∀ fr ∈ (stoppedEntry []).frc, (frameLen fr).isSome = true) ∧
      ¬RetransmitsLive keyedServer 1200 (stoppedEntry [])) ∧
    (∀ fr ∈ (stoppedEntry [.maxData 1]).frc, (frameLen fr).isSome = true) ∧
      ¬RetransmitsLive keyedServer 1200 (stoppedEntry [.maxData 1]) := by
  refine ⟨⟨by decide, fun h => ?_⟩, by decide, fun h => ?_⟩
  · exact h.inChain quietCallbacks _ rfl rfl
  · have hwritten := h.written quietCallbacks _ _ _ rfl rfl
    have hinitial : [Frame.maxData 1] <+: [] := hwritten.initial
    simp at hinitial

end Ngtcp2
