import Polygon.AckFrames
import Polygon.Changes
import Polygon.ConnApi

/-!
# What an ACK frame removes

`ngtcp2_rtb_recv_ack` walks once over the list, a range of the frame after the other, and
removes the entries that it meets in a range. The cursor divides the list: what is
behind it was dealt with, and what is in front of it lies below the ranges that are done.
-/
namespace Ngtcp2

/-! ## Coverage -/

/-- An entry that the frame acknowledges; a frame in an unprotected packet acknowledges only unprotected ones. -/
def acked (fr : AckFrame) (unprotected : Bool) (ent : RtbEntry) : Bool :=
  decide (fr.Covers ent.hd.pktNum) && !(unprotected && !ent.unprotected)

/-- The ranges below a valid one end below it. -/
theorem inAckBlks_lt {minAck n : Nat} {blks : List AckBlk} (h : validateAckBlks minAck blks = true)
    (hmin : minAck < 2 ^ 64) (hin : InAckBlks minAck blks n) : n < minAck := by
  induction blks generalizing minAck with
  | nil => exact absurd hin id
  | cons blk blks ih =>
    obtain ⟨hgap, hlen, hrest⟩ := validateAckBlks_cons h hmin
    rcases (inAckBlks_cons h hmin).mp hin with hrange | hbelow
    · omega
    · have := ih hrest (by omega) hbelow
      omega

/-! ## The application -/

/-- No callback of the application fails. -/
def CallbacksSucceed (conn : Conn) : Prop := ∀ log ev, conn.callbacks.reply log ev = none

section
variable {conn conn₁ conn' : Conn}

/-- The buffer and the callbacks are the same. -/
structure SameRtb (conn conn' : Conn) : Prop where
  rtb : conn'.rtb = conn.rtb := by rfl
  callbacks : conn'.callbacks = conn.callbacks := by rfl

theorem SameRtb.trans (h : SameRtb conn conn₁) (h' : SameRtb conn₁ conn') : SameRtb conn conn' :=
  ⟨h'.rtb.trans h.rtb, h'.callbacks.trans h.callbacks⟩

theorem SameRtb.succeed (h : SameRtb conn conn') (hcall : CallbacksSucceed conn) :
    CallbacksSucceed conn' := by
  unfold CallbacksSucceed
  rw [h.callbacks]
  exact hcall

theorem connCall_succeeds (hcall : CallbacksSucceed conn) (ev : Event) :
    connCall conn ev = (.ok (), conn.tell ev) := by
  rw [connCall, hcall]

/-- A stream that is in the map is closed. -/
theorem ngtcp2ConnCloseStreamIfShutRdwr_succeeds (hcall : CallbacksSucceed conn) {strm strm' : Strm}
    (appErrorCode : Nat)
    (hfind : conn.strms strm.streamId = some strm') :
    ∃ conn', ngtcp2ConnCloseStreamIfShutRdwr conn strm appErrorCode = (.ok (), conn') ∧
    SameRtb conn conn' := by
  unfold ngtcp2ConnCloseStreamIfShutRdwr
  split
  · unfold ngtcp2ConnCloseStream connCallStreamClose
    dsimp only
    rw [hfind]
    dsimp only
    have hcall' : CallbacksSucceed (conn.removeStrm strm.streamId) := hcall
    rw [connCall_succeeds hcall', andThen_ok]
    refine ⟨_, rfl, ?_⟩
    generalize connLocalStream _ strm.streamId = isLocal
    generalize bidiStream strm.streamId = bidi
    generalize strm.onFc = onFc
    cases isLocal <;> cases bidi <;> cases onFc <;> exact {}
  · exact ⟨conn, rfl, {}⟩

/-- The streams of an acknowledged packet are told, which does not touch the buffer. -/
theorem callAckedStreamOffset_succeeds (hcall : CallbacksSucceed conn) (frc : List Frame) :
    ∃ conn', callAckedStreamOffset frc conn = (.ok (), conn') ∧ SameRtb conn conn' := by
  induction frc generalizing conn with
  | nil => exact ⟨conn, rfl, {}⟩
  | cons fr frc ih =>
    cases fr with
    | stream fr =>
      rw [callAckedStreamOffset]
      cases hfind : conn.strms fr.streamId with
      | none => exact ih hcall
      | some strm =>
        dsimp only
        generalize strm.setAckedTxOffset _ = strm₁
        have hset : SameRtb conn (conn.setStrm strm₁) := {}
        split
        · obtain ⟨conn', hrun, hsame⟩ := ih (hset.succeed hcall)
          exact ⟨conn', hrun, hset.trans hsame⟩
        · rw [connCall_succeeds (hset.succeed hcall), andThen_ok]
          generalize Event.ackedStreamDataOffset strm₁.streamId _ _ = ev
          have htell : SameRtb conn ((conn.setStrm strm₁).tell ev) := {}
          have hfind₁ : ((conn.setStrm strm₁).tell ev).strms strm₁.streamId = some strm₁ :=
            if_pos rfl
          obtain ⟨conn₂, hclose, hsame⟩ :=
            ngtcp2ConnCloseStreamIfShutRdwr_succeeds (htell.succeed hcall) 0 hfind₁
          rw [hclose, andThen_ok]
          obtain ⟨conn', hrun, hsame'⟩ := ih (hsame.succeed (htell.succeed hcall))
          exact ⟨conn', hrun, htell.trans (hsame.trans hsame')⟩
    | _ => exact ih hcall

end

/-! ## The cursor -/

section
variable {conn conn₁ : Conn} {fr : AckFrame} {unprotected : Bool} {p : RtbEntry → Bool} {ent : RtbEntry}
  {done rest ents : List RtbEntry}

/-- The walk over the list of `conn` has come behind `done`, and the entries with `p` are out. -/
structure Walked (p : RtbEntry → Bool) (conn : Conn) (done rest : List RtbEntry) (conn₁ : Conn) :
    Prop where
  split : conn.rtb.head = done ++ rest
  inv : RtbInv conn₁.rtb
  succeed : CallbacksSucceed conn₁
  head : conn₁.rtb.head = (done.filter fun ent => !p ent) ++ rest
  bytes : conn₁.rtb.bytesInFlight + ((done.filter p).map (·.pktlen)).sum = conn.rtb.bytesInFlight
  largest : conn₁.rtb.largestAcked =
    ((done.filter p).map (·.hd.pktNum)).foldl max conn.rtb.largestAcked

theorem Walked.start (p : RtbEntry → Bool) (hinv : RtbInv conn.rtb)
    (hcall : CallbacksSucceed conn) :
    Walked p conn [] conn.rtb.head conn := ⟨rfl, hinv, hcall, rfl, rfl, rfl⟩

/-- The cursor goes over an entry that stays. -/
theorem Walked.keep (h : Walked p conn done (ent :: rest) conn₁) (hp : p ent = false) :
    Walked p conn (done ++ [ent]) rest conn₁ := by
  have hkeep : (done ++ [ent]).filter (fun ent => !p ent) =
    (done.filter fun ent => !p ent) ++ [ent] := by
    simp [List.filter_append, hp]
  have hdrop : (done ++ [ent]).filter p = done.filter p := by simp [List.filter_append, hp]
  refine ⟨?_, h.inv, h.succeed, ?_, ?_, ?_⟩
  · rw [h.split, List.append_assoc, List.singleton_append]
  · rw [h.head, hkeep, List.append_assoc, List.singleton_append]
  · rw [hdrop, h.bytes]
  · rw [hdrop, h.largest]

theorem unlink_middle {before after : List RtbEntry}
    (hnodup : (addrs (before ++ ent :: after)).Nodup) :
    unlink ent.addr (before ++ ent :: after) = before ++ after := by
  have hnot : ∀ e ∈ before, ¬(e.addr == ent.addr) = true := by
    intro e he heq
    rw [addrs, List.map_append, List.map_cons] at hnodup
    have hdisj := (List.nodup_append.mp hnodup).2.2 e.addr
      (List.mem_map_of_mem he) ent.addr List.mem_cons_self
    exact hdisj (by simpa using heq)
  rw [unlink, List.eraseP_append_right _ hnot, List.eraseP_cons_of_pos (by simp)]

/-- The entry at the cursor goes out, and the cursor stays where it is. -/
theorem Walked.remove (h : Walked p conn done (ent :: rest) conn₁) (hp : p ent = true) :
    ∃ conn₂, rtbOnAcked conn₁ ent = (.ok (), conn₂) ∧ Walked p conn (done ++ [ent]) rest conn₂ := by
  have hkeep : (done ++ [ent]).filter (fun ent => !p ent) = done.filter fun ent => !p ent := by
    simp [List.filter_append, hp]
  have hdrop : (done ++ [ent]).filter p = done.filter p ++ [ent] := by simp [List.filter_append, hp]
  -- The application is told, which leaves the buffer alone.
  have hcalls : ∃ conn₂, (if (conn₁.tell (.pktAcked ent.hd.pktNum ent.frc)).callbacks.ackedStreamDataOffset then
      callAckedStreamOffset ent.frc (conn₁.tell (.pktAcked ent.hd.pktNum ent.frc))
      else (.ok (), conn₁.tell (.pktAcked ent.hd.pktNum ent.frc))) = (.ok (),
        conn₂) ∧ SameRtb conn₁ conn₂ := by
    have htell : SameRtb conn₁ (conn₁.tell (.pktAcked ent.hd.pktNum ent.frc)) := {}
    split
    · obtain ⟨conn₂, hrun, hsame⟩ :=
        callAckedStreamOffset_succeeds (htell.succeed h.succeed) ent.frc
      exact ⟨conn₂, hrun, htell.trans hsame⟩
    · exact ⟨_, rfl, htell⟩
  obtain ⟨conn₂, hrun, hsame⟩ := hcalls
  unfold rtbOnAcked
  dsimp only
  rw [hrun, andThen_ok, hsame.rtb]
  have hinv : RtbInv { conn₁.rtb with largestAcked := max conn₁.rtb.largestAcked ent.hd.pktNum } :=
    ⟨h.inv.perm, h.inv.nodup, h.inv.bytes⟩
  have hmem : ent ∈ conn₁.rtb.head := by rw [h.head]; simp
  obtain ⟨rtb', hremove, hunlinked⟩ := hinv.remove hmem
  rw [hremove]
  have hfields : rtb'.head = unlink ent.addr conn₁.rtb.head ∧ ent.pktlen ≤ conn₁.rtb.bytesInFlight ∧
      rtb'.bytesInFlight = conn₁.rtb.bytesInFlight - ent.pktlen ∧
      rtb'.largestAcked = max conn₁.rtb.largestAcked ent.hd.pktNum := by
    unfold rtbRemove at hremove
    split at hremove
    · cases hremove
    split at hremove
    · next hle =>
      obtain rfl := Option.some.inj hremove
      exact ⟨rfl, hle, rfl, rfl⟩
    · cases hremove
  obtain ⟨hhead, hle, hbytes, hlargest⟩ := hfields
  refine ⟨_, rfl, ?_, hunlinked.inv, hsame.succeed h.succeed, ?_, ?_, ?_⟩
  · rw [h.split, List.append_assoc, List.singleton_append]
  · have hnodup := h.inv.nodup
    rw [h.head] at hnodup
    change rtb'.head = _
    rw [hhead, h.head, unlink_middle hnodup, hkeep]
  · change rtb'.bytesInFlight + _ = _
    have hprev := h.bytes
    rw [hdrop, List.map_append, List.sum_append, hbytes]
    simp only [List.map_cons, List.map_nil, List.sum_cons, List.sum_nil]
    omega
  · change rtb'.largestAcked = _
    rw [hlargest, hdrop, List.map_append, List.foldl_append, h.largest]
    rfl

/-- Entries that all stay. -/
theorem Walked.keepAll (h : Walked p conn done (ents ++ rest) conn₁)
    (hp : ∀ ent ∈ ents, p ent = false) :
    Walked p conn (done ++ ents) rest conn₁ := by
  induction ents generalizing done with
  | nil => rwa [List.append_nil]
  | cons ent ents ih =>
    have hnext := ih (h.keep (hp ent List.mem_cons_self)) fun e he =>
      hp e (List.mem_cons_of_mem _ he)
    rwa [List.append_assoc, List.singleton_append] at hnext

/-! ## The loops -/

/-- The packet numbers go down. -/
def EntsDescending (ents : List RtbEntry) : Prop := Descending (ents.map (·.hd.pktNum))

theorem EntsDescending.tail (h : EntsDescending (ent :: ents)) : EntsDescending ents :=
    (List.pairwise_cons.mp h).2

theorem EntsDescending.lt (h : EntsDescending (ent :: ents)) :
    ∀ e ∈ ents, e.hd.pktNum < ent.hd.pktNum :=
  fun _ he => (List.pairwise_cons.mp h).1 _ (List.mem_map_of_mem he)

/-- The loop over the first range stops below it. -/
theorem rtbRecvAckFirst_walked {minAck largestAck : Nat} (h : Walked p conn done ents conn₁)
    (hdesc : EntsDescending ents) (hle : ∀ ent ∈ ents, ent.hd.pktNum ≤ largestAck)
    (hp : ∀ ent ∈ ents, minAck ≤ ent.hd.pktNum → p ent = !(unprotected && !ent.unprotected)) :
    ∃ done' rest conn₂, rtbRecvAckFirst unprotected minAck largestAck ents conn₁ =
    (.ok rest, conn₂) ∧
      Walked p conn done' rest conn₂ ∧ rest <:+ ents ∧ ∀ ent ∈ rest, ent.hd.pktNum < minAck := by
  induction ents generalizing done conn₁ with
  | nil => exact ⟨done, [], conn₁, rfl, h, List.suffix_refl _, by simp⟩
  | cons ent ents ih =>
    have hle' : ∀ e ∈ ents, e.hd.pktNum ≤ largestAck :=
      fun e he => hle e (List.mem_cons_of_mem _ he)
    have hp' : ∀ e ∈ ents, minAck ≤ e.hd.pktNum → p e = !(unprotected && !e.unprotected) :=
      fun e he => hp e (List.mem_cons_of_mem _ he)
    rw [rtbRecvAckFirst]
    by_cases hrange : minAck ≤ ent.hd.pktNum ∧ ent.hd.pktNum ≤ largestAck
    · rw [if_pos hrange]
      have hent := hp ent List.mem_cons_self hrange.1
      by_cases hprotected : (unprotected && !ent.unprotected) = true
      · rw [if_pos hprotected]
        obtain ⟨done', rest, conn₂, hrun, hwalked, hsuffix, hbelow⟩ :=
          ih (h.keep (by rw [hent, hprotected]; rfl)) hdesc.tail hle' hp'
        exact ⟨done', rest, conn₂, hrun, hwalked, hsuffix.trans (List.suffix_cons ..), hbelow⟩
      · rw [if_neg hprotected]
        obtain ⟨conn₂, hack, hwalked⟩ :=
          h.remove (by rw [hent, Bool.eq_false_iff.mpr hprotected]; rfl)
        rw [hack, andThen_ok]
        obtain ⟨done', rest, conn₃, hrun, hwalked', hsuffix, hbelow⟩ :=
          ih hwalked hdesc.tail hle' hp'
        exact ⟨done', rest, conn₃, hrun, hwalked', hsuffix.trans (List.suffix_cons ..), hbelow⟩
    · rw [if_neg hrange]
      have hlt : ent.hd.pktNum < minAck := by
        have := hle ent List.mem_cons_self
        omega
      refine ⟨done, ent :: ents, conn₁, rfl, h, List.suffix_refl _, fun e he => ?_⟩
      rcases List.mem_cons.mp he with rfl | he
      · exact hlt
      · exact Nat.lt_trans (hdesc.lt e he) hlt

/-- The loop over a further range passes over what is above it and stops below it. -/
theorem rtbRecvAckBlk_walked {minAck largestAck : Nat} (h : Walked p conn done ents conn₁)
    (hdesc : EntsDescending ents)
    (habove : ∀ ent ∈ ents, largestAck < ent.hd.pktNum → p ent = false)
    (hp : ∀ ent ∈ ents, minAck ≤ ent.hd.pktNum → ent.hd.pktNum ≤ largestAck →
      p ent = !(unprotected && !ent.unprotected)) :
    ∃ done' rest conn₂, rtbRecvAckBlk unprotected minAck largestAck ents conn₁ = (.ok rest, conn₂) ∧
      Walked p conn done' rest conn₂ ∧ rest <:+ ents ∧ ∀ ent ∈ rest, ent.hd.pktNum < minAck := by
  induction ents generalizing done conn₁ with
  | nil => exact ⟨done, [], conn₁, rfl, h, List.suffix_refl _, by simp⟩
  | cons ent ents ih =>
    have habove' : ∀ e ∈ ents, largestAck < e.hd.pktNum → p e = false :=
      fun e he => habove e (List.mem_cons_of_mem _ he)
    have hp' : ∀ e ∈ ents, minAck ≤ e.hd.pktNum → e.hd.pktNum ≤ largestAck →
      p e = !(unprotected && !e.unprotected) :=
      fun e he => hp e (List.mem_cons_of_mem _ he)
    -- The loop goes on behind an entry that stays.
    have hkeep : p ent = false → ∃ done' rest conn₂,
        rtbRecvAckBlk unprotected minAck largestAck ents conn₁ = (.ok rest, conn₂) ∧
          Walked p conn done' rest conn₂ ∧
          rest <:+ ent :: ents ∧ ∀ e ∈ rest, e.hd.pktNum < minAck := by
      intro hstays
      obtain ⟨done', rest, conn₂, hrun, hwalked, hsuffix, hbelow⟩ :=
        ih (h.keep hstays) hdesc.tail habove' hp'
      exact ⟨done', rest, conn₂, hrun, hwalked, hsuffix.trans (List.suffix_cons ..), hbelow⟩
    rw [rtbRecvAckBlk]
    by_cases hnewer : largestAck < ent.hd.pktNum
    · rw [if_pos hnewer]
      exact hkeep (habove ent List.mem_cons_self hnewer)
    rw [if_neg hnewer]
    by_cases hlt : ent.hd.pktNum < minAck
    · rw [if_pos hlt]
      refine ⟨done, ent :: ents, conn₁, rfl, h, List.suffix_refl _, fun e he => ?_⟩
      rcases List.mem_cons.mp he with rfl | he
      · exact hlt
      · exact Nat.lt_trans (hdesc.lt e he) hlt
    rw [if_neg hlt]
    have hent := hp ent List.mem_cons_self (by omega) (by omega)
    by_cases hprotected : (unprotected && !ent.unprotected) = true
    · rw [if_pos hprotected]
      exact hkeep (by rw [hent, hprotected]; rfl)
    · rw [if_neg hprotected]
      obtain ⟨conn₂, hack, hwalked⟩ :=
        h.remove (by rw [hent, Bool.eq_false_iff.mpr hprotected]; rfl)
      rw [hack, andThen_ok]
      obtain ⟨done', rest, conn₃, hrun, hwalked', hsuffix, hbelow⟩ :=
        ih hwalked hdesc.tail habove' hp'
      exact ⟨done', rest, conn₃, hrun, hwalked', hsuffix.trans (List.suffix_cons ..), hbelow⟩

/-- The loop over the ranges of the frame, on entries below those that are done. -/
theorem rtbRecvAckBlks_walked {minAck : Nat} {blks : List AckBlk}
    (hvalid : validateAckBlks minAck blks = true)
    (hmin : minAck < 2 ^ 64) (h : Walked p conn done ents conn₁) (hdesc : EntsDescending ents)
    (hlt : ∀ ent ∈ ents, ent.hd.pktNum < minAck)
    (hp : ∀ ent ∈ ents, p ent = true ↔ InAckBlks minAck blks ent.hd.pktNum ∧
    (!(unprotected && !ent.unprotected)) = true) :
    ∃ conn₂, rtbRecvAckBlks unprotected minAck blks ents conn₁ = (.ok (), conn₂) ∧
    Walked p conn conn.rtb.head [] conn₂ := by
  have hend : ∀ {ents conn₁ done}, Walked p conn done ents conn₁ → (∀ ent ∈ ents, p ent = false) →
      Walked p conn conn.rtb.head [] conn₁ := by
    intro ents conn₁ done h hp
    have hall : Walked p conn (done ++ ents) [] conn₁ :=
      Walked.keepAll (by rwa [List.append_nil]) hp
    rwa [← h.split] at hall
  induction blks generalizing minAck ents done conn₁ with
  | nil =>
    refine ⟨conn₁, by rw [rtbRecvAckBlks], hend h fun ent hent => ?_⟩
    by_contra htrue
    exact ((hp ent hent).mp (by simpa using htrue)).1
  | cons blk blks ih =>
    cases ents with
    | nil => exact ⟨conn₁, rfl, hend h (by simp)⟩
    | cons ent ents =>
      obtain ⟨hgap, hlen, hrest⟩ := validateAckBlks_cons hvalid hmin
      have hcover := fun n => @inAckBlks_cons minAck n blk blks hvalid hmin
      have hbelow : ∀ n, InAckBlks (ackBlkRange minAck blk).1 blks n →
        n < (ackBlkRange minAck blk).1 :=
        fun n hn => inAckBlks_lt hrest (by omega) hn
      have habove : ∀ e ∈ ent :: ents, (ackBlkRange minAck blk).2 < e.hd.pktNum → p e = false := by
        intro e he habove
        by_contra htrue
        obtain ⟨hin, -⟩ := (hp e he).mp (by simpa using htrue)
        rcases (hcover e.hd.pktNum).mp hin with hrange | hin
        · omega
        · have := hbelow _ hin
          omega
      have hrange : ∀ e ∈ ent :: ents, (ackBlkRange minAck blk).1 ≤ e.hd.pktNum →
        e.hd.pktNum ≤ (ackBlkRange minAck blk).2 →
          p e = !(unprotected && !e.unprotected) := by
        intro e he hle hge
        rw [Bool.eq_iff_iff, hp e he, hcover]
        exact ⟨fun hboth => hboth.2, fun hvis => ⟨.inl ⟨hle, hge⟩, hvis⟩⟩
      obtain ⟨done', rest, conn₂, hrun, hwalked, hsuffix, hlow⟩ :=
        rtbRecvAckBlk_walked h hdesc habove hrange
      unfold rtbRecvAckBlks
      dsimp only
      rw [hrun, andThen_ok]
      refine ih hrest (by omega) hwalked (hdesc.sublist (hsuffix.sublist.map _)) hlow fun e he => ?_
      have := hlow e he
      rw [hp e (hsuffix.subset he), hcover]
      constructor
      · rintro ⟨hrange | hin, hvis⟩
        · omega
        · exact ⟨hin, hvis⟩
      · rintro ⟨hin, hvis⟩
        exact ⟨.inr hin, hvis⟩

/-- The loop that looks for the first entry that is not newer than the frame. -/
theorem dropNewer_le {largestAck : Nat} (hdesc : EntsDescending ents) :
    ∀ ent ∈ ents.dropWhile (fun ent => largestAck < ent.hd.pktNum), ent.hd.pktNum ≤ largestAck := by
  induction ents with
  | nil => simp
  | cons ent ents ih =>
    by_cases hnewer : largestAck < ent.hd.pktNum
    · rw [List.dropWhile_cons_of_pos (by simpa using hnewer)]
      exact ih hdesc.tail
    · rw [List.dropWhile_cons_of_neg (by simpa using hnewer)]
      intro e he
      rcases List.mem_cons.mp he with rfl | he
      · omega
      · have := hdesc.lt e he
        omega

/-- An ACK frame that is valid removes the entries that it acknowledges, keeps the others in their order, and
updates the bytes in flight and the largest acknowledged packet number. -/
theorem rtbRecvAck_removes (hinv : RtbInv conn.rtb) (hdesc : EntsDescending conn.rtb.head)
    (hwf : fr.Wf)
    (hcall : CallbacksSucceed conn) :
    ∃ conn', ngtcp2RtbRecvAck conn fr unprotected = (.ok (), conn') ∧ RtbInv conn'.rtb ∧
      conn'.rtb.head = conn.rtb.head.filter (fun ent => !acked fr unprotected ent) ∧
      conn'.rtb.bytesInFlight + ((conn.rtb.head.filter (acked fr unprotected)).map (·.pktlen)).sum =
        conn.rtb.bytesInFlight ∧
      conn'.rtb.largestAcked =
        ((conn.rtb.head.filter (acked fr unprotected)).map (·.hd.pktNum)).foldl max conn.rtb.largestAcked := by
  obtain ⟨hsub, hle, hvalid⟩ := hwf.first
  have hmin : subU64 fr.largestAck fr.firstAckBlklen < 2 ^ 64 := by
    have := hwf.largest
    omega
  rw [← hsub] at hvalid
  have hin : ∀ n, InAckBlks (subU64 fr.largestAck fr.firstAckBlklen : Nat) fr.blks n →
      n < subU64 fr.largestAck fr.firstAckBlklen := fun n hn => inAckBlks_lt hvalid hmin hn
  have hsplit : conn.rtb.head =
    conn.rtb.head.takeWhile (fun ent => fr.largestAck < ent.hd.pktNum) ++
      conn.rtb.head.dropWhile fun ent => fr.largestAck < ent.hd.pktNum :=
        (List.takeWhile_append_dropWhile ..).symm
  have hstart := Walked.start (acked fr unprotected) hinv hcall
  rw [hsplit] at hstart
  have hskip := hstart.keepAll fun ent hent => by
    have hnewer : fr.largestAck < ent.hd.pktNum := by simpa using List.mem_takeWhile_imp hent
    have hnot : ¬fr.Covers ent.hd.pktNum := by
      rw [hwf.covers]
      rintro (hrange | hbelow)
      · omega
      · have := hin _ hbelow
        omega
    rw [acked, decide_eq_false hnot, Bool.false_and]
  have hdrop := hdesc.sublist
    ((List.dropWhile_sublist fun ent => decide (fr.largestAck < ent.hd.pktNum)).map _)
  have hrange : ∀ ent ∈ conn.rtb.head.dropWhile (fun ent => fr.largestAck < ent.hd.pktNum),
      subU64 fr.largestAck fr.firstAckBlklen ≤ ent.hd.pktNum →
        acked fr unprotected ent = !(unprotected && !ent.unprotected) := by
    intro ent hent hge
    have hcovers : fr.Covers ent.hd.pktNum :=
      hwf.covers.mpr (.inl ⟨hge, dropNewer_le hdesc ent hent⟩)
    rw [acked, decide_eq_true hcovers, Bool.true_and]
  obtain ⟨done, rest, conn₂, hfirst, hwalked, hsuffix, hlow⟩ :=
    rtbRecvAckFirst_walked hskip hdrop (dropNewer_le hdesc) hrange
  have hbelow : ∀ ent ∈ rest, acked fr unprotected ent = true ↔
      InAckBlks (subU64 fr.largestAck fr.firstAckBlklen : Nat) fr.blks ent.hd.pktNum ∧
        (!(unprotected && !ent.unprotected)) = true := by
    intro ent hent
    have := hlow ent hent
    rw [acked, Bool.and_eq_true, decide_eq_true_iff, hwf.covers]
    constructor
    · rintro ⟨hrange | hbelow, hvis⟩
      · omega
      · exact ⟨hbelow, hvis⟩
    · rintro ⟨hbelow, hvis⟩
      exact ⟨.inr hbelow, hvis⟩
  obtain ⟨conn', hblks, hend⟩ :=
    rtbRecvAckBlks_walked hvalid hmin hwalked (hdrop.sublist (hsuffix.sublist.map _)) hlow hbelow
  refine ⟨conn', ?_, hend.inv, ?_, hend.bytes, hend.largest⟩
  · unfold ngtcp2RtbRecvAck
    dsimp only
    rw [hfirst, andThen_ok, hblks]
  · rw [hend.head, List.append_nil]

end

/-- A buffer with packets 7 and 9 of 40 and 50 bytes. -/
def twoPkts : Rtb :=
  rtbAdd (rtbAdd rtbInit (rtbEntryNew 1 (pktHdInit false .pkt01 1 7 1) [] 10 20 40 false))
    (rtbEntryNew 2 (pktHdInit false .pkt01 1 9 1) [] 10 20 50 false)

/-- Packet 9 is acknowledged. -/
theorem rtbRecvAck_removes_two :
    ∃ conn', ngtcp2RtbRecvAck (handshakeServer.setRtb twoPkts) ⟨9, 0, 0, []⟩ false =
    (.ok (), conn') ∧ RtbInv conn'.rtb ∧
      conn'.rtb.head = twoPkts.head.filter (fun ent => !acked ⟨9, 0, 0, []⟩ false ent) ∧
      conn'.rtb.bytesInFlight + ((twoPkts.head.filter (acked ⟨9, 0, 0, []⟩ false)).map (·.pktlen)).sum =
        twoPkts.bytesInFlight ∧
      conn'.rtb.largestAcked =
        ((twoPkts.head.filter (acked ⟨9, 0, 0, []⟩ false)).map (·.hd.pktNum)).foldl max twoPkts.largestAcked :=
  have hinv : RtbInv twoPkts := (rtbInit_inv.add (by decide)).add (by decide)
  have hdesc : EntsDescending twoPkts.head := by unfold EntsDescending Descending; decide
  @rtbRecvAck_removes (handshakeServer.setRtb twoPkts) _ _ hinv hdesc ⟨by decide, by decide⟩ fun _ _ => rfl

example : (ngtcp2RtbRecvAck (handshakeServer.setRtb twoPkts) ⟨9, 0, 0,
  []⟩ false).2.rtb.bytesInFlight = 40 := by decide

end Ngtcp2
