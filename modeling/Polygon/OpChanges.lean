import Polygon.RecvChanges

/-!
# What every step changes

Acknowledgements, the handshake, the packet writers and the application's calls: the
kinds of changes each step makes, and that no step makes others.
-/
namespace Ngtcp2

open Ranges

section
variable {H : List Frame} {K : List Kind} {conn conn₁ conn' : Conn} {strm : Strm}

/-! ## Acknowledgements -/

/-- The streams are told about the frames of an acknowledged packet. -/
theorem callAckedStreamOffset_changes {frc frc' : List Frame} {pktNum : Nat} {r : Except Err Unit}
    (hkeyed : StrmsKeyed conn) (hheld : ∀ fr ∈ frc, fr ∈ H)
    (hpkt : .pktAcked pktNum frc' ∈ conn.log)
    (hsub : frc ⊆ frc') (h : callAckedStreamOffset frc conn = (r, conn')) (hr : ¬Fatal r) :
    Changes H [.acked, .close, .idle] conn conn' := by
  induction frc generalizing conn with
  | nil =>
    obtain ⟨-, rfl⟩ := Prod.mk.inj h
    exact .refl _
  | cons fr frc ih =>
    have hheld' : ∀ fr ∈ frc, fr ∈ H := fun fr hfr => hheld fr (List.mem_cons_of_mem _ hfr)
    have hsub' : frc ⊆ frc' := fun fr hfr => hsub (List.mem_cons_of_mem _ hfr)
    cases fr with
    | stream fr =>
      simp only [callAckedStreamOffset] at h
      cases hs : conn.strms fr.streamId with
      | none =>
        simp only [hs] at h
        exact ih hkeyed hheld' hpkt hsub' h
      | some strm =>
        simp only [hs] at h
        have hid : strm.streamId = fr.streamId := hkeyed _ _ hs
        have hfind : conn.strms strm.streamId = some strm := by rw [hid, hs]
        have hacked : Changes H [.acked, .close, .idle] conn (conn.setStrm
            (strm.setAckedTxOffset (gaptrPush strm.ackedTxOffset fr.offset fr.data.length))) :=
          .one (.acked hfind hid.symm (hheld _ (List.mem_cons_self ..)) hpkt (hsub (List.mem_cons_self ..))) (by simp)
        have hfind₁ := setStrm_find conn
          (strm.setAckedTxOffset (gaptrPush strm.ackedTxOffset fr.offset fr.data.length))
        refine hacked.trans ?_
        generalize strm.setAckedTxOffset (gaptrPush strm.ackedTxOffset fr.offset fr.data.length) =
          strm₁ at h hacked hfind₁
        have hkeyed₁ := hkeyed.setStrm strm₁
        split at h
        · exact ih hkeyed₁ hheld' hpkt hsub' h
        have h := connCall_andThen h hr
        generalize hev : Event.ackedStreamDataOffset strm₁.streamId _ _ = ev at h
        have htell : Changes H [.acked, .close,
          .idle] (conn.setStrm strm₁) ((conn.setStrm strm₁).tell ev) :=
          (Idle.tell _ (by rw [← hev]; rfl)).changes (by simp)
        have hfind₂ : ((conn.setStrm strm₁).tell ev).strms strm₁.streamId = some strm₁ := hfind₁
        have hkeyed₂ : StrmsKeyed ((conn.setStrm strm₁).tell ev) := hkeyed₁
        refine htell.trans (Changes.andThen h hr (fun x conn₁ hx hne => ?_) fun x conn₁ hx h => ?_)
        · exact (ngtcp2ConnCloseStreamIfShutRdwr_changes hfind₂ hx hne).mono (by simp)
        · have hclose := ngtcp2ConnCloseStreamIfShutRdwr_changes (H := H) hfind₂ hx (not_fatal_ok _)
          exact ih (hclose.keyed hkeyed₂) hheld'
            (hclose.log.subset (List.mem_append_left _ hpkt)) hsub' h
    | _ => exact ih hkeyed hheld' hpkt hsub' h

/-- The kinds of changes that an ACK frame makes. -/
def ackKinds : List Kind := [.pktAcked, .acked, .close, .idle, .timer, .unlink]

/-- An acknowledged entry, which is one of the list. -/
theorem rtbOnAcked_changes {ent : RtbEntry} {r : Except Err Unit} (hkeyed : StrmsKeyed conn)
    (hinv : EntriesInv conn)
    (hmem : ent ∈ conn.rtb.head) (hheld : ∀ fr ∈ ent.frc, fr ∈ H)
    (h : rtbOnAcked conn ent = (r, conn'))
    (hr : ¬Fatal r) : Changes H ackKinds conn conn' ∧
    (r = .ok () → conn'.rtb.head = unlink ent.addr conn.rtb.head) := by
  unfold rtbOnAcked at h
  dsimp only at h
  have htell : Changes H ackKinds conn (conn.tell (.pktAcked ent.hd.pktNum ent.frc)) :=
    .one (.pktAcked conn ent.hd.pktNum hheld) (by simp [ackKinds])
  have hpkt : Event.pktAcked ent.hd.pktNum ent.frc ∈
    (conn.tell (.pktAcked ent.hd.pktNum ent.frc)).log :=
    List.mem_append_right _ (List.mem_singleton_self _)
  have hfirst : ∀ x conn₁, (if (conn.tell (.pktAcked ent.hd.pktNum ent.frc)).callbacks.ackedStreamDataOffset then
      callAckedStreamOffset ent.frc (conn.tell (.pktAcked ent.hd.pktNum ent.frc))
      else (.ok (), conn.tell (.pktAcked ent.hd.pktNum ent.frc))) = (x, conn₁) → ¬Fatal x →
      Changes H [.acked, .close, .idle] (conn.tell (.pktAcked ent.hd.pktNum ent.frc)) conn₁ := by
    intro x conn₁ hx hne
    split at hx
    · exact callAckedStreamOffset_changes (hkeyed.of_eq rfl) hheld hpkt (List.Subset.refl _) hx hne
    · obtain ⟨-, rfl⟩ := Prod.mk.inj hx
      exact .refl _
  rcases andThen_cases h with ⟨e, hx, rfl⟩ | ⟨x, conn₁, hx, h⟩
  · exact ⟨htell.trans ((hfirst _ _ hx hr).mono (by simp [ackKinds])), by simp⟩
  have hch := hfirst _ _ hx (not_fatal_ok _)
  have hsame : SameEntries conn conn₁ := by
    have := hch.sameEntries (by simp [Kind.packetless])
    exact ⟨this.rtb, this.earlyRtb, this.nextAddr⟩
  have hinv₁ := hsame.inv hinv
  have hmem₁ : ent ∈ conn₁.rtb.head := by rw [hsame.rtb]; exact hmem
  have hrtb : RtbInv { conn₁.rtb with largestAcked := max conn₁.rtb.largestAcked ent.hd.pktNum } :=
    ⟨hinv₁.rtb.perm, hinv₁.rtb.nodup, hinv₁.rtb.bytes⟩
  obtain ⟨rtb', hrem, hun⟩ := hrtb.remove hmem₁
  rw [hrem] at h
  obtain ⟨-, rfl⟩ := Prod.mk.inj h
  have hunlink : Change H .unlink conn₁ (conn₁.setRtb rtb') :=
    .unlink (hinv₁.of_sublist hun.inv hun.sublist) hun.sublist hun.perm (hch.log.subset hpkt)
  refine ⟨htell.trans ((hch.mono (by simp [ackKinds])).trans (.one hunlink (by simp [ackKinds]))),
    fun _ => ?_⟩
  change rtb'.head = _
  rw [← hsame.rtb]
  unfold rtbRemove at hrem
  split at hrem
  · simp at hrem
  split at hrem
  · obtain rfl := Option.some.inj hrem
    rfl
  · simp at hrem

/-- The entries that the loops over the list have not reached are still in it. -/
theorem unlink_sublist_of_cons {ent : RtbEntry} {ents head : List RtbEntry}
    (h : (ent :: ents).Sublist head)
    (hnodup : (addrs head).Nodup) : ents.Sublist (unlink ent.addr head) := by
  have hmem : ent ∈ head := h.subset (List.mem_cons_self ..)
  have hnot : ent.addr ∉ addrs ents := (List.nodup_cons.mp (hnodup.sublist (h.map _))).1
  induction head with
  | nil => simp at hmem
  | cons e es ih =>
    obtain ⟨hne, hes⟩ := List.nodup_cons.mp hnodup
    by_cases he : e.addr = ent.addr
    · have hself : unlink ent.addr (e :: es) = es := by simp [unlink, he]
      rw [hself]
      cases h with
      | cons _ h => exact (List.sublist_cons_self ent ents).trans h
      | cons_cons _ h => exact h
    · have hskip : unlink ent.addr (e :: es) = e :: unlink ent.addr es := by simp [unlink, he]
      rw [hskip]
      cases h with
      | cons _ h => exact (ih h hes (h.subset (List.mem_cons_self ..))).cons e
      | cons_cons _ h => exact absurd rfl he

/-- What the loops over the entries need of the connection, with the entries from the cursor on. -/
structure AckCursor (H : List Frame) (ents : List RtbEntry) (conn : Conn) : Prop where
  keyed : StrmsKeyed conn
  inv : EntriesInv conn
  sub : ents.Sublist conn.rtb.head
  held : ∀ ent ∈ conn.rtb.head, ∀ fr ∈ ent.frc, fr ∈ H

theorem AckCursor.tail {ent : RtbEntry} {ents : List RtbEntry}
    (h : AckCursor H (ent :: ents) conn) :
    AckCursor H ents conn := ⟨h.keyed, h.inv, (List.sublist_cons_self ent ents).trans h.sub, h.held⟩

theorem AckCursor.acked {ent : RtbEntry} {ents : List RtbEntry} {r : Except Err Unit}
    (h : AckCursor H (ent :: ents) conn)
    (hack : rtbOnAcked conn ent = (r, conn')) (hr : ¬Fatal r) :
    Changes H ackKinds conn conn' ∧ (r = .ok () → AckCursor H ents conn') := by
  have hmem : ent ∈ conn.rtb.head := h.sub.subset (List.mem_cons_self ..)
  obtain ⟨hch, hhead⟩ := rtbOnAcked_changes h.keyed h.inv hmem (h.held ent hmem) hack hr
  refine ⟨hch, fun hok => ⟨hch.keyed h.keyed, ?_, ?_, ?_⟩⟩
  · exact hch.keeps EntriesInv (fun _ _ _ _ hP hc => hc.entriesInv hP) h.inv
  · rw [hhead hok]
    exact unlink_sublist_of_cons h.sub h.inv.rtb.nodup
  · rw [hhead hok]
    exact fun e he => h.held e ((unlink_sublist _ _).subset he)

theorem rtbRecvAckFirst_changes {unprotected : Bool} {minAck largestAck : Nat}
    {ents : List RtbEntry}
    {r : Except Err (List RtbEntry)} (hcur : AckCursor H ents conn)
    (h : rtbRecvAckFirst unprotected minAck largestAck ents conn = (r, conn')) (hr : ¬Fatal r) :
    Changes H ackKinds conn conn' ∧ ∀ ents', r = .ok ents' → AckCursor H ents' conn' := by
  induction ents generalizing conn with
  | nil =>
    obtain ⟨rfl, rfl⟩ := Prod.mk.inj h
    refine ⟨.refl _, fun ents' he => ?_⟩
    obtain rfl := Except.ok.inj he
    exact hcur
  | cons ent ents ih =>
    unfold rtbRecvAckFirst at h
    split at h
    · split at h
      · exact ih hcur.tail h
      rcases andThen_cases h with ⟨e, hx, rfl⟩ | ⟨x, conn₁, hx, h⟩
      · exact ⟨(hcur.acked hx fun hc => hr hc.cast).1, by simp⟩
      · obtain ⟨hch, hcur'⟩ := hcur.acked hx (not_fatal_ok _)
        obtain ⟨hch', hend⟩ := ih (hcur' rfl) h
        exact ⟨hch.trans hch', hend⟩
    · obtain ⟨rfl, rfl⟩ := Prod.mk.inj h
      refine ⟨.refl _, fun ents' he => ?_⟩
      obtain rfl := Except.ok.inj he
      exact hcur

theorem rtbRecvAckBlk_changes {unprotected : Bool} {minAck largestAck : Nat} {ents : List RtbEntry}
    {r : Except Err (List RtbEntry)} (hcur : AckCursor H ents conn)
    (h : rtbRecvAckBlk unprotected minAck largestAck ents conn = (r, conn')) (hr : ¬Fatal r) :
    Changes H ackKinds conn conn' ∧ ∀ ents', r = .ok ents' → AckCursor H ents' conn' := by
  induction ents generalizing conn with
  | nil =>
    obtain ⟨rfl, rfl⟩ := Prod.mk.inj h
    refine ⟨.refl _, fun ents' he => ?_⟩
    obtain rfl := Except.ok.inj he
    exact hcur
  | cons ent ents ih =>
    unfold rtbRecvAckBlk at h
    split at h
    · exact ih hcur.tail h
    split at h
    · obtain ⟨rfl, rfl⟩ := Prod.mk.inj h
      refine ⟨.refl _, fun ents' he => ?_⟩
      obtain rfl := Except.ok.inj he
      exact hcur
    split at h
    · exact ih hcur.tail h
    rcases andThen_cases h with ⟨e, hx, rfl⟩ | ⟨x, conn₁, hx, h⟩
    · exact ⟨(hcur.acked hx fun hc => hr hc.cast).1, by simp⟩
    · obtain ⟨hch, hcur'⟩ := hcur.acked hx (not_fatal_ok _)
      obtain ⟨hch', hend⟩ := ih (hcur' rfl) h
      exact ⟨hch.trans hch', hend⟩

theorem rtbRecvAckBlks_changes {unprotected : Bool} {minAck : Nat} {blks : List AckBlk}
    {ents : List RtbEntry}
    {r : Except Err Unit} (hcur : AckCursor H ents conn)
    (h : rtbRecvAckBlks unprotected minAck blks ents conn = (r, conn')) (hr : ¬Fatal r) :
    Changes H ackKinds conn conn' := by
  induction blks generalizing minAck ents conn with
  | nil =>
    obtain ⟨-, rfl⟩ := Prod.mk.inj h
    exact .refl _
  | cons blk blks ih =>
    cases ents with
    | nil =>
      obtain ⟨-, rfl⟩ := Prod.mk.inj h
      exact .refl _
    | cons ent ents =>
      unfold rtbRecvAckBlks at h
      refine Changes.andThen h hr (fun x conn₁ hx hne => ?_) fun x conn₁ hx h => ?_
      · exact (rtbRecvAckBlk_changes hcur hx hne).1
      · exact ih ((rtbRecvAckBlk_changes hcur hx (not_fatal_ok _)).2 _ rfl) h

theorem connRecvAck_changes {fr : AckFrame} {unprotected : Bool} {r : Except Err Unit}
    (hkeyed : StrmsKeyed conn)
    (hinv : EntriesInv conn) (hheld : ∀ ent ∈ conn.rtb.head, ∀ fr ∈ ent.frc, fr ∈ H)
    (h : connRecvAck conn fr unprotected = (r, conn')) (hr : ¬Fatal r) :
    Changes H ackKinds conn conn' := by
  unfold connRecvAck at h
  split at h
  · have hacktr : Change H .timer conn (conn.setAcktr (acktrRecvAck conn.acktr fr unprotected)) :=
      .timer conn (fun hs => hs.sublist (acktrRecvAck_sublist _ _ _)) conn.nextAckExpiry conn.immediateAck
    refine .trans (.one hacktr (by simp [ackKinds])) ?_
    unfold ngtcp2RtbRecvAck at h
    have hcur : AckCursor H ((conn.setAcktr (acktrRecvAck conn.acktr fr unprotected)).rtb.head.dropWhile
        fun ent => fr.largestAck < ent.hd.pktNum) (conn.setAcktr
          (acktrRecvAck conn.acktr fr unprotected)) :=
      ⟨hkeyed.of_eq rfl, ⟨hinv.rtb, hinv.nodup, hinv.fresh⟩, List.dropWhile_sublist _, hheld⟩
    dsimp only at h
    refine Changes.andThen h hr (fun x conn₁ hx hne => ?_) fun x conn₁ hx h => ?_
    · exact (rtbRecvAckFirst_changes hcur hx hne).1
    · exact rtbRecvAckBlks_changes ((rtbRecvAckFirst_changes hcur hx (not_fatal_ok _)).2 _ rfl) h hr
  · obtain ⟨-, rfl⟩ := Prod.mk.inj h
    exact .refl _

/-! ## Frames of received packets -/

/-- A refused or ignored frame. -/
theorem Changes.of_same {r x : Except Err Unit} (h : (x, conn) = (r, conn')) :
    Changes H K conn conn' := by
  obtain ⟨-, rfl⟩ := Prod.mk.inj h
  exact .refl _

theorem connRecvPing_changes (conn : Conn) (data : List UInt8) :
    Changes H [.push] conn (connRecvPing conn data) := by
  unfold connRecvPing
  split
  · exact .refl _
  · exact .one (.push (by simp)) (by simp)

/-- The kinds of changes that each frame makes. -/
def Frame.recvKinds : Frame → List Kind
  | .ack _ => ackKinds
  | .stream _ => streamKinds
  | .rstStream _ => [.consume, .rx, .close, .idle]
  | .stopSending _ => [.consume, .rst, .close, .idle]
  | .maxStreamData _ => [.openRemote, .raise]
  | .maxData _ => [.raise]
  | .maxStreamId _ => [.raise, .idle]
  | .ping _ => [.push]
  | .connectionClose .. | .applicationClose .. => [.state]
  | _ => []

theorem connRecvPktFrame_changes {longForm : Bool} {fr : Frame} {r : Except Err Unit}
    (hkeyed : StrmsKeyed conn)
    (hinv : EntriesInv conn) (hheld : ∀ ent ∈ conn.rtb.head, ∀ fr ∈ ent.frc, fr ∈ H)
    (h : connRecvPktFrame longForm conn fr = (r, conn')) (hr : ¬Fatal r) :
    Changes H fr.recvKinds conn conn' := by
  cases fr with
  | ack fr => exact connRecvAck_changes hkeyed hinv hheld h hr
  | stream fr =>
    simp only [connRecvPktFrame] at h
    split at h
    · exact .of_same h
    · exact connRecvStream_changes hkeyed h hr
  | rstStream fr => exact connRecvRstStream_changes hkeyed h hr
  | stopSending fr => exact connRecvStopSending_changes hkeyed h hr
  | maxStreamData fr => exact connRecvMaxStreamData_changes hkeyed h
  | maxData maxData =>
    obtain ⟨-, rfl⟩ := Prod.mk.inj h
    exact .one (.raiseData conn maxData) (by simp [Frame.recvKinds])
  | maxStreamId maxStreamId => exact connRecvMaxStreamId_changes h hr
  | ping data =>
    obtain ⟨-, rfl⟩ := Prod.mk.inj h
    exact connRecvPing_changes conn data
  | pong data =>
    have h : connRecvPong conn data = (r, conn') := h
    unfold connRecvPong at h
    split at h <;> exact .of_same h
  | connectionClose =>
    obtain ⟨-, rfl⟩ := Prod.mk.inj h
    exact .one (.state conn .draining) (by simp [Frame.recvKinds])
  | applicationClose =>
    obtain ⟨-, rfl⟩ := Prod.mk.inj h
    exact .one (.state conn .draining) (by simp [Frame.recvKinds])
  | _ => exact .of_same h

def Frame.recvDelayedKinds : Frame → List Kind
  | .ack _ => ackKinds
  | .stream _ => streamKinds
  | _ => []

theorem connRecvDelayedHandshakeFrame_changes {type : PktType} {fr : Frame} {r : Except Err Unit}
    (hkeyed : StrmsKeyed conn) (hinv : EntriesInv conn)
    (hheld : ∀ ent ∈ conn.rtb.head, ∀ fr ∈ ent.frc, fr ∈ H)
    (h : connRecvDelayedHandshakeFrame type conn fr = (r, conn')) (hr : ¬Fatal r) :
    Changes H fr.recvDelayedKinds conn conn' := by
  cases fr with
  | ack fr =>
    simp only [connRecvDelayedHandshakeFrame] at h
    split at h
    · exact .of_same h
    · exact connRecvAck_changes hkeyed hinv hheld h hr
  | stream fr => exact connRecvStream_changes hkeyed h hr
  | _ => exact .of_same h

/-- A STREAM frame of a handshake packet. -/
theorem connRecvHandshakeStream_changes {type : PktType} {handshakeFailed : Bool} {fr : StreamFrame}
    {r : Except Err Bool} (hkeyed : StrmsKeyed conn)
    (h : connRecvHandshakeStream conn type handshakeFailed fr = (r, conn')) (hr : ¬Fatal r) :
    Changes H [.rx, .idle] conn conn' := by
  have hsame : ∀ {x : Except Err Bool}, (x, conn) = (r, conn') →
    Changes H [.rx, .idle] conn conn' := by
    intro x hx
    obtain ⟨-, rfl⟩ := Prod.mk.inj hx
    exact .refl _
  unfold connRecvHandshakeStream at h
  split at h
  · exact hsame h
  split at h
  · exact hsame h
  split at h
  · exact hsame h
  split at h
  · exact hsame h
  cases hs : conn.strms 0 with
  | none =>
    simp only [hs] at h
    exact hsame h
  | some strm0 =>
  simp only [hs] at h
  have hid : strm0.streamId = 0 := hkeyed _ _ hs
  have hfind : conn.strms strm0.streamId = some strm0 := by rw [hid, hs]
  split at h
  · exact hsame h
  have hset : ∀ strm, SameTx strm0 strm → strm.shutRd = strm0.shutRd → strm.onFc = strm0.onFc →
      Changes H [.rx, .idle] conn (conn.setStrm strm) :=
    fun strm tx zero onFc => .setStrm hfind tx (fun _ => zero) onFc (by simp)
  split at h
  · obtain ⟨-, rfl⟩ := Prod.mk.inj h
    exact hset _ (by constructor <;> rfl) rfl rfl
  split at h
  · rw [Conn.setStrm_setStrm conn (by rfl)] at h
    obtain ⟨res, conn₁, hcall⟩ :
      ∃ res conn₁, connCallRecvStream0Data (conn.setStrm ((strm0.setLastRxOffset
        (max strm0.lastRxOffset fr.endOffset)).setRob (robRemovePrefix (strm0.setLastRxOffset
          (max strm0.lastRxOffset fr.endOffset)).rob (strmRxOffset strm0 +
            (fr.data.drop (strmRxOffset strm0 - fr.offset)).length))))
        (fr.data.drop (strmRxOffset strm0 - fr.offset)) = (res, conn₁) := ⟨_, _, rfl⟩
    rw [hcall] at h
    obtain rfl := connCallRecvStream0Data_tell hcall
    generalize hstrm : (strm0.setLastRxOffset (max strm0.lastRxOffset fr.endOffset)).setRob _ =
      strm at h hcall
    have hsame₁ : SameTx strm0 strm := by
      rw [← hstrm]
      constructor <;> rfl
    have hshut : strm.shutRd = strm0.shutRd := by
      rw [← hstrm]
      rfl
    have honFc : strm.onFc = strm0.onFc := by
      rw [← hstrm]
      rfl
    have hid₁ : strm.streamId = 0 := hsame₁.streamId.trans hid
    have htold : Changes H [.rx, .idle] conn
        ((conn.setStrm strm).tell (.recvStream0Data (fr.data.drop (strmRxOffset strm0 - fr.offset)))) :=
      (hset strm hsame₁ hshut honFc).trans (.deliver0 (setStrm_find conn strm) hid₁ _ (by simp))
    generalize fr.data.drop (strmRxOffset strm0 - fr.offset) = data at h htold
    have hfind₁ : ((conn.setStrm strm).tell (.recvStream0Data data)).strms strm.streamId =
      some strm := setStrm_find conn strm
    have hcredit : Changes H [.rx,
      .idle] conn (((conn.setStrm strm).tell (.recvStream0Data data)).setStrm
        (strm.setUnsentMaxRxOffset (strm.unsentMaxRxOffset + data.length))) :=
      htold.trans (.setStrm hfind₁ (by constructor <;> rfl) (fun _ => rfl) rfl (by simp))
    cases res with
    | error e =>
      cases e with
      | tlsHandshake =>
        obtain ⟨-, rfl⟩ := Prod.mk.inj h
        exact hcredit
      | _ =>
        obtain ⟨-, rfl⟩ := Prod.mk.inj h
        exact htold
    | ok =>
      dsimp only at h
      split at h
      · obtain ⟨-, rfl⟩ := Prod.mk.inj h
        exact hcredit
      have hfind₂ := setStrm_find ((conn.setStrm strm).tell (.recvStream0Data data))
        (strm.setUnsentMaxRxOffset (strm.unsentMaxRxOffset + data.length))
      refine hcredit.trans (Changes.andThen h hr (fun a conn₂ ha hne => ?_) fun a conn₂ ha h => ?_)
      · exact (connEmitPendingStream0Data_changes _ hfind₂ hid₁ ha hne).1
      · obtain ⟨-, rfl⟩ := Prod.mk.inj h
        exact .refl _
  split at h
  · obtain ⟨-, rfl⟩ := Prod.mk.inj h
    exact hset _ (by constructor <;> rfl) rfl rfl
  · rw [Conn.setStrm_setStrm conn (by rfl)] at h
    obtain ⟨-, rfl⟩ := Prod.mk.inj h
    exact hset _ (by constructor <;> rfl) rfl rfl

/-- A handshake packet's STREAM frame is about stream 0. -/
def Frame.recvHandshakeKinds : Frame → List Kind
  | .ack _ => ackKinds
  | .stream _ => [.rx, .idle]
  | .connectionClose .. => [.state]
  | _ => []

theorem connRecvHandshakeFrame_changes {type : PktType} {handshakeFailed : Bool} {fr : Frame}
    {r : Except Err Bool}
    (hkeyed : StrmsKeyed conn) (hinv : EntriesInv conn)
    (hheld : ∀ ent ∈ conn.rtb.head, ∀ fr ∈ ent.frc, fr ∈ H)
    (h : connRecvHandshakeFrame type handshakeFailed conn fr = (r, conn')) (hr : ¬Fatal r) :
    Changes H fr.recvHandshakeKinds conn conn' := by
  have hsame : ∀ {x : Except Err Bool}, (x, conn) = (r, conn') →
    Changes H fr.recvHandshakeKinds conn conn' := by
    intro x hx
    obtain ⟨-, rfl⟩ := Prod.mk.inj hx
    exact .refl _
  cases fr with
  | ack fr =>
    simp only [connRecvHandshakeFrame] at h
    split at h
    · exact hsame h
    refine Changes.andThen h hr (fun a conn₁ ha hne => ?_) fun a conn₁ ha h => ?_
    · exact connRecvAck_changes hkeyed hinv hheld ha hne
    · obtain ⟨-, rfl⟩ := Prod.mk.inj h
      exact .refl _
  | padding =>
    simp only [connRecvHandshakeFrame] at h
    split at h <;> exact hsame h
  | stream fr => exact connRecvHandshakeStream_changes hkeyed h hr
  | connectionClose =>
    simp only [connRecvHandshakeFrame] at h
    split at h
    · obtain ⟨-, rfl⟩ := Prod.mk.inj h
      exact .one (.state conn .draining) (by simp [Frame.recvHandshakeKinds])
    · exact hsame h
  | _ => exact hsame h

/-! ## The ends of received packets -/

theorem ngtcp2ConnSchedAck_changes {pktNum ts : Nat} {activeAck unprotected : Bool}
    {r : Except Err Unit}
    (h : ngtcp2ConnSchedAck conn pktNum activeAck ts unprotected = (r, conn')) :
    Changes H [.timer] conn conn' := by
  unfold ngtcp2ConnSchedAck at h
  split at h
  · exact .of_same h
  · next acktr hadd =>
    have hsorted : conn.acktr.Sorted → acktr.Sorted := fun hs => acktrAdd_sorted hs hadd
    dsimp only at h
    split at h
    · obtain ⟨-, rfl⟩ := Prod.mk.inj h
      exact .one (.timer conn hsorted (ts + 25000) false) (by simp)
    · obtain ⟨-, rfl⟩ := Prod.mk.inj h
      exact .one (.timer conn hsorted conn.nextAckExpiry conn.immediateAck) (by simp)

theorem connRecvPktEnd_changes {pktNum ts : Nat} {requireAck unprotected : Bool}
    {r : Except Err Unit}
    (h : connRecvPktEnd conn pktNum requireAck unprotected ts = (r, conn')) :
    Changes H [.idle, .timer] conn conn' := by
  have hmax : Idle conn { conn with maxRxPktNum := max conn.maxRxPktNum pktNum } := by
    constructor <;> first | rfl | exact id | exact log_same _
  exact (hmax.changes (by simp)).trans ((ngtcp2ConnSchedAck_changes h).mono (by simp))

/-- The kinds of changes that a Retry packet makes. -/
def retryKinds : List Kind := [.idle, .timer, .state, .restart]

theorem connRecvServerStatelessRetry_changes {r : Except Err Unit}
    (h : connRecvServerStatelessRetry conn = (r, conn'))
    (hr : ¬Fatal r) : Changes H retryKinds conn conn' := by
  have h := connCall_andThen h hr
  obtain ⟨-, rfl⟩ := Prod.mk.inj h
  have hflag : Idle conn (({ conn with statelessRetry := true }).tell .recvServerStatelessRetry) := by
    have hlog : ∀ ev ∈ [Event.recvServerStatelessRetry], ev.silent = true := by
      simp [Event.silent, Event.neutral]
    constructor <;> first | rfl | exact id | exact ⟨_, hlog, rfl⟩
  refine (hflag.changes (by simp [retryKinds])).trans ?_
  generalize ({ conn with statelessRetry := true }).tell .recvServerStatelessRetry = conn₁
  refine .trans (.one (.restart conn₁) (by simp [retryKinds])) ?_
  generalize hconn : ({ conn₁ with lastTxPktNum := 0, rtb := rtbInit }.setStrm
    (strmInit 0 conn₁.localSettings.maxStreamData.toNat strm0MaxStreamData conn₁.mem)) = conn₂
  refine .trans (.one (.timer conn₂ (fun _ => acktrInit_sorted) conn₂.nextAckExpiry conn₂.immediateAck) (by simp [retryKinds])) ?_
  refine .trans (.one (.state _ .clientInitial) (by simp [retryKinds])) ?_
  have hlast : Idle ((conn₂.setAcktr acktrInit).setState .clientInitial)
      { (conn₂.setAcktr acktrInit).setState .clientInitial with maxRxPktNum := 0, connIdNegotiated := false } := by
    constructor <;> first | rfl | exact id | exact log_same _
  rw [← hconn] at hlast ⊢
  exact hlast.changes (by simp [retryKinds])

/-- The end of a handshake packet that passed the check of stream 0. -/
theorem handshakePktEnd_changes {type : PktType} {handshakeFailed requireAck : Bool}
    {pktNum ts : Nat}
    {r : Except Err Unit}
    (h : (if type = .retry then
        if handshakeFailed then (.error .proto, conn) else connRecvServerStatelessRetry conn
      else
        (ngtcp2ConnSchedAck conn pktNum requireAck ts true).andThen fun _ conn =>
        if handshakeFailed then (.error .tlsHandshake, conn) else (.ok (), conn)) = (r, conn'))
    (hr : ¬Fatal r) : Changes H retryKinds conn conn' := by
  split at h
  · split at h
    · exact .of_same h
    · exact connRecvServerStatelessRetry_changes h hr
  · refine Changes.andThen h hr (fun a conn₁ ha hne => ?_) fun a conn₁ ha h => ?_
    · exact (ngtcp2ConnSchedAck_changes ha).mono (by simp [retryKinds])
    · split at h <;> exact .of_same h

theorem connRecvHandshakePktEnd_changes {type : PktType} {handshakeFailed requireAck : Bool}
    {pktNum ts : Nat}
    {r : Except Err Unit} (h : connRecvHandshakePktEnd conn type handshakeFailed pktNum requireAck ts = (r, conn'))
    (hr : ¬Fatal r) : Changes H retryKinds conn conn' := by
  have hmax : Idle conn { conn with maxRxPktNum := max conn.maxRxPktNum pktNum } := by
    constructor <;> first | rfl | exact id | exact log_same _
  have hmax : Changes H retryKinds conn _ := hmax.changes (by simp [retryKinds])
  unfold connRecvHandshakePktEnd at h
  dsimp only at h
  split at h <;> split at h
  · exact .of_same h
  · exact hmax.trans (handshakePktEnd_changes h hr)
  · exact .of_same h
  · exact hmax.trans (handshakePktEnd_changes h hr)

theorem connHandshakeCompleted_changes {r : Except Err Unit}
    (h : connHandshakeCompleted conn = (r, conn'))
    (hr : ¬Fatal r) : Changes H [.idle] conn conn' := by
  have h := connCall_andThen h hr
  refine ((Idle.tell conn rfl : Idle conn (conn.tell .handshakeCompleted)).changes (by simp)).trans ?_
  have hextend : ∀ {conn : Conn} {n : Nat} {x : Except Err Unit} {conn₁ : Conn}, ¬Fatal x →
      (if 0 < n then connCallExtendMaxStreamId conn n else (.ok (), conn)) = (x, conn₁) →
      Changes H [.idle] conn conn₁ := by
    intro conn n x conn₁ hx hcall
    split at hcall
    · rcases connCall_cases conn (.extendMaxStreamId n) with hc | hc
      · obtain ⟨-, rfl⟩ := Prod.mk.inj (hc.symm.trans hcall)
        exact (Idle.tell conn rfl).changes (by simp)
      · obtain ⟨rfl, -⟩ := Prod.mk.inj (hc.symm.trans hcall)
        exact absurd ⟨_, rfl, rfl⟩ hx
    · exact .of_same hcall
  exact Changes.andThen h hr (fun a conn₁ ha hne => hextend hne ha) fun a conn₁ ha h => hextend hr h

theorem connRecvHandshakeDone_changes {state : ConnState} {rv r : Except Err Unit}
    (h : connRecvHandshakeDone state conn rv = (r, conn')) (hr : ¬Fatal r) :
    Changes H [.idle, .state] conn conn' := by
  have hstate : ∀ (conn : Conn) state, Changes H [.idle, .state] conn (conn.setState state) :=
    fun conn state => .one (.state conn state) (by simp)
  have hset : ∀ {x : Except Err Unit} {state : ConnState}, (x, conn.setState state) = (r, conn') →
      Changes H [.idle, .state] conn conn' := by
    intro x state heq
    obtain ⟨-, rfl⟩ := Prod.mk.inj heq
    exact hstate conn state
  -- The handshake is completed, and the state changes.
  have hdone : ∀ {f : Unit → Conn → Result Unit}, (connHandshakeCompleted conn).andThen f =
    (r, conn') →
      (∀ conn₁, ∃ x state, f () conn₁ = (x, conn₁.setState state)) →
        Changes H [.idle, .state] conn conn' := by
    intro f h hf
    refine Changes.andThen h hr (fun a conn₁ ha hne => ?_) fun a conn₁ ha h => ?_
    · exact (connHandshakeCompleted_changes ha hne).mono (by simp)
    · obtain ⟨x, state, hx⟩ := hf conn₁
      obtain ⟨-, rfl⟩ := Prod.mk.inj (hx.symm.trans h)
      exact hstate conn₁ state
  have hserver : ∀ conn₁ : Conn, ∃ x state,
    (if !(conn₁.setState .postHandshake).transportParamRecved then
      ((.error .requiredTransportParam, conn₁.setState .postHandshake) : Result Unit)
      else (.ok (), conn₁.setState .postHandshake)) = (x, conn₁.setState state) := by
    intro conn₁
    split
    · exact ⟨_, _, rfl⟩
    · exact ⟨_, _, rfl⟩
  unfold connRecvHandshakeDone at h
  split at h
  · split at h
    · exact hset h
    · exact .of_same h
    split at h
    · exact .of_same h
    · exact hdone h fun conn₁ => ⟨_, _, rfl⟩
  · split at h
    · exact hset h
    · exact .of_same h
    split at h
    · exact .of_same h
    split at h
    · exact .of_same h
    · exact hdone h hserver
  · split at h
    · exact hset h
    · exact .of_same h
    split at h
    · exact .of_same h
    split at h
    · exact .of_same h
    · exact hdone h hserver
  · exact .of_same h

theorem connOnStatelessReset_changes {r : Except Err Unit}
    (h : connOnStatelessReset conn = (r, conn')) :
    Changes H [.idle, .state] conn conn' := by
  refine .trans (.one (.state conn .draining) (by simp)) ?_
  rcases connCall_cases (conn.setState .draining) .recvStatelessReset with hc | hc <;>
  · obtain ⟨-, rfl⟩ := Prod.mk.inj (hc.symm.trans h)
    exact (Idle.tell _ rfl).changes (by simp)

end

end Ngtcp2
