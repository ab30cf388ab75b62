import Polygon.OpChanges

/-!
# What the packet writers change

The kinds of changes that retransmission, the handshake, the queue and the streams make
when packets are written.
-/
namespace Ngtcp2

section
variable {H : List Frame} {K : List Kind} {conn conn₁ conn' : Conn} {destlen ts : Nat}

theorem SameEntries.symm (h : SameEntries conn conn') : SameEntries conn' conn :=
  ⟨h.rtb.symm, h.earlyRtb.symm, h.nextAddr.symm⟩

theorem Logs.sameEntries {hds : List PktHd} (h : Logs hds conn conn') : SameEntries conn conn' := by
  obtain ⟨_, _, _, _, _, _, rfl⟩ := h
  constructor <;> rfl

/-! ## Frames -/

/-- Where the books are kept every frame is held, or cancelled, or obsolete. -/
theorem Accounts.keepsFrames {created cancelled : List Frame} {dropped : List (List Frame)}
    (h : Accounts conn conn' created cancelled dropped) : KeepsFrames conn conn' := by
  intro fr hfr
  have hmem := h.perm.symm.subset (List.mem_append_left created hfr)
  rcases List.mem_append.mp hmem with hmem | hmem
  · rcases List.mem_append.mp hmem with hmem | hmem
    · exact .inl hmem
    · exact .inr (.inl (h.cancelled fr hmem))
  · obtain ⟨frc, hfrc, hmem⟩ := List.mem_flatten.mp hmem
    exact .inr (.inr ⟨frc, h.dropped.subset hfrc, hmem⟩)

/-- The books know no new frames of application streams. -/
theorem Accounts.streamFramesIn {created cancelled : List Frame} {dropped : List (List Frame)}
    (h : Accounts conn conn' created cancelled dropped) (hsub : StreamFramesIn H (held conn)) :
    StreamFramesIn H (held conn') := by
  intro fr hid hfr
  have hmem := h.perm.subset (List.mem_append_left _ (List.mem_append_left _ hfr))
  rcases List.mem_append.mp hmem with hmem | hmem
  · exact hsub fr hid hmem
  · have hc := h.created _ hmem
    exact absurd (by simpa [Frame.creatable] using hc) hid

theorem StreamFramesIn.of_held (hsub : StreamFramesIn H (held conn))
    (heq : held conn' = held conn) :
    StreamFramesIn H (held conn') := by
  rw [heq]
  exact hsub

/-! ## Retransmission -/

/-- An entry that went out, and those that stayed. -/
theorem EntriesOk.popped {ent : RtbEntry} {rtb : Rtb} (hok : EntriesOk conn)
    (hinv : RtbInv conn.rtb)
    (h : Popped ts conn ent rtb) : EntryOk ent ∧ ∀ e ∈ rtb.head ++ conn.earlyRtb, EntryOk e := by
  have hun := h.unlinked hinv
  refine ⟨hok ent (List.mem_append_left _ (hun.perm.subset List.mem_cons_self)), fun e he => ?_⟩
  exact hok e ((hun.sublist.append_right _).subset he)

theorem EntriesOk.cons {ent : RtbEntry} {rtb : Rtb} (hent : EntryOk ent)
    (hrest : ∀ e ∈ rtb.head ++ conn.earlyRtb, EntryOk e) :
    EntriesOk (conn.setRtb (rtbAdd rtb ent)) := by
  intro e he
  rcases List.mem_cons.mp he with rfl | he
  · exact hent
  · exact hrest e he

/-- What happens to a lost entry is no reason not to send it again. -/
theorem RetransmitEnd.entriesOk {r : Except Err (Option Pkt)} (hinv : RtbInv conn.rtb)
    (h : RetransmitEnd destlen ts conn r conn') (hr : ¬Fatal r) (hok : EntriesOk conn) :
    EntriesOk conn' := by
  cases h with
  | idle later => exact hok
  | refused popped why => exact (hok.popped hinv popped).2
  | failed popped alive call fatal => exact absurd ⟨_, rfl, fatal⟩ hr
  | noBuf popped alive resent =>
    obtain ⟨hent, hrest⟩ := hok.popped hinv popped
    cases resent with
    | noBuf rest gone perm cancelled =>
      refine EntriesOk.cons (hent.of_subset hent.known rfl rfl fun fr hfr => ?_) hrest
      exact perm.symm.subset (List.mem_append_left _ hfr)
  | @sent ent ent' rtb conn₁ pkt popped alive resent =>
    obtain ⟨hent, hrest⟩ := hok.popped hinv popped
    cases resent with
    | whole gone logs perm cancelled addr flag backoff tracks next =>
      obtain ⟨_, _, _, _, _, _, rfl⟩ := logs
      have hent' : EntryOk ent' := by
        refine hent.of_subset ?_ ?_ flag fun fr hfr => perm.symm.subset (List.mem_append_left _ hfr)
        · rw [tracks.hd]
          exact next.known hent.known
        · rw [tracks.hd]
          exact next.longForm
      exact EntriesOk.cons ⟨hent'.known, hent'.unprotected, hent'.handshake⟩ hrest
    | part new rest gone logs perm cancelled addr flag backoff tracks next left =>
      obtain ⟨_, _, _, _, _, _, rfl⟩ := logs
      have hsub : new.frc ++ rest ⊆ ent.frc :=
        fun fr hfr => perm.symm.subset (List.mem_append_left _ hfr)
      have hnew : EntryOk new := by
        refine hent.of_subset ?_ ?_ (flag.trans hent.unprotected.symm) fun fr hfr =>
          hsub (List.mem_append_left _ hfr)
        · rw [tracks.hd]
          exact next.known hent.known
        · rw [tracks.hd]
          exact next.longForm
      have hold : EntryOk { ent with frc := rest, pktlen := pkt.len } :=
        hent.of_subset hent.known rfl rfl fun fr hfr => hsub (List.mem_append_right _ hfr)
      refine EntriesOk.cons hold fun e he => ?_
      rcases List.mem_cons.mp he with rfl | he
      · exact hnew
      · exact hrest e he

/-- Only the buffer, its addresses and the packet number change, and something is logged. -/
theorem RetransmitEnd.shape {r : Except Err (Option Pkt)}
    (h : RetransmitEnd destlen ts conn r conn')
    (hr : ¬Fatal r) : ∃ rtb nextAddr lastTxPktNum hds, Logs hds
    { conn with rtb, nextAddr, lastTxPktNum } conn' := by
  cases h with
  | idle later => exact ⟨conn.rtb, conn.nextAddr, conn.lastTxPktNum, [], .refl _⟩
  | @refused ent rtb e popped why => exact ⟨rtb, conn.nextAddr, conn.lastTxPktNum, [], .refl _⟩
  | failed popped alive call fatal => exact absurd ⟨_, rfl, fatal⟩ hr
  | @noBuf ent ent' rtb conn₁ popped alive resent =>
    cases resent with
    | noBuf rest gone perm cancelled =>
      exact ⟨rtbAdd rtb { ent with frc := rest }, conn.nextAddr, conn.lastTxPktNum, [], .refl _⟩
  | @sent ent ent' rtb conn₁ pkt popped alive resent =>
    cases resent with
    | whole gone logs perm cancelled addr flag backoff tracks next =>
      obtain ⟨evs, a, n, i, hn, hs, rfl⟩ := logs
      exact ⟨rtbAdd rtb { ent' with pktlen := pkt.len }, conn.nextAddr, conn.nextPktNum, _, evs, a,
        n, i, hn, hs, rfl⟩
    | part new rest gone logs perm cancelled addr flag backoff tracks next left =>
      obtain ⟨evs, a, n, i, hn, hs, rfl⟩ := logs
      exact ⟨rtbAdd (rtbAdd rtb new) { ent with frc := rest, pktlen := pkt.len }, conn.nextAddr + 1,
        conn.nextPktNum, _, evs, a, n, i, hn, hs, rfl⟩

/-- The kinds of changes of a retransmission that loses no packet to its deadline. -/
def resendKinds : List Kind := [.pkts, .idle, .timer, .encrypt]

/-- A packet that is too old is lost, which can be told from the error. -/
def MayLose (K : List Kind) (conn : Conn) (r : Except Err (Option Pkt)) : Prop :=
  .timeout ∈ K ∨ (EntriesOk conn ∧ r ≠ .error .pktTimeout)

theorem GaveUp.changes {ents : List RtbEntry} (h : GaveUp ts conn ents conn')
    (hinv : EntriesInv conn)
    (hsub : StreamFramesIn H (held conn)) : Changes H resendKinds conn conn' := by
  obtain ⟨hinv', cancelled, dropped, hsettled⟩ := h.settled hinv
  obtain ⟨rtb, rfl, hrtb, hperm, hsublist, -⟩ := h.spec hinv.rtb
  have hchange : Change H .pkts conn { conn with
      rtb, earlyRtb := conn.earlyRtb, nextAddr := conn.nextAddr, lastTxPktNum :=
        conn.lastTxPktNum } :=
    .pkts hinv' (fun hok ent hent => hok ent ((hsublist.append_right _).subset hent))
      (hsettled.accounts.streamFramesIn hsub) hsettled.accounts.keepsFrames
  exact .one hchange (by simp [resendKinds])

theorem RetransmitEnd.changes {r : Except Err (Option Pkt)} (hinv : EntriesInv conn)
    (hsub : StreamFramesIn H (held conn)) (h : RetransmitEnd destlen ts conn r conn')
    (hr : ¬Fatal r)
    (hK : resendKinds ⊆ K) (hlose : MayLose K conn r) : Changes H K conn conn' := by
  by_cases hlost : (∃ v, r = .ok v) ∨ r = .error .noBuf
  · obtain ⟨⟨cancelled, hacc⟩, -⟩ := h.accounts hinv.rtb hlost
    have hinv' := h.entriesInv hinv hr
    have hok := h.entriesOk hinv.rtb hr
    have hsub' := hacc.streamFramesIn hsub
    have hkeeps := hacc.keepsFrames
    obtain ⟨rtb, nextAddr, lastTxPktNum, hds, hlogs⟩ := h.shape hr
    have hsame := hlogs.sameEntries.symm
    have hheld := hlogs.held
    have hchange : Change H .pkts conn { conn with rtb, earlyRtb := conn.earlyRtb, nextAddr, lastTxPktNum } := by
      refine .pkts (hsame.inv hinv') (fun hk => hsame.ok (hok hk))
        (hsub'.of_held hheld.symm) fun fr hfr => ?_
      rw [← hheld]
      exact hkeeps fr hfr
    refine .trans (.one hchange (hK (by simp [resendKinds])))
      (hlogs.changes (hK ?_) (hK ?_) fun _ => hK ?_) <;>
      simp [resendKinds]
  -- What is left is a packet that cannot be sent again.
  cases h with
  | idle later => exact absurd (.inl ⟨_, rfl⟩) hlost
  | @refused ent rtb e popped why =>
    rcases hlose with hk | ⟨hok, hne⟩
    · exact .one (.timeout (hinv.popped popped).1 (popped.unlinked hinv.rtb).sublist) hk
    · rcases why with ⟨rfl, -⟩ | ⟨rfl, hknown⟩
      · exact absurd rfl hne
      · have := (hok.popped hinv.rtb popped).1.known
        rw [hknown] at this
        cases this
  | failed popped alive call fatal => exact absurd ⟨_, rfl, fatal⟩ hr
  | noBuf popped alive resent => exact absurd (.inr rfl) hlost
  | sent popped alive resent => exact absurd (.inl ⟨_, rfl⟩) hlost

theorem connRetransmit_changes {r : Except Err (Option Pkt)} (hinv : EntriesInv conn)
    (hsub : StreamFramesIn H (held conn)) (h : connRetransmit conn destlen ts = (r, conn'))
    (hr : ¬Fatal r)
    (hK : resendKinds ⊆ K) (hlose : MayLose K conn r) : Changes H K conn conn' := by
  obtain ⟨ents, conn₁, hgave, hend⟩ := connRetransmit_cases hinv.rtb h
  obtain ⟨hinv₁, cancelled, dropped, hsettled⟩ := hgave.settled hinv
  have hch := hgave.changes hinv hsub
  refine (hch.mono hK).trans (hend.changes hinv₁ (hsettled.accounts.streamFramesIn hsub) hr hK ?_)
  refine hlose.imp_right fun ⟨hok, hne⟩ => ⟨?_, hne⟩
  exact hch.keeps EntriesOk (fun _ _ _ _ hP hc => hc.entriesOk hP) hok

/-! ## Handshake packets -/

theorem Logs.keyed {hds : List PktHd} (h : Logs hds conn conn') (hkeyed : StrmsKeyed conn) :
    StrmsKeyed conn' := by
  obtain ⟨_, _, _, _, _, _, rfl⟩ := h
  exact hkeyed

/-- Frames of the handshake are no frames of application streams. -/
theorem StreamFramesIn.append {frs frc : List Frame} (hsub : StreamFramesIn H frs)
    (hfrc : ∀ fr ∈ frc, fr.handshake = true) : StreamFramesIn H (frs ++ frc) := by
  intro fr hid hfr
  rcases List.mem_append.mp hfr with hfr | hfr
  · exact hsub fr hid hfr
  · exact absurd (by simpa [Frame.handshake] using hfrc _ hfr) hid

theorem StreamFramesIn.perm {frs frs' : List Frame} (hsub : StreamFramesIn H frs')
    (h : frs.Perm frs') :
    StreamFramesIn H frs := fun fr hid hfr => hsub fr hid (h.subset hfr)

/-- A new packet number, and what is taken as acknowledged. -/
theorem Change.renumber (hinv : EntriesInv conn) (hsub : StreamFramesIn H (held conn))
    (largestAcked lastTxPktNum : Nat) :
    Change H .pkts conn { conn with rtb := { conn.rtb with largestAcked }, lastTxPktNum } := by
  have hchange : Change H .pkts conn { conn with
      rtb := { conn.rtb with largestAcked }, earlyRtb := conn.earlyRtb, nextAddr :=
        conn.nextAddr, lastTxPktNum } :=
    .pkts ⟨⟨hinv.rtb.perm, hinv.rtb.nodup, hinv.rtb.bytes⟩, hinv.nodup,
      hinv.fresh⟩ id hsub fun fr hfr => .inl hfr
  exact hchange

theorem EntriesOk.addEntry {ent : RtbEntry} (hok : EntriesOk conn) (hent : EntryOk ent) :
    EntriesOk (conn.addEntry fun _ => ent).incLastTxPktNum := by
  intro e he
  rcases List.mem_cons.mp he with rfl | he
  · exact hent
  · exact hok e he

/-- The new entry of a packet is one of a packet that can be sent again. -/
theorem Sends.entriesOk {unprotected : Bool} {frc : List Frame} {pkt : Pkt}
    (h : Sends conn unprotected frc pkt conn')
    (hfrc : unprotected = true → ∀ fr ∈ frc, fr.handshake = true) (hok : EntriesOk conn) :
    EntriesOk conn' := by
  cases h with
  | untracked nil num frames logs => exact logs.sameEntries.ok hok
  | tracked ent frc_eq addr flag fresh num form known tracks logs =>
    refine logs.sameEntries.ok (hok.addEntry ⟨?_, ?_, fun hun => ?_⟩)
    · rw [tracks.hd]
      exact known
    · rw [flag, tracks.hd, form]
    · rw [frc_eq]
      exact hfrc (flag ▸ hun)

theorem Sends.shape {unprotected : Bool} {frc : List Frame} {pkt : Pkt}
    (h : Sends conn unprotected frc pkt conn') :
    ∃ rtb nextAddr, Logs [pkt.hd] { conn with rtb, nextAddr, lastTxPktNum := conn.nextPktNum } conn' := by
  cases h with
  | untracked nil num frames logs => exact ⟨conn.rtb, conn.nextAddr, logs⟩
  | tracked ent frc_eq addr flag fresh num form known tracks logs =>
    exact ⟨rtbAdd conn.rtb ent, conn.nextAddr + 1, logs⟩

/-- A packet with frames of the handshake goes out. -/
theorem Sends.changes {frc : List Frame} {pkt : Pkt} (h : Sends conn true frc pkt conn')
    (hfrc : ∀ fr ∈ frc, fr.handshake = true) (hinv : EntriesInv conn)
    (hsub : StreamFramesIn H (Ngtcp2.held conn)) :
    Changes H resendKinds conn conn' := by
  have hinv' := h.entriesInv hinv
  have hok := h.entriesOk fun _ => hfrc
  obtain ⟨hperm, -⟩ := h.held
  obtain ⟨rtb, nextAddr, hlogs⟩ := h.shape
  have hsame := hlogs.sameEntries.symm
  have hheld := hlogs.held
  have hchange : Change H .pkts conn { conn with
      rtb, earlyRtb := conn.earlyRtb, nextAddr, lastTxPktNum := conn.nextPktNum } := by
    refine .pkts (hsame.inv hinv') (fun hk => hsame.ok (hok hk))
      (.perm (hsub.append hfrc) ?_) fun fr hfr => .inl ?_
    · rw [← hheld]
      exact hperm
    · rw [← hheld]
      exact hperm.symm.subset (List.mem_append_left _ hfr)
  refine .trans (.one hchange (by simp [resendKinds]))
    (hlogs.changes ?_ ?_ fun _ => ?_) <;> simp [resendKinds]

/-- The kinds of changes of a handshake packet. -/
def hsKinds : List Kind := .hs :: resendKinds

theorem resendKinds_subset : resendKinds ⊆ hsKinds := by simp [hsKinds]

/-- What every writer needs of the connection. -/
structure Writable (H : List Frame) (conn : Conn) : Prop where
  inv : EntriesInv conn
  keyed : StrmsKeyed conn
  sub : StreamFramesIn H (held conn)

theorem Writable.logs {hds : List PktHd} (h : Writable H conn) (hlogs : Logs hds conn conn') :
    Writable H conn' :=
  ⟨hlogs.entriesInv h.inv, hlogs.keyed h.keyed, h.sub.of_held hlogs.held⟩

theorem setTxBuf0_changes (hw : Writable H conn) (payload : List UInt8) :
    Changes H hsKinds conn (setTxBuf0 conn payload) ∧ Writable H (setTxBuf0 conn payload) := by
  obtain ⟨hheld, hinv⟩ := setTxBuf0_held conn payload
  have hch : Changes H hsKinds conn (setTxBuf0 conn payload) := by
    unfold setTxBuf0
    split
    · exact .refl _
    · next strm0 hfind => exact .one (.refill hfind (hw.keyed _ _ hfind) payload) (by simp [hsKinds])
  exact ⟨hch, hinv hw.inv, hch.keyed hw.keyed, hw.sub.of_held hheld⟩

theorem setLastTxPktNum_changes (hw : Writable H conn) (lastTxPktNum : Nat) :
    Changes H hsKinds conn (conn.setLastTxPktNum lastTxPktNum) ∧
    Writable H (conn.setLastTxPktNum lastTxPktNum) := by
  have hone := Change.renumber hw.inv hw.sub conn.rtb.largestAcked lastTxPktNum
  exact ⟨.one hone (by simp [hsKinds, resendKinds]), hone.entriesInv hw.inv, hw.keyed, hw.sub⟩

theorem setInitialPktNum_changes (hw : Writable H conn) (lastTxPktNum : Nat) :
    Changes H hsKinds conn (setInitialPktNum conn lastTxPktNum) ∧
    Writable H (setInitialPktNum conn lastTxPktNum) := by
  have hone := Change.renumber hw.inv hw.sub lastTxPktNum lastTxPktNum
  exact ⟨.one hone (by simp [hsKinds, resendKinds]), hone.entriesInv hw.inv, hw.keyed, hw.sub⟩

theorem HsPrepared.changes (h : HsPrepared conn conn') (hw : Writable H conn) :
    Changes H hsKinds conn conn' ∧ Writable H conn' := by
  have htell : ∀ ev payload, ev.silent = true →
    Changes H hsKinds conn (setTxBuf0 (conn.tell ev) payload) ∧
      Writable H (setTxBuf0 (conn.tell ev) payload) := by
    intro ev payload hev
    have hidle := (Idle.tell conn hev).changes (H := H) (K := hsKinds)
      (by simp [hsKinds, resendKinds])
    have htold : Writable H (conn.tell ev) :=
      ⟨⟨hw.inv.rtb, hw.inv.nodup, hw.inv.fresh⟩, hw.keyed, hw.sub⟩
    obtain ⟨hch, hw'⟩ := setTxBuf0_changes htold payload
    exact ⟨hidle.trans hch, hw'⟩
  cases h with
  | buffered rest => exact ⟨.refl _, hw⟩
  | clientInitial state answer =>
    obtain ⟨hch, hw₁⟩ := htell .sendClientInitial _ rfl
    split
    · exact ⟨hch, hw₁⟩
    · obtain ⟨hch', hw₂⟩ := setLastTxPktNum_changes hw₁ _
      exact ⟨hch.trans hch', hw₂⟩
  | clientHandshake empty answer => exact htell .sendClientHandshake _ rfl
  | serverHandshake empty answer => exact htell .sendServerHandshake _ rfl
  | serverInitial empty first answer =>
    obtain ⟨hch, hw₁⟩ := htell .sendServerHandshake _ rfl
    obtain ⟨hch', hw₂⟩ := setInitialPktNum_changes hw₁ _
    exact ⟨hch.trans hch', hw₂⟩
  | serverRest rest first => exact setInitialPktNum_changes hw _

theorem HsAdvance.changes {frc : List Frame} (h : HsAdvance conn frc conn') (hw : Writable H conn) :
    Changes H hsKinds conn conn' ∧ Writable H conn' ∧ ∀ fr ∈ frc, fr.handshake = true := by
  cases h with
  | none => exact ⟨.refl _, hw, by simp⟩
  | some strm0 n find pos le =>
    have hch : Change H .hs conn _ := .advance find (hw.keyed _ _ find) n
    refine ⟨.one hch (by simp [hsKinds]), ⟨hch.entriesInv hw.inv, hch.keyed hw.keyed, hw.sub⟩,
      fun fr hfr => ?_⟩
    obtain rfl := List.mem_singleton.mp hfr
    rfl

theorem HsWritten.changes {r : Except Err Pkt} (h : HsWritten conn r conn') (hw : Writable H conn) :
    Changes H hsKinds conn conn' := by
  cases h with
  | noBuf adv quiet =>
    refine (adv.changes hw).1.trans
      (quiet.changes ?_ ?_ fun hne => absurd rfl hne) <;> simp [hsKinds, resendKinds]
  | sent adv close_eq sends =>
    obtain ⟨hch, hw₁, hfrc⟩ := adv.changes hw
    refine hch.trans ((sends.changes (fun fr hfr => ?_) hw₁.inv hw₁.sub).mono resendKinds_subset)
    rcases List.mem_append.mp hfr with hfr | hfr
    · exact hfrc fr hfr
    · rcases close_eq with rfl | rfl
      · simp at hfr
      · obtain rfl := List.mem_singleton.mp hfr
        rfl

theorem AckWritten.changes {r : Except Err (Option Pkt)} (h : AckWritten conn r conn')
    (hw : Writable H conn) :
    Changes H resendKinds conn conn' := by
  have hquiet : ∀ {hds} {conn conn' : Conn}, Logs hds conn conn' →
    Changes H resendKinds conn conn' := by
    intro hds conn conn' hlogs
    refine hlogs.changes ?_ ?_ fun _ => ?_ <;> simp [resendKinds]
  cases h with
  | nothing quiet => exact hquiet quiet
  | noBuf quiet => exact hquiet quiet
  | sent sends =>
    cases sends with
    | untracked nil num frames logs =>
      exact .trans (.one (Change.renumber hw.inv hw.sub conn.rtb.largestAcked conn.nextPktNum) (by simp [resendKinds]))
        (hquiet logs)
    | tracked ent frc_eq addr flag fresh num form known tracks logs =>
      exact absurd frc_eq tracks.nonempty

theorem HsCall.changes {r : Except Err (Option Pkt)} (h : HsCall conn r conn')
    (hw : Writable H conn) :
    Changes H hsKinds conn conn' := by
  cases h with
  | written prepared written =>
    obtain ⟨hch, hw₁⟩ := prepared.changes hw
    exact hch.trans (written.changes hw₁)
  | acked written => exact (written.changes hw).mono resendKinds_subset
  | failed quiet => refine quiet.changes ?_ ?_ fun hne => absurd rfl hne <;> simp [hsKinds, resendKinds]

/-! ## Protected packets -/

/-- Streams stay at their IDs, the entries stay, and no frame of an application stream appears. -/
theorem Writable.change {k : Kind} (hw : Writable H conn) (hch : Change H k conn conn')
    (hsub : StreamFramesIn H (held conn')) : Writable H conn' :=
  ⟨hch.entriesInv hw.inv, hch.keyed hw.keyed, hsub⟩

theorem StreamFramesIn.cons {fr : Frame} {frs : List Frame} (hsub : StreamFramesIn H frs)
    (hother : ∀ fr', fr ≠ .stream fr') : StreamFramesIn H (fr :: frs) := by
  intro fr' hid hfr
  rcases List.mem_cons.mp hfr with heq | hfr
  · exact absurd heq.symm (hother fr')
  · exact hsub fr' hid hfr

/-- The loop does not look at the list, which it takes as its argument. -/
theorem queueMaxStreamData_setFcStrms (ids : List Nat) (conn : Conn) (fcStrms : List Nat) :
    queueMaxStreamData ids (conn.setFcStrms fcStrms) = queueMaxStreamData ids conn := by
  induction ids generalizing conn with
  | nil => rfl
  | cons id ids ih =>
    have hstrms : (conn.setFcStrms fcStrms).strms id = conn.strms id := rfl
    rw [queueMaxStreamData, queueMaxStreamData, hstrms]
    split
    · rfl
    · next strm _ =>
      split
      · exact ih ((conn.setFrq (.maxStreamData ⟨strm.streamId, strm.unsentMaxRxOffset⟩ :: conn.frq)).setStrm
          ((strm.setMaxRxOffset strm.unsentMaxRxOffset).setOnFc false))
      · rfl

/-- The frames that announce credit to the peer are queued, and the list is used up. -/
theorem queueMaxStreamData_changes {ids : List Nat} (hw : Writable H conn)
    (hfc : conn.fcStrms = ids)
    (h : queueMaxStreamData ids conn = some conn') :
    Changes H [.announce, .idle] conn conn' ∧ Writable H conn' := by
  induction ids generalizing conn with
  | nil =>
    obtain rfl := Option.some.inj h
    have hidle : Idle conn (conn.setFcStrms []) := by
      constructor <;> first | rfl | exact id | exact hfc.symm | exact log_same _
    exact ⟨hidle.changes (by simp), ⟨hw.inv.rtb, hw.inv.nodup, hw.inv.fresh⟩, hw.keyed, hw.sub⟩
  | cons id ids ih =>
    simp only [queueMaxStreamData] at h
    split at h
    · simp at h
    next strm hfind =>
    split at h
    · have hid : strm.streamId = id := hw.keyed _ _ hfind
      have hfind' : conn.strms strm.streamId = some strm := by rw [hid, hfind]
      have hch : Change H .announce conn _ :=
        .announceStrm hfind' (hfc.trans (congrArg (· :: ids) hid.symm))
      rw [← queueMaxStreamData_setFcStrms ids _ ids] at h
      obtain ⟨hchs, hw'⟩ := ih (hw.change hch (StreamFramesIn.cons hw.sub (by simp))) rfl h
      exact ⟨.trans (.one hch (by simp)) hchs, hw'⟩
    · simp at h

theorem queueMaxData_changes (hw : Writable H conn) (ackfr : Option AckFrame) :
    Changes H [.announce, .idle] conn (queueMaxData conn ackfr) ∧
    Writable H (queueMaxData conn ackfr) := by
  rcases queueMaxData_cases conn ackfr with heq | ⟨hahead, heq⟩
  · rw [heq]
    exact ⟨.refl _, hw⟩
  · have hch : Change H .announce conn _ := .announce conn hahead
    rw [heq]
    exact ⟨.one hch (by simp), hw.change hch (StreamFramesIn.cons hw.sub (by simp))⟩

/-- Where no frame of the handshake is concerned, the entries stay those of packets that can be
sent again. -/
theorem PktWritten.entriesOk {r : Except Err (Option Pkt)} (h : PktWritten conn r conn')
    (hok : EntriesOk conn) :
    EntriesOk conn' := by
  have hfilled : ∀ {ppe w created cancelled conn₁} (frq : List Frame),
      FrqWritten conn ppe w created cancelled conn₁ → EntriesOk (conn₁.setFrq frq) := by
    intro ppe w created cancelled conn₁ frq hf
    obtain ⟨-, hrtb, hearly, hnext⟩ := hf.state_spec
    have hsame : SameEntries conn (conn₁.setFrq frq) := ⟨hrtb, hearly, hnext⟩
    exact hsame.ok hok
  cases h with
  | nothing => exact hok
  | noBuf quiet => exact quiet.sameEntries.ok hok
  | empty filled result => exact hfilled _ filled
  | sent filled sends => exact sends.entriesOk (by simp) (hfilled _ filled)

/-- The new IDs are told by a frame that is sent or stays in the queue. -/
theorem FrqWritten.announced {ppe : Ppe} {w : Written} {new cancelled : List Frame}
    {ids : StreamIds} {n : Nat}
    (h : FrqWritten conn ppe w new cancelled conn') (hids : IdsAnnounced ids n new) :
    IdsAnnounced ids n (w.done ++ w.rest) := by
  refine hids.imp_right fun ⟨hlt, hn, hmem⟩ => ⟨hlt, hn, ?_⟩
  rcases List.mem_append.mp (h.perm.symm.subset (List.mem_append_right _ hmem)) with hmem | hmem
  · exact hmem
  · exact absurd (h.cancelled _ hmem) (by simp [frqCancelled, stopSendingCancelled])

/-- What the packet, the queue and the credit are afterwards, and what is logged. -/
theorem PktWritten.shape {r : Except Err (Option Pkt)} (h : PktWritten conn r conn') :
    ∃ bidi uni frq rtb nextAddr lastTxPktNum hds,
      Logs hds (wrote conn bidi uni frq rtb nextAddr lastTxPktNum) conn' ∧
        IdsAnnounced conn.bidi bidi (held conn') ∧ IdsAnnounced conn.uni uni (held conn') := by
  cases h with
  | nothing =>
    exact ⟨conn.bidi.maxRemoteStreamId, conn.uni.maxRemoteStreamId, conn.frq, conn.rtb,
      conn.nextAddr,
      conn.lastTxPktNum, [], .refl _, .inl rfl, .inl rfl⟩
  | noBuf quiet =>
    exact ⟨conn.bidi.maxRemoteStreamId, conn.uni.maxRemoteStreamId, conn.frq, conn.rtb,
      conn.nextAddr,
      conn.lastTxPktNum, [], quiet, .inl rfl, .inl rfl⟩
  | @empty ppe w created cancelled conn₁ r filled result =>
    obtain ⟨bidi, uni, hbidi, huni, evs, a, n, i, hn, hs, rfl⟩ := filled.state
    refine ⟨bidi, uni, w.done ++ w.rest, conn.rtb, conn.nextAddr, conn.lastTxPktNum, [],
      ⟨evs, a, n, i, hn, hs, rfl⟩,
      (filled.announced hbidi).mono ?_, (filled.announced huni).mono ?_⟩ <;>
    exact List.subset_append_left _ _
  | @sent ppe w created cancelled conn₁ conn' pkt filled sends =>
    have hsub : w.done ++ w.rest ⊆ held conn' := by
      obtain ⟨hperm, -⟩ := sends.held
      intro fr hfr
      refine hperm.symm.subset ?_
      rcases List.mem_append.mp hfr with hfr | hfr
      · exact List.mem_append_right _ hfr
      · exact List.mem_append_left _ (List.mem_append_left _ hfr)
    obtain ⟨bidi, uni, hbidi, huni, hq⟩ := filled.state
    obtain ⟨rtb, nextAddr, hlogs⟩ := sends.shape
    have hq' : Quiet (wrote conn bidi uni w.rest rtb nextAddr conn.nextPktNum)
        { conn₁.setFrq w.rest with rtb, nextAddr, lastTxPktNum := conn₁.nextPktNum } := by
      obtain ⟨evs, a, n, i, hn, hs, rfl⟩ := hq
      exact ⟨evs, a, n, i, hn, hs, rfl⟩
    exact ⟨bidi, uni, w.rest, rtb, nextAddr, conn.nextPktNum, _, hq'.trans hlogs,
      (filled.announced hbidi).mono hsub,
      (filled.announced huni).mono hsub⟩

/-- The kinds of changes of a protected packet. -/
def pktKinds : List Kind := [.announce, .frq, .idle, .timer, .encrypt]

theorem PktWritten.changes {r : Except Err (Option Pkt)} (h : PktWritten conn r conn')
    (hw : Writable H conn) :
    Changes H pktKinds conn conn' := by
  obtain ⟨⟨created, cancelled, hperm, hcreated, hcancel⟩, -⟩ := h.accounts
  have hacc : Accounts conn conn' created cancelled [] :=
    ⟨by simpa using hperm, hcreated, fun fr hfr => .inr (hcancel fr hfr), List.nil_subperm⟩
  have hinv' := h.entriesInv hw.inv
  have hok := h.entriesOk
  have hsub := hacc.streamFramesIn hw.sub
  have hkeeps := hacc.keepsFrames
  obtain ⟨bidi, uni, frq, rtb, nextAddr, lastTxPktNum, hds, hlogs, hbidi, huni⟩ := h.shape
  have hsame := hlogs.sameEntries.symm
  have hheld := hlogs.held
  rw [hheld] at hbidi huni
  have hchange : Change H .frq conn (wrote conn bidi uni frq rtb nextAddr lastTxPktNum) := by
    refine .frq (hsame.inv hinv') (fun hk => hsame.ok (hok hk)) (hsub.of_held hheld.symm)
      (fun fr hfr => ?_) hbidi huni
    rw [← hheld]
    exact hkeeps fr hfr
  refine .trans (.one hchange (by simp [pktKinds]))
    (hlogs.changes ?_ ?_ fun _ => ?_) <;> simp [pktKinds]

/-- What `conn_write_pkt` does before it fills the packet. -/
theorem connWritePkt_split {r : Except Err (Option Pkt)} (hw : Writable H conn)
    (h : connWritePkt conn destlen ts = (r, conn')) (hr : ¬Fatal r) :
    ∃ conn₁, Changes H [.announce, .idle, .timer] conn conn₁ ∧ Writable H conn₁ ∧
    PktWritten conn₁ r conn' := by
  rcases connWritePkt_cases h with hfatal | ⟨conn₁, ackfr, conn₂, hq, hqueue, hwritten⟩
  · exact absurd hfatal hr
  have hquiet : Changes H [.announce, .idle, .timer] conn conn₁ := by
    refine hq.changes ?_ ?_ fun hne => absurd rfl hne <;> simp
  obtain ⟨hdata, hw₁⟩ := queueMaxData_changes (hw.logs hq) ackfr
  obtain ⟨hstreams, hw₂⟩ := queueMaxStreamData_changes hw₁ rfl hqueue
  exact ⟨conn₂, hquiet.trans ((hdata.mono (by simp)).trans (hstreams.mono (by simp))), hw₂,
    hwritten⟩

/-- The kinds of changes of `ngtcp2_conn_write_pkt`, but for packets lost to their deadline. -/
def writeKinds : List Kind := [.state, .hs, .pkts, .announce, .frq, .idle, .timer, .encrypt]

/-- The kinds of changes of `ngtcp2_conn_write_pkt` before it fills a protected packet. -/
def fillKinds : List Kind := [.state, .hs, .pkts, .announce, .idle, .timer, .encrypt]

theorem GoesOn.split {r : Except Err (Option Pkt)} (h : GoesOn destlen ts conn r conn')
    (hw : Writable H conn)
    (hr : ¬Fatal r) (hK : fillKinds ⊆ K) (hlose : MayLose K conn r) :
    Changes H K conn conn' ∨ ∃ conn₁, Changes H K conn conn₁ ∧ Writable H conn₁ ∧
    PktWritten conn₁ r conn' := by
  have hhs : hsKinds ⊆ K :=
    fun k hk => hK (by revert hk; cases k <;> simp [hsKinds, resendKinds, fillKinds])
  have hres : resendKinds ⊆ K := fun k hk => hhs (resendKinds_subset hk)
  have hstate : ∀ conn state, Changes H K conn (conn.setState state) := fun conn state =>
    .one (.state conn state) (hK (by simp [fillKinds]))
  have hquiet : ∀ {conn₁ conn₂ : Conn}, Quiet conn₁ conn₂ → Changes H K conn₁ conn₂ := by
    intro conn₁ conn₂ hq
    refine hq.changes (hK ?_) (hK ?_) fun hne => absurd rfl hne <;> simp [fillKinds]
  cases h with
  | handshake call state => exact .inl (((call.changes hw).mono hhs).trans (hstate _ state))
  | @early conn₁ conn' r quiet state call =>
    have hw₁ := hw.logs quiet
    have hinv₂ : EntriesInv (conn₁.setState .postHandshake) :=
      ⟨hw₁.inv.rtb, hw₁.inv.nodup, hw₁.inv.fresh⟩
    obtain ⟨hinv₃, hhead⟩ := connProcessEarlyRtb_spec hinv₂
    have hsettled := (connProcessEarlyRtb_settled hinv₂).accounts
    have hsub₂ : StreamFramesIn H (held (conn₁.setState .postHandshake)) := hw₁.sub
    have hsub₃ := hsettled.streamFramesIn hsub₂
    have hok : EntriesOk (conn₁.setState .postHandshake) →
        EntriesOk (connProcessEarlyRtb (conn₁.setState .postHandshake)) := by
      intro hok ent hent
      rw [hhead] at hent
      have hent : ent ∈ (conn₁.earlyRtb.map (earlyEntry conn₁.earlyDataRejected)).reverse ++ conn₁.rtb.head := by
        rcases List.mem_append.mp hent with hent | hent
        · exact hent
        · simp [connProcessEarlyRtb] at hent
      rcases List.mem_append.mp hent with hent | hent
      · obtain ⟨ent', hent', rfl⟩ := List.mem_map.mp (List.mem_reverse.mp hent)
        have := hok ent' (List.mem_append_right _ hent')
        unfold earlyEntry
        split
        · exact ⟨this.known, this.unprotected, this.handshake⟩
        · exact this
      · exact hok ent (List.mem_append_left _ hent)
    have hchange : Change H .pkts (conn₁.setState .postHandshake)
        (connProcessEarlyRtb (conn₁.setState .postHandshake)) :=
          .pkts hinv₃ hok hsub₃ hsettled.keepsFrames
    refine .inl ((hquiet quiet).trans ((hstate conn₁ _).trans (.trans (.one hchange (hK (by simp [fillKinds]))) ?_)))
    refine connRetransmit_changes hinv₃ hsub₃ call hr hres
      (hlose.imp_right fun ⟨hok₀, hne⟩ => ⟨hok ?_, hne⟩)
    exact quiet.sameEntries.ok hok₀
  | refused quiet => exact .inl ((hquiet quiet).trans (hstate _ _))
  | pkt state call =>
    obtain ⟨conn₁, hch, hw₁, hwritten⟩ := connWritePkt_split hw call hr
    exact .inr ⟨conn₁, hch.mono fun k hk => hK (by revert hk; cases k <;> simp [fillKinds]), hw₁,
      hwritten⟩
  | idle => exact .inl (.refl _)

theorem MayLose.next {r : Except Err (Option Pkt)} (h : MayLose K conn r)
    (hch : Changes H K conn conn₁) :
    MayLose K conn₁ r :=
  h.imp_right fun ⟨hok, hne⟩ => ⟨hch.keeps EntriesOk (fun _ _ _ _ hP hc => hc.entriesOk hP) hok,
    hne⟩

/-- Nothing was due: what is left is still well formed. -/
theorem connRetransmit_writable (hw : Writable H conn)
    (h : connRetransmit conn destlen ts = (.ok none, conn')) :
    Changes H resendKinds conn conn' ∧ Writable H conn' := by
  obtain ⟨ents, conn₁, hgave, hend⟩ := connRetransmit_cases hw.inv.rtb h
  obtain ⟨hinv₁, cancelled, dropped, hsettled⟩ := hgave.settled hw.inv
  have hch := hgave.changes hw.inv hw.sub
  cases hend with
  | idle later => exact ⟨hch, hinv₁, hch.keyed hw.keyed, hsettled.accounts.streamFramesIn hw.sub⟩

/-- `ngtcp2_conn_write_pkt` up to the point where it fills a protected packet from the queue. -/
theorem ngtcp2ConnWritePkt_split {r : Except Err (Option Pkt)} (hw : Writable H conn)
    (h : ngtcp2ConnWritePkt conn destlen ts = (r, conn')) (hr : ¬Fatal r) (hK : fillKinds ⊆ K)
    (hlose : MayLose K conn r) :
    Changes H K conn conn' ∨ ∃ conn₁, Changes H K conn conn₁ ∧ Writable H conn₁ ∧
    PktWritten conn₁ r conn' := by
  have hres : resendKinds ⊆ K :=
    fun k hk => hK (by revert hk; cases k <;> simp [resendKinds, fillKinds])
  rcases ngtcp2ConnWritePkt_cases h with hfatal | ⟨-, rfl⟩ | ⟨-, hcall⟩ | ⟨conn₁, hcall, hgoes⟩
  · exact absurd hfatal hr
  · exact .inl (.refl _)
  · exact .inl (connRetransmit_changes hw.inv hw.sub hcall hr hres hlose)
  · obtain ⟨hch, hw₁⟩ := connRetransmit_writable hw hcall
    have hch := hch.mono hres
    rcases hgoes.split hw₁ hr hK (hlose.next hch) with hrest | ⟨conn₂, hrest, hw₂, hwritten⟩
    · exact .inl (hch.trans hrest)
    · exact .inr ⟨conn₂, hch.trans hrest, hw₂, hwritten⟩

theorem ngtcp2ConnWritePkt_changes {r : Except Err (Option Pkt)} (hw : Writable H conn)
    (h : ngtcp2ConnWritePkt conn destlen ts = (r, conn')) (hr : ¬Fatal r) (hK : writeKinds ⊆ K)
    (hlose : MayLose K conn r) : Changes H K conn conn' := by
  have hfill : fillKinds ⊆ K :=
    fun k hk => hK (by revert hk; cases k <;> simp [fillKinds, writeKinds])
  rcases ngtcp2ConnWritePkt_split hw h hr hfill hlose with hch | ⟨conn₁, hch, hw₁, hwritten⟩
  · exact hch
  · exact hch.trans ((hwritten.changes hw₁).mono fun k hk => hK (by revert hk; cases k <;> simp [pktKinds, writeKinds]))

theorem ngtcp2ConnWriteAckPkt_changes {r : Except Err (Option Pkt)} (hw : Writable H conn)
    (h : ngtcp2ConnWriteAckPkt conn destlen ts = (r, conn')) (hr : ¬Fatal r) (hK : resendKinds ⊆ K)
    (hlose : MayLose K conn r) : Changes H K conn conn' := by
  rcases ngtcp2ConnWriteAckPkt_cases h with hfatal | ⟨-, rfl⟩ | ⟨-, hcall⟩
      | ⟨conn₁, hcall, hwritten⟩
  · exact absurd hfatal hr
  · exact .refl _
  · exact connRetransmit_changes hw.inv hw.sub hcall hr hK hlose
  · obtain ⟨hch, hw₁⟩ := connRetransmit_writable hw hcall
    exact (hch.trans (hwritten.changes hw₁)).mono hK

/-! ## Single frames and streams -/

theorem connWriteSingleFramePkt_changes {fr : Frame} {r : Except Err Pkt} (hw : Writable H conn)
    (h : connWriteSingleFramePkt conn destlen fr = (r, conn')) (hr : ¬Fatal r) :
    Changes H resendKinds conn conn' := by
  have hquiet : ∀ {hds} {conn conn' : Conn}, Logs hds conn conn' →
    Changes H resendKinds conn conn' := by
    intro hds conn conn' hlogs
    refine hlogs.changes ?_ ?_ fun _ => ?_ <;> simp [resendKinds]
  rcases connWriteSingleFramePkt_cases h with hfatal | ⟨-, hq⟩ | ⟨pkt, -, -, -, hlogs⟩
  · exact absurd hfatal hr
  · exact hquiet hq
  · exact .trans (.one (Change.renumber hw.inv hw.sub conn.rtb.largestAcked conn.nextPktNum) (by simp [resendKinds]))
      (hquiet hlogs)

/-- The kinds of changes of `ngtcp2_conn_write_stream`. -/
def streamTxKinds : List Kind := [.tx, .idle, .timer, .encrypt]

theorem ngtcp2ConnWriteStream_changes {streamId : Nat} {fin : Bool} {data : List UInt8}
    {r : Except Err (Pkt × Nat)} (hw : Writable H conn)
    (h : ngtcp2ConnWriteStream conn destlen streamId fin data ts = (r, conn')) (hr : ¬Fatal r) :
    Changes H streamTxKinds conn conn' := by
  have hquiet : ∀ {hds} {conn₁ : Conn}, Logs hds conn conn₁ →
    Changes H streamTxKinds conn conn₁ := by
    intro hds conn₁ hlogs
    refine hlogs.changes ?_ ?_ fun _ => ?_ <;> simp [streamTxKinds]
  rcases ngtcp2ConnWriteStream_cases h with hfatal | ⟨e, -, hq⟩
      | ⟨pkt, n, strm, fr, conn₁, -, hsent, -, hlogs, rfl⟩
  · exact absurd hfatal hr
  · exact hquiet hq
  refine (hquiet hlogs).trans (.one (k := .tx) ?_ (by simp [streamTxKinds]))
  have hid := hw.keyed _ _ hsent.find
  have hlen : fr.data.length = n := by
    rw [hsent.fr_eq]
    simp [hsent.le]
  obtain ⟨evs, a, i, m, hn, hs, rfl⟩ := hlogs
  refine .tx ?_ ?_ hsent.unshut ?_ ?_ ?_ ?_ hsent.form ts pkt.len
  · rw [hid]
    exact hsent.find
  · rw [hsent.fr_eq, hid]
  · rw [hsent.fr_eq]
  · rw [hlen]
    exact hsent.strmCredit
  · rw [hlen]
    exact hsent.connCredit
  · exact hsent.num

end

end Ngtcp2
