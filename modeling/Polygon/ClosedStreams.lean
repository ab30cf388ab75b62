import Polygon.PacketExchange
import Polygon.StreamSource

/-!
# What a closed stream says about the other endpoint

A stream that is not reset is closed only when every byte of it was acknowledged. So the other
endpoint has then accepted all that was written to it.
-/
namespace Ngtcp2

open Ranges

/-- The byte of the stream was in a packet that is reported as acknowledged. -/
def AckedByte (id i : Nat) (conn : Conn) : Prop :=
  ∃ n frc fr, .pktAcked n frc ∈ conn.log ∧ .stream fr ∈ frc ∧ fr.streamId = id ∧
    fr.offset ≤ i ∧ i < fr.endOffset

/-- The tracker of the stream leaves out only such bytes, and a stream that was reset has its
RST_STREAM queued. -/
structure AckTracked (id : Nat) (conn : Conn) (strm : Strm) : Prop where
  ordered : Ordered 0 strm.ackedTxOffset
  lt_max : ∀ i, InGap strm.ackedTxOffset i → i < uint64Max
  acked : ∀ i < uint64Max, ¬InGap strm.ackedTxOffset i → AckedByte id i conn
  rst : strm.sentRst = true → .rstQueued id ∈ conn.log

/-- The stream is gone for good. Its `len` bytes were acknowledged, or it was reset. -/
structure ClosedAfter (id len : Nat) (conn : Conn) : Prop where
  gone : conn.strms id = none
  used : Used conn id
  acked : .rstQueued id ∈ conn.log ∨ ∀ i < len, AckedByte id i conn

/-- The stream up to its end, of which `len` bytes were written. -/
structure Closing (id len : Nat) (conn : Conn) : Prop where
  used : StrmsUsed conn
  live : ∀ strm, conn.strms id = some strm → AckTracked id conn strm
  closed : ∀ code, .streamClose id code ∈ conn.log → ClosedAfter id len conn

section
variable {H : List Frame} {K : List Kind} {k : Kind} {conn conn₀ conn' : Conn} {strm strm' : Strm}
  {id i len : Nat} {given : List UInt8} {ended : Bool} {ops : List Op} {op : Op}

theorem AckedByte.mono (h : AckedByte id i conn) (hlog : conn.log ⊆ conn'.log) :
    AckedByte id i conn' := by
  obtain ⟨n, frc, fr, hev, hmem⟩ := h
  exact ⟨n, frc, fr, hlog hev, hmem⟩

/-! ## The tracker of a stream -/

theorem AckTracked.keep (h : AckTracked id conn strm) (hlog : conn.log ⊆ conn'.log)
    (hacked : strm'.ackedTxOffset = strm.ackedTxOffset)
    (hrst : strm'.sentRst = true → strm.sentRst = true ∨ .rstQueued id ∈ conn'.log) :
    AckTracked id conn' strm' := by
  refine ⟨hacked ▸ h.ordered, hacked ▸ h.lt_max, fun i hi hgap => ?_, fun hs => ?_⟩
  · exact (h.acked i hi (hacked ▸ hgap)).mono hlog
  · rcases hrst hs with hs | hs
    · exact hlog (h.rst hs)
    · exact hs

theorem AckTracked.fresh (hacked : strm.ackedTxOffset = gapsInit) (hrst : strm.sentRst = false) :
    AckTracked id conn strm := by
  refine ⟨?_, fun i hgap => ?_, fun i hi hgap => ?_, fun hs => ?_⟩
  · rw [hacked]
    decide
  · rw [hacked] at hgap
    simpa [gapsInit] using hgap
  · rw [hacked] at hgap
    exact absurd (by simpa [gapsInit] using hi) hgap
  · rw [hrst] at hs
    cases hs

/-- The bytes of an acknowledged frame leave the gaps. -/
theorem AckTracked.push {fr : StreamFrame} {n : Nat} {frc : List Frame}
    (h : AckTracked id conn strm) (hid : fr.streamId = id) (hev : .pktAcked n frc ∈ conn.log)
    (hmem : .stream fr ∈ frc) (hlog : conn'.log = conn.log) :
    AckTracked id conn'
      (strm.setAckedTxOffset (gaptrPush strm.ackedTxOffset fr.offset fr.data.length)) := by
  have heq := gaptrPush_eq_subtract fr.offset fr.data.length h.ordered
  have hgap : ∀ i, InGap (gaptrPush strm.ackedTxOffset fr.offset fr.data.length) i ↔
      InGap strm.ackedTxOffset i ∧ i ∉ (⟨fr.offset, fr.endOffset⟩ : Range) := by
    intro i
    rw [heq]
    exact inGap_subtract _ _ i
  refine ⟨?_, fun i hi => h.lt_max i ((hgap i).mp hi).1, fun i hi hnot => ?_, ?_⟩
  · show Ordered 0 (gaptrPush strm.ackedTxOffset fr.offset fr.data.length)
    rw [heq]
    exact ordered_subtract _ h.ordered
  · by_cases hold : InGap strm.ackedTxOffset i
    · have hin : i ∈ (⟨fr.offset, fr.endOffset⟩ : Range) := by
        by_contra hout
        exact hnot ((hgap i).mpr ⟨hold, hout⟩)
      exact ⟨n, frc, fr, hlog.symm ▸ hev, hmem, hid, hin⟩
    · exact (h.acked i hi hold).mono (hlog ▸ List.Subset.refl _)
  · rw [hlog]
    exact h.rst

/-- Every byte below the first gap was acknowledged. -/
theorem AckTracked.covered (h : AckTracked id conn strm)
    (hi : i < gaptrFirstGapOffset strm.ackedTxOffset) : AckedByte id i conn := by
  have hle : gaptrFirstGapOffset strm.ackedTxOffset ≤ uint64Max := by
    by_cases hnil : strm.ackedTxOffset = []
    · rw [hnil]
      exact Nat.le_refl _
    · exact Nat.le_of_lt (h.lt_max _ (h.ordered.inGap_firstGap hnil))
  refine h.acked i (Nat.lt_of_lt_of_le hi hle) fun hgap => ?_
  exact absurd (h.ordered.firstGap_le hgap) (Nat.not_le_of_lt hi)

/-! ## Changes -/

theorem StrmChange.ackedTxOffset (h : StrmChange k strm strm') (hk : k ≠ .acked) :
    strm'.ackedTxOffset = strm.ackedTxOffset := by
  cases h with
  | rx tx | window tx | extend tx => exact tx.ackedTxOffset
  | acked => exact absurd rfl hk
  | tx => split <;> rfl
  | _ => rfl

theorem StrmChange.sentRst (h : StrmChange k strm strm') (hk : k ≠ .rst) :
    strm'.sentRst = strm.sentRst := by
  cases h with
  | rx tx | window tx | extend tx => exact tx.sentRst
  | rst => exact absurd rfl hk
  | tx => split <;> rfl
  | _ => rfl

theorem NewStrm.ackTracked (h : NewStrm conn₀ strm k) : AckTracked id conn strm := by
  cases h with
  | remote remote opened =>
    rw [opened]
    unfold openedStrm
    dsimp only
    split <;> exact .fresh rfl rfl
  | isLocal isLocal init => rcases init with h | h <;> rw [h] <;> exact .fresh rfl rfl

theorem Change.ackTracked (h : Change H k conn conn') (hid : id ≠ 0) (hids : IdsInv conn)
    (hlive : ∀ strm, conn.strms id = some strm → AckTracked id conn strm)
    (hfind : conn'.strms id = some strm') : AckTracked id conn' strm' := by
  have hlog := h.log.subset
  have hother : k ≠ .acked → k ≠ .rst → AckTracked id conn' strm' := by
    intro hacked hrst
    cases h.strmFrom hids hid hfind with
    | kept strm find change =>
      exact (hlive strm find).keep hlog (change.ackedTxOffset hacked)
        fun hs => .inl (change.sentRst hrst ▸ hs)
    | opened unused streamId fresh => exact fresh.ackTracked
  have hset : ∀ {s : Strm} (s' : Strm), s'.streamId = s.streamId →
      conn'.strms = (conn.setStrm s').strms → (s.streamId = id → AckTracked id conn' s') →
      AckTracked id conn' strm' := by
    intro s s' hsid hstrms htracked
    rw [hstrms, Conn.setStrm_strms, hsid] at hfind
    by_cases heq : id = s.streamId
    · rw [if_pos heq] at hfind
      obtain rfl := Option.some.inj hfind
      exact htracked heq.symm
    · rw [if_neg heq] at hfind
      exact (hlive strm' hfind).keep hlog rfl .inl
  cases h with
  | @acked _ strm fr pktNum frc find sid held pkt mem =>
    refine hset (strm.setAckedTxOffset _) rfl rfl fun heq => ?_
    exact (hlive _ (heq ▸ find)).push (sid.trans heq) pkt mem rfl
  | @rst _ strm find code code' =>
    refine hset (strm.markSentRst.setAppErrorCode code') rfl rfl fun heq => ?_
    refine (hlive strm (heq ▸ find)).keep hlog rfl fun _ => .inr ?_
    exact heq ▸ List.mem_append_right _ (List.mem_singleton_self _)
  | _ => exact hother nofun nofun

/-- A stream that is gone does not come back. -/
theorem ClosedAfter.change (h : ClosedAfter id len conn) (hch : Change H k conn conn')
    (hid : id ≠ 0) (hids : IdsInv conn) : ClosedAfter id len conn' := by
  have hlog := hch.log.subset
  refine ⟨?_, hch.used hids h.used, ?_⟩
  · cases hfind : conn'.strms id with
    | none => rfl
    | some strm' =>
      cases hch.strmFrom hids hid hfind with
      | kept strm find => cases h.gone.symm.trans find
      | opened unused => exact absurd h.used unused
  · rcases h.acked with hrst | hall
    · exact .inl (hlog hrst)
    · exact .inr fun i hi => (hall i hi).mono hlog

/-- Where a stream is closed, it stands at the end of what was written. -/
theorem Change.closing (h : Change H k conn conn') (hid : id ≠ 0)
    (hlen : k = .close → ∀ strm, conn.strms id = some strm → strm.txOffset = len)
    (hc : Closing id len conn) : Closing id len conn' := by
  refine ⟨h.strmsUsed hc.used, fun strm' hfind => h.ackTracked hid hc.used.ids hc.live hfind,
    fun code hev => ?_⟩
  by_cases hold : .streamClose id code ∈ conn.log
  · exact (hc.closed code hold).change h hid hc.used.ids
  have hk : k = .close := by
    by_contra hne
    exact hold (h.event_old nofun hne hev)
  have hused : Used conn id → Used conn' id := h.used hc.used.ids
  have hlog := h.log.subset
  cases h with
  | @close _ strm find shut code' bidi unsent credit =>
    rw [closeStrm_log] at hev
    have heq := List.mem_singleton.mp ((List.mem_append.mp hev).resolve_left hold)
    obtain ⟨rfl, -⟩ := Event.streamClose.inj heq
    refine ⟨?_, hused (hc.used.live _ hid (Option.isSome_of_eq_some find)), ?_⟩
    · rw [closeStrm, Conn.setIds_strms]
      exact if_pos rfl
    · have htracked := hc.live strm find
      unfold strmShutRdwr at shut
      simp only [Bool.and_eq_true, Bool.or_eq_true, beq_iff_eq] at shut
      rcases shut.2 with hrst | hall
      · exact .inl (hlog (htracked.rst hrst))
      · refine .inr fun i hi => (htracked.covered ?_).mono hlog
        rw [hall, hlen rfl strm find]
        exact hi
  | _ => cases hk

/-! ## Steps -/

/-- A write closes no stream, and it writes nothing to a closed one. -/
theorem Step.closing_write (hreach : Reachable conn) (hstep : Step ops conn op conn')
    (hid : id ≠ 0) (hK : .close ∉ op.kinds) (hc : Closing id given.length conn) :
    Closing id (given ++ op.written id conn).length conn' := by
  have hch := Step.changes hreach.wellFormed hstep
  have hnew : .close ∉ .timeout :: op.kinds := by
    simpa using hK
  have hsame : Closing id given.length conn' :=
    hch.keeps (Closing id given.length)
      (fun k hk _ _ hP hc => hc.closing hid (fun heq => absurd (heq ▸ hk) hnew) hP) hc
  refine ⟨hsame.used, hsame.live, fun code hev => ?_⟩
  have hold : .streamClose id code ∈ conn.log := by
    refine hch.event_old ?_ hnew hev
    simp [Event.madeBy]
  have hnone : op.written id conn = [] := by
    apply Op.written_shut
    intro strm find
    cases (hc.closed code hold).gone.symm.trans find
  rw [hnone, List.append_nil]
  exact hsame.closed code hev

/-- No other step takes over bytes, so a stream that it closes stands where it stood. -/
theorem Step.closing_other (hreach : Reachable conn) (hstep : Step ops conn op conn')
    (hid : id ≠ 0) (hK : .tx ∉ op.kinds) (hs : Sources id given ended conn)
    (hc : Closing id given.length conn) : Closing id given.length conn' := by
  have hch := Step.changes hreach.wellFormed hstep
  have hnew : .tx ∉ .timeout :: op.kinds := by
    simpa using hK
  have hboth : SourcesAt id given ended conn' ∧ Closing id given.length conn' := by
    refine hch.keeps (fun c => SourcesAt id given ended c ∧ Closing id given.length c)
      (fun k hk _ _ hP hc => ?_) ⟨⟨hc.used.ids, hs.live, hs.unused⟩, hc⟩
    refine ⟨hc.sourcesAt (ne_of_mem_of_not_mem hk hnew) hid hP.1,
      hc.closing hid (fun _ strm find => ?_) hP.2⟩
    exact (hP.1.live strm find).1
  exact hboth.2

theorem Step.closing (hreach : Reachable conn) (hstep : Step ops conn op conn') (hid : id ≠ 0)
    (hs : Sources id given ended conn) (hc : Closing id given.length conn) :
    Closing id (given ++ op.written id conn).length conn' := by
  have hother : op.written id conn = [] → .tx ∉ op.kinds →
      Closing id (given ++ op.written id conn).length conn' := by
    intro hw hK
    rw [hw, List.append_nil]
    exact hstep.closing_other hreach hid hK hs hc
  cases op with
  | writeStream destlen streamId fin data ts =>
    exact hstep.closing_write hreach hid (by simp [Op.kinds, streamTxKinds]) hc
  | _ => exact hother rfl (Op.kinds_tx (by intro _ _ _ _ _ heq; cases heq))

theorem Initial.closing (h : Initial conn) (hid : id ≠ 0) : Closing id 0 conn := by
  refine ⟨h.reachable.strmsUsed, fun strm hfind => ?_, fun code hev => ?_⟩
  · have hnone : conn.strms id = none := by cases h <;> exact if_neg hid
    cases hnone.symm.trans hfind
  · have hlog : conn.log = [] := by cases h <;> rfl
    rw [hlog] at hev
    cases hev

/-! ## Both endpoints -/

variable {net₀ net : Network.Net Conn Pkt} {bls : List (Bool × PktStep)} {side : Bool}

/-- The bytes of the stream that the application of an endpoint wrote. -/
def pktWrittenBy (side : Bool) (id : Nat) (net₀ : Network.Net Conn Pkt)
    (bls : List (Bool × PktStep)) : List UInt8 :=
  written id (net₀.state side) ((Network.own side bls).map (·.op))

/-- An endpoint of an exchange of packets, and what it has sent of a stream. -/
theorem closing_of_run (hrun : PktExchange net₀ bls net) (hstart : Connected net₀) (side : Bool)
    (hid : id ≠ 0) : Closing id (pktWrittenBy side id net₀ bls).length (net.state side) ∧
      ∀ pkt ∈ net.sent side, ∀ fr, .stream fr ∈ pkt.frames → fr.streamId = id →
        SliceOf (pktWrittenBy side id net₀ bls) fr := by
  have init := hstart.initial side
  have hall := Network.run_sent hrun side (hstart.sent side)
    (fun ls c => SourcesAfter (net₀.state side) id (ls.map (·.op)) c ∧
      Closing id (written id (net₀.state side) (ls.map (·.op))).length c)
    (fun ls _ pkt => ∀ fr ∈ pkt.frames, ConveysAfter (net₀.state side) id (ls.map (·.op)) fr)
    ⟨⟨init.reachable, rfl, init.sources hid⟩, init.closing hid⟩
    (fun ls c l c' h hstep => ?_) (fun ls c l c' h hstep pkt hpkt fr hfr => ?_)
    (fun ls c l c' pkt h hstep hgood fr hfr => ?_)
  · exact ⟨hall.1.2, fun pkt hpkt fr hfr hsid => (hall.2 pkt hpkt _ hfr fr rfl hsid).slice⟩
  · rw [List.map_append]
    refine ⟨h.1.step hid hstep.1, ?_⟩
    have hclosing := hstep.1.closing h.1.reach hid h.1.sources h.2
    obtain ⟨-, rfl, -⟩ := h.1
    rw [← written_snoc] at hclosing
    exact hclosing
  · rw [List.map_append]
    refine h.1.emits hid hstep.1 ?_
    unfold Op.emits
    rw [Option.mem_toList.mp hpkt]
    exact hfr
  · rw [List.map_append]
    exact h.1.stays l.op (hgood fr hfr)

/-- Where a stream that was not reset is reported as closed, the other endpoint has accepted every
byte that was written to it, in frames of packets that were sent. -/
theorem closed_accepted (hrun : PktExchange net₀ bls net) (hstart : Connected net₀) (side : Bool)
    (hid : id ≠ 0) {code : Nat} (hclosed : .streamClose id code ∈ (net.state side).log)
    (hrst : .rstQueued id ∉ (net.state side).log) :
    ∀ i < (pktWrittenBy side id net₀ bls).length, ∃ pkt ∈ net.sent side, ∃ fr : StreamFrame,
      AcceptedFrom (Network.own (!side) bls) pkt (.stream fr) ∧ fr.streamId = id ∧
        SliceOf (pktWrittenBy side id net₀ bls) fr ∧ fr.offset ≤ i ∧ i < fr.endOffset := by
  obtain ⟨hclosing, hslices⟩ := closing_of_run hrun hstart side hid
  have h := pktInv_of_run hrun hstart side
  have hpeer := pktInv_of_run hrun hstart !side
  intro i hi
  have hall := (hclosing.closed code hclosed).acked.resolve_left hrst
  obtain ⟨n, frc, fr, hev, hmem, hsid, hge, hlt⟩ := hall i hi
  obtain ⟨pkt, hpkt, -, hsub, hprocessed⟩ :=
    h.acked_sent hpeer (pktExchange_reads hrun side) (pktExchange_reads_back hrun side) hev
  exact ⟨pkt, hpkt, fr, hprocessed.frames _ (hsub hmem), hsid,
    hslices pkt hpkt fr (hsub hmem) hsid, hge, hlt⟩

end

/-! ## A closed stream -/

theorem closed_accepted_once :
    Event.streamClose 2 0 ∈ ((pktSteps.foldl pktExchangeStep pktNet).state true).log ∧
      ∀ i < (pktWrittenBy true 2 pktNet pktSteps).length,
        ∃ pkt ∈ (pktSteps.foldl pktExchangeStep pktNet).sent true, ∃ fr : StreamFrame,
          AcceptedFrom (Network.own false pktSteps) pkt (.stream fr) ∧ fr.streamId = 2 ∧
            SliceOf (pktWrittenBy true 2 pktNet pktSteps) fr ∧ fr.offset ≤ i ∧
              i < fr.endOffset := by
  have hclosed : Event.streamClose 2 0 ∈
      ((pktSteps.foldl pktExchangeStep pktNet).state true).log := by decide +kernel
  exact ⟨hclosed, closed_accepted pktSteps_run pktNet_connected true (by decide) hclosed
    (by decide +kernel)⟩

end Ngtcp2
