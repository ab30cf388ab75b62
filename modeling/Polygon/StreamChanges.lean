import Polygon.SendLimits
import Polygon.StreamHoldings

/-!
# The changes a stream goes through

What a change of the connection does to the objects of the application's streams: each of them is
changed in its own way, opened or removed.
-/
namespace Ngtcp2

open Ranges

/-- What one change of the connection does to a stream. -/
inductive StrmChange : Kind → Strm → Strm → Prop where
  | same (k : Kind) (strm : Strm) : StrmChange k strm strm
  | rx {strm strm' : Strm} (tx : SameTx strm strm') : StrmChange .rx strm strm'
  | window {strm strm' : Strm} (tx : SameTx strm strm') (rx : SameRx strm strm')
      (unsent : strm'.unsentMaxRxOffset = strm.unsentMaxRxOffset) : StrmChange .window strm strm'
  | announce (strm : Strm) :
    StrmChange .announce strm ((strm.setMaxRxOffset strm.unsentMaxRxOffset).setOnFc false)
  | extend {strm strm' : Strm} (tx : SameTx strm strm') (rx : SameRx strm strm') :
    StrmChange .extend strm strm'
  | raise (strm : Strm) (n : Nat) :
    StrmChange .raise strm (strm.setMaxTxOffset (max strm.maxTxOffset n))
  | rst (strm : Strm) (code : Nat) :
    StrmChange .rst strm (strm.markSentRst.setAppErrorCode code)
  | acked (strm : Strm) (gaptr : List Range) : StrmChange .acked strm (strm.setAckedTxOffset gaptr)
  | tx {strm : Strm} {fr : StreamFrame} (unshut : strm.shutWr = false)
      (offset : fr.offset = strm.txOffset) :
    StrmChange .tx strm
      (if fr.fin then (strm.setTxOffset (strm.txOffset + fr.data.length)).shutdownWr
        else strm.setTxOffset (strm.txOffset + fr.data.length))

/-- A stream as it is opened, by the peer or by this endpoint. -/
inductive NewStrm (conn : Conn) (strm : Strm) : Kind → Prop where
  | remote (remote : connLocalStream conn strm.streamId = false)
      (opened : strm = openedStrm conn strm.streamId) : NewStrm conn strm .openRemote
  | isLocal (isLocal : connLocalStream conn strm.streamId = true)
      (init : strm = strmInit strm.streamId conn.localSettings.maxStreamData.toNat
        conn.remoteSettings.maxStreamData.toNat conn.mem ∨
          strm = (strmInit strm.streamId conn.localSettings.maxStreamData.toNat
            conn.remoteSettings.maxStreamData.toNat conn.mem).shutdownRd) :
    NewStrm conn strm .openLocal

/-- Where a stream comes from. -/
inductive StrmFrom (k : Kind) (conn : Conn) (id : Nat) (strm' : Strm) : Prop where
  | kept (strm : Strm) (find : conn.strms id = some strm) (change : StrmChange k strm strm')
  | opened (unused : ¬Used conn id) (streamId : strm'.streamId = id) (fresh : NewStrm conn strm' k)

section
variable {H : List Frame} {K : List Kind} {conn conn₁ conn' : Conn} {strm strm' : Strm}
  {id : Nat} {k : Kind}

theorem StrmFrom.of_same (hfind : conn'.strms id = some strm')
    (hstrms : conn'.strms id = conn.strms id) : StrmFrom k conn id strm' :=
  .kept strm' (hstrms.symm.trans hfind) (.same k strm')

/-- A stream object is written back. -/
theorem StrmFrom.of_set {s s' : Strm} (find : conn.strms s.streamId = some s)
    (hchange : StrmChange k s s') (hsid : s'.streamId = s.streamId)
    (hstrms : conn'.strms = (conn.setStrm s').strms) (hfind : conn'.strms id = some strm') :
    StrmFrom k conn id strm' := by
  rw [hstrms, Conn.setStrm_strms, hsid] at hfind
  by_cases heq : id = s.streamId
  · rw [if_pos heq] at hfind
    obtain rfl := Option.some.inj hfind
    exact .kept s (heq ▸ find) hchange
  · rw [if_neg heq] at hfind
    exact .kept strm' hfind (.same k strm')

/-- A stream is opened. -/
theorem StrmFrom.of_open {s : Strm} (hused : ¬Used conn s.streamId) (hfresh : NewStrm conn s k)
    (hstrms : conn'.strms = (conn.setStrm s).strms) (hfind : conn'.strms id = some strm') :
    StrmFrom k conn id strm' := by
  rw [hstrms, Conn.setStrm_strms] at hfind
  by_cases heq : id = s.streamId
  · rw [if_pos heq] at hfind
    obtain rfl := Option.some.inj hfind
    exact .opened (heq ▸ hused) heq.symm hfresh
  · rw [if_neg heq] at hfind
    exact .kept strm' hfind (.same k strm')

theorem openRemote_from {streamId : Nat} {idtr : Idtr} (hinv : IdsInv conn)
    (hremote : connLocalStream conn streamId = false)
    (hopen : idtrOpen (conn.ids (bidiStream streamId)).remoteIdtr streamId = some idtr)
    (hfind : (openRemote conn streamId idtr).strms id = some strm') :
    StrmFrom .openRemote conn id strm' := by
  have hsid := openedStrm_streamId conn streamId
  have hunused : ¬Used conn (openedStrm conn streamId).streamId := by
    rw [hsid]
    exact not_used_of_idtrOpen hinv hremote hopen
  refine .of_open hunused (.remote ?_ ?_) ?_ hfind
  · rw [hsid]
    exact hremote
  · rw [hsid]
  · funext i
    show ((conn.setIds (bidiStream streamId) _).setStrm (openedStrm conn streamId)).strms i = _
    rw [Conn.setStrm_strms, Conn.setStrm_strms, Conn.setIds_strms]

/-- Every change keeps a stream of the application in its way, or opens it. -/
theorem Change.strmFrom (h : Change H k conn conn') (hinv : IdsInv conn) (hid : id ≠ 0)
    (hfind : conn'.strms id = some strm') : StrmFrom k conn id strm' := by
  have hzero : ∀ {strm0 : Strm}, strm0.streamId = 0 →
      (conn.setStrm strm0).strms id = conn.strms id := by
    intro strm0 hsid
    rw [Conn.setStrm_strms, hsid]
    exact if_neg hid
  cases h with
  | idle same => exact .of_same hfind (congrFun same.strms id)
  | rx find tx => exact .of_set find (.rx tx) tx.streamId rfl hfind
  | window find tx rx unsent => exact .of_set find (.window tx rx unsent) tx.streamId rfl hfind
  | announceStrm find => exact .of_set find (.announce _) rfl rfl hfind
  | extend find tx rx => exact .of_set find (.extend tx rx) tx.streamId rfl hfind
  | openRemote none remote credit opens => exact openRemote_from hinv remote opens hfind
  | @openLocal _ s bidi credit none init =>
    have hsid : s.streamId = (conn.ids bidi).nextLocalStreamId := by
      rcases init with rfl | rfl <;> rfl
    have hunused : ¬Used conn s.streamId := by
      unfold Used
      rw [hsid, hinv.isLocal, hinv.kind]
      exact Nat.lt_irrefl _
    have hlocal : connLocalStream conn s.streamId = true := by
      rw [hsid]
      exact hinv.isLocal bidi
    refine .of_open hunused (.isLocal hlocal ?_) ?_ hfind
    · rw [hsid]
      exact init
    · exact Conn.setIds_strms _ _ _
  | consume => exact .of_same hfind (congrFun (Conn.setIds_strms _ _ _) id)
  | @close _ s find shut code bidi unsent credit =>
    rw [closeStrm, Conn.setIds_strms] at hfind
    change (if id = s.streamId then none else conn.strms id) = some strm' at hfind
    split at hfind
    · cases hfind
    · exact .kept strm' hfind (.same _ strm')
  | raiseIds => exact .of_same hfind (congrFun (Conn.setIds_strms _ _ _) id)
  | raiseStrm find n => exact .of_set find (.raise _ n) rfl rfl hfind
  | limits0 find zero | refill find zero | advance find zero =>
    exact .of_same hfind (hzero zero)
  | rst find code code' => exact .of_set find (.rst _ code') rfl rfl hfind
  | @acked _ s fr pktNum frc find =>
    exact .of_set find (.acked s (gaptrPush s.ackedTxOffset fr.offset fr.data.length)) rfl rfl hfind
  | @tx _ s fr hd find id' unshut offset strmCredit connCredit num form ts pktlen =>
    refine .of_set find (.tx unshut offset) ?_ ?_ hfind
    · split <;> rfl
    · funext i
      show (Conn.setStrm _ _).strms i = _
      rw [Conn.setStrm_strms, Conn.setStrm_strms]
      exact if_congr Iff.rfl rfl
        (congrFun (trackStreamPkt_limits conn hd fr ts pktlen).1 i)
  | restart =>
    refine .of_same hfind ?_
    rw [Conn.setStrm_strms]
    exact if_neg hid
  | _ => exact .of_same hfind rfl

/-- Only the calls that write to a stream put a new frame of it into a packet. -/
theorem Change.streamFramesIn (h : Change H k conn conn') (hk : k ≠ .tx)
    (hsub : StreamFramesIn H (held conn)) : StreamFramesIn H (held conn') := by
  have hframes : ∀ {ents ents' : List RtbEntry}, ents ⊆ ents' → frames ents ⊆ frames ents' := by
    intro ents ents' hents fr hfr
    obtain ⟨ent, hent, hfr⟩ := List.mem_flatMap.mp hfr
    exact List.mem_flatMap.mpr ⟨ent, hents hent, hfr⟩
  have hless : ∀ {frq : List Frame} {ents : List RtbEntry}, frq = conn.frq →
      ents ⊆ conn.rtb.head ++ conn.earlyRtb → StreamFramesIn H (frq ++ frames ents) := by
    rintro frq ents rfl hents fr hne hfr
    apply hsub fr hne
    rcases List.mem_append.mp hfr with hfr | hfr
    · exact List.mem_append_left _ hfr
    · exact List.mem_append_right _ (hframes hents hfr)
  by_cases hpackets : k.packetless = true
  · obtain ⟨hrtb, hearly, -⟩ := h.sameEntries hpackets
    have hids : ∀ (conn : Conn) bidi ids, (conn.setIds bidi ids).frq = conn.frq := by
      intro conn bidi ids
      cases bidi <;> rfl
    have hmore : ∀ {fr : Frame}, (∀ fr', fr ≠ .stream fr') → conn'.frq = fr :: conn.frq →
        StreamFramesIn H (held conn') := by
      intro fr hother hfrq
      rw [held, hfrq, hrtb, hearly, List.cons_append]
      exact hsub.cons hother
    have hsame : conn'.frq = conn.frq → StreamFramesIn H (held conn') := by
      intro hfrq
      rw [held, hfrq, hrtb, hearly]
      exact hsub
    cases h with
    | idle same => exact hsame same.frq
    | announce => exact hmore (by simp) rfl
    | announceStrm => exact hmore (by simp) rfl
    | push other => exact hmore other rfl
    | rst find => exact hmore (by simp) rfl
    | openLocal bidi => exact hsame (hids _ _ _)
    | openRemote => exact hsame (hids _ _ _)
    | consume => exact hsame (hids _ _ _)
    | close => exact hsame (hids _ _ _)
    | raiseIds => exact hsame (hids _ _ _)
    | _ => first | exact hsame rfl | simp [Kind.packetless] at hpackets
  · cases h with
    | unlink inv sub => exact hless rfl (sub.append_right _).subset
    | timeout inv sub => exact hless rfl (sub.append_right _).subset
    | tx => exact absurd rfl hk
    | restart => exact hless rfl (List.subset_append_right _ _)
    | pkts inv ok sub => exact sub
    | frq inv ok sub => exact sub
    | _ => exact absurd rfl hpackets

theorem Changes.streamFramesIn (h : Changes H K conn conn') (hK : .tx ∉ K)
    (hsub : StreamFramesIn H (held conn)) : StreamFramesIn H (held conn') := by
  refine h.keeps (fun c => StreamFramesIn H (held c)) (fun k hk _ _ hP hc => ?_) hsub
  exact hc.streamFramesIn (fun heq => hK (heq ▸ hk)) hP

end

end Ngtcp2
