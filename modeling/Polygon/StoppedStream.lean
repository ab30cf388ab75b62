import Polygon.StreamCredit

/-!
# Streams that the application stopped

After `ngtcp2_conn_shutdown_stream` the bytes of a stream are thrown away unseen, and only the frame with
FIN can release it. It does so where every byte before had arrived when the application stopped the stream.
-/
namespace Ngtcp2

open Ranges

/-- The application has stopped the stream in both directions. -/
structure Halted (id : Nat) (strm : Strm) : Prop where
  streamId : strm.streamId = id
  stopSending : strm.stopSending = true
  shutWr : strm.shutWr = true
  sentRst : strm.sentRst = true

/-- What of the stream was received and where it ends is the same. -/
structure SameEnd (strm strm' : Strm) : Prop where
  rob : strm'.rob = strm.rob := by rfl
  shutRd : strm'.shutRd = strm.shutRd := by rfl
  lastRxOffset : strm'.lastRxOffset = strm.lastRxOffset := by rfl

/-- The stream is out of the map, and the application was told. -/
structure Released (id : Nat) (conn : Conn) : Prop where
  gone : conn.strms id = none
  told : id ∈ closedIds conn.log

/-- A stopped stream of which the bytes before `finalOffset` had arrived: it waits for its FIN, it ended
somewhere else, or it was released. -/
inductive Stopped (id finalOffset : Nat) (conn : Conn) : Prop where
  | waiting (strm : Strm) (find : conn.strms id = some strm) (halted : Halted id strm)
      (unshut : strm.shutRd = false)
      (whole : strmRxOffset strm = finalOffset)
  | ended (strm : Strm) (find : conn.strms id = some strm) (halted : Halted id strm)
      (shut : strm.shutRd = true)
      (elsewhere : strm.lastRxOffset ≠ finalOffset)
  | released (h : Released id conn)

section
variable {H : List Frame} {K : List Kind} {id finalOffset : Nat} {conn conn₁ conn' : Conn} {strm strm' : Strm}

theorem SameEnd.trans {strm₁ : Strm} (h : SameEnd strm strm₁) (h' : SameEnd strm₁ strm') :
    SameEnd strm strm' :=
  ⟨h'.rob.trans h.rob, h'.shutRd.trans h.shutRd, h'.lastRxOffset.trans h.lastRxOffset⟩

/-! ## What does not receive the stream -/

/-- A closed ID is not opened again. -/
theorem Change.released {k : Kind} (h : Change H k conn conn') (hinv : IdsInv conn) (hid : id ≠ 0)
    (hused : Used conn id)
    (hr : Released id conn) : Released id conn' := by
  have hgone : (conn.strms id).isSome = false := by rw [hr.gone]; rfl
  have hmem : ∀ {evs}, conn'.log = conn.log ++ evs → id ∈ closedIds conn'.log := fun hlog => by
    rw [hlog, closedIds_append]
    exact List.mem_append_left _ hr.told
  cases h.idStep hinv hid with
  | keep evs used obj log =>
    exact ⟨Option.isSome_eq_false_iff.mp (obj.trans hgone) |> Option.isNone_iff_eq_none.mp,
      hmem log⟩
  | consume used noObj noObj' log =>
    refine ⟨noObj', ?_⟩
    rw [log]
    exact hr.told
  | create fresh => exact absurd hused fresh
  | close code used obj =>
    rw [hgone] at obj
    cases obj

/-- The other changes leave a stopped stream as it is, or close it. -/
theorem Change.halted {k : Kind} (h : Change H k conn conn') (hk : k ≠ .rx) (hid : id ≠ 0)
    (find : conn.strms id = some strm)
    (halted : Halted id strm) :
    (∃ strm', conn'.strms id = some strm' ∧ Halted id strm' ∧ SameEnd strm strm') ∨
    Released id conn' := by
  have hsame : ∀ {c : Conn}, c.strms id = conn.strms id →
    ∃ strm', c.strms id = some strm' ∧ Halted id strm' ∧ SameEnd strm strm' :=
    fun heq => ⟨strm, heq.trans find, halted, {}⟩
  -- A stream object is written back; if it is the stopped one, its flags are.
  have hset : ∀ {c : Conn} {s s' : Strm}, conn.strms s.streamId = some s → c.strms = conn.strms →
    s'.streamId = s.streamId →
      (s.stopSending = true → s'.stopSending = true) → (s.shutWr = true → s'.shutWr = true) →
      (s.sentRst = true → s'.sentRst = true) → SameEnd s s' →
      ∃ strm', (c.setStrm s').strms id = some strm' ∧ Halted id strm' ∧ SameEnd strm strm' := by
    intro c s s' hs hc hsid hstop hshut hrst hend
    rw [Conn.setStrm_strms, hsid, hc]
    by_cases heq : id = s.streamId
    · rw [if_pos heq]
      rw [heq, hs] at find
      obtain rfl := Option.some.inj find
      exact ⟨s', rfl, ⟨hsid.trans halted.streamId, hstop halted.stopSending, hshut halted.shutWr,
        hrst halted.sentRst⟩, hend⟩
    · rw [if_neg heq]
      exact ⟨strm, find, halted, {}⟩
  have hne : ∀ {i : Nat}, conn.strms i = none → ¬id = i := fun hnone he => by
    rw [← he, find] at hnone
    cases hnone
  cases h with
  | idle same => exact .inl (hsame (congrFun same.strms id))
  | rx => exact absurd rfl hk
  | window hs tx rx | extend hs tx rx =>
    refine .inl (hset hs rfl tx.streamId rx.stop ?_ ?_ ⟨rx.rob, rx.shutRd, rx.lastRxOffset⟩)
    · exact fun hw => tx.shutWr.trans hw
    · exact fun hw => tx.sentRst.trans hw
  | announceStrm hs | raiseStrm hs | acked hs =>
    exact .inl (hset hs rfl rfl (fun h => h) (fun h => h) (fun h => h) {})
  | limits0 hs zero | refill hs zero | advance hs zero =>
    rw [← zero] at hs
    exact .inl (hset hs rfl rfl (fun h => h) (fun h => h) (fun h => h) {})
  | rst hs => exact .inl (hset hs rfl rfl (fun h => h) (fun _ => rfl) (fun _ => rfl) {})
  | @openRemote _ streamId idtr none remote credit opens =>
    refine .inl (hsame ?_)
    show ((conn.setIds (bidiStream streamId)
      { conn.ids (bidiStream streamId) with remoteIdtr := idtr }).setStrm (openedStrm conn streamId)).strms id = _
    rw [Conn.setStrm_strms, Conn.setIds_strms, openedStrm_streamId, if_neg (hne none)]
  | @openLocal _ s bidi credit none init =>
    have hsid : s.streamId = (conn.ids bidi).nextLocalStreamId := by
      rcases init with rfl | rfl <;> rfl
    refine .inl (hsame ?_)
    unfold Ngtcp2.openLocal
    rw [Conn.setIds_strms]
    show (conn.setStrm s).strms id = _
    rw [Conn.setStrm_strms, if_neg (hsid ▸ hne none)]
  | consume => exact .inl (hsame (congrFun (Conn.setIds_strms _ _ _) id))
  | @close _ s hs shut code bidi unsent credit =>
    have hstrms : ∀ {c : Conn}, c =
      closeStrm conn (if s.onFc then conn.fcStrms.erase s.streamId else conn.fcStrms)
        s.streamId code bidi unsent →
          c.strms id = if id = s.streamId then none else conn.strms id := by
      rintro c rfl
      unfold closeStrm
      rw [Conn.setIds_strms]
      rfl
    by_cases heq : id = s.streamId
    · refine .inr ⟨(hstrms rfl).trans (if_pos heq), ?_⟩
      rw [closeStrm_log, closedIds_append, heq]
      exact List.mem_append_right _ (List.mem_singleton_self _)
    · exact .inl (hsame ((hstrms rfl).trans (if_neg heq)))
  | raiseIds => exact .inl (hsame (congrFun (Conn.setIds_strms _ _ _) id))
  | @tx _ s fr hd hs hsid unshut =>
    have htrack : ∀ ts pktlen, (trackStreamPkt conn hd fr ts pktlen).strms = conn.strms := by
      intro ts pktlen
      unfold trackStreamPkt
      split <;> rfl
    have hother : ¬id = s.streamId := by
      intro heq
      rw [heq, hs] at find
      obtain rfl := Option.some.inj find
      rw [halted.shutWr] at unshut
      cases unshut
    have hsid' : (if fr.fin then (s.setTxOffset (s.txOffset + fr.data.length)).shutdownWr
        else s.setTxOffset (s.txOffset + fr.data.length)).streamId = s.streamId := by
      split <;> rfl
    refine .inl (hsame ?_)
    show (Conn.setStrm _ (if fr.fin then (s.setTxOffset (s.txOffset + fr.data.length)).shutdownWr
      else s.setTxOffset (s.txOffset + fr.data.length))).strms id = _
    rw [Conn.setStrm_strms, hsid', if_neg hother]
    exact congrFun (htrack _ _) id
  | restart =>
    refine .inl (hsame ?_)
    rw [Conn.setStrm_strms]
    exact if_neg hid
  | _ => exact .inl (hsame rfl)

/-- What the handlers rely on, of a stream that was opened. -/
structure StrmLive (id : Nat) (conn : Conn) : Prop where
  used : StrmsUsed conn
  opened : Used conn id

theorem Change.strmLive {k : Kind} (h : Change H k conn conn') (hlive : StrmLive id conn) :
    StrmLive id conn' :=
  ⟨h.strmsUsed hlive.used, h.used hlive.used.ids hlive.opened⟩

theorem Change.stopped {k : Kind} (h : Change H k conn conn') (hk : k ≠ .rx) (hid : id ≠ 0)
    (hlive : StrmLive id conn)
    (hstop : Stopped id finalOffset conn) : Stopped id finalOffset conn' := by
  cases hstop with
  | waiting strm find halted unshut whole =>
    rcases h.halted hk hid find halted with ⟨strm', find', halted', hend⟩ | hreleased
    · refine .waiting strm' find' halted' (hend.shutRd.trans unshut) ?_
      rw [strmRxOffset, hend.rob]
      exact whole
    · exact .released hreleased
  | ended strm find halted shut elsewhere =>
    rcases h.halted hk hid find halted with ⟨strm', find', halted', hend⟩ | hreleased
    · refine .ended strm' find' halted' (hend.shutRd.trans shut) ?_
      rw [hend.lastRxOffset]
      exact elsewhere
    · exact .released hreleased
  | released hr => exact .released (h.released hlive.used.ids hid hlive.opened hr)

theorem Changes.stopped (h : Changes H K conn conn') (hK : .rx ∉ K) (hid : id ≠ 0)
    (hlive : StrmLive id conn)
    (hstop : Stopped id finalOffset conn) : Stopped id finalOffset conn' := by
  refine (h.keeps (fun c => StrmLive id c ∧
    Stopped id finalOffset c) (fun k hk _ _ hP hc => ?_) ⟨hlive, hstop⟩).2
  exact ⟨hc.strmLive hP.1, hc.stopped (fun heq => hK (heq ▸ hk)) hid hP.1 hP.2⟩

theorem Changes.strmLive (h : Changes H K conn conn') (hlive : StrmLive id conn) :
    StrmLive id conn' :=
  h.keeps (StrmLive id) (fun _ _ _ _ hP hc => hc.strmLive hP) hlive

theorem Changes.released (h : Changes H K conn conn') (hid : id ≠ 0) (hlive : StrmLive id conn)
    (hr : Released id conn) :
    Released id conn' := by
  refine (h.keeps (fun c => StrmLive id c ∧ Released id c) (fun k hk _ _ hP hc => ?_) ⟨hlive, hr⟩).2
  exact ⟨hc.strmLive hP.1, hc.released hP.1.used.ids hid hP.1.opened hP.2⟩

/-! ## What receives it -/

/-- A call that goes on closes the stream exactly if it is shut in both directions. -/
theorem ngtcp2ConnCloseStreamIfShutRdwr_released {code : Nat} {x : Except Err Unit}
    (find : conn.strms id = some strm)
    (hid : strm'.streamId = id) (h : ngtcp2ConnCloseStreamIfShutRdwr conn strm' code = (x, conn'))
    (hx : ¬Fatal x) :
    x = .ok () ∧ (strmShutRdwr strm' = true ∧ Released id conn' ∨ strmShutRdwr strm' = false ∧
    conn' = conn) := by
  unfold ngtcp2ConnCloseStreamIfShutRdwr at h
  split at h
  · next hshut =>
    rcases ngtcp2ConnCloseStream_spec strm' code (hid ▸ find) with href | ⟨conn'', hok, hclosed⟩
    · have hok := h
      unfold ngtcp2ConnCloseStream connCallStreamClose at hok
      rw [hid, find] at hok
      obtain ⟨rfl, -⟩ := Prod.mk.inj (connCall_andThen hok hx)
      obtain ⟨e, c, heq, -⟩ := href
      rw [heq] at h
      cases h
    · rw [hok] at h
      obtain ⟨rfl, rfl⟩ := Prod.mk.inj h
      obtain ⟨code', hlog⟩ := hclosed.log
      refine ⟨rfl, .inl ⟨hshut, ?_, ?_⟩⟩
      · rw [hclosed.strms, hid]
        exact if_pos rfl
      · rw [hlog, hid]
        exact mem_closedIds.mpr ⟨code', List.mem_append_right _ (List.mem_singleton_self _)⟩
  · next hshut =>
    obtain ⟨rfl, rfl⟩ := Prod.mk.inj h
    exact ⟨rfl, .inr ⟨Bool.eq_false_iff.mpr hshut, rfl⟩⟩

/-- How a frame of a stopped stream is processed. -/
inductive HaltedFrame (id : Nat) (strm : Strm) (fr : StreamFrame) (x : Except Err Unit)
    (conn' : Conn) : Prop where
  | kept (strm' : Strm) (find : conn'.strms id = some strm') (halted : Halted id strm')
      (rob : strm'.rob = strm.rob)
      (shutRd : strm'.shutRd = strm.shutRd)
      (last : strm.shutRd = true → strm'.lastRxOffset = strm.lastRxOffset)
      (fin : x = .ok () → fr.fin = true → strm.shutRd = true ∧ strm.lastRxOffset = fr.endOffset)
  | ended (strm' : Strm) (find : conn'.strms id = some strm') (halted : Halted id strm')
      (shutRd : strm'.shutRd = true)
      (last : strm'.lastRxOffset = fr.endOffset) (unshut : strm.shutRd = false)
      (missing : strmRxOffset strm ≠ fr.endOffset)
  | released (h : Released id conn')

theorem connRecvStream_halted {fr : StreamFrame} {x : Except Err Unit}
    (find : conn.strms id = some strm)
    (halted : Halted id strm) (hfr : fr.streamId = id) (h : connRecvStream conn fr = (x, conn'))
    (hx : ¬Fatal x) :
    HaltedFrame id strm fr x conn' := by
  have hsame : ∀ {e : Err}, x = .error e → conn'.strms id = conn.strms id →
    HaltedFrame id strm fr x conn' := by
    rintro e rfl hstrms
    exact .kept strm (hstrms.trans find) halted rfl rfl (fun _ => rfl) (fun hok => by cases hok)
  unfold connRecvStream at h
  split at h
  · obtain ⟨rfl, rfl⟩ := Prod.mk.inj h
    exact hsame rfl rfl
  rw [connFindOrOpenStream_find (hfr ▸ find), andThen_ok] at h
  dsimp only at h
  have hcharge : ∀ {r c}, connRecvStreamCharge conn strm fr.endOffset = (r, c) →
    c.strms = conn.strms := by
    intro r c hc
    rcases connRecvStreamCharge_cases hc with ⟨rfl, -⟩ | ⟨-, -, -, rfl⟩ <;> rfl
  rcases andThen_cases h with ⟨e, hc, rfl⟩ | ⟨_, conn₁, hc, hbranch⟩
  · exact hsame rfl (congrFun (hcharge hc) id)
  have find₁ : conn₁.strms id = some strm := (congrFun (hcharge hc) id).trans find
  clear h hc
  split at hbranch
  · next hfin =>
    unfold connRecvStreamFin at hbranch
    split at hbranch
    · next hshut =>
      split at hbranch
      · obtain ⟨rfl, rfl⟩ := Prod.mk.inj hbranch
        exact .kept strm find₁ halted rfl rfl (fun _ => rfl) (fun hok => by cases hok)
      · next hlast =>
        obtain ⟨rfl, rfl⟩ := Prod.mk.inj hbranch
        exact .kept strm find₁ halted rfl rfl (fun _ => rfl) (fun _ _ => ⟨hshut, not_not.mp hlast⟩)
    · next hshut =>
      split at hbranch
      · obtain ⟨rfl, rfl⟩ := Prod.mk.inj hbranch
        exact .kept strm find₁ halted rfl rfl (fun _ => rfl) (fun hok => by cases hok)
      have hstop : ((strm.setLastRxOffset fr.endOffset).shutdownRd).stopSending = true :=
        halted.stopSending
      dsimp only at hbranch
      rw [if_pos hstop] at hbranch
      have hsid : ((strm.setLastRxOffset fr.endOffset).shutdownRd).streamId = id := halted.streamId
      have find₂ : (conn₁.setStrm (strm.setLastRxOffset fr.endOffset).shutdownRd).strms id =
          some (strm.setLastRxOffset fr.endOffset).shutdownRd := if_pos hsid.symm
      obtain ⟨rfl, ⟨-, hreleased⟩ | ⟨hnot, rfl⟩⟩ :=
        ngtcp2ConnCloseStreamIfShutRdwr_released find₂ hsid hbranch hx
      · exact .released hreleased
      · refine .ended _ find₂ ⟨hsid, hstop, halted.shutWr,
          halted.sentRst⟩ rfl rfl (Bool.eq_false_iff.mpr hshut) fun heq => ?_
        have hgap : robFirstGapOffset strm.rob = fr.endOffset := heq
        unfold strmShutRdwr at hnot
        simp [halted.shutWr, halted.sentRst, hgap, Strm.shutdownRd, Strm.setLastRxOffset] at hnot
  · next hfin =>
    have hkept : ∀ {c : Conn}, ¬(strm.shutRd = true ∧ strm.lastRxOffset < fr.endOffset) →
        c = conn₁.setStrm (strm.setLastRxOffset (max strm.lastRxOffset fr.endOffset)) →
          HaltedFrame id strm fr x c := by
      rintro c hle rfl
      refine .kept _ (if_pos halted.streamId.symm) ⟨halted.streamId, halted.stopSending,
        halted.shutWr, halted.sentRst⟩ rfl rfl
        (fun hshut => ?_) (fun _ hc => absurd hc hfin)
      exact Nat.max_eq_left (Nat.le_of_not_lt fun hlt => hle ⟨hshut, hlt⟩)
    unfold connRecvStreamNoFin at hbranch
    split at hbranch
    · obtain ⟨rfl, rfl⟩ := Prod.mk.inj hbranch
      exact .kept strm find₁ halted rfl rfl (fun _ => rfl) (fun hok => by cases hok)
    next hle =>
    dsimp only at hbranch
    split at hbranch
    · exact hkept hle (Prod.mk.inj hbranch).2.symm
    have hstop : (strm.setLastRxOffset (max strm.lastRxOffset fr.endOffset)).stopSending = true :=
      halted.stopSending
    rw [if_pos hstop] at hbranch
    exact hkept hle (Prod.mk.inj hbranch).2.symm

/-- A RST_STREAM frame closes a stopped stream, or is refused. -/
theorem connRecvRstStream_halted {fr : RstStreamFrame} {x : Except Err Unit}
    (find : conn.strms id = some strm)
    (halted : Halted id strm) (hfr : fr.streamId = id) (h : connRecvRstStream conn fr = (x, conn'))
    (hx : ¬Fatal x) :
    conn' = conn ∨ Released id conn' := by
  unfold connRecvRstStream at h
  split at h
  · exact .inl (Prod.mk.inj h).2.symm
  split at h
  · exact .inl (Prod.mk.inj h).2.symm
  dsimp only at h
  rw [hfr, find] at h
  dsimp only at h
  split at h
  · exact .inl (Prod.mk.inj h).2.symm
  split at h
  · exact .inl (Prod.mk.inj h).2.symm
  split at h
  · exact .inl (Prod.mk.inj h).2.symm
  have hsid : strm.markRecvRst.streamId = id := halted.streamId
  have find₁ : ((conn.setRxOffset (conn.rxOffset + (fr.finalOffset - strm.lastRxOffset))).setStrm strm.markRecvRst).strms id =
      some strm.markRecvRst := if_pos hsid.symm
  obtain ⟨-, ⟨-, hreleased⟩ | ⟨hnot, -⟩⟩ := ngtcp2ConnCloseStreamIfShutRdwr_released find₁ hsid h hx
  · exact .inr hreleased
  · unfold strmShutRdwr at hnot
    simp [halted.shutWr, halted.sentRst, Strm.markRecvRst] at hnot

/-! ## The steps -/

/-- The STREAM frame of the stream that the step processes; `conn_recv_handshake_pkt` passes over those of
other streams than stream 0. -/
def Op.streamFrame (id : Nat) : Op → Option StreamFrame
  | recvFrame _ (.stream fr) | recvDelayedHandshakeFrame _ (.stream fr) =>
    if fr.streamId = id then some fr else none
  | _ => none

/-- A frame on the stopped stream. -/
theorem Stopped.stream {fr : StreamFrame} {x : Except Err Unit}
    (hstop : Stopped id finalOffset conn) (hfr : fr.streamId = id)
    (h : connRecvStream conn fr = (x, conn')) (hx : ¬Fatal x)
    (hrel : Released id conn → Released id conn') : Stopped id finalOffset conn' := by
  cases hstop with
  | waiting strm find halted unshut whole =>
    cases connRecvStream_halted find halted hfr h hx with
    | kept strm' find' halted' rob shutRd =>
      refine .waiting strm' find' halted' (shutRd.trans unshut) ?_
      rw [strmRxOffset, rob]
      exact whole
    | ended strm' find' halted' shutRd last unshut missing =>
      refine .ended strm' find' halted' shutRd ?_
      rw [last, ← whole]
      exact missing.symm
    | released hr => exact .released hr
  | ended strm find halted shut elsewhere =>
    cases connRecvStream_halted find halted hfr h hx with
    | kept strm' find' halted' rob shutRd last =>
      refine .ended strm' find' halted' (shutRd.trans shut) ?_
      rw [last shut]
      exact elsewhere
    | ended strm' find' halted' shutRd last unshut =>
      rw [shut] at unshut
      cases unshut
    | released hr => exact .released hr
  | released hr => exact .released (hrel hr)


theorem Stopped.rst {fr : RstStreamFrame} {x : Except Err Unit}
    (hstop : Stopped id finalOffset conn) (hfr : fr.streamId = id)
    (h : connRecvRstStream conn fr = (x, conn')) (hx : ¬Fatal x)
    (hrel : Released id conn → Released id conn') :
    Stopped id finalOffset conn' := by
  have hold := hstop
  cases hstop with
  | waiting strm find halted =>
    rcases connRecvRstStream_halted find halted hfr h hx with rfl | hr
    · exact hold
    · exact .released hr
  | ended strm find halted =>
    rcases connRecvRstStream_halted find halted hfr h hx with rfl | hr
    · exact hold
    · exact .released hr
  | released hr => exact .released (hrel hr)

/-- A frame on another stream. -/
theorem Stopped.of_same (hstop : Stopped id finalOffset conn)
    (hstrm : conn'.strms id = conn.strms id)
    (hrel : Released id conn → Released id conn') : Stopped id finalOffset conn' := by
  cases hstop with
  | waiting strm find halted unshut whole =>
    exact .waiting strm (hstrm.trans find) halted unshut whole
  | ended strm find halted shut elsewhere =>
    exact .ended strm (hstrm.trans find) halted shut elsewhere
  | released hr => exact .released (hrel hr)

theorem Step.stopped {ops : List Op} {op : Op} (hwf : WellFormed conn) (hid : id ≠ 0)
    (hlive : StrmLive id conn)
    (hstop : Stopped id finalOffset conn) (hstep : Step ops conn op conn') :
    StrmLive id conn' ∧ Stopped id finalOffset conn' := by
  have hch := Step.changes hwf hstep
  refine ⟨hch.strmLive hlive, ?_⟩
  have hrel : Released id conn → Released id conn' := hch.released hid hlive
  have hkinds : .rx ∉ Kind.timeout :: op.kinds → Stopped id finalOffset conn' :=
    fun hK => hch.stopped hK hid hlive hstop
  have hstream : ∀ {fr : StreamFrame} {r : Except Err Unit}, connRecvStream conn fr = (r, conn') →
    ¬Fatal r →
      Stopped id finalOffset conn' := by
    intro fr r hrun hr
    by_cases hfr : fr.streamId = id
    · exact hstop.stream hfr hrun hr hrel
    · exact hstop.of_same (connRecvStream_elsewhere hlive.used hrun (Ne.symm hfr)).1 hrel
  obtain ⟨rv, hrun, hs⟩ := hstep
  have hrv := not_fatal_of_survives hs
  cases op with
  | recvFrame longForm fr =>
    cases fr with
    | stream fr =>
      have hrun : (if fr.streamId = 0 ∧
        longForm then (.error .proto, conn) else connRecvStream conn fr) = (rv, conn') := hrun
      split at hrun
      · obtain ⟨-, rfl⟩ := Prod.mk.inj hrun
        exact hstop
      · exact hstream hrun hrv
    | rstStream fr =>
      by_cases hfr : fr.streamId = id
      · exact hstop.rst hfr hrun hrv hrel
      · exact hstop.of_same (connRecvRstStream_elsewhere hlive.used.keyed hrun (.inr (Ne.symm hfr))).1 hrel
    | _ => exact hkinds (by simp [Op.kinds, Frame.recvKinds, ackKinds])
  | recvDelayedHandshakeFrame type fr =>
    cases fr with
    | stream fr => exact hstream hrun hrv
    | _ => exact hkinds (by simp [Op.kinds, Frame.recvDelayedKinds, ackKinds])
  | recvHandshakeFrame type failed fr =>
    cases fr with
    | stream fr =>
      obtain ⟨x, hrun, -⟩ := void_cases hrun
      exact hstop.of_same ((connRecvHandshakeStream_onStrm hwf.keyed hrun).others id hid) hrel
    | _ => exact hkinds (by simp [Op.kinds, Frame.recvHandshakeKinds, ackKinds])
  | _ => exact hkinds (by simp [Op.kinds, shutdownKinds, streamTxKinds, writeKinds, resendKinds, closeKinds, retryKinds])

/-! ## The call that stops it -/

/-- A stream whose reset was sent is shut for writing. -/
def ResetShut (conn : Conn) : Prop :=
    ∀ id strm, conn.strms id = some strm → strm.sentRst = true → strm.shutWr = true

theorem ResetShut.of_strms (h : ResetShut conn) (hstrms : conn'.strms = conn.strms) :
    ResetShut conn' := by
  intro id strm find
  rw [hstrms] at find
  exact h id strm find

theorem ResetShut.setStrm (h : ResetShut conn) (hstrm : strm.sentRst = true → strm.shutWr = true) :
    ResetShut (conn.setStrm strm) := by
  intro id strm' find
  rw [Conn.setStrm_strms] at find
  split at find
  · obtain rfl := Option.some.inj find
    exact hstrm
  · exact h id strm' find

theorem Change.resetShut {k : Kind} (hc : Change H k conn conn') (h : ResetShut conn) :
    ResetShut conn' := by
  have hset : ∀ {c : Conn} {s s' : Strm}, conn.strms s.streamId = some s → c.strms = conn.strms →
    s'.shutWr = s.shutWr →
      s'.sentRst = s.sentRst → ResetShut (c.setStrm s') := by
    intro c s s' hs hc hshut hrst
    refine (h.of_strms hc).setStrm fun hsent => ?_
    rw [hshut]
    exact h _ _ hs (hrst.symm.trans hsent)
  cases hc with
  | idle same => exact h.of_strms same.strms
  | rx hs tx | window hs tx | extend hs tx => exact hset hs rfl tx.shutWr tx.sentRst
  | announceStrm hs | raiseStrm hs | acked hs => exact hset hs rfl rfl rfl
  | limits0 hs zero | refill hs zero | advance hs zero =>
    rw [← zero] at hs
    exact hset hs rfl rfl rfl
  | rst => exact ResetShut.setStrm (h.of_strms rfl) fun _ => rfl
  | @openRemote _ streamId =>
    have hunsent : (openedStrm conn streamId).sentRst = false := by
      unfold openedStrm
      split <;> rfl
    refine ResetShut.setStrm (h.of_strms (Conn.setIds_strms _ _ _)) fun hsent => ?_
    rw [hunsent] at hsent
    cases hsent
  | @openLocal _ s bidi credit none init =>
    have hunsent : s.sentRst = false := by
      rcases init with rfl | rfl <;> rfl
    have hopened : ResetShut (conn.setStrm s) := h.setStrm fun hsent => by
      rw [hunsent] at hsent
      cases hsent
    exact hopened.of_strms (Conn.setIds_strms _ _ _)
  | consume => exact h.of_strms (Conn.setIds_strms _ _ _)
  | @close _ s hs shut code bidi unsent credit =>
    intro i strm find
    unfold closeStrm at find
    rw [Conn.setIds_strms] at find
    have find : (if i = s.streamId then Option.none else conn.strms i) = some strm := find
    split at find
    · cases find
    · exact h i strm find
  | raiseIds => exact h.of_strms (Conn.setIds_strms _ _ _)
  | @tx _ s fr hd hs =>
    refine ResetShut.setStrm (h.of_strms ?_) fun hsent => ?_
    · unfold trackStreamPkt
      split <;> rfl
    · cases hfin : fr.fin with
      | true => rfl
      | false =>
        simp only [hfin, Bool.false_eq_true, ↓reduceIte] at hsent ⊢
        exact h s.streamId s hs hsent
  | restart =>
    refine ResetShut.setStrm (h.of_strms rfl) fun hsent => ?_
    cases hsent
  | _ => exact h.of_strms rfl

theorem Reachable.resetShut (h : Reachable conn) : ResetShut conn := by
  obtain ⟨conn₀, ops, hinit, hrun⟩ := h
  refine (hrun.invariant (fun _ c => WellFormed c ∧ ResetShut c) ⟨hinit.wellFormed, ?_⟩
    fun _ _ _ _ hP hstep => ⟨Step.wellFormed hP.1 hstep, ?_⟩).2
  · have hnew : ∃ strm0 : Strm, strm0.sentRst = false ∧
      conn₀.strms = fun id => if id = 0 then some strm0 else none := by
      cases hinit <;> exact ⟨_, rfl, rfl⟩
    obtain ⟨strm0, hunsent, hstrms⟩ := hnew
    intro id strm find hsent
    rw [hstrms] at find
    dsimp only at find
    split at find
    · obtain rfl := Option.some.inj find
      rw [hunsent] at hsent
      cases hsent
    · cases find
  · exact (Step.changes hP.1 hstep).keeps ResetShut (fun _ _ _ _ hP hc => hc.resetShut hP) hP.2

/-- The stream behind `conn_shutdown_stream_read`. -/
theorem connShutdownStreamRead_stops (find : conn.strms id = some strm) (hsid : strm.streamId = id)
    (code : Nat) :
    ∃ strm', (connShutdownStreamRead conn strm code).1 = strm' ∧
    (connShutdownStreamRead conn strm code).2.strms id = some strm' ∧
      strm'.streamId = id ∧ strm'.stopSending = true ∧ strm'.shutWr = strm.shutWr ∧
      strm'.sentRst = strm.sentRst ∧
      SameEnd strm strm' := by
  unfold connShutdownStreamRead
  split
  · next hstop => exact ⟨strm, rfl, find, hsid, hstop, rfl, rfl, {}⟩
  · unfold connStopSending fcUnlink
    dsimp only
    split
    · exact ⟨_, rfl, if_pos hsid.symm, hsid, rfl, rfl, rfl, by constructor <;> rfl⟩
    · exact ⟨_, rfl, if_pos hsid.symm, hsid, rfl, rfl, rfl, by constructor <;> rfl⟩

/-- The call leaves a stopped stream. -/
theorem ngtcp2ConnShutdownStream_stopped {code : Nat} (hkeyed : StrmsKeyed conn)
    (hreset : ResetShut conn)
    (find : conn.strms id = some strm) (unshut : strm.shutRd = false)
    (whole : strmRxOffset strm = finalOffset)
    (h : ngtcp2ConnShutdownStream conn id code = (.ok (), conn')) :
    id ≠ 0 ∧ Stopped id finalOffset conn' := by
  unfold ngtcp2ConnShutdownStream withShutdownStrm at h
  split at h
  · cases h
  next harg =>
  rw [find] at h
  refine ⟨fun hzero => harg (.inl hzero), ?_⟩
  obtain ⟨-, rfl⟩ := Prod.mk.inj h
  obtain ⟨strm', hfst, find', hsid, hstop, hshut, hrst, hend⟩ :=
    connShutdownStreamRead_stops find (hkeyed _ _ find) code
  show Stopped id finalOffset
    (connShutdownStreamWrite (connShutdownStreamRead conn strm code).2 (connShutdownStreamRead conn strm code).1 code).2
  rw [hfst]
  have hunshut : strm'.shutRd = false := hend.shutRd.trans unshut
  have hwhole : strmRxOffset strm' = finalOffset := by
    rw [strmRxOffset, hend.rob]
    exact whole
  unfold connShutdownStreamWrite
  split
  · next hsent =>
    have hshut' : strm'.shutWr = true := hshut.trans (hreset _ _ find (hrst.symm.trans hsent))
    exact .waiting strm' find' ⟨hsid, hstop, hshut', hsent⟩ hunshut hwhole
  · exact .waiting (strm'.markSentRst.setAppErrorCode code) (if_pos hsid.symm) ⟨hsid, hstop, rfl,
      rfl⟩ hunshut hwhole

/-- The FIN at the final offset, where it is accepted, releases the stream. -/
theorem Stopped.fin {op : Op} {fr : StreamFrame} (hstop : Stopped id fr.endOffset conn)
    (hid : id ≠ 0) (hlive : StrmLive id conn)
    (hwf : WellFormed conn) (hframe : op.streamFrame id = some fr) (hfin : fr.fin = true)
    (hok : op.run conn = (.ok (), conn')) :
    Released id conn' := by
  have hrun : fr.streamId = id ∧ connRecvStream conn fr = (.ok (), conn') := by
    have hsome : ∀ {fr' : StreamFrame}, (if fr'.streamId = id then some fr' else none) = some fr →
      fr' = fr ∧ fr.streamId = id := by
      intro fr' heq
      split at heq
      · next hfr =>
        obtain rfl := Option.some.inj heq
        exact ⟨rfl, hfr⟩
      · cases heq
    cases op with
    | recvFrame longForm fr' =>
      cases fr' with
      | stream fr' =>
        obtain ⟨rfl, hfr⟩ := hsome hframe
        have hok : (if fr'.streamId = 0 ∧
          longForm then (.error .proto, conn) else connRecvStream conn fr') = (.ok (), conn') := hok
        rw [if_neg fun hc => hid (hfr.symm.trans hc.1)] at hok
        exact ⟨hfr, hok⟩
      | _ => cases hframe
    | recvDelayedHandshakeFrame type fr' =>
      cases fr' with
      | stream fr' =>
        obtain ⟨rfl, hfr⟩ := hsome hframe
        exact ⟨hfr, hok⟩
      | _ => cases hframe
    | _ => cases hframe
  obtain ⟨hfr, hrun⟩ := hrun
  cases hstop with
  | waiting strm find halted unshut whole =>
    cases connRecvStream_halted find halted hfr hrun (not_fatal_ok ()) with
    | kept strm' find' halted' rob shutRd last fin =>
      have hshut := (fin rfl hfin).1
      rw [unshut] at hshut
      cases hshut
    | ended strm' find' halted' shutRd last unshut missing => exact absurd whole missing
    | released hr => exact hr
  | ended strm find halted shut elsewhere =>
    cases connRecvStream_halted find halted hfr hrun (not_fatal_ok ()) with
    | kept strm' find' halted' rob shutRd last fin => exact absurd (fin rfl hfin).2 elsewhere
    | ended strm' find' halted' shutRd last unshut =>
      rw [shut] at unshut
      cases unshut
    | released hr => exact hr
  | released hr =>
    have hstep : Step [] conn op conn' := ⟨_, hok, rfl⟩
    exact (Step.changes hwf hstep).released hid hlive hr

/-- The bytes before the final offset had arrived when the application stopped the stream, and the FIN comes later:
then the stream is released with it. -/
theorem stoppedStream_released {conn₀ conn₂ conn₃ : Conn} {ops₁ ops₂ : List Op} {op : Op}
    {fr : StreamFrame} {code : Nat}
    (hreach : Reachable conn₀) (find : conn₀.strms id = some strm) (unshut : strm.shutRd = false)
    (whole : strmRxOffset strm = fr.endOffset)
    (hshut : (Op.shutdownStream id code).run conn₀ = (.ok (), conn₁))
    (hbefore : Runs.Run Step conn₁ ops₁ conn₂) (hframe : op.streamFrame id = some fr)
    (hfin : fr.fin = true)
    (hok : op.run conn₂ = (.ok (), conn₃)) (hafter : Runs.Run Step conn₃ ops₂ conn) :
    Released id conn := by
  obtain ⟨hid, hstop⟩ := ngtcp2ConnShutdownStream_stopped hreach.wellFormed.keyed hreach.resetShut find unshut whole hshut
  have hused := hreach.strmsUsed
  have hlive : StrmLive id conn₀ := ⟨hused, hused.live id hid (by rw [find]; rfl)⟩
  have hstep : Step [] conn₀ (.shutdownStream id code) conn₁ := ⟨_, hshut, rfl⟩
  have hlive₁ := (Step.changes hreach.wellFormed hstep).strmLive hlive
  obtain ⟨hreach₂, hlive₂, hstop₂⟩ := hbefore.invariant
    (fun _ c => Reachable c ∧ StrmLive id c ∧ Stopped id fr.endOffset c) ⟨hreach.step hstep, hlive₁,
      hstop⟩
    fun _ _ _ _ hP hs => ⟨hP.1.step hs, Step.stopped hP.1.wellFormed hid hP.2.1 hP.2.2 hs⟩
  have hreleased := hstop₂.fin hid hlive₂ hreach₂.wellFormed hframe hfin hok
  have hstep₃ : Step [] conn₂ op conn₃ := ⟨_, hok, rfl⟩
  have hlive₃ := (Step.changes hreach₂.wellFormed hstep₃).strmLive hlive₂
  refine (hafter.invariant (fun _ c => Reachable c ∧ StrmLive id c ∧
    Released id c) ⟨hreach₂.step hstep₃, hlive₃, hreleased⟩
    fun _ _ _ _ hP hs => ⟨hP.1.step hs, ?_⟩).2.2
  have hch := Step.changes hP.1.wellFormed hs
  exact ⟨hch.strmLive hP.2.1, hch.released hid hP.2.1 hP.2.2⟩

end

/-- A server that got two bytes of the stream 4 of its client. -/
def twoByteServer : Conn := runOps smallServer [.recvFrame false (.stream ⟨4, 0, [1, 2], false⟩)]

theorem twoByteServer_reachable : Reachable twoByteServer :=
  (Initial.server ..).reachable.runOps [.recvFrame false (.stream ⟨4, 0, [1, 2], false⟩)]
  (by decide)

theorem stoppedStream_released_inTime : Released 4 (runOps twoByteServer
    [.shutdownStream 4 7, .recvFrame false (.stream ⟨4, 2, [], true⟩)]) := by
  have hfind : twoByteServer.strms 4 =
    some ((twoByteServer.strms 4).getD (strmInit 4 0 0 fun _ => 0)) := rfl
  have hwhole : strmRxOffset ((twoByteServer.strms 4).getD (strmInit 4 0 0 fun _ => 0)) =
      (StreamFrame.mk 4 2 [] true).endOffset := by decide
  have hshut : (Op.shutdownStream 4 7).run twoByteServer =
    (.ok (), runOps twoByteServer [.shutdownStream 4 7]) := rfl
  have hfin : (Op.recvFrame false (.stream ⟨4, 2, [], true⟩)).run
    (runOps twoByteServer [.shutdownStream 4 7]) =
      (.ok (), runOps twoByteServer [.shutdownStream 4 7,
        .recvFrame false (.stream ⟨4, 2, [], true⟩)]) := rfl
  exact stoppedStream_released twoByteServer_reachable hfind
    (by decide) hwhole hshut .nil rfl rfl hfin .nil

/-- A step that returns 0. -/
def OkStep (_ : List Op) (conn : Conn) (op : Op) (conn' : Conn) : Prop :=
    op.run conn = (.ok (), conn')

/-- A byte that arrives after the stream was stopped is thrown away, and the FIN with it does not release the stream. -/
theorem stoppedStream_leaked :
    ¬∀ (conn₀ conn : Conn) (ops₁ ops₂ : List Op) (id code finalOffset : Nat), Initial conn₀ →
    Runs.Run OkStep conn₀ (ops₁ ++ .shutdownStream id code :: ops₂) conn →
    (∀ n < finalOffset, covered ((ops₁ ++ ops₂).filterMap (Op.streamFrame id)) n = true) →
    (∃ fr ∈ (ops₁ ++ ops₂).filterMap (Op.streamFrame id),
    fr.fin = true ∧ fr.endOffset = finalOffset) →
    Released id conn := by
  intro h
  have hfirst : OkStep [] smallServer
    (.recvFrame false (.stream ⟨4, 0, [1, 2], false⟩)) twoByteServer := rfl
  have hshut : OkStep [.recvFrame false (.stream ⟨4, 0, [1, 2], false⟩)] twoByteServer
    (.shutdownStream 4 7)
      (runOps twoByteServer [.shutdownStream 4 7]) := rfl
  have hlast : OkStep [.recvFrame false (.stream ⟨4, 0, [1, 2], false⟩), .shutdownStream 4 7]
      (runOps twoByteServer [.shutdownStream 4 7]) (.recvFrame false (.stream ⟨4, 2, [3], true⟩))
      (runOps twoByteServer [.shutdownStream 4 7, .recvFrame false (.stream ⟨4, 2, [3], true⟩)]) :=
        rfl
  have hrun : Runs.Run OkStep smallServer
      ([.recvFrame false (.stream ⟨4, 0, [1, 2], false⟩)] ++ .shutdownStream 4 7 ::
        [.recvFrame false (.stream ⟨4, 2, [3], true⟩)])
      (runOps twoByteServer [.shutdownStream 4 7, .recvFrame false (.stream ⟨4, 2, [3], true⟩)]) :=
    ((Runs.Run.nil.snoc hfirst).snoc hshut).snoc hlast
  have hreleased := h _ _ _ _ _ _ 3 (.server ..) hrun (by decide) ⟨⟨4, 2, [3], true⟩, by decide, rfl, rfl⟩
  have hkept : ((runOps twoByteServer [.shutdownStream 4 7, .recvFrame false (.stream ⟨4, 2, [3], true⟩)]).strms 4).isSome = true := by
    decide
  rw [hreleased.gone] at hkept
  cases hkept

end Ngtcp2
