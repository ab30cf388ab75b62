import Polygon.ReceivedOffsets
import Polygon.RtbAcks

/-!
# Repeated frames

RST_STREAM and STOP_SENDING frames are sent again when their packets are lost. What a repetition
does depends on what became of the stream: a stream that was reset keeps the highest offset it had
received, and a stream that was told to stop sends its reset again.
-/
namespace Ngtcp2

open Ranges Relation

/-! ## What becomes of a stream -/

/-- A stream object changes without receiving, or by a STREAM frame within its credit. -/
inductive StrmStep (strm strm' : Strm) : Prop where
  | same (same : SameBuf strm strm')
  | received {w : Nat → UInt8} {fr : StreamFrame} {evs : List Event}
      (received : Received w strm strm' fr evs) (end_le : fr.endOffset ≤ strm.maxRxOffset)

/-- Used IDs stay used, and the streams of the application come from those before or are new. -/
structure Evolved (conn conn' : Conn) : Prop where
  used : ∀ id, Used conn id → Used conn' id
  strms : ∀ id strm', id ≠ 0 → conn'.strms id = some strm' →
    (∃ strm, conn.strms id = some strm ∧ ReflTransGen StrmStep strm strm') ∨
      (¬Used conn id ∧ ∃ strm, Blank strm ∧ ReflTransGen StrmStep strm strm')

section
variable {H : List Frame} {K : List Kind} {conn conn₁ conn' : Conn} {strm strm' : Strm} {id : Nat}

theorem Evolved.refl (conn : Conn) : Evolved conn conn :=
  ⟨fun _ hu => hu, fun _ strm' _ hfind => .inl ⟨strm', hfind, .refl⟩⟩

theorem Evolved.trans (h : Evolved conn conn₁) (h' : Evolved conn₁ conn') : Evolved conn conn' := by
  refine ⟨fun id hu => h'.used id (h.used id hu), fun id strm' hid hfind => ?_⟩
  rcases h'.strms id strm' hid hfind with ⟨strm₁, hfind₁, hsteps'⟩ | ⟨hunused, hblank⟩
  · rcases h.strms id strm₁ hid hfind₁ with ⟨strm, hfind₀, hsteps⟩ | ⟨hunused, strm, hblank, hsteps⟩
    · exact .inl ⟨strm, hfind₀, hsteps.trans hsteps'⟩
    · exact .inr ⟨hunused, strm, hblank, hsteps.trans hsteps'⟩
  · exact .inr ⟨fun hu => hunused (h.used id hu), hblank⟩

theorem Aside.evolved (h : Aside conn conn') (hused : ∀ id, Used conn id → Used conn' id) :
    Evolved conn conn' := by
  refine ⟨hused, fun id strm' hid hfind => ?_⟩
  rcases h.strms id strm' hid hfind with ⟨strm, hold, hsame⟩ | ⟨hunused, hblank⟩
  · exact .inl ⟨strm, hold, .single (.same hsame)⟩
  · exact .inr ⟨hunused, strm', hblank, .refl⟩

theorem Changes.evolved (h : Changes H K conn conn') (hK : ∀ k ∈ K, k ≠ .rx ∧ k ≠ .extend)
    (hids : IdsInv conn) : Evolved conn conn' := by
  refine (h.keeps (fun c => IdsInv c ∧ Evolved conn c) ?_ ⟨hids, .refl conn⟩).2
  rintro k hk c c' ⟨hids, hev⟩ hch
  exact ⟨hch.idsInv hids, hev.trans ((hch.aside (hK k hk).1 (hK k hk).2 hids).evolved
    fun _ hu => hch.used hids hu)⟩

theorem FrameTaken.evolved {fr : StreamFrame} {r : Except Err Unit}
    (h : FrameTaken conn fr r conn') (hused : ∀ id, Used conn id → Used conn' id) :
    Evolved conn conn' := by
  cases h with
  | aside aside => exact aside.evolved hused
  | taken conn₁ strm₁ strm' w rxOffset fcStrms evs found aside keyed holding streamId find
      received writes ok charge end_le room total ends =>
    have hsid : strm'.streamId = fr.streamId := by
      rw [received.same]
      exact streamId
    refine ⟨hused, fun id s hid hfind => ?_⟩
    have hfind' : (if id = fr.streamId then some strm' else conn₁.strms id) = some s := by
      rw [← hsid]
      rcases ends with rfl | ⟨-, hclosed⟩
      · exact hfind
      · rw [hclosed.strms, ← hsid] at hfind
        change (if id = strm'.streamId then none else _) = some s at hfind
        split at hfind
        · cases hfind
        · exact hfind
    by_cases heq : id = fr.streamId
    · rw [if_pos heq] at hfind'
      obtain rfl := Option.some.inj hfind'
      have hstep : StrmStep strm₁ strm' := .received received end_le
      rcases aside.strms id strm₁ hid (heq ▸ find) with ⟨strm, hold, hsame⟩ | ⟨hunused, hblank⟩
      · exact .inl ⟨strm, hold, .tail (.single (.same hsame)) hstep⟩
      · exact .inr ⟨hunused, strm₁, hblank, .single hstep⟩
    · rw [if_neg heq] at hfind'
      rcases aside.strms id s hid hfind' with ⟨strm, hold, hsame⟩ | ⟨hunused, hblank⟩
      · exact .inl ⟨strm, hold, .single (.same hsame)⟩
      · exact .inr ⟨hunused, s, hblank, .refl⟩

theorem Step.evolved {ops : List Op} {op : Op} (hreach : Reachable conn)
    (hstep : Step ops conn op conn') (hsized : op.Sized) (hc : Collects conn) :
    Evolved conn conn' := by
  have hused : ∀ id, Used conn id → Used conn' id := fun id hu =>
    (Step.changes hreach.wellFormed hstep).usedMono hc.used.ids hu
  cases hstep.taken hreach hsized hc with
  | changes hch hK => exact hch.evolved hK hc.used.ids
  | aside h => exact h.evolved hused
  | frame _ h => exact h.evolved hused

/-! ## Stream IDs -/

theorem setIds_maxRemote (conn : Conn) (b bidi : Bool) {ids : StreamIds}
    (h : ids.maxRemoteStreamId = (conn.ids b).maxRemoteStreamId) :
    ((conn.setIds b ids).ids bidi).maxRemoteStreamId = (conn.ids bidi).maxRemoteStreamId := by
  rw [Conn.ids_setIds]
  split
  · next heq => rw [heq, h]
  · rfl

/-- The limit for the streams of the peer only grows. -/
theorem Change.maxRemoteStreamId_le {k : Kind} (h : Change H k conn conn') (bidi : Bool) :
    (conn.ids bidi).maxRemoteStreamId ≤ (conn'.ids bidi).maxRemoteStreamId := by
  cases h with
  | idle same =>
    cases bidi
    · exact Nat.le_of_eq (congrArg _ same.uni.symm)
    · exact Nat.le_of_eq (congrArg _ same.bidi.symm)
  | openRemote => exact Nat.le_of_eq (setIds_maxRemote conn _ bidi (by rfl)).symm
  | openLocal b => cases b <;> cases bidi <;> exact Nat.le_refl _
  | consume => exact Nat.le_of_eq (setIds_maxRemote conn _ bidi (by rfl)).symm
  | @close _ _ _ _ _ b => cases b <;> cases bidi <;> exact Nat.le_refl _
  | raiseIds _ b => exact Nat.le_of_eq (setIds_maxRemote conn b bidi (by rfl)).symm
  | limits => cases bidi <;> exact Nat.le_refl _
  | tx =>
    unfold chargeStream trackStreamPkt
    dsimp only
    split <;> exact Nat.le_refl _
  | @frq _ b u _ _ _ _ _ _ _ _ hb hu =>
    cases bidi
    · rcases hu with heq | ⟨hlt, heq, -⟩
      · exact Nat.le_of_eq heq.symm
      · exact Nat.le_of_lt (heq ▸ hlt)
    · rcases hb with heq | ⟨hlt, heq, -⟩
      · exact Nat.le_of_eq heq.symm
      · exact Nat.le_of_lt (heq ▸ hlt)
  | _ => exact Nat.le_refl _

theorem connCheckStreamId_none : connCheckStreamId conn id = none ↔
    if connLocalStream conn id then Used conn id
    else id ≤ (conn.ids (bidiStream id)).maxRemoteStreamId := by
  unfold connCheckStreamId Used
  dsimp only
  cases connLocalStream conn id with
  | true => simp
  | false => simp

/-- An ID that passes the checks passes them from then on. -/
theorem Changes.checkStreamId (h : Changes H K conn conn') (hids : IdsInv conn)
    (hcheck : connCheckStreamId conn id = none) : connCheckStreamId conn' id = none := by
  refine (h.keeps (fun c => IdsInv c ∧ connCheckStreamId c id = none) ?_ ⟨hids, hcheck⟩).2
  rintro k - c c' ⟨hids, hcheck⟩ hch
  refine ⟨hch.idsInv hids, ?_⟩
  rw [connCheckStreamId_none] at hcheck ⊢
  rw [connLocalStream_congr hch.server]
  split
  · next hlocal =>
    rw [if_pos hlocal] at hcheck
    exact hch.used hids hcheck
  · next hremote =>
    rw [if_neg hremote] at hcheck
    exact Nat.le_trans hcheck (hch.maxRemoteStreamId_le _)

/-! ## Runs -/

/-- The runs of frames as they can be read from packets, with the lengths of data. -/
def ProperRun : Conn → List Op → Conn → Prop :=
  Runs.Run (Runs.Guarded Step fun _ _ op => op.Proper)

/-- What holds along such runs. -/
structure Regular (conn : Conn) : Prop where
  reach : Reachable conn
  collects : Collects conn
  wide : WideUnused conn
  charged : ∀ id strm, id ≠ 0 → conn.strms id = some strm → ∃ n, ChargedTo n strm

/-- What came before is kept. -/
structure Later (conn conn' : Conn) : Prop where
  evolved : Evolved conn conn'
  server : conn'.server = conn.server
  check : ∀ id, connCheckStreamId conn id = none → connCheckStreamId conn' id = none

theorem ChargedTo.steps {n : Nat} (h : ChargedTo n strm)
    (hsteps : ReflTransGen StrmStep strm strm') : ∃ n', ChargedTo n' strm' := by
  induction hsteps with
  | refl => exact ⟨n, h⟩
  | tail _ hstep ih =>
    obtain ⟨n', h'⟩ := ih
    cases hstep with
    | same hsame => exact ⟨n', h'.same hsame⟩
    | received hrec hend => exact ⟨_, h'.received hrec hend⟩

theorem recvRst_of_steps (hrst : strm.recvRst = true) (hsteps : ReflTransGen StrmStep strm strm') :
    strm'.recvRst = true := by
  induction hsteps with
  | refl => exact hrst
  | tail _ hstep ih =>
    cases hstep with
    | same hsame => exact hsame.recvRst ih
    | received hrec =>
      rw [hrec.same]
      exact ih

theorem Step.regular {ops : List Op} {op : Op} (h : Regular conn) (hstep : Step ops conn op conn')
    (hproper : op.Proper) : Regular conn' := by
  refine ⟨h.reach.step hstep, hstep.collects h.reach hproper.sized h.collects,
    hstep.wideUnused h.reach hproper h.wide, fun id strm hid hfind => ?_⟩
  have hev := Step.evolved h.reach hstep hproper.sized h.collects
  rcases hev.strms id strm hid hfind with ⟨strm₀, hold, hsteps⟩ | ⟨-, strm₀, hblank, hsteps⟩
  · obtain ⟨n, hcharged⟩ := h.charged id strm₀ hid hold
    exact hcharged.steps hsteps
  · exact hblank.chargedTo.steps hsteps

theorem Step.later {ops : List Op} {op : Op} (h : Regular conn) (hstep : Step ops conn op conn')
    (hproper : op.Proper) : Later conn conn' := by
  have hch := Step.changes h.reach.wellFormed hstep
  exact ⟨Step.evolved h.reach hstep hproper.sized h.collects,
    hch.keeps (fun c => c.server = conn.server) (fun _ _ _ _ hP hc => hc.server.trans hP) rfl,
    fun id => hch.checkStreamId h.collects.used.ids⟩

theorem Later.trans (h : Later conn conn₁) (h' : Later conn₁ conn') : Later conn conn' :=
  ⟨h.evolved.trans h'.evolved, h'.server.trans h.server, fun id hc => h'.check id (h.check id hc)⟩

theorem ProperRun.later {ops : List Op} (h : Regular conn) (hrun : ProperRun conn ops conn') :
    Regular conn' ∧ Later conn conn' := by
  refine hrun.invariant (fun _ c => Regular c ∧ Later conn c)
    ⟨h, .refl conn, rfl, fun _ hc => hc⟩ ?_
  rintro ops c op c' ⟨hreg, hlater⟩ ⟨hstep, hproper⟩
  exact ⟨Step.regular hreg hstep hproper, hlater.trans (Step.later hreg hstep hproper)⟩

theorem Initial.regular {conn₀ : Conn} {ops : List Op} (init : Initial conn₀)
    (hrun : ProperRun conn₀ ops conn) : Regular conn := by
  refine (ProperRun.later ⟨init.reachable, collects_of_run init .nil, init.wideUnused,
    fun id strm hid hfind => ?_⟩ hrun).1
  have hnone : conn₀.strms id = none := by cases init <;> exact if_neg hid
  rw [hnone] at hfind
  cases hfind

/-! ## RST_STREAM again -/

/-- The frame is accepted, and changes no stream, no credit and no queued frame. -/
structure Absorbed (conn : Conn) (r : Result Unit) : Prop where
  ok : r.1 = .ok ()
  strms : r.2.strms = conn.strms
  rxOffset : r.2.rxOffset = conn.rxOffset
  maxRxOffset : r.2.maxRxOffset = conn.maxRxOffset
  unsentMaxRxOffset : r.2.unsentMaxRxOffset = conn.unsentMaxRxOffset
  txOffset : r.2.txOffset = conn.txOffset
  maxTxOffset : r.2.maxTxOffset = conn.maxTxOffset
  frq : r.2.frq = conn.frq

/-- The ID of a stream that the peer may name, and that was used. -/
structure Known (id : Nat) (conn : Conn) : Prop where
  nonzero : id ≠ 0
  check : connCheckStreamId conn id = none
  used : Used conn id

theorem Later.known (h : Later conn conn') (hknown : Known id conn) : Known id conn' :=
  ⟨hknown.nonzero, h.check id hknown.check, h.evolved.used id hknown.used⟩

/-- The peer has ended the stream by RST_STREAM. -/
structure EndedByPeer (id : Nat) (conn : Conn) : Prop extends Known id conn where
  rst : ∀ strm, conn.strms id = some strm → strm.recvRst = true

theorem Later.endedByPeer (h : Later conn conn') (hend : EndedByPeer id conn) :
    EndedByPeer id conn' := by
  refine ⟨h.known hend.toKnown, fun strm' hfind => ?_⟩
  rcases h.evolved.strms id strm' hend.nonzero hfind with ⟨strm, hold, hsteps⟩ | ⟨hunused, -⟩
  · exact recvRst_of_steps (hend.rst strm hold) hsteps
  · exact absurd hend.used hunused

theorem connRecvRstStream_ends {fr : RstStreamFrame} (h : Regular conn)
    (hwire : (Frame.rstStream fr).WireRange) (hok : connRecvRstStream conn fr = (.ok (), conn')) :
    Regular conn' ∧ EndedByPeer fr.streamId conn' := by
  have hstep : Step [] conn (.recvFrame false (.rstStream fr)) conn' := ⟨_, hok, rfl⟩
  have hlater := Step.later h hstep hwire
  obtain ⟨hid, hcheck, htaken⟩ :=
    connRecvRstStream_taken h.collects.used h.wide hwire.1 hok
  refine ⟨Step.regular h hstep hwire, ⟨hid, hlater.check _ hcheck, ?_⟩, fun strm hfind => ?_⟩
  · cases htaken with
    | ignored _ used => exact hlater.evolved.used _ used
    | consumed _ remote _ _ consumes =>
      rw [consumes]
      exact (consumeId_used h.collects.used.ids remote _).mpr (.inr rfl)
    | marked strm find =>
      exact hlater.evolved.used _ (h.collects.used.live _ hid (by rw [find]; rfl))
  · cases htaken with
    | ignored none _ same =>
      rw [same, none] at hfind
      cases hfind
    | consumed none _ _ _ consumes =>
      rw [consumes, consumeId_strms, none] at hfind
      cases hfind
    | marked strm₀ _ _ _ _ _ strms =>
      have hmarked := strms _ strm hfind
      rw [if_pos rfl] at hmarked
      obtain rfl := Option.some.inj hmarked
      rfl

theorem markRecvRst_self (hshut : strm.shutRd = true) (hrst : strm.recvRst = true) :
    strm.markRecvRst = strm := by
  cases strm
  cases hshut
  cases hrst
  rfl

/-- RST_STREAM again on a stream without an object. -/
theorem connRecvRstStream_over {fr : RstStreamFrame} (h : Regular conn)
    (hle : fr.streamId ≤ maxVarint) (hend : EndedByPeer fr.streamId conn)
    (hnone : conn.strms fr.streamId = none) :
    connRecvRstStream conn fr =
      if connLocalStream conn fr.streamId ∧ !bidiStream fr.streamId ∧ fr.finalOffset ≠ 0 then
        (.error .finalOffset, conn)
      else (.ok (), conn) := by
  unfold connRecvRstStream
  rw [if_neg hend.nonzero, hend.check]
  dsimp only
  rw [hnone]
  dsimp only
  cases hlocal : connLocalStream conn fr.streamId with
  | true => simp
  | false =>
    have hopen := (h.wide.isOpen h.collects.used.ids hle hlocal).mpr hend.used
    rw [if_neg Bool.false_ne_true, if_pos hopen, if_neg (by simp)]

/-- RST_STREAM again on a stream with its object. -/
theorem connRecvRstStream_again {fr : RstStreamFrame} (h : Regular conn)
    (hend : EndedByPeer fr.streamId conn) (hfind : conn.strms fr.streamId = some strm) :
    connRecvRstStream conn fr =
      if strm.lastRxOffset = fr.finalOffset then
        ngtcp2ConnCloseStreamIfShutRdwr conn strm fr.appErrorCode
      else (.error .finalOffset, conn) := by
  obtain ⟨n, hcharged⟩ := h.charged _ strm hend.nonzero hfind
  have hrst := hend.rst strm hfind
  have hshut := hcharged.shutRd hrst
  have hsid := h.collects.used.keyed _ _ hfind
  unfold connRecvRstStream
  rw [if_neg hend.nonzero, hend.check]
  dsimp only
  rw [hfind]
  dsimp only
  rw [hshut]
  by_cases hlast : strm.lastRxOffset = fr.finalOffset
  · have hmark := markRecvRst_self hshut hrst
    have hroom : ¬(strm.maxRxOffset < fr.finalOffset ∨
        connMaxDataViolated conn (fr.finalOffset - strm.lastRxOffset) = true) := by
      have hle := hcharged.limits.last_le
      have hviolated : connMaxDataViolated conn 0 = false := by simp [connMaxDataViolated]
      rw [← hlast, Nat.sub_self, hviolated]
      simp only [Bool.false_eq_true, or_false]
      omega
    have hsame : (conn.setRxOffset (conn.rxOffset + (fr.finalOffset - strm.lastRxOffset))).setStrm
        strm = conn := by
      rw [← hlast, Nat.sub_self]
      exact Conn.setStrm_of_eq (hsid.symm ▸ hfind)
    rw [if_neg (by simp [hlast]), if_neg (by simp), if_neg hroom, hmark, hsame, if_pos hlast]
  · rw [if_pos ⟨rfl, hlast⟩, if_neg hlast]

theorem Absorbed.same (conn : Conn) : Absorbed conn (.ok (), conn) :=
  ⟨rfl, rfl, rfl, rfl, rfl, rfl, rfl, rfl⟩

theorem absorbed_closeIfShut_iff {code : Nat} (hfind : conn.strms strm.streamId = some strm) :
    Absorbed conn (ngtcp2ConnCloseStreamIfShutRdwr conn strm code) ↔
      strmShutRdwr strm = false := by
  unfold ngtcp2ConnCloseStreamIfShutRdwr
  cases hshut : strmShutRdwr strm with
  | false =>
    rw [if_neg Bool.false_ne_true]
    exact ⟨fun _ => rfl, fun _ => .same conn⟩
  | true =>
    rw [if_pos rfl]
    refine ⟨fun habs => ?_, nofun⟩
    rcases ngtcp2ConnCloseStream_spec strm code hfind with ⟨e, c, heq, -⟩ | ⟨c, heq, hclosed⟩
    · rw [heq] at habs
      cases habs.ok
    · rw [heq] at habs
      have hsome : c.strms strm.streamId = some strm := by rw [habs.strms, hfind]
      rw [hclosed.strms] at hsome
      have hnone : (conn.removeStrm strm.streamId).strms strm.streamId = none := if_pos rfl
      rw [hnone] at hsome
      cases hsome

/-- The stream is as the frame ended it, and not waiting to be closed. -/
structure RstRepeats (conn : Conn) (fr : RstStreamFrame) : Prop where
  uni : conn.strms fr.streamId = none → connLocalStream conn fr.streamId = true →
    bidiStream fr.streamId = false → fr.finalOffset = 0
  live : ∀ strm, conn.strms fr.streamId = some strm →
    strm.lastRxOffset = fr.finalOffset ∧ strmShutRdwr strm = false

theorem rstRepeats_iff {fr : RstStreamFrame} (h : Regular conn) (hle : fr.streamId ≤ maxVarint)
    (hend : EndedByPeer fr.streamId conn) :
    Absorbed conn (connRecvRstStream conn fr) ↔ RstRepeats conn fr := by
  cases hfind : conn.strms fr.streamId with
  | none =>
    rw [connRecvRstStream_over h hle hend hfind]
    split
    · next hbad =>
      refine ⟨fun habs => (nomatch habs.ok), fun hrep => ?_⟩
      exact absurd (hrep.uni hfind hbad.1 (by simpa using hbad.2.1)) hbad.2.2
    · next hgood =>
      refine ⟨fun _ => ⟨fun _ hlocal huni => ?_, fun strm hsome => ?_⟩, fun _ => .same conn⟩
      · by_contra hne
        exact hgood ⟨hlocal, by simp [huni], hne⟩
      · rw [hfind] at hsome
        cases hsome
  | some strm =>
    have hsid := h.collects.used.keyed _ _ hfind
    have hlive : RstRepeats conn fr ↔
        strm.lastRxOffset = fr.finalOffset ∧ strmShutRdwr strm = false := by
      refine ⟨fun hrep => hrep.live strm hfind, fun hc => ⟨fun hnone => ?_, fun s hs => ?_⟩⟩
      · rw [hfind] at hnone
        cases hnone
      · obtain rfl := Option.some.inj (hfind.symm.trans hs)
        exact hc
    rw [connRecvRstStream_again h hend hfind, hlive]
    split
    · next hlast =>
      rw [absorbed_closeIfShut_iff (hsid.symm ▸ hfind)]
      exact ⟨fun hshut => ⟨hlast, hshut⟩, And.right⟩
    · next hlast => exact ⟨fun habs => (nomatch habs.ok), fun hc => absurd hc.1 hlast⟩

/-! ## Late data -/

/-- The call is accepted or an assertion fails. -/
def Asserts (r : Except Err Unit) : Prop := r = .ok () ∨ r = .error .abort

theorem connEmitPendingStreamData_succeeds (hcall : CallbacksSucceed conn) (fuel rx : Nat)
    (hfind : conn.strms strm.streamId = some strm) :
    (connEmitPendingStreamData fuel conn strm rx).1 = .error .abort ∨
      ∃ strm' conn', connEmitPendingStreamData fuel conn strm rx = (.ok strm', conn') ∧
        CallbacksSucceed conn' ∧ conn'.strms strm'.streamId = some strm' := by
  induction fuel generalizing conn strm rx with
  | zero => exact .inl rfl
  | succ fuel ih =>
    unfold connEmitPendingStreamData
    split
    · exact .inl rfl
    dsimp only
    split
    · split
      · exact .inr ⟨strm, conn, rfl, hcall, hfind⟩
      · exact .inl rfl
    unfold connCallRecvStreamData
    rw [connCall_succeeds hcall, andThen_ok]
    split
    · exact .inl rfl
    · generalize hset : Conn.setStrm _ _ = conn₁
      have hcall₁ : CallbacksSucceed conn₁ := by
        rw [← hset]
        exact fun log ev => hcall log ev
      refine ih hcall₁ _ ?_
      rw [← hset]
      exact setStrm_find _ _

theorem connRecvStreamDeliver_succeeds {fr : StreamFrame} (hcall : CallbacksSucceed conn)
    (hid : strm.streamId ≠ 0) (rx : Nat) :
    Asserts (connRecvStreamDeliver conn strm fr rx).1 := by
  have hclose : ∀ {strm' : Strm} {conn' : Conn}, CallbacksSucceed conn' →
      conn'.strms strm'.streamId = some strm' →
      Asserts (ngtcp2ConnCloseStreamIfShutRdwr conn' strm' 0).1 := by
    intro strm' conn' hcall' hfind
    obtain ⟨c, heq, -⟩ := ngtcp2ConnCloseStreamIfShutRdwr_succeeds hcall' 0 hfind
    rw [heq]
    exact .inl rfl
  unfold connRecvStreamDeliver
  dsimp only
  generalize hcut : strm.setRob (robRemovePrefix strm.rob
    (rx + (fr.data.drop (rx - fr.offset)).length)) = strm₀
  have hid₀ : strm₀.streamId ≠ 0 := by
    rw [← hcut]
    exact hid
  rw [if_neg hid₀]
  split
  · unfold connCallRecvStreamData
    have hcall₀ : CallbacksSucceed (conn.setStrm strm₀) := fun log ev => hcall log ev
    rw [connCall_succeeds hcall₀, andThen_ok]
    generalize Event.recvStreamData strm₀.streamId _ _ = ev
    have hfind₁ : ((conn.setStrm strm₀).tell ev).strms strm₀.streamId = some strm₀ :=
      setStrm_find _ _
    have hcall₁ : CallbacksSucceed ((conn.setStrm strm₀).tell ev) := fun log ev => hcall log ev
    rcases connEmitPendingStreamData_succeeds hcall₁ (emitFuel strm₀.rob)
      (rx + (fr.data.drop (rx - fr.offset)).length) hfind₁ with
      habort | ⟨strm', conn', heq, hcall', hfind'⟩
    · refine .inr ?_
      generalize connEmitPendingStreamData _ _ _ _ = res at habort ⊢
      obtain ⟨r, c⟩ := res
      obtain rfl : r = .error .abort := habort
      rfl
    · rw [heq, andThen_ok]
      exact hclose hcall' hfind'
  · rw [andThen_ok]
    exact hclose (fun log ev => hcall log ev) (setStrm_find _ _)

theorem connRecvStreamNoFin_succeeds {fr : StreamFrame} (hcall : CallbacksSucceed conn)
    (hid : strm.streamId ≠ 0) (hle : fr.endOffset ≤ strm.lastRxOffset) :
    Asserts (connRecvStreamNoFin conn strm fr).1 := by
  unfold connRecvStreamNoFin
  rw [if_neg fun hc => Nat.not_lt_of_le hle hc.2]
  dsimp only
  split
  · exact .inl rfl
  split
  · exact .inl rfl
  · generalize hset : strm.setLastRxOffset (max strm.lastRxOffset fr.endOffset) = strm₁
    have hid₁ : strm₁.streamId ≠ 0 := by
      rw [← hset]
      exact hid
    have hcall₁ : CallbacksSucceed (conn.setStrm strm₁) := fun log ev => hcall log ev
    exact connRecvStreamDeliver_succeeds hcall₁ hid₁ _

/-- Data below the highest offset received is accepted. -/
theorem connRecvStreamNoFin_below {fr : StreamFrame} (hcall : CallbacksSucceed conn)
    (hid : strm.streamId ≠ 0) (hholding : Holding conn strm) (hfin : fr.fin = false)
    (hle : fr.endOffset ≤ strm.lastRxOffset) : (connRecvStreamNoFin conn strm fr).1 = .ok () := by
  obtain ⟨w, hw⟩ := hholding.rx
  have hmax : fr.endOffset ≤ maxVarint := Nat.le_trans hle hw.last_le
  rcases connRecvStreamNoFin_succeeds hcall hid hle with hok | habort
  · exact hok
  rcases connRecvStreamNoFin_spec hw hid (overwrite_writes w strm fr) hmax hfin with
    ⟨e, c, heq, hne⟩ | ⟨strm', evs, -, hrec, hends⟩
  · rw [heq] at habort
    exact absurd (Except.error.inj habort) hne
  · rcases hends with heq | ⟨code, heq⟩
    · rw [heq]
    · have hcall' : CallbacksSucceed (frameDone conn conn.fcStrms strm' evs) := fun log ev => by
        show conn.callbacks.reply log ev = none
        exact hcall log ev
      obtain ⟨c, heq', -⟩ :=
        ngtcp2ConnCloseStreamIfShutRdwr_succeeds hcall' code (setStrm_find _ strm')
      rw [heq, heq']

theorem connCheckStreamFrame_none {fr : StreamFrame} (hid : fr.streamId ≠ 0)
    (hcheck : connCheckStreamId conn fr.streamId = none) (hend : fr.endOffset ≤ maxVarint) :
    connCheckStreamFrame conn fr = none ↔ (fr.fin = true ∨ fr.data ≠ []) ∧
      (bidiStream fr.streamId = false → connLocalStream conn fr.streamId = true →
        fr.endOffset = 0) := by
  have hroom : ¬subU64 maxVarint fr.data.length < fr.offset := by
    unfold StreamFrame.endOffset at hend
    rw [subU64_of_le (by omega) (by decide)]
    omega
  unfold connCheckStreamFrame
  rw [if_neg fun hc => hid hc.1, hcheck]
  dsimp only
  rw [if_neg hroom]
  cases hfin : fr.fin <;> cases hdata : fr.data <;> simp

/-- The frame carries something, and it fits what was received of the stream. -/
structure Fits (conn : Conn) (fr : StreamFrame) : Prop where
  carries : fr.fin = true ∨ fr.data ≠ []
  uni : bidiStream fr.streamId = false → connLocalStream conn fr.streamId = true →
    fr.endOffset = 0
  live : ∀ strm, conn.strms fr.streamId = some strm →
    fr.endOffset ≤ strm.lastRxOffset ∧ (fr.fin = true → fr.endOffset = strm.lastRxOffset)

theorem connRecvStreamCharge_below {n : Nat} (hle : n ≤ strm.lastRxOffset)
    (hmax : strm.lastRxOffset ≤ strm.maxRxOffset) :
    connRecvStreamCharge conn strm n = (.ok (), conn) := by
  unfold connRecvStreamCharge
  rw [if_neg (Nat.not_lt_of_le (Nat.le_trans hle hmax)), if_neg fun hc => Nat.not_lt_of_le hle hc.1]

/-- Data behind the highest offset received of a stream that was reset is refused. -/
theorem connRecvStream_behind {fr : StreamFrame} (hshut : strm.shutRd = true)
    (hlt : strm.lastRxOffset < fr.endOffset) :
    ((connRecvStreamCharge conn strm fr.endOffset).andThen fun _ conn =>
      if fr.fin then connRecvStreamFin conn strm fr else connRecvStreamNoFin conn strm fr).1 ≠
      .ok () := by
  generalize connRecvStreamCharge conn strm fr.endOffset = res
  obtain ⟨r, conn₁⟩ := res
  cases r with
  | error e =>
    rw [andThen_error]
    exact nofun
  | ok _ =>
    rw [andThen_ok]
    split
    · rw [connRecvStreamFin, if_pos hshut, if_pos (Nat.ne_of_lt hlt)]
      exact nofun
    · rw [connRecvStreamNoFin, if_pos ⟨hshut, hlt⟩]
      exact nofun

/-- The frames of a stream that was reset which are accepted. -/
theorem connRecvStream_ok_iff {fr : StreamFrame} (h : Regular conn) (hcall : CallbacksSucceed conn)
    (hend : EndedByPeer fr.streamId conn) (hle : fr.endOffset ≤ maxVarint) :
    (connRecvStream conn fr).1 = .ok () ↔ Fits conn fr := by
  have hframe := connCheckStreamFrame_none hend.nonzero hend.check hle
  unfold connRecvStream
  cases hcheck : connCheckStreamFrame conn fr with
  | some e =>
    refine ⟨nofun, fun hfits => ?_⟩
    rw [hframe.mpr ⟨hfits.carries, hfits.uni⟩] at hcheck
    cases hcheck
  | none =>
  obtain ⟨hcarries, huni⟩ := hframe.mp hcheck
  dsimp only
  cases hfind : conn.strms fr.streamId with
  | none =>
    rw [connFindOrOpenStream_closed hfind (hend.used.usedId h.collects.used.ids), andThen_ok]
    refine ⟨fun _ => ⟨hcarries, huni, fun strm hsome => ?_⟩, fun _ => rfl⟩
    rw [hfind] at hsome
    cases hsome
  | some strm =>
  have hlive : Fits conn fr ↔
      fr.endOffset ≤ strm.lastRxOffset ∧ (fr.fin = true → fr.endOffset = strm.lastRxOffset) := by
    refine ⟨fun hfits => hfits.live strm hfind, fun hfits => ⟨hcarries, huni, fun s hs => ?_⟩⟩
    obtain rfl := Option.some.inj (hfind.symm.trans hs)
    exact hfits
  obtain ⟨n, hcharged⟩ := h.charged _ strm hend.nonzero hfind
  have hshut := hcharged.shutRd (hend.rst strm hfind)
  rw [connFindOrOpenStream_find hfind, andThen_ok, hlive]
  dsimp only
  rcases Nat.lt_or_ge strm.lastRxOffset fr.endOffset with hlt | hbelow
  · exact ⟨fun hok => absurd hok (connRecvStream_behind hshut hlt),
      fun hfits => absurd hfits.1 (Nat.not_le_of_lt hlt)⟩
  rw [connRecvStreamCharge_below hbelow hcharged.limits.last_le, andThen_ok]
  cases hfin : fr.fin with
  | true =>
    rw [if_pos rfl, connRecvStreamFin, if_pos hshut]
    split
    · next hne => exact ⟨nofun, fun hfits => absurd (hfits.2 rfl).symm hne⟩
    · next heq => exact ⟨fun _ => ⟨hbelow, fun _ => (not_not.mp heq).symm⟩, fun _ => rfl⟩
  | false =>
    have hid : strm.streamId ≠ 0 := h.collects.used.keyed _ _ hfind ▸ hend.nonzero
    rw [if_neg Bool.false_ne_true]
    exact ⟨fun _ => ⟨hbelow, nofun⟩, fun _ => connRecvStreamNoFin_below hcall hid
      (h.collects.holding _ _ hend.nonzero hfind) hfin hbelow⟩

/-! ## STOP_SENDING again -/

theorem connRecvStopSending_known {fr : StopSendingFrame} (h : Regular conn)
    (hwire : (Frame.stopSending fr).WireRange)
    (hok : connRecvStopSending conn fr = (.ok (), conn')) :
    Regular conn' ∧ Known fr.streamId conn' := by
  have hstep : Step [] conn (.recvFrame false (.stopSending fr)) conn' := ⟨_, hok, rfl⟩
  have hlater := Step.later h hstep hwire
  refine ⟨Step.regular h hstep hwire, ?_⟩
  unfold connRecvStopSending at hok
  split at hok
  · cases hok
  next hid =>
  split at hok
  · cases hok
  next hcheck =>
  by_cases hused : Used conn fr.streamId
  · exact hlater.known ⟨hid, hcheck, hused⟩
  -- An ID that was not used is one of the peer, and there is no object for it.
  have hremote : connLocalStream conn fr.streamId = false := by
    rw [← Bool.not_eq_true]
    intro hlocal
    rw [connCheckStreamId_none, if_pos hlocal] at hcheck
    exact hused hcheck
  have hnone : conn.strms fr.streamId = none := by
    cases hfind : conn.strms fr.streamId with
    | none => rfl
    | some strm => exact absurd (h.collects.used.live _ hid (by rw [hfind]; rfl)) hused
  have hclosed := mt (h.wide.isOpen h.collects.used.ids hwire.1 hremote).mp hused
  refine ⟨hid, hlater.check _ hcheck, ?_⟩
  dsimp only at hok
  rw [hnone] at hok
  dsimp only at hok
  rw [hremote, if_pos (by simpa using hclosed)] at hok
  have hconn : conn' = openId conn fr.streamId := by
    unfold openId
    dsimp only
    cases ho : idtrOpen (conn.ids (bidiStream fr.streamId)).remoteIdtr fr.streamId with
    | none => exact absurd (used_of_idtrOpen_none h.collects.used.ids hremote ho) hused
    | some idtr =>
      rw [ho] at hok
      exact (Prod.mk.inj hok).2.symm
  rw [hconn]
  exact (openId_used h.collects.used.ids hremote _).mpr (.inr rfl)

theorem connRecvStopSending_absorbed_iff {fr : StopSendingFrame} (h : Regular conn)
    (hle : fr.streamId ≤ maxVarint) (hknown : Known fr.streamId conn) :
    Absorbed conn (connRecvStopSending conn fr) ↔ conn.strms fr.streamId = none := by
  unfold connRecvStopSending
  rw [if_neg hknown.nonzero, hknown.check]
  dsimp only
  cases hfind : conn.strms fr.streamId with
  | none =>
    refine ⟨fun _ => rfl, fun _ => ?_⟩
    dsimp only
    rw [if_neg ?_]
    · exact .same conn
    rw [Bool.and_eq_true, Bool.not_eq_true', Bool.not_eq_true']
    rintro ⟨hremote, hclosed⟩
    have hopen := (h.wide.isOpen h.collects.used.ids hle hremote).mpr hknown.used
    rw [hopen] at hclosed
    cases hclosed
  | some strm =>
    refine ⟨fun habs => ?_, nofun⟩
    have hsid := h.collects.used.keyed _ _ hfind
    dsimp only at habs
    generalize hclose : ngtcp2ConnCloseStreamIfShutRdwr _ _ _ = res at habs
    obtain ⟨r, conn'⟩ := res
    obtain rfl : r = .ok () := habs.ok
    rcases (closeIfShut_ends (setStrm_find _ strm.markSentRst) hclose (not_fatal_ok _)).2 with
      rfl | ⟨-, hclosed⟩
    · exact absurd habs.frq (List.cons_ne_self _ _)
    · have hsome : conn'.strms strm.streamId = some strm := by rw [habs.strms, hsid, hfind]
      rw [hclosed.strms] at hsome
      exact absurd ((if_pos rfl).symm.trans hsome) nofun

/-! ## Repetitions in a run -/

/-- What the repetition of an accepted frame does, and which late data is accepted. -/
theorem repeatedFrames_iff {conn₀ : Conn} {ops : List Op} (init : Initial conn₀)
    (hrun : ProperRun conn₀ ops conn) :
    (∀ fr conn' ops' later, (Frame.rstStream fr).WireRange →
      connRecvRstStream conn fr = (.ok (), conn') → ProperRun conn' ops' later →
        (Absorbed later (connRecvRstStream later fr) ↔ RstRepeats later fr) ∧
        (CallbacksSucceed later → ∀ late : StreamFrame, late.streamId = fr.streamId →
          late.endOffset ≤ fr.finalOffset →
            ((connRecvStream later late).1 = .ok () ↔ Fits later late))) ∧
    (∀ fr conn' ops' later, (Frame.stopSending fr).WireRange →
      connRecvStopSending conn fr = (.ok (), conn') → ProperRun conn' ops' later →
        (Absorbed later (connRecvStopSending later fr) ↔ later.strms fr.streamId = none)) := by
  have h := init.regular hrun
  refine ⟨fun fr conn' ops' later hwire hok hlater => ?_,
    fun fr conn' ops' later hwire hok hlater => ?_⟩
  · obtain ⟨h', hend⟩ := connRecvRstStream_ends h hwire hok
    obtain ⟨hreg, hkept⟩ := ProperRun.later h' hlater
    have hend' := hkept.endedByPeer hend
    refine ⟨rstRepeats_iff hreg hwire.1 hend', fun hcall late hid hle => ?_⟩
    exact connRecvStream_ok_iff hreg hcall (hid ▸ hend') (hle.trans hwire.2.2)
  · obtain ⟨h', hknown⟩ := connRecvStopSending_known h hwire hok
    obtain ⟨hreg, hkept⟩ := ProperRun.later h' hlater
    exact connRecvStopSending_absorbed_iff hreg hwire.1 (hkept.known hknown)

end

/-- A server that received three bytes of a stream. -/
def threeBytesOps : List Op := [.recvFrame false (.stream ⟨4, 0, [1, 2, 3], false⟩)]

def threeBytes : Conn := runOps smallServer threeBytesOps

theorem threeBytes_run : ProperRun smallServer threeBytesOps threeBytes :=
  Runs.Run.nil.snoc ⟨⟨_, rfl, rfl⟩, ⟨by decide, by decide, by decide⟩⟩

/-- A reset behind the data that was received: its repetition and the data before it are refused.
A repeated STOP_SENDING queues another reset. -/
theorem repeatedFrames_refused :
    ProperRun smallServer threeBytesOps threeBytes ∧
      (connRecvRstStream threeBytes ⟨4, 0, 5⟩).1 = .ok () ∧
      (connRecvRstStream (connRecvRstStream threeBytes ⟨4, 0, 5⟩).2 ⟨4, 0, 5⟩).1 =
        .error .finalOffset ∧
      (connRecvStream (connRecvRstStream threeBytes ⟨4, 0, 5⟩).2 ⟨4, 3, [4], false⟩).1 =
        .error .finalOffset ∧
      (connRecvStopSending threeBytes ⟨4, 0⟩).2.frq = [.rstStream ⟨4, 0, 0⟩] ∧
      (connRecvStopSending (connRecvStopSending threeBytes ⟨4, 0⟩).2 ⟨4, 0⟩).2.frq =
        [.rstStream ⟨4, 0, 0⟩, .rstStream ⟨4, 0, 0⟩] :=
  ⟨threeBytes_run, rfl, rfl, rfl, rfl, rfl⟩

/-- A reset at the end of the data is absorbed again, and so is the last byte before it. -/
theorem repeatedFrames_iff_end :
    Absorbed (connRecvRstStream threeBytes ⟨4, 0, 3⟩).2
      (connRecvRstStream (connRecvRstStream threeBytes ⟨4, 0, 3⟩).2 ⟨4, 0, 3⟩) ∧
    (connRecvStream (connRecvRstStream threeBytes ⟨4, 0, 3⟩).2 ⟨4, 2, [3], false⟩).1 = .ok () := by
  obtain ⟨hrepeat, hlate⟩ := (repeatedFrames_iff (.server ..) threeBytes_run).1 ⟨4, 0, 3⟩ _ [] _
    ⟨by decide, by decide, by decide⟩ rfl .nil
  refine ⟨hrepeat.mpr ⟨nofun, fun strm hfind => ?_⟩,
    (hlate (fun _ _ => rfl) ⟨4, 2, [3], false⟩ rfl (by decide)).mpr
      ⟨by decide, nofun, fun strm hfind => ?_⟩⟩
  · obtain rfl := Option.some.inj hfind
    exact ⟨rfl, rfl⟩
  · obtain rfl := Option.some.inj hfind
    exact ⟨by decide, nofun⟩

end Ngtcp2
