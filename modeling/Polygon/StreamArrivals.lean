import Polygon.Endpoints
import Polygon.ReceivedOffsets
import Polygon.StreamChanges

/-!
# What a step hears of a stream

Only a STREAM frame of the stream moves its receive side on, and only RST_STREAM shuts it without
one. Every other step leaves what was received as it is.
-/
namespace Ngtcp2

open Ranges

/-- The call delivers nothing of the stream. -/
def Event.unheard (id : Nat) (ev : Event) : Prop := ∀ fin data, ev ≠ .recvStreamData id fin data

/-- What was received is the same; so is the end, unless RST_STREAM marks the stream. -/
structure SameHeard (rst : Bool) (strm strm' : Strm) : Prop where
  rob : strm'.rob = strm.rob
  lastRxOffset : strm'.lastRxOffset = strm.lastRxOffset
  ending : (strm'.shutRd = strm.shutRd ∧ strm'.recvRst = strm.recvRst) ∨
    (rst = true ∧ strm'.recvRst = true)

/-- Nothing was received on the stream, which is shut only if it is one's own unidirectional one. -/
structure Unread (conn : Conn) (id : Nat) (strm : Strm) : Prop where
  rob : ∃ mem, strm.rob = robInit strmRobChunk mem
  last : strm.lastRxOffset = 0
  noRst : strm.recvRst = false
  shutRd : strm.shutRd = true → connLocalStream conn id = true ∧ bidiStream id = false

/-- Nothing of the stream is received in between. -/
structure Unheard (rst : Bool) (id : Nat) (conn conn' : Conn) : Prop where
  strms : ∀ strm', conn'.strms id = some strm' →
    (∃ strm, conn.strms id = some strm ∧ SameHeard rst strm strm') ∨
      (¬Used conn id ∧ Unread conn id strm')
  log : ∃ evs, conn'.log = conn.log ++ evs ∧ ∀ ev ∈ evs, ev.unheard id

/-- The step reads RST_STREAM for the stream. -/
def Op.resets (id : Nat) (op : Op) : Bool :=
  op.readFrames.any fun
    | .rstStream fr => fr.streamId == id
    | _ => false

/-- What a step hears of a stream. -/
inductive Heard (id : Nat) (conn : Conn) (op : Op) (conn' : Conn) : Prop where
  | nothing (unheard : Unheard (op.resets id) id conn conn')
  | frame (fr : StreamFrame) (read : .stream fr ∈ op.readFrames) (streamId : fr.streamId = id)
      (run : connRecvStream conn fr = (.ok (), conn'))

section
variable {H : List Frame} {K : List Kind} {conn conn₁ conn' : Conn} {strm strm' strm₁ : Strm}
  {id : Nat} {k : Kind} {rst : Bool} {ops : List Op} {op : Op}

theorem SameHeard.refl (rst : Bool) (strm : Strm) : SameHeard rst strm strm :=
  ⟨rfl, rfl, .inl ⟨rfl, rfl⟩⟩

theorem SameHeard.trans (h : SameHeard rst strm strm₁) (h' : SameHeard rst strm₁ strm') :
    SameHeard rst strm strm' := by
  refine ⟨h'.rob.trans h.rob, h'.lastRxOffset.trans h.lastRxOffset, ?_⟩
  rcases h'.ending with ⟨hshut', hrecv'⟩ | hreset
  · rcases h.ending with ⟨hshut, hrecv⟩ | ⟨hrst, hmarked⟩
    · exact .inl ⟨hshut'.trans hshut, hrecv'.trans hrecv⟩
    · exact .inr ⟨hrst, hrecv'.trans hmarked⟩
  · exact .inr hreset

theorem SameHeard.kept (h : SameHeard false strm strm') :
    strm'.shutRd = strm.shutRd ∧ strm'.recvRst = strm.recvRst :=
  h.ending.resolve_right fun hreset => Bool.false_ne_true hreset.1

theorem SameHeard.unread (h : SameHeard false strm strm') (hu : Unread conn id strm) :
    Unread conn id strm' := by
  obtain ⟨hshut, hrecv⟩ := h.kept
  constructor
  · rw [h.rob]
    exact hu.rob
  · exact h.lastRxOffset.trans hu.last
  · exact hrecv.trans hu.noRst
  · exact fun hs => hu.shutRd (hshut.symm.trans hs)

theorem Unheard.of_same (hstrms : conn'.strms id = conn.strms id)
    (hlog : ∃ evs, conn'.log = conn.log ++ evs ∧ ∀ ev ∈ evs, ev.unheard id) :
    Unheard rst id conn conn' :=
  ⟨fun strm' hfind => .inl ⟨strm', hstrms.symm.trans hfind, .refl rst strm'⟩, hlog⟩

theorem Unheard.refl (rst : Bool) (id : Nat) (conn : Conn) : Unheard rst id conn conn :=
  .of_same rfl ⟨[], (List.append_nil _).symm, fun _ hev => absurd hev List.not_mem_nil⟩

theorem Unheard.weaken (h : Unheard false id conn conn') (rst : Bool) :
    Unheard rst id conn conn' := by
  refine ⟨fun strm' hfind => ?_, h.log⟩
  rcases h.strms strm' hfind with ⟨strm, hold, hsame⟩ | hnew
  · exact .inl ⟨strm, hold, hsame.rob, hsame.lastRxOffset, .inl hsame.kept⟩
  · exact .inr hnew

theorem Unheard.trans (h : Unheard false id conn conn₁) (h' : Unheard false id conn₁ conn')
    (hmono : Used conn id → Used conn₁ id) (hserver : conn₁.server = conn.server) :
    Unheard false id conn conn' := by
  constructor
  · intro strm' hfind
    rcases h'.strms strm' hfind with ⟨strm₁, hfind₁, hsame⟩ | ⟨hunused, hunread⟩
    · rcases h.strms strm₁ hfind₁ with ⟨strm, hold, hsame'⟩ | ⟨hunused, hunread⟩
      · exact .inl ⟨strm, hold, hsame'.trans hsame⟩
      · exact .inr ⟨hunused, hsame.unread hunread⟩
    · refine .inr ⟨fun hu => hunused (hmono hu), hunread.rob, hunread.last, hunread.noRst, ?_⟩
      intro hs
      rw [← connLocalStream_congr hserver]
      exact hunread.shutRd hs
  · obtain ⟨evs, hlog, hevs⟩ := h.log
    obtain ⟨evs', hlog', hevs'⟩ := h'.log
    refine ⟨evs ++ evs', by rw [hlog', hlog, List.append_assoc], fun ev hev => ?_⟩
    rcases List.mem_append.mp hev with hev | hev
    · exact hevs ev hev
    · exact hevs' ev hev

/-- An unheard stretch of the log delivers nothing and reports no end. -/
theorem Unheard.quiet (h : Unheard rst id conn conn') :
    deliveredData id conn'.log = deliveredData id conn.log ∧
      finCount id conn'.log = finCount id conn.log := by
  obtain ⟨evs, hlog, hevs⟩ := h.log
  rw [hlog]
  constructor
  · apply deliveredData_quiet
    intro ev hev
    cases ev with
    | recvStreamData i fin data =>
      apply if_neg
      rintro rfl
      exact hevs _ hev fin data rfl
    | _ => rfl
  · rw [finCount_append]
    apply Nat.add_eq_left.mpr
    apply List.countP_eq_zero.mpr
    intro ev hev
    cases ev with
    | recvStreamData i fin data =>
      have hne : i ≠ id := by
        rintro rfl
        exact hevs _ hev fin data rfl
      simp [isFinEv, hne]
    | _ => exact Bool.false_ne_true

/-! ## Changes -/

theorem StrmChange.heard (h : StrmChange k strm strm') (hk : k ≠ .rx) :
    SameHeard false strm strm' := by
  cases h with
  | rx => exact absurd rfl hk
  | window tx rx | extend tx rx => exact ⟨rx.rob, rx.lastRxOffset, .inl ⟨rx.shutRd, rx.recvRst⟩⟩
  | tx => split <;> exact ⟨rfl, rfl, .inl ⟨rfl, rfl⟩⟩
  | _ => exact ⟨rfl, rfl, .inl ⟨rfl, rfl⟩⟩

theorem openedStrm_unread (conn conn' : Conn) (id : Nat) : Unread conn' id (openedStrm conn id) := by
  have hfresh := openedStrm_fresh conn id
  have hshut := (openedStrm_open conn id).noShut
  constructor
  · exact hfresh.rob
  · exact hfresh.last
  · exact hfresh.noRst
  · intro hs
    rw [hshut] at hs
    cases hs

/-- The events of a change that receives nothing. -/
theorem Change.logUnheard (h : Change H k conn conn') (hk : k ≠ .rx) (id : Nat) :
    ∃ evs, conn'.log = conn.log ++ evs ∧ ∀ ev ∈ evs, ev.unheard id := by
  have hsame : conn'.log = conn.log →
      ∃ evs, conn'.log = conn.log ++ evs ∧ ∀ ev ∈ evs, ev.unheard id :=
    fun heq => ⟨[], heq.trans (List.append_nil _).symm, fun _ hev => absurd hev List.not_mem_nil⟩
  have hone : ∀ ev : Event, conn'.log = conn.log ++ [ev] → ev.unheard id →
      ∃ evs, conn'.log = conn.log ++ evs ∧ ∀ ev ∈ evs, ev.unheard id :=
    fun ev hlog hev => ⟨[ev], hlog, fun e he => List.mem_singleton.mp he ▸ hev⟩
  cases h with
  | idle same =>
    obtain ⟨evs, hsilent, hlog⟩ := same.log
    refine ⟨evs, hlog, fun ev hev fin data heq => ?_⟩
    have hs := hsilent ev hev
    rw [heq] at hs
    cases hs
  | encrypt hd => exact hone _ rfl nofun
  | rx => exact absurd rfl hk
  | openRemote => exact hone _ (openRemote_log ..) nofun
  | openLocal => exact hone _ (openLocal_log ..) nofun
  | consume => exact hsame (consumeId_log ..)
  | close => exact hone _ (closeStrm_log ..) nofun
  | raiseIds => exact hsame (Conn.setIds_log ..)
  | rst => exact hone _ rfl nofun
  | pktAcked => exact hone _ rfl nofun
  | @tx _ _ fr hd =>
    refine hsame ?_
    show (trackStreamPkt conn hd fr _ _).log = conn.log
    unfold trackStreamPkt
    split <;> rfl
  | _ => exact hsame rfl

theorem Change.unheard (h : Change H k conn conn') (hk : k ≠ .rx) (hopen : k ≠ .openLocal)
    (hinv : IdsInv conn) (hid : id ≠ 0) : Unheard false id conn conn' := by
  refine ⟨fun strm' hfind => ?_, h.logUnheard hk id⟩
  cases h.strmFrom hinv hid hfind with
  | kept strm find change => exact .inl ⟨strm, find, change.heard hk⟩
  | opened unused streamId fresh =>
    cases fresh with
    | remote remote opened =>
      rw [opened, streamId]
      exact .inr ⟨unused, openedStrm_unread conn conn id⟩
    | isLocal => exact absurd rfl hopen

theorem Changes.unheard (h : Changes H K conn conn') (hK : ∀ k ∈ K, k ≠ .rx ∧ k ≠ .openLocal)
    (hinv : IdsInv conn) (hid : id ≠ 0) : Unheard false id conn conn' := by
  refine (h.keeps (fun c => Unheard false id conn c ∧ IdsInv c ∧ c.server = conn.server ∧
    (Used conn id → Used c id)) (fun k hk c c' hP hc => ?_)
    ⟨.refl false id conn, hinv, rfl, fun hu => hu⟩).1
  obtain ⟨hun, hids, hserver, hmono⟩ := hP
  have hstep := hc.unheard (hK k hk).1 (hK k hk).2 hids hid
  exact ⟨hun.trans hstep hmono hserver, hc.idsInv hids, hc.server.trans hserver,
    fun hu => hc.used hids (hmono hu)⟩

/-! ## STREAM frames -/

theorem connFindOrOpenStream_unheard (hc : Collects conn) {streamId : Nat}
    {r : Except Err (Option Strm)} (h : connFindOrOpenStream conn streamId = (r, conn₁))
    (id : Nat) :
    Unheard false id conn conn₁ ∧ (id ≠ streamId → conn₁.strms id = conn.strms id) := by
  have hsame : conn₁ = conn →
      Unheard false id conn conn₁ ∧ (id ≠ streamId → conn₁.strms id = conn.strms id) := by
    rintro rfl
    exact ⟨.refl false id conn₁, fun _ => rfl⟩
  cases hfind : conn.strms streamId with
  | some strm =>
    rw [connFindOrOpenStream_find hfind] at h
    exact hsame (Prod.mk.inj h).2.symm
  | none =>
    by_cases hloc : connLocalStream conn streamId = true
    · rw [connFindOrOpenStream_closed hfind (.inl hloc)] at h
      exact hsame (Prod.mk.inj h).2.symm
    have hremote : connLocalStream conn streamId = false := Bool.eq_false_iff.mpr hloc
    cases ho : idtrOpen (conn.ids (bidiStream streamId)).remoteIdtr streamId with
    | none =>
      rw [connFindOrOpenStream_closed hfind (.inr ho)] at h
      exact hsame (Prod.mk.inj h).2.symm
    | some idtr =>
      rw [connFindOrOpenStream_open hfind hremote ho] at h
      obtain ⟨-, rfl⟩ := Prod.mk.inj h
      have hstrms : ∀ i, (openRemote conn streamId idtr).strms i =
          if i = streamId then some (openedStrm conn streamId) else conn.strms i := by
        intro i
        show ((conn.setIds (bidiStream streamId) _).setStrm (openedStrm conn streamId)).strms i = _
        rw [Conn.setStrm_strms, Conn.setIds_strms, openedStrm_streamId]
      refine ⟨⟨fun strm' hfind' => ?_, ?_⟩, fun hne => (hstrms id).trans (if_neg hne)⟩
      · rw [hstrms] at hfind'
        by_cases heq : id = streamId
        · rw [if_pos heq] at hfind'
          obtain rfl := Option.some.inj hfind'
          rw [heq]
          exact .inr ⟨not_used_of_idtrOpen hc.used.ids hremote ho,
            openedStrm_unread conn conn streamId⟩
        · rw [if_neg heq] at hfind'
          exact .inl ⟨strm', hfind', .refl false strm'⟩
      · refine ⟨[.strmInit streamId], openRemote_log conn streamId idtr, fun ev hev => ?_⟩
        rw [List.mem_singleton.mp hev]
        intro fin data heq
        cases heq

theorem Unheard.congr (h : Unheard rst id conn conn₁) (hstrms : conn'.strms id = conn₁.strms id)
    (hlog : conn'.log = conn₁.log) : Unheard rst id conn conn' := by
  constructor
  · rw [hstrms]
    exact h.strms
  · rw [hlog]
    exact h.log

/-- A refused STREAM frame. -/
theorem connRecvStream_refused {fr : StreamFrame} {e : Err} (hc : Collects conn)
    (hid : fr.streamId ≠ 0) (h : connRecvStream conn fr = (.error e, conn'))
    (he : ¬Fatal (.error e : Except Err Unit)) (id : Nat) : Unheard false id conn conn' := by
  obtain ⟨found, conn₁, hfound, -, -, hstrm⟩ := connFindOrOpenStream_aside hc fr.streamId
  have hopen := (connFindOrOpenStream_unheard hc hfound id).1
  unfold connRecvStream at h
  split at h
  · obtain ⟨-, rfl⟩ := Prod.mk.inj h
    exact .refl false id conn
  rw [hfound, andThen_ok] at h
  cases found with
  | none => cases h
  | some strm =>
    obtain ⟨hsid, -⟩ := hstrm strm rfl
    have hcharged : ∀ {r : Except Err Unit} {c : Conn},
        connRecvStreamCharge conn₁ strm fr.endOffset = (r, c) → Unheard false id conn c := by
      intro r c hcharge
      rcases connRecvStreamCharge_cases hcharge with ⟨rfl, -⟩ | ⟨-, -, -, rfl⟩
      · exact hopen
      · exact hopen.congr rfl rfl
    dsimp only at h
    rcases andThen_cases h with ⟨e', hcharge, -⟩ | ⟨_, conn₂, hcharge, hbranch⟩
    · exact hcharged hcharge
    · obtain rfl := connRecvStreamBranch_refused (hsid.symm ▸ hid) hbranch he
      exact hcharged hcharge

/-- A STREAM frame of another stream. -/
theorem connRecvStream_others {fr : StreamFrame} {r : Except Err Unit} (hc : Collects conn)
    (hid : fr.streamId ≠ 0) (h : connRecvStream conn fr = (r, conn')) (hr : ¬Fatal r)
    (hne : id ≠ fr.streamId) : Unheard false id conn conn' := by
  cases r with
  | error e => exact connRecvStream_refused hc hid h hr id
  | ok _ =>
    obtain ⟨found, conn₀, hfound₀, -, -, -⟩ := connFindOrOpenStream_aside hc fr.streamId
    obtain ⟨hopen₀, hsame₀⟩ := connFindOrOpenStream_unheard hc hfound₀ id
    cases connRecvStream_taken hc hid h hr with
    | aside aside keyed refused =>
      cases found with
      | some strm => exact absurd hfound₀ (refused rfl strm conn₀)
      | none =>
        unfold connRecvStream at h
        split at h
        · cases h
        rw [hfound₀, andThen_ok] at h
        obtain ⟨-, rfl⟩ := Prod.mk.inj h
        exact hopen₀
    | taken conn₁ strm strm' w rxOffset fcStrms evs found aside keyed holding streamId find
        received writes ok charge end_le room total ends =>
      obtain ⟨hopen, hsame⟩ := connFindOrOpenStream_unheard hc found id
      have hsid : strm'.streamId = fr.streamId := by
        rw [received.same]
        exact streamId
      have hstrms : (frameDone (conn₁.setRxOffset rxOffset) fcStrms strm' evs).strms id =
          conn.strms id := by
        show (if id = strm'.streamId then some strm' else conn₁.strms id) = _
        rw [hsid, if_neg hne]
        exact hsame hne
      obtain ⟨evs₁, hlog₁, hevs₁⟩ := hopen.log
      have hlog : ∀ ev ∈ evs₁ ++ evs, ev.unheard id := by
        intro ev hev
        rcases List.mem_append.mp hev with hev | hev
        · exact hevs₁ ev hev
        · obtain ⟨fin, d, rfl⟩ := received.told.only ev hev
          rintro fin' data heq
          obtain ⟨rfl, -⟩ := Event.recvStreamData.inj heq
          exact hne streamId
      have hdone : (frameDone (conn₁.setRxOffset rxOffset) fcStrms strm' evs).log =
          conn.log ++ (evs₁ ++ evs) := by
        rw [← List.append_assoc, ← hlog₁]
        rfl
      rcases ends with rfl | ⟨-, hclosed⟩
      · exact .of_same hstrms ⟨evs₁ ++ evs, hdone, hlog⟩
      · obtain ⟨code, hclog⟩ := hclosed.log
        refine .of_same ?_ ⟨evs₁ ++ evs ++ [.streamClose fr.streamId code], ?_, fun ev hev => ?_⟩
        · rw [hclosed.strms]
          exact (if_neg hne).trans hstrms
        · rw [hclog, hdone, List.append_assoc]
        · rcases List.mem_append.mp hev with hev | hev
          · exact hlog ev hev
          · rw [List.mem_singleton.mp hev]
            intro fin data heq
            cases heq

/-! ## RST_STREAM frames -/

theorem connRecvRstStream_unheard {fr : RstStreamFrame} {r : Except Err Unit}
    (hkeyed : StrmsKeyed conn) (h : connRecvRstStream conn fr = (r, conn')) (hr : ¬Fatal r)
    (hrst : fr.streamId = id → rst = true) : Unheard rst id conn conn' := by
  have hsame : ∀ {x : Except Err Unit} {c : Conn}, (x, c) = (r, conn') → c.strms = conn.strms →
      c.log = conn.log → Unheard rst id conn conn' := by
    intro x c heq hstrms hlog
    obtain ⟨-, rfl⟩ := Prod.mk.inj heq
    exact (Unheard.refl rst id conn).congr (congrFun hstrms id) hlog
  unfold connRecvRstStream at h
  split at h
  · exact hsame h rfl rfl
  split at h
  · exact hsame h rfl rfl
  dsimp only at h
  cases hfind : conn.strms fr.streamId with
  | none =>
    rw [hfind] at h
    dsimp only at h
    split at h
    · split at h <;> exact hsame h rfl rfl
    split at h
    · exact hsame h rfl rfl
    split at h
    · exact hsame h rfl rfl
    cases ho : idtrOpen (conn.ids (bidiStream fr.streamId)).remoteIdtr fr.streamId with
    | none =>
      rw [ho] at h
      exact hsame h rfl rfl
    | some idtr =>
      rw [ho] at h
      exact hsame h (Conn.setIds_strms _ _ _) (Conn.setIds_log _ _ _)
  | some strm =>
    rw [hfind] at h
    dsimp only at h
    split at h
    · exact hsame h rfl rfl
    split at h
    · exact hsame h rfl rfl
    split at h
    · exact hsame h rfl rfl
    have hsid := hkeyed _ _ hfind
    -- The stream is marked; all else is as before.
    have hmark : ∀ s, (if id = strm.streamId then some strm.markRecvRst else conn.strms id) =
        some s → ∃ strm₀, conn.strms id = some strm₀ ∧ SameHeard rst strm₀ s := by
      intro s hs
      by_cases heq : id = strm.streamId
      · rw [if_pos heq] at hs
        obtain rfl := Option.some.inj hs
        exact ⟨strm, (heq.trans hsid) ▸ hfind, rfl, rfl,
          .inr ⟨hrst (hsid.symm.trans heq.symm), rfl⟩⟩
      · rw [if_neg heq] at hs
        exact ⟨s, hs, .refl rst s⟩
    obtain ⟨-, rfl | ⟨-, hclosed⟩⟩ := closeIfShut_ends (setStrm_find _ strm.markRecvRst) h hr
    · refine ⟨fun s hs => .inl (hmark s ?_), [], (List.append_nil _).symm,
        fun _ hev => absurd hev List.not_mem_nil⟩
      rw [Conn.setStrm_strms] at hs
      exact hs
    · obtain ⟨code, hlog⟩ := hclosed.log
      refine ⟨fun s hs => .inl (hmark s ?_), [.streamClose strm.streamId code], hlog,
        fun ev hev => ?_⟩
      · rw [hclosed.strms] at hs
        change (if id = strm.streamId then none else _) = some s at hs
        split at hs
        · cases hs
        · next hne =>
          rw [Conn.setStrm_strms] at hs
          exact hs
      · rw [List.mem_singleton.mp hev]
        intro fin data heq
        cases heq

/-! ## Streams of this endpoint -/

theorem openLocal_unheard (bidi : Bool) (hinv : IdsInv conn)
    (hsid : strm.streamId = (conn.ids bidi).nextLocalStreamId)
    (hfresh : ∃ mem, strm.rob = robInit strmRobChunk mem) (hlast : strm.lastRxOffset = 0)
    (hrst : strm.recvRst = false) (hshut : strm.shutRd = true → bidi = false) :
    Unheard rst id conn (openLocal conn bidi strm) := by
  constructor
  · intro s hs
    rw [openLocal, Conn.setIds_strms] at hs
    change (if id = strm.streamId then some strm else conn.strms id) = some s at hs
    by_cases heq : id = strm.streamId
    · rw [if_pos heq] at hs
      obtain rfl := Option.some.inj hs
      refine .inr ⟨?_, hfresh, hlast, hrst, fun hrd => ?_⟩
      · unfold Used
        rw [heq, hsid, hinv.isLocal, hinv.kind]
        exact Nat.lt_irrefl _
      · rw [heq, hsid]
        exact ⟨hinv.isLocal bidi, (hinv.kind bidi).trans (hshut hrd)⟩
    · rw [if_neg heq] at hs
      exact .inl ⟨s, hs, .refl rst s⟩
  · refine ⟨[.strmInit strm.streamId], openLocal_log conn bidi strm, fun ev hev => ?_⟩
    rw [List.mem_singleton.mp hev]
    intro fin data heq
    cases heq

theorem ngtcp2ConnOpenBidiStream_unheard {r : Except Err Nat} (hinv : IdsInv conn)
    (h : ngtcp2ConnOpenBidiStream conn = (r, conn')) (hr : ¬Fatal r) :
    Unheard rst id conn conn' := by
  unfold ngtcp2ConnOpenBidiStream at h
  dsimp only at h
  split at h
  · obtain ⟨-, rfl⟩ := Prod.mk.inj h
    exact .refl rst id conn
  rcases andThen_cases h with ⟨e, h₁, rfl⟩ | ⟨strm, conn₁, h₁, h⟩
  · rcases ngtcp2ConnInitStream_cases h₁ with hfatal | ⟨-, he, -⟩
    · exact absurd hfatal.cast hr
    · cases he
  rcases ngtcp2ConnInitStream_cases h₁ with hfatal | ⟨hnone, he, rfl⟩
  · exact absurd hfatal (not_fatal_ok _)
  obtain ⟨-, rfl⟩ := Prod.mk.inj h
  exact openLocal_unheard true hinv rfl ⟨_, rfl⟩ rfl rfl fun hs => Bool.noConfusion hs

theorem ngtcp2ConnOpenUniStream_unheard {r : Except Err Nat} (hinv : IdsInv conn)
    (h : ngtcp2ConnOpenUniStream conn = (r, conn')) (hr : ¬Fatal r) :
    Unheard rst id conn conn' := by
  unfold ngtcp2ConnOpenUniStream at h
  dsimp only at h
  split at h
  · obtain ⟨-, rfl⟩ := Prod.mk.inj h
    exact .refl rst id conn
  rcases andThen_cases h with ⟨e, h₁, rfl⟩ | ⟨strm, conn₁, h₁, h⟩
  · rcases ngtcp2ConnInitStream_cases h₁ with hfatal | ⟨-, he, -⟩
    · exact absurd hfatal.cast hr
    · cases he
  rcases ngtcp2ConnInitStream_cases h₁ with hfatal | ⟨hnone, he, rfl⟩
  · exact absurd hfatal (not_fatal_ok _)
  obtain rfl := Except.ok.inj he
  obtain ⟨-, rfl⟩ := Prod.mk.inj h
  generalize hinit : strmInit (conn.ids false).nextLocalStreamId
    conn.localSettings.maxStreamData.toNat conn.remoteSettings.maxStreamData.toNat conn.mem = s
  have hsame : ((conn.setStrm s).tell (.strmInit s.streamId)).setStrm s.shutdownRd =
      (conn.setStrm s.shutdownRd).tell (.strmInit s.shutdownRd.streamId) :=
    congrArg (Conn.tell · (.strmInit s.streamId)) (Conn.setStrm_setStrm conn (by rfl))
  have hopen : Unheard rst id conn (openLocal conn false s.shutdownRd) := by
    subst hinit
    exact openLocal_unheard false hinv rfl ⟨_, rfl⟩ rfl rfl fun _ => rfl
  unfold openLocal at hopen
  rw [← hsame] at hopen
  subst hinit
  exact hopen

/-! ## Steps -/

theorem OnStrm.unheard (h : OnStrm 0 conn conn') (hid : id ≠ 0) : Unheard rst id conn conn' := by
  obtain ⟨evs, hlog, hfits⟩ := h.told
  refine .of_same (h.others id hid) ⟨evs, hlog, fun ev hev fin data heq => ?_⟩
  have hfit := hfits ev hev
  rw [heq] at hfit
  exact hfit rfl

/-- A step hears a STREAM frame of the stream, or nothing of it. -/
theorem Step.heard (hreach : Reachable conn) (hstep : Step ops conn op conn') (hc : Collects conn)
    (hid : id ≠ 0) : Heard id conn op conn' := by
  have hch := Step.changes hreach.wellFormed hstep
  have hkinds : (∀ k ∈ Kind.timeout :: op.kinds, k ≠ .rx ∧ k ≠ .openLocal) →
      Heard id conn op conn' :=
    fun hK => .nothing ((hch.unheard hK hc.used.ids hid).weaken _)
  have hstream : ∀ {fr : StreamFrame} {r : Except Err Unit}, .stream fr ∈ op.readFrames →
      connRecvStream conn fr = (r, conn') → ¬Fatal r → Heard id conn op conn' := by
    intro fr r hread hrun hr
    by_cases hzero : fr.streamId = 0
    · exact .nothing ((connRecvStream_zero hc.used hzero hrun).unheard hid)
    by_cases heq : id = fr.streamId
    · cases r with
      | error e => exact .nothing ((connRecvStream_refused hc hzero hrun hr id).weaken _)
      | ok _ => exact .frame fr hread heq.symm hrun
    · exact .nothing ((connRecvStream_others hc hzero hrun hr heq).weaken _)
  obtain ⟨rv, hrun, hs⟩ := hstep
  have hrv := not_fatal_of_survives hs
  cases op with
  | recvFrame longForm fr =>
    cases fr with
    | stream fr =>
      have hrun : (if fr.streamId = 0 ∧ longForm then (.error .proto, conn)
        else connRecvStream conn fr) = (rv, conn') := hrun
      split at hrun
      · obtain ⟨-, rfl⟩ := Prod.mk.inj hrun
        exact .nothing (.refl _ id conn)
      · exact hstream (List.mem_singleton.mpr rfl) hrun hrv
    | rstStream fr =>
      refine .nothing (connRecvRstStream_unheard hc.used.keyed hrun hrv fun heq => ?_)
      simp [Op.resets, Op.readFrames, heq]
    | _ => exact hkinds (by simp [Op.kinds, Frame.recvKinds, ackKinds])
  | recvDelayedHandshakeFrame type fr =>
    cases fr with
    | stream fr => exact hstream (List.mem_singleton.mpr rfl) hrun hrv
    | _ => exact hkinds (by simp [Op.kinds, Frame.recvDelayedKinds, ackKinds])
  | recvHandshakeFrame type failed fr =>
    cases fr with
    | stream fr =>
      obtain ⟨x, hrun, -⟩ := void_cases hrun
      exact .nothing ((connRecvHandshakeStream_onStrm hc.used.keyed hrun).unheard hid)
    | _ => exact hkinds (by simp [Op.kinds, Frame.recvHandshakeKinds, ackKinds])
  | openBidiStream =>
    obtain ⟨x, hrun, hve⟩ := void_cases hrun
    refine .nothing (ngtcp2ConnOpenBidiStream_unheard hc.used.ids hrun ?_)
    rintro ⟨e, rfl, hf⟩
    exact hrv ⟨e, (hve e).mpr rfl, hf⟩
  | openUniStream =>
    obtain ⟨x, hrun, hve⟩ := void_cases hrun
    refine .nothing (ngtcp2ConnOpenUniStream_unheard hc.used.ids hrun ?_)
    rintro ⟨e, rfl, hf⟩
    exact hrv ⟨e, (hve e).mpr rfl, hf⟩
  | _ =>
    exact hkinds (by simp [Op.kinds, shutdownKinds, streamTxKinds, writeKinds, resendKinds,
      closeKinds, retryKinds])

end

end Ngtcp2
