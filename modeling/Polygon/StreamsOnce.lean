import Polygon.StepChanges
import Polygon.StreamDelivery

/-!
# Every stream ID is used once

The ID trackers, the counters of the local streams and the stream map agree on which
IDs were used. A used ID without a stream object stays so.
-/
namespace Ngtcp2

open Ranges

/-- The ID was used: a local one is behind the counter of its kind, a remote one has left the gaps. -/
def Used (conn : Conn) (id : Nat) : Prop :=
  if connLocalStream conn id then id < (conn.ids (bidiStream id)).nextLocalStreamId
  else ¬InGap (conn.ids (bidiStream id)).remoteIdtr.gap (idFromStreamId id)

/-- The gaps are in order, and the next local IDs are local and of their kind. -/
structure IdsInv (conn : Conn) : Prop where
  sorted : ∀ bidi, Sorted 0 (conn.ids bidi).remoteIdtr.gap
  isLocal : ∀ bidi, connLocalStream conn (conn.ids bidi).nextLocalStreamId = true
  kind : ∀ bidi, bidiStream (conn.ids bidi).nextLocalStreamId = bidi

/-- The IDs in use are the same. -/
structure SameIds (conn conn' : Conn) : Prop where
  server : conn'.server = conn.server := by rfl
  remoteIdtr : ∀ bidi, (conn'.ids bidi).remoteIdtr = (conn.ids bidi).remoteIdtr := by intro _; rfl
  next : ∀ bidi, (conn'.ids bidi).nextLocalStreamId = (conn.ids bidi).nextLocalStreamId := by
    intro _; rfl

/-- The changes that use no ID. -/
def Kind.keepsIds : Kind → Bool
  | .openRemote | .openLocal | .consume => false
  | _ => true

section
variable {H : List Frame} {conn conn₁ conn' : Conn} {id : Nat}

theorem connLocalStream_congr (h : conn'.server = conn.server) (id : Nat) :
    connLocalStream conn' id = connLocalStream conn id := by
  simp only [connLocalStream, h]

theorem SameIds.trans (h : SameIds conn conn₁) (h' : SameIds conn₁ conn') : SameIds conn conn' :=
  ⟨h'.server.trans h.server, fun bidi => (h'.remoteIdtr bidi).trans (h.remoteIdtr bidi),
    fun bidi => (h'.next bidi).trans (h.next bidi)⟩

/-- The same IDs but for credit. -/
theorem SameIds.setIds (conn : Conn) (bidi : Bool) {ids : StreamIds}
    (hidtr : ids.remoteIdtr = (conn.ids bidi).remoteIdtr)
    (hnext : ids.nextLocalStreamId = (conn.ids bidi).nextLocalStreamId) :
    SameIds conn (conn.setIds bidi ids) := by
  refine ⟨Conn.setIds_server conn bidi ids, fun bidi' => ?_,
    fun bidi' => ?_⟩ <;> rw [Conn.ids_setIds] <;> split
  · next h => rw [h, hidtr]
  · rfl
  · next h => rw [h, hnext]
  · rfl

theorem SameIds.used (h : SameIds conn conn') (id : Nat) : Used conn' id ↔ Used conn id := by
  unfold Used
  rw [connLocalStream_congr h.server, h.remoteIdtr, h.next]

theorem SameIds.inv (h : SameIds conn conn') (hinv : IdsInv conn) : IdsInv conn' := by
  refine ⟨fun bidi => ?_, fun bidi => ?_, fun bidi => ?_⟩
  · rw [h.remoteIdtr]
    exact hinv.sorted bidi
  · rw [h.next, connLocalStream_congr h.server]
    exact hinv.isLocal bidi
  · rw [h.next]
    exact hinv.kind bidi

theorem Change.sameIds {k : Kind} (h : Change H k conn conn') (hk : k.keepsIds = true) :
    SameIds conn conn' := by
  cases h with
  | idle same =>
    have hids : ∀ bidi, conn'.ids bidi = conn.ids bidi := by
      intro bidi
      simp only [Conn.ids, same.bidi, same.uni]
    exact ⟨same.server, fun bidi => by rw [hids], fun bidi => by rw [hids]⟩
  | openRemote => simp [Kind.keepsIds] at hk
  | openLocal => simp [Kind.keepsIds] at hk
  | consume => simp [Kind.keepsIds] at hk
  | @close _ strm find shut code bidi unsent _ =>
    generalize (if strm.onFc then conn.fcStrms.erase strm.streamId else conn.fcStrms) = fcStrms
    have hremove : SameIds conn (((conn.setFcStrms fcStrms).removeStrm strm.streamId).tell
        (.streamClose strm.streamId code)) := ⟨rfl, fun _ => rfl, fun _ => rfl⟩
    exact hremove.trans (.setIds _ bidi rfl rfl)
  | raiseIds => exact .setIds _ _ rfl rfl
  | limits => exact ⟨rfl, fun bidi => by cases bidi <;> rfl, fun bidi => by cases bidi <;> rfl⟩
  | tx =>
    unfold trackStreamPkt
    split <;> (constructor <;> first | rfl | exact fun _ => rfl)
  | frq => exact ⟨rfl, fun bidi => by cases bidi <;> rfl, fun bidi => by cases bidi <;> rfl⟩
  | _ => constructor <;> first | rfl | exact fun _ => rfl

/-! ## What a change does to one ID -/

/-- The event creates the stream's object, delivers its data or closes it. -/
def Event.about (id : Nat) : Event → Bool
  | .strmInit i | .recvStreamData i _ _ | .streamClose i _ => i == id
  | _ => false

/-- The event closes the stream. -/
def Event.closes (id : Nat) : Event → Bool
  | .streamClose i _ => i == id
  | _ => false

/-- What happens to one ID. -/
inductive IdStep (id : Nat) (conn conn' : Conn) : Prop where
  | keep (evs : List Event) (used : Used conn' id ↔ Used conn id)
      (obj : (conn'.strms id).isSome = (conn.strms id).isSome) (log : conn'.log = conn.log ++ evs)
      (told : ∀ ev ∈ evs, ev.about id = true →
        (conn.strms id).isSome = true ∧ ∃ fin d, ev = .recvStreamData id fin d)
  | consume (used : Used conn' id) (noObj : conn.strms id = none) (noObj' : conn'.strms id = none)
      (log : conn'.log = conn.log)
  | create (fresh : ¬Used conn id) (used : Used conn' id) (obj : (conn'.strms id).isSome = true)
      (log : conn'.log = conn.log ++ [.strmInit id])
  | close (code : Nat) (used : Used conn' id ↔ Used conn id) (obj : (conn.strms id).isSome = true)
      (noObj' : conn'.strms id = none) (log : conn'.log = conn.log ++ [.streamClose id code])

theorem Event.not_about_of_neutral {ev : Event} (h : ev.neutral = true) (id : Nat) :
    ev.about id = false := by
  cases ev <;> first | rfl | simp [Event.neutral] at h

/-- A change that uses no ID and tells the application nothing about the stream. -/
theorem IdStep.of_quiet {k : Kind} {evs : List Event} (h : Change H k conn conn')
    (hk : k.keepsIds = true)
    (hobj : (conn'.strms id).isSome = (conn.strms id).isSome) (hlog : conn'.log = conn.log ++ evs)
    (hevs : ∀ ev ∈ evs, ev.about id = false) : IdStep id conn conn' := by
  refine .keep evs ((h.sameIds hk).used id) hobj hlog fun ev hev habout => ?_
  rw [hevs ev hev] at habout
  cases habout

/-- A stream object written back to the map. -/
theorem setStrm_isSome {strm strm' : Strm} (find : conn.strms strm.streamId = some strm)
    (hid : strm'.streamId = strm.streamId) (id : Nat) :
    ((conn.setStrm strm').strms id).isSome = (conn.strms id).isSome := by
  rw [Conn.setStrm_strms]
  split
  · next h =>
    rw [h, hid, find]
    rfl
  · rfl

/-- The changes that neither create nor remove a stream object, but for stream 0. -/
def Kind.keepsObjs : Kind → Bool
  | .openRemote | .openLocal | .close => false
  | _ => true

theorem Change.isSome {k : Kind} (h : Change H k conn conn') (hk : k.keepsObjs = true)
    (hid : id ≠ 0) :
    (conn'.strms id).isSome = (conn.strms id).isSome := by
  -- The map changes only at a stream that has its object.
  have hset : ∀ {strm strm' : Strm}, conn.strms strm.streamId = some strm →
      conn'.strms = (conn.setStrm strm').strms → strm'.streamId = strm.streamId →
      (conn'.strms id).isSome = (conn.strms id).isSome := by
    intro strm strm' find hstrms hsame
    rw [hstrms, setStrm_isSome find hsame]
  cases h with
  | idle same => rw [same.strms]
  | @rx _ strm strm' find tx => exact hset find rfl tx.streamId
  | window find tx => exact hset find rfl tx.streamId
  | announceStrm find => exact hset find rfl rfl
  | extend find tx => exact hset find rfl tx.streamId
  | raiseStrm find => exact hset find rfl rfl
  | @limits0 _ strm0 find zero => exact hset (zero ▸ find : conn.strms strm0.streamId = _) rfl rfl
  | @rst _ strm find code code' => exact hset find rfl rfl
  | acked find => exact hset find rfl rfl
  | @refill _ strm0 find zero => exact hset (zero ▸ find : conn.strms strm0.streamId = _) rfl rfl
  | @advance _ strm0 find zero => exact hset (zero ▸ find : conn.strms strm0.streamId = _) rfl rfl
  | restart => rw [Conn.setStrm_strms, if_neg (show id ≠ (strmInit 0 _ _ _).streamId from hid)]
  | raiseIds => rw [Conn.setIds_strms]
  | consume => exact congrArg Option.isSome (congrFun (Conn.setIds_strms _ _ _) id)
  | @tx _ strm fr hd find =>
    have hsent : (if fr.fin then (strm.setTxOffset (strm.txOffset + fr.data.length)).shutdownWr
        else strm.setTxOffset (strm.txOffset + fr.data.length)).streamId = strm.streamId := by split <;> rfl
    refine hset find ?_ hsent
    unfold trackStreamPkt
    split <;> rfl
  | openRemote => simp [Kind.keepsObjs] at hk
  | openLocal => simp [Kind.keepsObjs] at hk
  | close => simp [Kind.keepsObjs] at hk
  | _ => rfl

theorem idFromStreamId_inj {i j : Nat} (hloc : connLocalStream conn i = connLocalStream conn j)
    (hbidi : bidiStream i = bidiStream j) (h : idFromStreamId i = idFromStreamId j) : i = j := by
  have hmod : i % 2 = j % 2 := by
    have hiff : connLocalStream conn i = true ↔ connLocalStream conn j = true := by rw [hloc]
    unfold connLocalStream at hiff
    split at hiff <;> simp only [bne_iff_ne, beq_iff_eq] at hiff <;> omega
  have hdiv : i / 2 % 2 = j / 2 % 2 := by
    simp only [bidiStream, beq_eq_decide, decide_eq_decide] at hbidi
    omega
  unfold idFromStreamId at h
  omega

/-- The ID of a remote stream taken out of the gaps. -/
def openId (conn : Conn) (streamId : Nat) : Conn :=
  let ids := conn.ids (bidiStream streamId)
  conn.setIds (bidiStream streamId)
    { ids with remoteIdtr := (idtrOpen ids.remoteIdtr streamId).getD ids.remoteIdtr }

/-- The gaps after an ID was taken out. -/
theorem idtrOpen_getD (idtr : Idtr) (streamId : Nat) (hs : Sorted 0 idtr.gap) :
    Sorted 0 ((idtrOpen idtr streamId).getD idtr).gap ∧
      ∀ n, InGap ((idtrOpen idtr streamId).getD idtr).gap n ↔
      InGap idtr.gap n ∧ n ≠ idFromStreamId streamId := by
  unfold idtrOpen
  cases ho : idtrOpenLoop (idFromStreamId streamId) idtr.gap with
  | none =>
    refine ⟨hs, fun n => ⟨fun hn => ⟨hn, ?_⟩, And.left⟩⟩
    rintro rfl
    exact idtrOpenLoop_none hs ho hn
  | some gs => exact ⟨(idtrOpenLoop_some hs ho).2.1, (idtrOpenLoop_some hs ho).2.2⟩

theorem openId_inv (hinv : IdsInv conn) (streamId : Nat) : IdsInv (openId conn streamId) := by
  have hnext : ∀ bidi, ((openId conn streamId).ids bidi).nextLocalStreamId =
    (conn.ids bidi).nextLocalStreamId := by
    intro bidi
    unfold openId
    rw [Conn.ids_setIds]
    split
    · next h => rw [h]
    · rfl
  have hserver : (openId conn streamId).server = conn.server := Conn.setIds_server _ _ _
  refine ⟨fun bidi => ?_, fun bidi => ?_, fun bidi => ?_⟩
  · unfold openId
    rw [Conn.ids_setIds]
    split
    · exact (idtrOpen_getD _ _ (hinv.sorted _)).1
    · exact hinv.sorted bidi
  · rw [hnext, connLocalStream_congr hserver]
    exact hinv.isLocal bidi
  · rw [hnext]
    exact hinv.kind bidi

/-- Exactly the one ID is used from now on. -/
theorem openId_used {streamId : Nat} (hinv : IdsInv conn)
    (hremote : connLocalStream conn streamId = false) (id : Nat) :
    Used (openId conn streamId) id ↔ Used conn id ∨ id = streamId := by
  have hserver : (openId conn streamId).server = conn.server := Conn.setIds_server _ _ _
  unfold Used
  rw [connLocalStream_congr hserver]
  unfold openId
  rw [Conn.ids_setIds]
  by_cases hloc : connLocalStream conn id = true
  · have hne : id ≠ streamId := by
      rintro rfl
      rw [hloc] at hremote
      cases hremote
    rw [if_pos hloc, if_pos hloc]
    split
    · next h => simp only [h, hne, or_false]
    · simp only [hne, or_false]
  · rw [if_neg hloc, if_neg hloc]
    split
    · next h =>
      rw [h, (idtrOpen_getD _ _ (hinv.sorted _)).2, not_and_or, not_ne_iff]
      have hsame : connLocalStream conn id = connLocalStream conn streamId := by
        rw [hremote, Bool.eq_false_iff.mpr hloc]
      exact or_congr_right ⟨idFromStreamId_inj hsame h, fun heq => by rw [heq]⟩
    · next h =>
      have hne : id ≠ streamId := fun heq => h (by rw [heq])
      simp only [hne, or_false]

/-- The ID of a local stream just opened. -/
theorem openLocal_used {strm : Strm} {bidi : Bool} (hinv : IdsInv conn) (id : Nat) :
    Used (openLocal conn bidi strm) id ↔ Used conn id ∨ id = (conn.ids bidi).nextLocalStreamId := by
  have hserver : (openLocal conn bidi strm).server = conn.server := Conn.setIds_server _ _ _
  have hids : ∀ b, (openLocal conn bidi strm).ids b = if b = bidi then
      { conn.ids bidi with nextLocalStreamId := (conn.ids bidi).nextLocalStreamId + 4 } else conn.ids b :=
    fun b => Conn.ids_setIds _ bidi b _
  have hkind := hinv.kind bidi
  have hlocal := hinv.isLocal bidi
  unfold Used
  rw [connLocalStream_congr hserver, hids]
  by_cases hloc : connLocalStream conn id = true
  · rw [if_pos hloc, if_pos hloc]
    split
    · next h =>
      rw [h]
      generalize (conn.ids bidi).nextLocalStreamId = n at hkind hlocal ⊢
      rw [← h] at hkind
      have hsame := @idFromStreamId_inj conn id n (hloc.trans hlocal.symm) hkind.symm
      have hmod : id % 4 = n % 4 := by
        have hiff : connLocalStream conn id = true ↔ connLocalStream conn n = true := by
          rw [hloc, hlocal]
        unfold connLocalStream at hiff
        simp only [bidiStream, beq_eq_decide, decide_eq_decide] at hkind
        split at hiff <;> simp only [bne_iff_ne, beq_iff_eq] at hiff <;> omega
      dsimp only
      omega
    · next h =>
      have hne : id ≠ (conn.ids bidi).nextLocalStreamId := by
        rintro rfl
        exact h hkind
      simp only [hne, or_false]
  · have hne : id ≠ (conn.ids bidi).nextLocalStreamId := by
      rintro rfl
      exact hloc hlocal
    rw [if_neg hloc, if_neg hloc]
    split
    · next h => simp only [h, hne, or_false]
    · simp only [hne, or_false]

theorem openLocal_inv {strm : Strm} {bidi : Bool} (hinv : IdsInv conn) :
    IdsInv (openLocal conn bidi strm) := by
  have hserver : (openLocal conn bidi strm).server = conn.server := Conn.setIds_server _ _ _
  have hids : ∀ b, (openLocal conn bidi strm).ids b = if b = bidi then
      { conn.ids bidi with nextLocalStreamId := (conn.ids bidi).nextLocalStreamId + 4 } else conn.ids b :=
    fun b => Conn.ids_setIds _ bidi b _
  have hlocal4 : ∀ n, connLocalStream conn (n + 4) = connLocalStream conn n := by
    intro n
    have hmod : (n + 4) % 2 = n % 2 := by omega
    simp only [connLocalStream, hmod]
  have hbidi4 : ∀ n, bidiStream (n + 4) = bidiStream n := by
    intro n
    have hmod : (n + 4) / 2 % 2 = n / 2 % 2 := by omega
    simp only [bidiStream, hmod]
  refine ⟨fun b => ?_, fun b => ?_, fun b => ?_⟩
  · rw [hids]
    split
    · exact hinv.sorted bidi
    · exact hinv.sorted b
  · rw [connLocalStream_congr hserver, hids]
    split
    · exact (hlocal4 _).trans (hinv.isLocal bidi)
    · exact hinv.isLocal b
  · rw [hids]
    split
    · next h => exact (hbidi4 _).trans ((hinv.kind bidi).trans h.symm)
    · exact hinv.kind b

theorem openRemote_eq {streamId : Nat} {idtr : Idtr}
    (opens : idtrOpen (conn.ids (bidiStream streamId)).remoteIdtr streamId = some idtr) :
    openRemote conn streamId idtr =
      ((openId conn streamId).setStrm (openedStrm conn streamId)).tell (.strmInit streamId) := by
  simp only [openRemote, openId, opens, Option.getD_some]

theorem Change.idsInv {k : Kind} (h : Change H k conn conn') (hinv : IdsInv conn) :
    IdsInv conn' := by
  by_cases hk : k.keepsIds = true
  · exact (h.sameIds hk).inv hinv
  cases h with
  | @openRemote _ streamId idtr none remote credit opens =>
    rw [openRemote_eq opens]
    have hsame : SameIds (openId conn streamId)
        (((openId conn streamId).setStrm (openedStrm conn streamId)).tell (.strmInit streamId)) :=
        ⟨rfl, fun _ => rfl, fun _ => rfl⟩
    exact hsame.inv (openId_inv hinv streamId)
  | openLocal => exact openLocal_inv hinv
  | @consume _ streamId nonzero none remote rxOffset =>
    have hsame : SameIds (openId conn streamId) (consumeId conn streamId rxOffset) :=
      ⟨rfl, fun _ => rfl, fun _ => rfl⟩
    exact hsame.inv (openId_inv hinv streamId)
  | _ => simp [Kind.keepsIds] at hk

/-- The three changes that use an ID. -/
theorem Change.idStep_opens {k : Kind} (h : Change H k conn conn') (hk : k.keepsIds = false)
    (hinv : IdsInv conn)
    (id : Nat) : IdStep id conn conn' := by
  cases h with
  | @openRemote _ streamId idtr none remote credit opens =>
    have hused : Used (Ngtcp2.openRemote conn streamId idtr) id ↔ Used conn id ∨ id = streamId := by
      rw [openRemote_eq opens]
      have hsame : SameIds (openId conn streamId)
          (((openId conn streamId).setStrm (openedStrm conn streamId)).tell (.strmInit streamId)) :=
          ⟨rfl, fun _ => rfl, fun _ => rfl⟩
      rw [hsame.used, openId_used hinv remote]
    have hlog := openRemote_log conn streamId idtr
    have hobj : (Ngtcp2.openRemote conn streamId idtr).strms id =
        if id = streamId then some (openedStrm conn streamId) else conn.strms id := by
      rw [openRemote_eq opens]
      show ((openId conn streamId).setStrm (openedStrm conn streamId)).strms id = _
      rw [Conn.setStrm_strms, openedStrm_streamId]
      unfold openId
      rw [Conn.setIds_strms]
    by_cases hid : id = streamId
    · subst hid
      refine .create ?_ (hused.mpr (.inr rfl)) (by rw [hobj, if_pos rfl]; rfl) hlog
      unfold Used
      obtain ⟨gs, hgs, -⟩ := Option.map_eq_some_iff.mp opens
      rw [remote]
      exact not_not_intro (idtrOpenLoop_some (hinv.sorted _) hgs).1
    · refine .keep [.strmInit streamId] (by rw [hused, or_iff_left hid])
        (by rw [hobj, if_neg hid]) hlog fun ev hev habout => ?_
      obtain rfl := List.mem_singleton.mp hev
      exact absurd (by simpa [Event.about] using habout) (Ne.symm hid)
  | @openLocal _ strm bidi credit none init =>
    have hstrm : strm.streamId = (conn.ids bidi).nextLocalStreamId := by
      rcases init with rfl | rfl <;> rfl
    have hused : Used (Ngtcp2.openLocal conn bidi strm) id ↔ Used conn id ∨ id = strm.streamId := by
      rw [openLocal_used hinv, hstrm]
    have hlog := openLocal_log conn bidi strm
    have hobj : (Ngtcp2.openLocal conn bidi strm).strms id = if id =
      strm.streamId then some strm else conn.strms id :=
      (congrFun (Conn.setIds_strms _ bidi _) id).trans (Conn.setStrm_strms conn strm id)
    by_cases hid : id = strm.streamId
    · subst hid
      refine .create ?_ (hused.mpr (.inr rfl)) (by rw [hobj, if_pos rfl]; rfl) hlog
      unfold Used
      rw [hstrm, hinv.isLocal, hinv.kind]
      exact Nat.lt_irrefl _
    · refine .keep [.strmInit strm.streamId] (by rw [hused, or_iff_left hid])
        (by rw [hobj, if_neg hid]) hlog
        fun ev hev habout => ?_
      obtain rfl := List.mem_singleton.mp hev
      exact absurd (by simpa [Event.about] using habout) (Ne.symm hid)
  | @consume _ streamId nonzero noObj remote rxOffset =>
    have hused : Used (consumeId conn streamId rxOffset) id ↔ Used conn id ∨ id = streamId := by
      have hsame : SameIds (openId conn streamId) (consumeId conn streamId rxOffset) :=
        ⟨rfl, fun _ => rfl, fun _ => rfl⟩
      rw [hsame.used, openId_used hinv remote]
    have hstrms : (consumeId conn streamId rxOffset).strms = conn.strms := Conn.setIds_strms _ _ _
    have hlog := consumeId_log conn streamId rxOffset
    by_cases hid : id = streamId
    · subst hid
      exact .consume (hused.mpr (.inr rfl)) noObj (by rw [hstrms, noObj]) hlog
    · exact .keep [] (by rw [hused, or_iff_left hid]) (by rw [hstrms])
        (by rw [hlog, List.append_nil]) (by simp)
  | _ => simp [Kind.keepsIds] at hk

/-- Every change takes one of these steps at every ID. -/
theorem Change.idStep {k : Kind} (h : Change H k conn conn') (hinv : IdsInv conn) (hid : id ≠ 0) :
    IdStep id conn conn' := by
  cases hk : k.keepsIds with
  | false => exact h.idStep_opens hk hinv id
  | true =>
    have hch := h
    have hused := (h.sameIds hk).used id
    -- A change without an event.
    have hsame : k.keepsObjs = true → conn'.log = conn.log → IdStep id conn conn' :=
      fun hobj hlog =>
      .of_quiet hch hk (hch.isSome hobj hid) (hlog.trans (List.append_nil _).symm) (by simp)
    cases h with
    | idle same =>
      obtain ⟨evs, hsilent, hlog⟩ := same.log
      refine .of_quiet hch hk (by rw [same.strms]) hlog fun ev hev => ?_
      exact Event.not_about_of_neutral (Bool.and_eq_true_iff.mp (hsilent ev hev)).1 id
    | encrypt conn hd => exact .of_quiet hch hk rfl rfl (by simp [Event.about])
    | @rx _ strm strm' find tx _ rxOffset evs told =>
      refine .keep evs hused (hch.isSome rfl hid) rfl fun ev hev habout => ?_
      rcases told ev hev with hsilent | ⟨fin, d, rfl⟩ | ⟨-, d, rfl⟩
      · rw [Event.not_about_of_neutral (Bool.and_eq_true_iff.mp hsilent).1] at habout
        cases habout
      · have heq : strm.streamId = id := by simpa [Event.about] using habout
        subst heq
        exact ⟨by rw [find]; rfl, fin, d, rfl⟩
      · cases habout
    | rst => exact .of_quiet hch hk (hch.isSome rfl hid) rfl (by simp [Event.about])
    | pktAcked => exact .of_quiet hch hk rfl rfl (by simp [Event.about])
    | @close _ strm find shut code bidi unsent _ =>
      generalize (if strm.onFc then conn.fcStrms.erase strm.streamId else conn.fcStrms) =
        fcStrms at *
      have hstrms : ∀ i, (closeStrm conn fcStrms strm.streamId code bidi unsent).strms i =
          if i = strm.streamId then none else conn.strms i :=
            fun i => congrFun (Conn.setIds_strms _ bidi _) i
      have hlog := closeStrm_log conn fcStrms strm.streamId code bidi unsent
      by_cases heq : id = strm.streamId
      · subst heq
        exact .close code hused (by rw [find]; rfl) (by rw [hstrms, if_pos rfl]) hlog
      · refine .keep _ hused (by rw [hstrms, if_neg heq]) hlog fun ev hev habout => ?_
        obtain rfl := List.mem_singleton.mp hev
        exact absurd (by simpa [Event.about] using habout) (Ne.symm heq)
    | raiseIds => exact hsame rfl (Conn.setIds_log _ _ _)
    | tx =>
      refine hsame rfl ?_
      unfold trackStreamPkt
      split <;> rfl
    | openRemote => simp [Kind.keepsIds] at hk
    | openLocal => simp [Kind.keepsIds] at hk
    | consume => simp [Kind.keepsIds] at hk
    | _ => exact hsame rfl rfl

/-! ## The life of an ID -/

/-- How often the stream was created. -/
def createdCount (id : Nat) (log : List Event) : Nat := log.countP (· == .strmInit id)

/-- How often the stream was closed. -/
def closeCount (id : Nat) (log : List Event) : Nat := log.countP (Event.closes id)

/-- The phases of an ID. -/
inductive Phase (id : Nat) (conn : Conn) : Prop where
  | unused (fresh : ¬Used conn id) (noObj : conn.strms id = none)
      (quiet : ∀ ev ∈ conn.log, ev.about id = false)
  | live (used : Used conn id) (obj : (conn.strms id).isSome = true)
      (once : createdCount id conn.log = 1)
      (unclosed : closeCount id conn.log = 0)
  | gone (used : Used conn id) (noObj : conn.strms id = none) (once : createdCount id conn.log ≤ 1)
      (closedOnce : closeCount id conn.log ≤ 1)

@[simp] theorem createdCount_append (id : Nat) (log evs : List Event) :
    createdCount id (log ++ evs) = createdCount id log + createdCount id evs := List.countP_append

@[simp] theorem closeCount_append (id : Nat) (log evs : List Event) :
    closeCount id (log ++ evs) = closeCount id log + closeCount id evs := List.countP_append

theorem counts_strmInit (id : Nat) :
    createdCount id [.strmInit id] = 1 ∧ closeCount id [.strmInit id] = 0 := by
  simp [createdCount, closeCount, Event.closes]

theorem counts_streamClose (id code : Nat) :
    createdCount id [.streamClose id code] = 0 ∧ closeCount id [.streamClose id code] = 1 := by
  simp [createdCount, closeCount, Event.closes]

theorem createdCount_eq_zero {evs : List Event} (h : ∀ ev ∈ evs, ev ≠ .strmInit id) :
    createdCount id evs = 0 :=
  List.countP_eq_zero.mpr fun ev hev => by simpa using h ev hev

theorem closeCount_eq_zero {evs : List Event} (h : ∀ ev ∈ evs, ev.closes id = false) :
    closeCount id evs = 0 :=
  List.countP_eq_zero.mpr fun ev hev => by simp [h ev hev]

theorem Event.about_of_closes {ev : Event} (h : ev.closes id = true) : ev.about id = true := by
  cases ev with
  | streamClose i code => exact h
  | _ => simp [Event.closes] at h

theorem quiet_counts {evs : List Event} (h : ∀ ev ∈ evs, ev.about id = false) :
    createdCount id evs = 0 ∧ closeCount id evs = 0 := by
  refine ⟨createdCount_eq_zero fun ev hev heq => ?_, closeCount_eq_zero fun ev hev => ?_⟩
  · have := h ev hev
    simp [heq, Event.about] at this
  · cases hc : ev.closes id with
    | false => rfl
    | true => exact absurd ((h ev hev).symm.trans (Event.about_of_closes hc)) (by simp)

/-- The phases follow each other. -/
theorem IdStep.phase (h : IdStep id conn conn') (hp : Phase id conn) : Phase id conn' := by
  cases h with
  | keep evs used obj log told =>
    have hcounts : createdCount id evs = 0 ∧ closeCount id evs = 0 := by
      refine ⟨createdCount_eq_zero fun ev hev heq => ?_, closeCount_eq_zero fun ev hev => ?_⟩
      · obtain ⟨-, fin, d, hdata⟩ := told ev hev (by simp [heq, Event.about])
        simp [heq] at hdata
      · cases hc : ev.closes id with
        | false => rfl
        | true =>
          obtain ⟨-, fin, d, rfl⟩ := told ev hev (Event.about_of_closes hc)
          exact hc.symm
    have hnone : conn.strms id = none → conn'.strms id = none := fun hn => by
      rw [hn] at obj
      exact Option.isNone_iff_eq_none.mp (by simpa using obj)
    cases hp with
    | unused fresh noObj quiet =>
      refine .unused (fun hu => fresh (used.mp hu)) (hnone noObj) fun ev hev => ?_
      rw [log] at hev
      rcases List.mem_append.mp hev with hev | hev
      · exact quiet ev hev
      · cases hc : ev.about id with
        | false => rfl
        | true =>
          have := (told ev hev hc).1
          simp [noObj] at this
    | live hused hobj once unclosed =>
      exact .live (used.mpr hused) (obj.trans hobj) (by simp [log, once, hcounts.1])
        (by simp [log, unclosed, hcounts.2])
    | gone hused noObj once closedOnce =>
      exact .gone (used.mpr hused) (hnone noObj) (by simpa [log, hcounts.1] using once)
        (by simpa [log, hcounts.2] using closedOnce)
  | consume used noObj noObj' log =>
    cases hp with
    | unused fresh _ quiet =>
      obtain ⟨hcreated, hclosed⟩ := quiet_counts quiet
      exact .gone used noObj' (by simp [log, hcreated]) (by simp [log, hclosed])
    | live _ hobj => simp [noObj] at hobj
    | gone _ _ once closedOnce => exact .gone used noObj' (log ▸ once) (log ▸ closedOnce)
  | create fresh used obj log =>
    cases hp with
    | unused _ _ quiet =>
      obtain ⟨hcreated, hclosed⟩ := quiet_counts quiet
      exact .live used obj (by simp [log, hcreated, counts_strmInit])
        (by simp [log, hclosed, counts_strmInit])
    | live hused => exact absurd hused fresh
    | gone hused => exact absurd hused fresh
  | close code used obj noObj' log =>
    cases hp with
    | unused _ noObj => simp [noObj] at obj
    | live hused _ once unclosed =>
      exact .gone (used.mpr hused) noObj' (by simp [log, once, counts_streamClose])
        (by simp [log, unclosed, counts_streamClose])
    | gone _ noObj => simp [noObj] at obj

/-- The ID was used and has no object. -/
def Retired (id : Nat) (conn : Conn) : Prop := Used conn id ∧ conn.strms id = none

/-- What is gone stays gone, and the application hears nothing more of it. -/
theorem IdStep.gone (h : IdStep id conn conn') (hg : Retired id conn) :
    Retired id conn' ∧ ∃ evs, conn'.log = conn.log ++ evs ∧ ∀ ev ∈ evs, ev.about id = false := by
  obtain ⟨hused, hnone⟩ := hg
  cases h with
  | keep evs used obj log told =>
    rw [hnone] at obj
    refine ⟨⟨used.mpr hused, Option.isNone_iff_eq_none.mp (by simpa using obj)⟩, evs, log,
      fun ev hev => ?_⟩
    cases hc : ev.about id with
    | false => rfl
    | true =>
      have := (told ev hev hc).1
      simp [hnone] at this
  | consume used _ noObj' log => exact ⟨⟨used, noObj'⟩, [], by simp [log], by simp⟩
  | create fresh => exact absurd hused fresh
  | close _ _ obj => simp [hnone] at obj

/-- The IDs and the phase of one of them. -/
structure LifeInv (id : Nat) (conn : Conn) : Prop where
  ids : IdsInv conn
  phase : Phase id conn

theorem Changes.life {K : List Kind} (hid : id ≠ 0) (h : Changes H K conn conn')
    (hinv : LifeInv id conn) :
    LifeInv id conn' :=
  h.keeps (LifeInv id) (fun _ _ _ _ hP hc => ⟨hc.idsInv hP.ids,
    (hc.idStep hP.ids hid).phase hP.phase⟩) hinv

/-- What is told to the application after `conn` is not about the ID, which stays gone. -/
def StaysRetired (id : Nat) (conn conn' : Conn) : Prop :=
  Retired id conn' ∧ ∃ evs, conn'.log = conn.log ++ evs ∧ ∀ ev ∈ evs, ev.about id = false

theorem StaysRetired.trans (h : StaysRetired id conn conn₁) (h' : StaysRetired id conn₁ conn') :
    StaysRetired id conn conn' := by
  obtain ⟨-, evs, hlog, hquiet⟩ := h
  obtain ⟨hgone, evs', hlog', hquiet'⟩ := h'
  refine ⟨hgone, evs ++ evs', by rw [hlog', hlog, List.append_assoc], fun ev hev => ?_⟩
  exact (List.mem_append.mp hev).elim (hquiet ev) (hquiet' ev)

theorem Changes.staysRetired {K : List Kind} (hid : id ≠ 0) (h : Changes H K conn conn')
    (hinv : IdsInv conn)
    (hg : Retired id conn) : StaysRetired id conn conn' := by
  refine (h.keeps (fun c => IdsInv c ∧ StaysRetired id conn c) (fun k _ c c' hP hc => ?_)
    ⟨hinv, hg, [], (List.append_nil _).symm, by simp⟩).2
  exact ⟨hc.idsInv hP.1, hP.2.trans ((hc.idStep hP.1 hid).gone hP.2.1)⟩

theorem streamIdsInit_used (server : Bool) (maxStreamId next : Nat) :
    Sorted 0 (streamIdsInit server maxStreamId next).remoteIdtr.gap :=
  ⟨Nat.le_refl _, by decide, trivial⟩

theorem Initial.idsInv (h : Initial conn) : IdsInv conn := by
  cases h with
  | client =>
    refine ⟨fun bidi => by cases bidi <;> exact streamIdsInit_used .., fun bidi => ?_, fun bidi => ?_⟩
    · cases bidi <;> simp [connLocalStream, Conn.ids, ngtcp2ConnClientNew, connNew]
    · cases bidi <;> simp [bidiStream, Conn.ids, ngtcp2ConnClientNew]
  | server =>
    refine ⟨fun bidi => ?_, fun bidi => ?_, fun bidi => ?_⟩
    rotate_left
    · cases bidi <;> simp [connLocalStream, Conn.ids, ngtcp2ConnServerNew, connNew]
    · cases bidi <;> simp [bidiStream, Conn.ids, ngtcp2ConnServerNew]
    cases bidi with
    | false => exact streamIdsInit_used ..
    | true => exact (idtrOpen_getD _ 0 (streamIdsInit_used ..)).1

theorem Initial.log (h : Initial conn) : conn.log = [] := by
  cases h <;> rfl

theorem Initial.lifeInv (h : Initial conn) (hid : id ≠ 0) : LifeInv id conn := by
  have hnone : conn.strms id = none := by
    cases h <;> exact if_neg hid
  refine ⟨h.idsInv, ?_⟩
  by_cases hused : Used conn id
  · exact .gone hused hnone (by simp [h.log, createdCount]) (by simp [h.log, closeCount])
  · exact .unused hused hnone (by simp [h.log])

theorem Reachable.lifeInv (h : Reachable conn) (hid : id ≠ 0) : LifeInv id conn := by
  obtain ⟨conn₀, ops, hinit, hrun⟩ := h
  refine (hrun.invariant (fun _ c => WellFormed c ∧ LifeInv id c) ⟨hinit.wellFormed,
    hinit.lifeInv hid⟩
    fun _ _ _ _ hP hstep => ?_).2
  exact ⟨Step.wellFormed hP.1 hstep, (Step.changes hP.1 hstep).life hid hP.2⟩

/-- A stream that was closed or whose ID was consumed is gone. -/
theorem LifeInv.gone (h : LifeInv id conn)
    (hdone : (∃ code, .streamClose id code ∈ conn.log) ∨ (connLocalStream conn id = false ∧
      idtrOpen (conn.ids (bidiStream id)).remoteIdtr id = none ∧
      conn.strms id = none)) : Retired id conn := by
  rcases hdone with ⟨code, hclosed⟩ | ⟨hremote, hopen, hnone⟩
  · have hpos : 0 < closeCount id conn.log :=
      List.countP_pos_iff.mpr ⟨_, hclosed, by simp [Event.closes]⟩
    cases h.phase with
    | unused _ _ quiet =>
      have := (quiet_counts quiet).2
      omega
    | live _ _ _ unclosed => omega
    | gone used noObj => exact ⟨used, noObj⟩
  · refine ⟨?_, hnone⟩
    unfold Used
    rw [hremote, if_neg Bool.false_ne_true]
    exact idtrOpenLoop_none (h.ids.sorted _) (Option.map_eq_none_iff.mp hopen)

/-- In every run each stream ID other than 0 gets an object and is closed at most once; after it was
closed, or after a remote ID was consumed without creating a stream, no later step of the run
creates a stream with that ID, delivers data for it or closes it. -/
theorem reachable_streamOnce (h : Reachable conn) (hid : id ≠ 0) :
    createdCount id conn.log ≤ 1 ∧ closeCount id conn.log ≤ 1 ∧
      ((∃ code, .streamClose id code ∈ conn.log) ∨ (connLocalStream conn id = false ∧
        idtrOpen (conn.ids (bidiStream id)).remoteIdtr id = none ∧ conn.strms id = none) →
      ∀ ops conn', Runs.Run Step conn ops conn' →
        conn'.strms id = none ∧ ∃ evs, conn'.log = conn.log ++ evs ∧
        ∀ ev ∈ evs, ev.about id = false) := by
  have hlife := h.lifeInv hid
  have hcounts : createdCount id conn.log ≤ 1 ∧ closeCount id conn.log ≤ 1 := by
    cases hlife.phase with
    | unused _ _ quiet =>
      obtain ⟨hcreated, hclosed⟩ := quiet_counts quiet
      omega
    | live _ _ once unclosed => omega
    | gone _ _ once closedOnce => exact ⟨once, closedOnce⟩
  refine ⟨hcounts.1, hcounts.2, fun hdone ops conn' hrun => ?_⟩
  have hgone : StaysRetired id conn conn' := by
    refine (hrun.invariant (fun _ c => WellFormed c ∧ IdsInv c ∧ StaysRetired id conn c)
      ⟨h.wellFormed, hlife.ids, hlife.gone hdone, [], (List.append_nil _).symm,
        by simp⟩ fun _ c _ c' hP hstep => ?_).2.2
    obtain ⟨hwf, hids, hstays⟩ := hP
    have hch := Step.changes hwf hstep
    exact ⟨Step.wellFormed hwf hstep, hch.keeps IdsInv (fun _ _ _ _ hP hc => hc.idsInv hP) hids,
      hstays.trans (hch.staysRetired hid hids hstays.1)⟩
  exact ⟨hgone.1.2, hgone.2⟩

end

/-- A stream that is reset before its first byte gets no object, also not by the byte that arrives later. -/
theorem reachable_streamOnce_reset :
    (runOps smallServer [.recvFrame false (.rstStream ⟨4, 0, 5⟩),
      .recvFrame false (.stream ⟨4, 0, [8], false⟩)]).strms 4 = none :=
  ((reachable_streamOnce ((Initial.server ..).reachable.runOps [.recvFrame false (.rstStream ⟨4, 0, 5⟩)] rfl)
    (by decide)).2.2 (.inr ⟨rfl, rfl, rfl⟩) _ _
      (run_runOps _ [.recvFrame false (.stream ⟨4, 0, [8], false⟩)] rfl)).1

end Ngtcp2
