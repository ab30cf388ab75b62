import Polygon.RepeatedFrames
import Polygon.StreamSource

/-!
# What sent frames say

The credit that a MAX_DATA, MAX_STREAM_DATA or MAX_STREAM_ID frame grants is credit that the
endpoint has announced and never takes back, the streams that its frames name are streams that it
uses, and the final size of a reset is all that is ever taken over of the stream.
-/
namespace Ngtcp2

/-- The credit that was announced only grows, as do the IDs in use, and ended streams stay so. -/
structure CreditKept (conn conn' : Conn) : Prop where
  data : conn.maxRxOffset ≤ conn'.maxRxOffset
  ids : ∀ bidi, (conn.ids bidi).maxRemoteStreamId ≤ (conn'.ids bidi).maxRemoteStreamId
  used : ∀ id, Used conn id → Used conn' id
  strms : ∀ id strm', id ≠ 0 → Used conn id → conn'.strms id = some strm' →
    ∃ strm, conn.strms id = some strm ∧ strm.maxRxOffset ≤ strm'.maxRxOffset ∧
      (strm.shutWr = true → strm'.shutWr = true)

/-- Nothing more of the stream is taken over. -/
def Ended (conn : Conn) (id : Nat) : Prop := ∀ strm, conn.strms id = some strm → strm.shutWr = true

/-- The credit of the streams that is not announced yet is not below the announced one. -/
def Ahead (conn : Conn) : Prop :=
  ∀ id strm, id ≠ 0 → conn.strms id = some strm → strm.maxRxOffset ≤ strm.unsentMaxRxOffset

/-- What the frame says is true of the connection, of whose streams `lens` were taken over. -/
def Backed (lens : Nat → Nat) (conn : Conn) : Frame → Prop
  | .stream fr => Used conn fr.streamId
  | .rstStream fr =>
    Used conn fr.streamId ∧
      (fr.streamId ≠ 0 → fr.finalOffset = lens fr.streamId ∧ Ended conn fr.streamId)
  | .stopSending fr => Used conn fr.streamId
  | .maxStreamData fr =>
    Used conn fr.streamId ∧ (fr.streamId ≠ 0 → ∀ strm, conn.strms fr.streamId = some strm →
      fr.maxStreamData ≤ strm.maxRxOffset)
  | .maxData n => n ≤ conn.maxRxOffset
  | .maxStreamId n => n ≤ (conn.ids (bidiStream n)).maxRemoteStreamId
  | _ => True

/-- In between, announced credit is kept and only true frames are new. -/
structure Says (lens : Nat → Nat) (conn conn' : Conn) : Prop where
  kept : CreditKept conn conn'
  frames : ∀ fr ∈ held conn', fr ∈ held conn ∨ Backed lens conn' fr

/-- The limits for the streams of the peer are of the type that they limit, or there are no such
streams. -/
structure LimitKinds (conn : Conn) : Prop where
  kinds : ∀ bidi, (bidiStream (conn.ids bidi).maxRemoteStreamId = bidi ∧
    bidiStream (conn.ids bidi).unsentMaxRemoteStreamId = bidi) ∨
      ((conn.ids bidi).maxRemoteStreamId = 0 ∧ (conn.ids bidi).unsentMaxRemoteStreamId = 0)
  live : ∀ id strm, id ≠ 0 → conn.strms id = some strm → connLocalStream conn id = false →
    id ≤ (conn.ids (bidiStream id)).maxRemoteStreamId

/-- Filling a packet announces no credit but for new streams. -/
structure PktFilled (conn conn' : Conn) : Prop where
  same : SameIds conn conn'
  strms : conn'.strms = conn.strms
  data : conn'.maxRxOffset = conn.maxRxOffset
  ids : ∀ bidi, (conn.ids bidi).maxRemoteStreamId ≤ (conn'.ids bidi).maxRemoteStreamId
  frames : ∀ fr ∈ held conn', fr ∈ held conn ∨
    ∃ bidi, fr = .maxStreamId (conn'.ids bidi).maxRemoteStreamId

/-- The bytes that were taken over of each stream, and where the streams stand. -/
def SourcesAll (given : Nat → List UInt8) (ended : Nat → Bool) (conn : Conn) : Prop :=
  ∀ id, id ≠ 0 → SourcesAt id (given id) (ended id) conn

section
variable {H : List Frame} {K : List Kind} {conn conn₁ conn' : Conn} {strm strm' : Strm} {k : Kind}
  {given : Nat → List UInt8} {ended : Nat → Bool} {lens lens' : Nat → Nat} {fr : Frame} {id : Nat}

/-! ## Announced credit -/

theorem CreditKept.refl (conn : Conn) : CreditKept conn conn :=
  ⟨Nat.le_refl _, fun _ => Nat.le_refl _, fun _ h => h,
    fun _ strm' _ _ hfind => ⟨strm', hfind, Nat.le_refl _, fun h => h⟩⟩

theorem CreditKept.trans (h : CreditKept conn conn₁) (h' : CreditKept conn₁ conn') :
    CreditKept conn conn' := by
  refine ⟨Nat.le_trans h.data h'.data, fun bidi => Nat.le_trans (h.ids bidi) (h'.ids bidi),
    fun id hu => h'.used id (h.used id hu), fun id strm' hid hu hfind => ?_⟩
  obtain ⟨strm₁, hfind₁, hle₁, hshut₁⟩ := h'.strms id strm' hid (h.used id hu) hfind
  obtain ⟨strm, hfind₀, hle, hshut⟩ := h.strms id strm₁ hid hu hfind₁
  exact ⟨strm, hfind₀, Nat.le_trans hle hle₁, fun hs => hshut₁ (hshut hs)⟩

theorem CreditKept.keepsEnded (h : CreditKept conn conn') (hid : id ≠ 0) (hused : Used conn id)
    (hended : Ended conn id) : Ended conn' id := by
  intro strm' hfind
  obtain ⟨strm, hold, -, hshut⟩ := h.strms id strm' hid hused hfind
  exact hshut (hended strm hold)

/-- A frame stays true while credit is kept and more is taken over of streams that go on. -/
theorem Backed.mono (h : Backed lens conn fr) (hkept : CreditKept conn conn')
    (hlens : ∀ id, Ended conn id → lens' id = lens id) : Backed lens' conn' fr := by
  cases fr with
  | stream fr | stopSending fr => exact hkept.used _ h
  | rstStream fr =>
    refine ⟨hkept.used _ h.1, fun hid => ?_⟩
    obtain ⟨hfinal, hended⟩ := h.2 hid
    exact ⟨hfinal.trans (hlens _ hended).symm, hkept.keepsEnded hid h.1 hended⟩
  | maxStreamData fr =>
    refine ⟨hkept.used _ h.1, fun hid strm' hfind => ?_⟩
    obtain ⟨strm, hold, hle, -⟩ := hkept.strms _ strm' hid h.1 hfind
    exact Nat.le_trans (h.2 hid strm hold) hle
  | maxData n => exact Nat.le_trans h hkept.data
  | maxStreamId n => exact Nat.le_trans h (hkept.ids _)
  | _ => trivial

theorem NewStrm.ahead (h : NewStrm conn strm k) : strm.maxRxOffset ≤ strm.unsentMaxRxOffset := by
  cases h with
  | remote remote opened =>
    rw [opened]
    unfold openedStrm
    dsimp only
    split <;> exact Nat.le_refl _
  | isLocal isLocal init => rcases init with h | h <;> rw [h] <;> exact Nat.le_refl _

theorem StrmChange.ahead (h : StrmChange k strm strm') (hk : k ≠ .rx) (hext : k ≠ .extend)
    (hahead : strm.maxRxOffset ≤ strm.unsentMaxRxOffset) :
    strm'.maxRxOffset ≤ strm'.unsentMaxRxOffset := by
  cases h with
  | rx => exact absurd rfl hk
  | extend => exact absurd rfl hext
  | window tx rx unsent =>
    rw [tx.maxRxOffset, unsent]
    exact hahead
  | announce => exact Nat.le_refl _
  | tx => split <;> exact hahead
  | _ => exact hahead

theorem Change.ahead (h : Change H k conn conn') (hk : k ≠ .rx) (hext : k ≠ .extend)
    (hinv : IdsInv conn) (hahead : Ahead conn) : Ahead conn' := by
  intro id strm' hid hfind
  cases h.strmFrom hinv hid hfind with
  | kept strm find change => exact change.ahead hk hext (hahead id strm hid find)
  | opened unused streamId fresh => exact fresh.ahead

/-- Only announcements move the announced credit of a stream, up to what was not announced. -/
theorem StrmChange.maxRxOffset_le (h : StrmChange k strm strm')
    (hahead : k = .announce → strm.maxRxOffset ≤ strm.unsentMaxRxOffset) :
    strm.maxRxOffset ≤ strm'.maxRxOffset := by
  cases h with
  | rx tx | window tx | extend tx => exact Nat.le_of_eq tx.maxRxOffset.symm
  | announce => exact hahead rfl
  | tx => split <;> exact Nat.le_refl _
  | _ => exact Nat.le_refl _

theorem Change.maxRxOffset_le (h : Change H k conn conn') : conn.maxRxOffset ≤ conn'.maxRxOffset := by
  by_cases hann : k = .announce
  · subst hann
    cases h with
    | announce _ hlt => exact Nat.le_of_lt hlt
    | announceStrm => exact Nat.le_refl _
  by_cases hext : k = .extend
  · subst hext
    cases h <;> exact Nat.le_refl _
  · exact Nat.le_of_eq (h.maxRxOffset hann hext).1.symm

theorem StrmChange.shutWr (h : StrmChange k strm strm') (hshut : strm.shutWr = true) :
    strm'.shutWr = true := by
  by_cases hk : k = .tx
  · subst hk
    cases h with
    | same => exact hshut
    | tx unshut => exact absurd (unshut.symm.trans hshut) Bool.false_ne_true
  · exact (h.sent hk).2 hshut

theorem Change.creditKept (h : Change H k conn conn') (hinv : IdsInv conn)
    (hahead : k = .announce → Ahead conn) : CreditKept conn conn' := by
  refine ⟨h.maxRxOffset_le, h.maxRemoteStreamId_le, fun id hu => h.used hinv hu,
    fun id strm' hid hu hfind => ?_⟩
  cases h.strmFrom hinv hid hfind with
  | kept strm find change =>
    exact ⟨strm, find, change.maxRxOffset_le fun hk => hahead hk id strm hid find, change.shutWr⟩
  | opened unused => exact absurd hu unused

/-- Changes that announce credit, if any, are free of those that extend or use it. -/
theorem Changes.creditKept (h : Changes H K conn conn') (hinv : IdsInv conn)
    (hahead : .announce ∈ K → Ahead conn ∧ .rx ∉ K ∧ .extend ∉ K) :
    CreditKept conn conn' ∧ (.announce ∈ K → Ahead conn') := by
  refine (h.keeps (fun c => IdsInv c ∧ CreditKept conn c ∧ (.announce ∈ K → Ahead c)) ?_
    ⟨hinv, .refl conn, fun hin => (hahead hin).1⟩).2
  rintro k hk c c' ⟨hinv, hkept, hah⟩ hc
  refine ⟨hc.idsInv hinv, hkept.trans (hc.creditKept hinv fun heq => hah (heq ▸ hk)), fun hin => ?_⟩
  obtain ⟨-, hrx, hext⟩ := hahead hin
  exact hc.ahead (fun heq => hrx (heq ▸ hk)) (fun heq => hext (heq ▸ hk)) hinv (hah hin)

/-! ## New frames -/

theorem Says.refl (lens : Nat → Nat) (conn : Conn) : Says lens conn conn :=
  ⟨.refl conn, fun _ h => .inl h⟩

theorem Says.trans (h : Says lens conn conn₁) (h' : Says lens conn₁ conn') : Says lens conn conn' := by
  refine ⟨h.kept.trans h'.kept, fun fr hfr => ?_⟩
  rcases h'.frames fr hfr with hfr | hback
  · exact (h.frames fr hfr).imp_right fun hback => hback.mono h'.kept fun _ _ => rfl
  · exact .inr hback

theorem Says.of_subset (hkept : CreditKept conn conn') (hsub : held conn' ⊆ held conn) :
    Says lens conn conn' :=
  ⟨hkept, fun _ hfr => .inl (hsub hfr)⟩

theorem StrmsUsed.found (hused : StrmsUsed conn) (find : conn.strms strm.streamId = some strm) :
    Used conn strm.streamId := by
  by_cases hzero : strm.streamId = 0
  · rw [hzero]
    exact hused.zero
  · exact hused.live _ hzero (Option.isSome_of_eq_some find)

/-- The kinds of changes that make no frames, or such as can be told from the change. -/
def Kind.tells : Kind → Bool
  | .tx | .pkts | .frq | .push => false
  | _ => true

theorem Change.saying (h : Change H k conn conn') (hk : k.tells = true) (hused : StrmsUsed conn)
    (hsrc : SourcesAll given ended conn) (hahead : k = .announce → Ahead conn) :
    Says (fun id => (given id).length) conn conn' := by
  have hkept := h.creditKept hused.ids hahead
  refine ⟨hkept, fun fr hfr => ?_⟩
  have hframes : ∀ {ents ents' : List RtbEntry}, ents ⊆ ents' → frames ents ⊆ frames ents' := by
    intro ents ents' hents fr hfr
    obtain ⟨ent, hent, hfr⟩ := List.mem_flatMap.mp hfr
    exact List.mem_flatMap.mpr ⟨ent, hents hent, hfr⟩
  have hless : ∀ {ents : List RtbEntry}, ents ⊆ conn.rtb.head ++ conn.earlyRtb →
      fr ∈ conn.frq ++ frames ents → fr ∈ held conn := by
    intro ents hents hfr
    rcases List.mem_append.mp hfr with hfr | hfr
    · exact List.mem_append_left _ hfr
    · exact List.mem_append_right _ (hframes hents hfr)
  by_cases hpackets : k.packetless = true
  · obtain ⟨hrtb, hearly, -⟩ := h.sameEntries hpackets
    have hids : ∀ (conn : Conn) bidi ids, (conn.setIds bidi ids).frq = conn.frq := by
      intro conn bidi ids
      cases bidi <;> rfl
    have hmore : ∀ {new : Frame}, conn'.frq = new :: conn.frq → fr ∈ held conn ∨ fr = new := by
      intro new hfrq
      rw [held, hfrq, hrtb, hearly, List.cons_append] at hfr
      exact (List.mem_cons.mp hfr).symm
    have hsame : conn'.frq = conn.frq → fr ∈ held conn := by
      intro hfrq
      rw [held, hfrq, hrtb, hearly] at hfr
      exact hfr
    cases h with
    | idle same => exact .inl (hsame same.frq)
    | announce =>
      refine (hmore rfl).imp_right ?_
      rintro rfl
      exact Nat.le_refl _
    | @announceStrm _ strm find =>
      refine (hmore rfl).imp_right ?_
      rintro rfl
      refine ⟨hkept.used _ (hused.found find), fun _ strm' hfind => ?_⟩
      obtain rfl := Option.some.inj ((setStrm_find _ _).symm.trans hfind)
      exact Nat.le_refl _
    | @rst _ strm find =>
      refine (hmore rfl).imp_right ?_
      rintro rfl
      refine ⟨hkept.used _ (hused.found find), fun hne => ⟨((hsrc _ hne).live strm find).1, ?_⟩⟩
      intro strm' hfind
      obtain rfl := Option.some.inj ((setStrm_find _ _).symm.trans hfind)
      rfl
    | push => cases hk
    | openLocal bidi => exact .inl (hsame (hids _ _ _))
    | openRemote => exact .inl (hsame (hids _ _ _))
    | consume => exact .inl (hsame (hids _ _ _))
    | close => exact .inl (hsame (hids _ _ _))
    | raiseIds => exact .inl (hsame (hids _ _ _))
    | _ => first | exact .inl (hsame rfl) | simp [Kind.packetless] at hpackets
  · cases h with
    | unlink inv sub => exact .inl (hless (sub.append_right _).subset hfr)
    | timeout inv sub => exact .inl (hless (sub.append_right _).subset hfr)
    | restart => exact .inl (hless (List.subset_append_right _ _) hfr)
    | tx | pkts | frq => cases hk
    | _ => exact absurd rfl hpackets

theorem Changes.saying (h : Changes H K conn conn') (hK : ∀ k ∈ K, k.tells = true)
    (hused : StrmsUsed conn) (hsrc : SourcesAll given ended conn)
    (hahead : .announce ∈ K → Ahead conn ∧ .rx ∉ K ∧ .extend ∉ K) :
    Says (fun id => (given id).length) conn conn' := by
  refine (h.keeps (fun c => StrmsUsed c ∧ SourcesAll given ended c ∧ (.announce ∈ K → Ahead c) ∧
    Says (fun id => (given id).length) conn c) ?_
    ⟨hused, hsrc, fun hin => (hahead hin).1, .refl _ conn⟩).2.2.2
  rintro k hk c c' ⟨hused, hsrc, hah, hsaid⟩ hc
  refine ⟨hc.strmsUsed hused, fun id hid => ?_, fun hin => ?_,
    hsaid.trans (hc.saying (hK k hk) hused hsrc fun heq => hah (heq ▸ hk))⟩
  · refine hc.sourcesAt ?_ hid (hsrc id hid)
    rintro rfl
    cases hK _ hk
  · obtain ⟨-, hrx, hext⟩ := hahead hin
    exact hc.ahead (fun heq => hrx (heq ▸ hk)) (fun heq => hext (heq ▸ hk)) hused.ids (hah hin)

/-! ## Limits for new streams -/

theorem bidiStream_add_four (n : Nat) : bidiStream (n + 4) = bidiStream n := by
  unfold bidiStream
  have hmod : (n + 4) / 2 % 2 = n / 2 % 2 := by omega
  rw [hmod]

theorem Change.maxRemoteStreamId_cases (h : Change H k conn conn') (bidi : Bool) :
    (conn'.ids bidi).maxRemoteStreamId = (conn.ids bidi).maxRemoteStreamId ∨
      (conn'.ids bidi).maxRemoteStreamId = (conn.ids bidi).unsentMaxRemoteStreamId := by
  cases h with
  | idle same =>
    cases bidi
    · exact .inl (congrArg _ same.uni)
    · exact .inl (congrArg _ same.bidi)
  | openRemote => exact .inl (setIds_maxRemote conn _ bidi (by rfl))
  | openLocal b => cases b <;> cases bidi <;> exact .inl rfl
  | consume => exact .inl (setIds_maxRemote conn _ bidi (by rfl))
  | @close _ _ _ _ _ b => cases b <;> cases bidi <;> exact .inl rfl
  | raiseIds _ b => exact .inl (setIds_maxRemote conn b bidi (by rfl))
  | limits => cases bidi <;> exact .inl rfl
  | tx =>
    unfold chargeStream trackStreamPkt
    dsimp only
    split <;> exact .inl rfl
  | frq _ _ _ _ hb hu =>
    cases bidi
    · exact hu.imp_right fun hnew => hnew.2.1
    · exact hb.imp_right fun hnew => hnew.2.1
  | _ => exact .inl rfl

/-- Streams that the peer opens are within its credit. -/
theorem Change.liveCredit (h : Change H k conn conn') (hinv : IdsInv conn) (hl : LimitKinds conn) :
    ∀ id strm, id ≠ 0 → conn'.strms id = some strm → connLocalStream conn' id = false →
      id ≤ (conn'.ids (bidiStream id)).maxRemoteStreamId := by
  intro id strm' hid hfind hremote
  rw [connLocalStream_congr h.server] at hremote
  refine Nat.le_trans ?_ (h.maxRemoteStreamId_le (bidiStream id))
  by_cases hk : k = .openRemote
  · subst hk
    cases h with
    | @openRemote _ streamId idtr none remote credit opens =>
      change (if id = (openedStrm conn streamId).streamId then some (openedStrm conn streamId)
        else (conn.setIds _ _).strms id) = some strm' at hfind
      rw [openedStrm_streamId, Conn.setIds_strms] at hfind
      split at hfind
      · next heq => exact heq ▸ credit
      · exact hl.live id strm' hid hfind hremote
  · cases h.strmFrom hinv hid hfind with
    | kept strm find => exact hl.live id strm hid find hremote
    | opened unused streamId fresh =>
      cases fresh with
      | remote => exact absurd rfl hk
      | isLocal isLocal =>
        rw [streamId] at isLocal
        exact absurd (hremote.symm.trans isLocal) Bool.false_ne_true

theorem Change.limitKinds (h : Change H k conn conn') (hused : StrmsUsed conn)
    (hl : LimitKinds conn) : LimitKinds conn' := by
  refine ⟨fun bidi => ?_, h.liveCredit hused.ids hl⟩
  have hmax := h.maxRemoteStreamId_cases bidi
  by_cases hk : k = .close
  · subst hk
    cases h with
    | @close _ strm find shut code b unsent credit =>
      have hids : ∀ c, ((closeStrm conn (if strm.onFc then conn.fcStrms.erase strm.streamId
          else conn.fcStrms) strm.streamId code b unsent).ids c) =
          if c = b then { conn.ids b with unsentMaxRemoteStreamId := unsent } else conn.ids c := by
        intro c
        rw [closeStrm, Conn.ids_setIds]
        rfl
      rw [hids]
      split
      · next hb =>
        subst hb
        dsimp only
        unfold CloseCredit at credit
        split at credit
        · rw [credit]
          exact hl.kinds bidi
        next hremote =>
        obtain ⟨hbidi, hunsent⟩ := credit
        rw [hunsent, handleRemoteStreamIdExtension]
        split
        · rcases hl.kinds bidi with ⟨hm, hu⟩ | ⟨hm, hu⟩
          · exact .inl ⟨hm, (bidiStream_add_four _).trans hu⟩
          · -- Without credit, only stream 0 can be there to close.
            have hbidi' : bidi = true := by
              by_cases hzero : strm.streamId = 0
              · rw [hbidi, hzero]
                rfl
              · have hle := hl.live _ strm hzero find (Bool.eq_false_iff.mpr hremote)
                rw [← hbidi, hm] at hle
                exact absurd (Nat.le_zero.mp hle) hzero
            refine .inl ⟨?_, (bidiStream_add_four _).trans ?_⟩
            · rw [hm, hbidi']
              rfl
            · rw [hu, hbidi']
              rfl
        · exact hl.kinds bidi
      · exact hl.kinds bidi
  · have hunsent := (h.sameCredit hk bidi).unsent
    rcases hl.kinds bidi with ⟨hm, hu⟩ | ⟨hm, hu⟩
    · refine .inl ⟨?_, (congrArg bidiStream hunsent).trans hu⟩
      rcases hmax with heq | heq <;> rw [heq] <;> assumption
    · refine .inr ⟨?_, hunsent.trans hu⟩
      rcases hmax with heq | heq <;> rw [heq] <;> assumption

theorem Changes.limitKinds (h : Changes H K conn conn') (hused : StrmsUsed conn)
    (hl : LimitKinds conn) : LimitKinds conn' :=
  (h.keeps (fun c => StrmsUsed c ∧ LimitKinds c)
    (fun _ _ _ _ hP hc => ⟨hc.strmsUsed hP.1, hc.limitKinds hP.1 hP.2⟩) ⟨hused, hl⟩).2

/-- A limit that is told is the limit of the streams that it is taken for. -/
theorem LimitKinds.told (hl : LimitKinds conn) (bidi : Bool) :
    Backed lens conn (.maxStreamId (conn.ids bidi).maxRemoteStreamId) := by
  rcases hl.kinds bidi with ⟨hm, -⟩ | ⟨hm, -⟩
  · rw [Backed, hm]
  · rw [Backed, hm]
    exact Nat.zero_le _

/-! ## Writing packets -/

variable {r : Except Err (Option Pkt)} {destlen streamId ts : Nat}

theorem Accounts.subset {cancelled : List Frame} {dropped : List (List Frame)}
    (h : Accounts conn conn' [] cancelled dropped) : held conn' ⊆ held conn := by
  intro fr hfr
  have hperm := h.perm
  rw [List.append_nil, List.append_assoc] at hperm
  exact hperm.subset (List.mem_append_left _ hfr)

theorem connRetransmit_subset (hinv : EntriesInv conn)
    (h : connRetransmit conn destlen ts = (r, conn')) (hr : ¬Fatal r) : held conn' ⊆ held conn := by
  obtain ⟨ents, conn₁, hgave, hend⟩ := connRetransmit_cases hinv.rtb h
  obtain ⟨hinv₁, cancelled, dropped, hsettled⟩ := hgave.settled hinv
  refine List.Subset.trans ?_ hsettled.accounts.subset
  by_cases hdone : (∃ v, r = .ok v) ∨ r = .error .noBuf
  · obtain ⟨⟨cancelled', hacc⟩, -⟩ := hend.accounts hinv₁.rtb hdone
    exact hacc.subset
  cases hend with
  | refused popped =>
    have hsub := (popped.unlinked hinv₁.rtb).sublist
    exact ((hsub.append_right _).flatMap _).append_left _ |>.subset
  | failed popped alive call fatal => exact absurd ⟨_, rfl, fatal⟩ hr
  | noBuf => exact absurd (.inr rfl) hdone
  | _ => exact absurd (.inl ⟨_, rfl⟩) hdone

/-- A new limit for streams is told by the frame, and the other limit stays. -/
theorem writeMaxStreamId_told {bidi : Bool} {w w' : Written}
    (h : writeMaxStreamId conn bidi w = (.ok w', conn')) :
    (∀ fr ∈ w'.done ++ w'.rest,
      fr ∈ w.done ++ w.rest ∨ fr = .maxStreamId (conn'.ids bidi).maxRemoteStreamId) ∧
      (conn'.ids !bidi).maxRemoteStreamId = (conn.ids !bidi).maxRemoteStreamId := by
  rcases writeMaxStreamId_cases h with hf | ⟨he, rfl⟩ | ⟨w₁, he, hrest, -, hquiet, hdone, -⟩
  · exact absurd hf (not_fatal_ok _)
  · obtain rfl := Except.ok.inj he
    exact ⟨fun _ hfr => .inl hfr, rfl⟩
  · obtain rfl := Except.ok.inj he
    obtain ⟨evs, acktr, nextAckExpiry, immediateAck, -, -, rfl⟩ := hquiet
    refine ⟨fun fr hfr => ?_, by cases bidi <;> rfl⟩
    rw [hdone] at hfr
    rcases List.mem_append.mp hfr with hfr | hfr
    · exact .inl (List.mem_append_left _ hfr)
    · obtain rfl := List.mem_singleton.mp hfr
      refine .inr ?_
      cases bidi <;> rfl

theorem writePktFrames_told {ppe : Ppe} {w : Written}
    (h : writePktFrames conn ppe = (.ok w, conn')) :
    ∀ fr ∈ w.done ++ w.rest,
      fr ∈ conn.frq ∨ ∃ bidi, fr = .maxStreamId (conn'.ids bidi).maxRemoteStreamId := by
  unfold writePktFrames at h
  obtain ⟨w₀, conn₀, hfrq, h⟩ := andThen_eq_ok h
  obtain ⟨w₁, conn₁, hbidi, huni⟩ := andThen_eq_ok h
  obtain ⟨htold₁, -⟩ := writeMaxStreamId_told hbidi
  obtain ⟨htold, hkept⟩ := writeMaxStreamId_told huni
  have hsub : w₀.done ++ w₀.rest ⊆ conn.frq := by
    rcases writeFrq_cases hfrq with hf | ⟨w', gone, he, -, hfills⟩
    · exact absurd hf (not_fatal_ok _)
    · obtain rfl := Except.ok.inj he
      exact fun fr hfr => hfills.perm.symm.subset (List.mem_append_left _ hfr)
  intro fr hfr
  rcases htold fr hfr with hfr | rfl
  · rcases htold₁ fr hfr with hfr | rfl
    · exact .inl (hsub hfr)
    · exact .inr ⟨true, congrArg _ hkept.symm⟩
  · exact .inr ⟨false, rfl⟩

theorem Logs.pktFilled {hds : List PktHd} (h : Logs hds conn conn') : PktFilled conn conn' := by
  have hheld := h.held
  obtain ⟨evs, acktr, nextAckExpiry, immediateAck, -, -, rfl⟩ := h
  exact ⟨{}, rfl, rfl, fun _ => Nat.le_refl _, fun _ hfr => .inl hfr⟩

theorem PktFilled.trans_logs {hds : List PktHd} (h : PktFilled conn conn₁)
    (hlogs : Logs hds conn₁ conn') : PktFilled conn conn' := by
  have hheld := hlogs.held
  obtain ⟨evs, acktr, nextAckExpiry, immediateAck, -, -, rfl⟩ := hlogs
  exact ⟨⟨h.same.server, h.same.remoteIdtr, h.same.next⟩, h.strms, h.data, h.ids,
    fun fr hfr => h.frames fr (hheld ▸ hfr)⟩

theorem writePktFrames_filled {ppe : Ppe} {w : Written}
    (h : writePktFrames conn ppe = (.ok w, conn')) :
    PktFilled conn (conn'.setFrq (w.done ++ w.rest)) := by
  have htold := writePktFrames_told h
  rcases writePktFrames_cases h with hf | ⟨w', created, cancelled, he, hfilled⟩
  · exact absurd hf (not_fatal_ok _)
  obtain rfl := Except.ok.inj he
  obtain ⟨bidi, uni, hbidi, huni, evs, acktr, nextAckExpiry, immediateAck, -, -, rfl⟩ :=
    hfilled.state
  have hle : ∀ {ids : StreamIds} {n : Nat}, IdsAnnounced ids n created →
      ids.maxRemoteStreamId ≤ n := by
    rintro ids n (rfl | ⟨hlt, rfl, -⟩)
    · exact Nat.le_refl _
    · exact Nat.le_of_lt hlt
  refine ⟨⟨rfl, fun b => by cases b <;> rfl, fun b => by cases b <;> rfl⟩, rfl, rfl, fun b => ?_,
    fun fr hfr => ?_⟩
  · cases b
    · exact hle huni
    · exact hle hbidi
  · rcases List.mem_append.mp hfr with hfr | hfr
    · exact (htold fr hfr).imp_left (List.mem_append_left _)
    · exact .inl (List.mem_append_right _ hfr)

/-- The frames that are sent leave the queue for the entry of the packet. -/
theorem addEntry_held (conn : Conn) (hd : PktHd) (w : Written) (ts pktlen : Nat)
    (hfrq : conn.frq = w.done ++ w.rest) :
    held ((conn.setFrq w.rest).addEntry fun addr =>
      rtbEntryNew addr hd w.done ts (ts + pktDeadlinePeriod) pktlen false) ⊆ held conn := by
  intro fr hfr
  change fr ∈ w.rest ++ (w.done ++ frames (conn.rtb.head ++ conn.earlyRtb)) at hfr
  rw [held, hfrq]
  simp only [List.mem_append] at hfr ⊢
  tauto

theorem connWritePkt_filled (hw : Writable H conn)
    (h : connWritePkt conn destlen ts = (r, conn')) (hr : ¬Fatal r) :
    ∃ conn₁, Changes H [.announce, .idle, .timer] conn conn₁ ∧ PktFilled conn₁ conn' := by
  unfold connWritePkt at h
  have hquiet : Quiet conn
      (if connNextAckExpired conn ts then connCreateAckFrame conn ts false else (none, conn)).2 := by
    split
    · exact connCreateAckFrame_quiet conn ts false
    · exact .refl _
  dsimp only at h
  generalize (if connNextAckExpired conn ts then connCreateAckFrame conn ts false else (none,
    conn)) = res at h hquiet
  obtain ⟨ackfr, conn₁⟩ := res
  dsimp only at h hquiet
  split at h
  · obtain ⟨rfl, -⟩ := Prod.mk.inj h
    exact absurd ⟨_, rfl, rfl⟩ hr
  next conn₂ hqueue =>
  have hkept : Changes H [.announce, .idle, .timer] conn conn₂ := by
    obtain ⟨hdata, hw₁⟩ := queueMaxData_changes (hw.logs hquiet) ackfr
    obtain ⟨hstreams, -⟩ := queueMaxStreamData_changes hw₁ rfl hqueue
    have hfirst : Changes H [.announce, .idle, .timer] conn conn₁ := by
      refine hquiet.changes ?_ ?_ fun hne => absurd rfl hne <;> simp
    exact hfirst.trans ((hdata.mono (by simp)).trans (hstreams.mono (by simp)))
  refine ⟨conn₂, hkept, ?_⟩
  split at h
  · obtain ⟨-, rfl⟩ := Prod.mk.inj h
    exact (Logs.refl conn₂).pktFilled
  split at h
  · obtain ⟨-, rfl⟩ := Prod.mk.inj h
    exact (Logs.refl conn₂).pktFilled
  rcases andThen_cases h with ⟨e, h₃, rfl⟩ | ⟨ppe₁, conn₃, h₃, h⟩
  · exact (writeAckFrame_cases h₃).1.pktFilled
  have hack := (writeAckFrame_cases h₃).1
  rcases andThen_cases h with ⟨e, h₄, rfl⟩ | ⟨w, conn₄, h₄, h⟩
  · rcases writePktFrames_cases h₄ with hf | ⟨_, _, _, he, -⟩
    · exact absurd hf.cast hr
    · cases he
  have hfilled : PktFilled conn₂ (conn₄.setFrq (w.done ++ w.rest)) := by
    have hlast := writePktFrames_filled h₄
    obtain ⟨evs, acktr, nextAckExpiry, immediateAck, -, -, rfl⟩ := hack
    exact ⟨⟨hlast.same.server, hlast.same.remoteIdtr, hlast.same.next⟩, hlast.strms, hlast.data,
      hlast.ids, hlast.frames⟩
  split at h
  · obtain ⟨-, rfl⟩ := Prod.mk.inj h
    exact hfilled
  rcases andThen_cases h with ⟨e, h₅, rfl⟩ | ⟨pkt, conn₅, h₅, h⟩
  · exact absurd (ppeFinal_error h₅).fatal_error hr
  have hsent := (ppeFinal_ok h₅).1
  have hfinal := hfilled.trans_logs hsent
  have hfrq : conn₅.frq = w.done ++ w.rest := by
    obtain ⟨evs, acktr, nextAckExpiry, immediateAck, -, -, rfl⟩ := hsent
    rfl
  obtain ⟨-, rfl⟩ := Prod.mk.inj h
  have hnum : ∀ {c : Conn}, PktFilled conn₂ c → PktFilled conn₂ c.incLastTxPktNum := fun h =>
    ⟨⟨h.same.server, h.same.remoteIdtr, h.same.next⟩, h.strms, h.data, h.ids, h.frames⟩
  refine hnum ?_
  split
  · exact hfinal
  · exact ⟨⟨hfinal.same.server, hfinal.same.remoteIdtr, hfinal.same.next⟩, hfinal.strms,
      hfinal.data, hfinal.ids,
      fun fr hfr => hfinal.frames fr (addEntry_held conn₅ w.ppe.hd w ts pkt.len hfrq hfr)⟩

theorem PktFilled.creditKept (h : PktFilled conn conn') : CreditKept conn conn' := by
  refine ⟨Nat.le_of_eq h.data.symm, h.ids, fun id hu => (h.same.used id).mpr hu,
    fun id strm' _ _ hfind => ?_⟩
  rw [h.strms] at hfind
  exact ⟨strm', hfind, Nat.le_refl _, fun h => h⟩

theorem PktFilled.saying (h : PktFilled conn conn') (hkinds : LimitKinds conn') :
    Says lens conn conn' := by
  refine ⟨h.creditKept, fun fr hfr => (h.frames fr hfr).imp_right ?_⟩
  rintro ⟨bidi, rfl⟩
  exact hkinds.told bidi

theorem HsWritten.frames_new {r : Except Err Pkt} (h : HsWritten conn r conn')
    (hw : Writable H conn) : ∀ fr ∈ held conn', fr ∈ held conn ∨ fr.handshake = true := by
  cases h with
  | noBuf adv quiet =>
    intro fr hfr
    rw [quiet.held, adv.held.1] at hfr
    exact .inl hfr
  | sent adv close_eq sends =>
    intro fr hfr
    rcases List.mem_append.mp (sends.held.1.subset hfr) with hfr | hfr
    · exact .inl (adv.held.1 ▸ hfr)
    · rcases List.mem_append.mp hfr with hfr | hfr
      · exact .inr ((adv.changes hw).2.2 fr hfr)
      · rcases close_eq with rfl | rfl
        · cases hfr
        · obtain rfl := List.mem_singleton.mp hfr
          exact .inr rfl

theorem HsCall.frames_new (h : HsCall conn r conn') (hw : Writable H conn) :
    ∀ fr ∈ held conn', fr ∈ held conn ∨ fr.handshake = true := by
  cases h with
  | written prepared written =>
    have hnew := written.frames_new (prepared.changes hw).2
    rw [prepared.held.1] at hnew
    exact hnew
  | acked written => exact fun fr hfr => .inl (written.accounts.1.subset hfr)
  | failed quiet => exact fun fr hfr => .inl (quiet.held ▸ hfr)

/-- Frames of the handshake name stream 0 only. -/
theorem Backed.of_handshake (hzero : Used conn 0) (h : fr.handshake = true) :
    Backed lens conn fr := by
  cases fr with
  | stream fr =>
    have hid : fr.streamId = 0 := beq_iff_eq.mp h
    show Used conn fr.streamId
    rw [hid]
    exact hzero
  | connectionClose => trivial
  | _ => cases h

/-- What the writers rely on. -/
structure Sound (given : Nat → List UInt8) (ended : Nat → Bool) (conn : Conn) : Prop where
  used : StrmsUsed conn
  sources : SourcesAll given ended conn
  ahead : Ahead conn
  kinds : LimitKinds conn

theorem Changes.sound (h : Changes H K conn conn') (htx : .tx ∉ K) (hrx : .rx ∉ K)
    (hext : .extend ∉ K) (hs : Sound given ended conn) : Sound given ended conn' := by
  refine h.keeps (Sound given ended) (fun k hk c c' hP hc => ?_) hs
  refine ⟨hc.strmsUsed hP.used, fun id hid => ?_, ?_, hc.limitKinds hP.used hP.kinds⟩
  · exact hc.sourcesAt (fun heq => htx (heq ▸ hk)) hid (hP.sources id hid)
  · exact hc.ahead (fun heq => hrx (heq ▸ hk)) (fun heq => hext (heq ▸ hk)) hP.used.ids hP.ahead

theorem GoesOn.tells (h : GoesOn destlen ts conn r conn') (hw : Writable H conn)
    (hs : Sound given ended conn) (hzero : Used conn' 0) (hkinds : LimitKinds conn')
    (hr : ¬Fatal r) :
    ∀ fr ∈ held conn', fr ∈ held conn ∨ Backed (fun id => (given id).length) conn' fr := by
  cases h with
  | handshake call state =>
    exact fun fr hfr => (call.frames_new hw fr hfr).imp_right (.of_handshake hzero)
  | @early conn₁ conn' r quiet state call =>
    have hw₁ := hw.logs quiet
    have hinv : EntriesInv (conn₁.setState .postHandshake) :=
      ⟨hw₁.inv.rtb, hw₁.inv.nodup, hw₁.inv.fresh⟩
    have hagain := connRetransmit_subset (connProcessEarlyRtb_spec hinv).1 call hr
    have hearly := (connProcessEarlyRtb_settled hinv).accounts.subset
    have hheld : held (conn₁.setState .postHandshake) = held conn := quiet.held
    exact fun fr hfr => .inl (hheld ▸ hearly (hagain hfr))
  | refused quiet => exact fun fr hfr => .inl (quiet.held ▸ hfr)
  | pkt state call =>
    obtain ⟨conn₁, hqueued, hfilled⟩ := connWritePkt_filled hw call hr
    have hfirst : Says (fun id => (given id).length) conn conn₁ :=
      hqueued.saying (by simp [Kind.tells]) hs.used hs.sources fun _ =>
        ⟨hs.ahead, by simp, by simp⟩
    exact (hfirst.trans (hfilled.saying hkinds)).frames
  | idle => exact fun fr hfr => .inl hfr

theorem ngtcp2ConnWritePkt_tells (h : ngtcp2ConnWritePkt conn destlen ts = (r, conn'))
    (hw : Writable H conn) (hs : Sound given ended conn) (hzero : Used conn' 0)
    (hkinds : LimitKinds conn') (hr : ¬Fatal r) :
    ∀ fr ∈ held conn', fr ∈ held conn ∨ Backed (fun id => (given id).length) conn' fr := by
  rcases ngtcp2ConnWritePkt_cases h with hfatal | ⟨-, rfl⟩ | ⟨-, hcall⟩ | ⟨conn₁, hcall, hgoes⟩
  · exact absurd hfatal hr
  · exact fun fr hfr => .inl hfr
  · exact fun fr hfr => .inl (connRetransmit_subset hw.inv hcall hr hfr)
  · obtain ⟨hch, hw₁⟩ := connRetransmit_writable hw hcall
    have hs₁ := hch.sound (by decide) (by decide) (by decide) hs
    intro fr hfr
    refine (hgoes.tells hw₁ hs₁ hzero hkinds hr fr hfr).imp_left fun hfr => ?_
    exact connRetransmit_subset hw.inv hcall (not_fatal_ok _) hfr

theorem ngtcp2ConnWriteAckPkt_subset (h : ngtcp2ConnWriteAckPkt conn destlen ts = (r, conn'))
    (hinv : EntriesInv conn) (hr : ¬Fatal r) : held conn' ⊆ held conn := by
  rcases ngtcp2ConnWriteAckPkt_cases h with hfatal | ⟨-, rfl⟩ | ⟨-, hcall⟩
      | ⟨conn₁, hcall, hwritten⟩
  · exact absurd hfatal hr
  · exact List.Subset.refl _
  · exact connRetransmit_subset hinv hcall hr
  · exact List.Subset.trans hwritten.accounts.1.subset
      (connRetransmit_subset hinv hcall (not_fatal_ok _))

theorem connWriteSingleFramePkt_held {r : Except Err Pkt}
    (h : connWriteSingleFramePkt conn destlen fr = (r, conn')) (hr : ¬Fatal r) :
    held conn' = held conn := by
  rcases connWriteSingleFramePkt_cases h with hfatal | ⟨-, hquiet⟩ | ⟨pkt, -, -, -, hlogs⟩
  · exact absurd hfatal hr
  · exact hquiet.held
  · exact hlogs.held

theorem closePkt_held {r : Except Err Pkt}
    (h : (if conn.lastTxPktNum = uint64Max then (.error .pktNumExhausted, conn)
      else if conn.state = .postHandshake then
        (connWriteSingleFramePkt conn destlen fr).andThen fun pkt conn =>
        (.ok pkt, conn.setState .closing)
      else (.error .invalidState, conn)) = ((r, conn') : Result Pkt)) (hr : ¬Fatal r) :
    held conn' = held conn := by
  split at h
  · obtain ⟨-, rfl⟩ := Prod.mk.inj h
    rfl
  split at h
  · rcases andThen_cases h with ⟨e, hw, rfl⟩ | ⟨pkt, conn₁, hw, h⟩
    · exact connWriteSingleFramePkt_held hw fun hf => hr hf.cast
    · obtain ⟨-, rfl⟩ := Prod.mk.inj h
      have hheld : held conn₁ = held conn := connWriteSingleFramePkt_held hw (not_fatal_ok _)
      exact hheld
  · obtain ⟨-, rfl⟩ := Prod.mk.inj h
    rfl

/-! ## Shutdown -/

theorem connShutdownStreamRead_saying (hs : Sound given ended conn)
    (find : conn.strms strm.streamId = some strm) (hid : strm.streamId ≠ 0) (appErrorCode : Nat) :
    Says (fun id => (given id).length) conn (connShutdownStreamRead conn strm appErrorCode).2 := by
  have hch := (connShutdownStreamRead_changes (H := held conn) find hid appErrorCode).1
  have hkept := (hch.creditKept hs.used.ids (by simp [shutdownKinds])).1
  refine ⟨hkept, fun fr hfr => ?_⟩
  have hheld : held (connShutdownStreamRead conn strm appErrorCode).2 ⊆
      .stopSending ⟨strm.streamId, appErrorCode⟩ :: held conn := by
    unfold connShutdownStreamRead
    split
    · exact List.subset_cons_self _ _
    · unfold connStopSending fcUnlink
      dsimp only
      split <;> exact List.Subset.refl _
  rcases List.mem_cons.mp (hheld hfr) with rfl | hfr
  · exact .inr (hkept.used _ (hs.used.found find))
  · exact .inl hfr

theorem connShutdownStreamWrite_saying (hs : Sound given ended conn)
    (find : conn.strms strm.streamId = some strm) (appErrorCode : Nat) :
    Says (fun id => (given id).length) conn (connShutdownStreamWrite conn strm appErrorCode).2 := by
  unfold connShutdownStreamWrite
  split
  · exact .refl _ _
  · have hch : Change (held conn) .rst conn _ := .rst find appErrorCode appErrorCode
    exact hch.saying rfl hs.used hs.sources (by simp)

theorem withShutdownStrm_saying {appErrorCode : Nat} {f : Strm → Conn} {rv : Except Err Unit}
    (hkeyed : StrmsKeyed conn) (h : withShutdownStrm conn streamId appErrorCode f = (rv, conn'))
    (hf : ∀ strm, conn.strms strm.streamId = some strm → strm.streamId ≠ 0 →
      Says lens conn (f strm)) : Says lens conn conn' := by
  unfold withShutdownStrm at h
  split at h
  · obtain ⟨-, rfl⟩ := Prod.mk.inj h
    exact .refl _ _
  next harg =>
  split at h
  · obtain ⟨-, rfl⟩ := Prod.mk.inj h
    exact .refl _ _
  · next strm hfind =>
    obtain ⟨-, rfl⟩ := Prod.mk.inj h
    have hid : strm.streamId = streamId := hkeyed _ _ hfind
    exact hf strm (hid ▸ hfind) fun hzero => harg (.inl (hid ▸ hzero))

/-! ## Steps -/

theorem Op.announces {op : Op} (h : .announce ∈ Kind.timeout :: op.kinds) :
    .rx ∉ Kind.timeout :: op.kinds ∧ .extend ∉ Kind.timeout :: op.kinds := by
  cases op with
  | writePkt => simp [Op.kinds, writeKinds]
  | recvFrame longForm fr =>
    cases fr <;> simp [Op.kinds, Frame.recvKinds, ackKinds, streamKinds] at h
  | recvDelayedHandshakeFrame type fr =>
    cases fr <;> simp [Op.kinds, Frame.recvDelayedKinds, ackKinds, streamKinds] at h
  | recvHandshakeFrame type failed fr =>
    cases fr <;> simp [Op.kinds, Frame.recvHandshakeKinds, ackKinds] at h
  | _ =>
    simp [Op.kinds, shutdownKinds, streamTxKinds, resendKinds, closeKinds, retryKinds] at h

variable {ops : List Op} {op : Op}

theorem Step.creditKept (hreach : Reachable conn) (hstep : Step ops conn op conn')
    (hahead : Ahead conn) : CreditKept conn conn' :=
  ((Step.changes hreach.wellFormed hstep).creditKept hreach.strmsUsed.ids fun hin =>
    ⟨hahead, Op.announces hin⟩).1

/-- A call that writes to a stream makes a frame of that stream. -/
theorem writeStream_saying {r : Except Err (Pkt × Nat)} {data : List UInt8} {fin : Bool}
    (hs : Sound given ended conn) (hkept : CreditKept conn conn')
    (h : ngtcp2ConnWriteStream conn destlen streamId fin data ts = (r, conn')) (hr : ¬Fatal r) :
    Says lens conn conn' := by
  refine ⟨hkept, fun fr' hfr => ?_⟩
  rcases ngtcp2ConnWriteStream_cases h with hfatal | ⟨e, -, hquiet⟩ |
    ⟨pkt, n, strm, fr, conn₁, -, hsent, -, hlogs, rfl⟩
  · obtain ⟨e, he, hf⟩ := hfatal
    exact absurd ⟨e, he, hf⟩ hr
  · exact .inl (hquiet.held ▸ hfr)
  rcases List.mem_cons.mp ((trackStreamPkt_held ..).subset hfr) with rfl | hfr
  · refine .inr (hkept.used _ ?_)
    have hid : strm.streamId = streamId := hs.used.keyed _ _ hsent.find
    rw [hsent.fr_eq]
    show Used conn streamId
    rw [← hid]
    exact hs.used.found (hid.symm ▸ hsent.find)
  · exact .inl (hlogs.held ▸ hfr)

/-- Of the frames that are held, a step leaves such as were there and makes such as are true. -/
theorem Step.saying (hreach : Reachable conn) (hstep : Step ops conn op conn')
    (hs : Sound given ended conn) :
    Says (fun id => (given id).length + (op.written id conn).length) conn conn' := by
  have hkept := hstep.creditKept hreach hs.ahead
  by_cases hwrite : ∃ destlen streamId fin data ts, op = .writeStream destlen streamId fin data ts
  · obtain ⟨destlen, streamId, fin, data, ts, rfl⟩ := hwrite
    obtain ⟨rv, hrun, hsurvives⟩ := hstep
    obtain ⟨x, hx, hve⟩ := void_cases hrun
    have hrv := not_fatal_of_survives hsurvives
    exact writeStream_saying hs hkept hx (not_fatal_of_void hve hrv)
  have hlens : (fun id => (given id).length + (op.written id conn).length) =
      fun id => (given id).length := by
    funext id
    rw [Op.written_other (fun _ _ _ _ _ heq => hwrite ⟨_, _, _, _, _, heq⟩)]
    rfl
  rw [hlens]
  have hch := Step.changes hreach.wellFormed hstep
  have hkinds := hch.limitKinds hs.used hs.kinds
  have hzero : Used conn' 0 := hkept.used 0 hs.used.zero
  have hw : Writable (held conn) conn :=
    ⟨hreach.wellFormed.inv, hreach.wellFormed.keyed, fun fr _ hfr => hfr⟩
  have hother : (∀ k ∈ op.kinds, k.tells = true) →
      Says (fun id => (given id).length) conn conn' := by
    intro hK
    refine hch.saying (fun k hk => ?_) hs.used hs.sources fun hin => ⟨hs.ahead, Op.announces hin⟩
    rcases List.mem_cons.mp hk with rfl | hk
    · rfl
    · exact hK k hk
  have hsame : held conn' ⊆ held conn → Says (fun id => (given id).length) conn conn' :=
    fun hsub => .of_subset hkept hsub
  have hsame' : held conn' = held conn → Says (fun id => (given id).length) conn conn' :=
    fun heq => hsame fun _ hfr => heq ▸ hfr
  obtain ⟨rv, hrun, hsurvives⟩ := hstep
  have hrv := not_fatal_of_survives hsurvives
  cases op with
  | recvFrame longForm fr =>
    cases fr with
    | ping data =>
      obtain ⟨-, rfl⟩ := Prod.mk.inj hrun
      refine ⟨hkept, fun fr hfr => ?_⟩
      unfold connRecvPing at hfr
      split at hfr
      · exact .inl hfr
      · rcases List.mem_cons.mp hfr with rfl | hfr
        · exact .inr trivial
        · exact .inl hfr
    | _ =>
      exact hother (by simp [Op.kinds, Frame.recvKinds, ackKinds, streamKinds, Kind.tells])
  | recvDelayedHandshakeFrame type fr =>
    exact hother (by cases fr <;>
      simp [Op.kinds, Frame.recvDelayedKinds, ackKinds, streamKinds, Kind.tells])
  | recvHandshakeFrame type failed fr =>
    exact hother (by cases fr <;> simp [Op.kinds, Frame.recvHandshakeKinds, ackKinds, Kind.tells])
  | writeStream destlen streamId fin data ts =>
    exact absurd ⟨_, _, _, _, _, rfl⟩ hwrite
  | writePkt destlen ts =>
    obtain ⟨x, hx, hve⟩ := void_cases hrun
    have hne := not_fatal_of_void hve hrv
    exact ⟨hkept, ngtcp2ConnWritePkt_tells hx hw hs hzero hkinds hne⟩
  | writeAckPkt destlen ts =>
    obtain ⟨x, hx, hve⟩ := void_cases hrun
    have hne := not_fatal_of_void hve hrv
    exact hsame (ngtcp2ConnWriteAckPkt_subset hx hw.inv hne)
  | writeConnectionClose destlen errorCode =>
    obtain ⟨x, hx, hve⟩ := void_cases hrun
    have hne := not_fatal_of_void hve hrv
    exact hsame' (closePkt_held hx hne)
  | writeApplicationClose destlen appErrorCode =>
    obtain ⟨x, hx, hve⟩ := void_cases hrun
    have hne := not_fatal_of_void hve hrv
    refine hsame' ?_
    unfold ngtcp2ConnWriteApplicationClose at hx
    split at hx
    · obtain ⟨-, rfl⟩ := Prod.mk.inj hx
      rfl
    · exact closePkt_held hx hne
  | shutdownStream streamId appErrorCode =>
    refine withShutdownStrm_saying hs.used.keyed hrun fun strm find hid => ?_
    have hfirst := connShutdownStreamRead_saying hs find hid appErrorCode
    obtain ⟨hread, hfind⟩ :=
      connShutdownStreamRead_changes (H := held conn) find hid appErrorCode
    have hs₁ := hread.sound (by decide) (by decide) (by decide) hs
    exact hfirst.trans (connShutdownStreamWrite_saying hs₁ hfind appErrorCode)
  | shutdownStreamWrite streamId appErrorCode =>
    exact withShutdownStrm_saying hs.used.keyed hrun fun strm find _ =>
      connShutdownStreamWrite_saying hs find appErrorCode
  | shutdownStreamRead streamId appErrorCode =>
    exact withShutdownStrm_saying hs.used.keyed hrun fun strm find hid =>
      connShutdownStreamRead_saying hs find hid appErrorCode
  | _ => exact hother (by simp [Op.kinds, retryKinds, Kind.tells])

/-! ## Runs -/

/-- How many bytes of each stream some steps take over. -/
def writtenLens (conn₀ : Conn) (ops : List Op) (id : Nat) : Nat := (written id conn₀ ops).length

/-- What is held at the end of a run is true. -/
structure Truthful (conn₀ : Conn) (ops : List Op) (conn : Conn) : Prop where
  run : AcceptedRun conn₀ ops conn
  sources : ∀ id, id ≠ 0 → SourcesAfter conn₀ id ops conn
  kinds : LimitKinds conn
  held : ∀ fr ∈ held conn, Backed (writtenLens conn₀ ops) conn fr

variable {conn₀ : Conn} {rest : List Op}

theorem SourcesAfter.lens_snoc (h : SourcesAfter conn₀ id ops conn) (op : Op) (i : Nat) :
    writtenLens conn₀ (ops ++ [op]) i = writtenLens conn₀ ops i + (op.written i conn).length := by
  rw [writtenLens, written_snoc, List.length_append, h.last]
  rfl

theorem Truthful.sound (h : Truthful conn₀ ops conn) (init : Initial conn₀) :
    Sound (fun id => written id conn₀ ops) (fun id => ends id conn₀ ops) conn := by
  have hcharged := init.chargedRun h.run
  refine ⟨hcharged.reach.strmsUsed, fun id hid => ?_, fun id strm hid hfind => ?_, h.kinds⟩
  · have hs := (h.sources id hid).sources
    exact ⟨hcharged.reach.strmsUsed.ids, hs.live, hs.unused⟩
  · exact (hcharged.charged.live id strm hid hfind).limits.max_le

theorem Initial.truthful (init : Initial conn₀) (hkinds : LimitKinds conn₀) :
    Truthful conn₀ [] conn₀ := by
  refine ⟨.nil, fun id hid => ⟨init.reachable, rfl, init.sources hid⟩, hkinds, fun fr hfr => ?_⟩
  cases init <;> cases hfr

/-- Nothing more is taken over of a stream that has ended. -/
theorem Truthful.goesOn (h : Truthful conn₀ ops conn) (op : Op) (hended : Ended conn id) :
    writtenLens conn₀ (ops ++ [op]) id = writtenLens conn₀ ops id := by
  rw [(h.sources 1 Nat.one_ne_zero).lens_snoc, Op.written_shut hended]
  rfl

theorem Truthful.step (h : Truthful conn₀ ops conn) (init : Initial conn₀)
    (hstep : Step rest conn op conn') (hproper : op.Proper) (haccepted : op.accepted conn) :
    Truthful conn₀ (ops ++ [op]) conn' ∧ CreditKept conn conn' := by
  have hreach := (init.chargedRun h.run).reach
  have hsaid := hstep.saying hreach (h.sound init)
  refine ⟨⟨h.run.snoc ⟨hstep, hproper, haccepted⟩, fun id hid => (h.sources id hid).step hid hstep,
    (Step.changes hreach.wellFormed hstep).limitKinds hreach.strmsUsed h.kinds, fun fr hfr => ?_⟩, hsaid.kept⟩
  have hlens := (h.sources 1 Nat.one_ne_zero).lens_snoc op
  rcases hsaid.frames fr hfr with hold | hnew
  · exact (h.held fr hold).mono hsaid.kept fun id => h.goesOn op
  · exact hnew.mono (.refl _) fun id _ => hlens id

theorem Backed.of_untracked (h : fr.untracked = true) : Backed lens conn fr := by
  cases fr <;> trivial

theorem Backed.of_close (h : fr.isClose = true) : Backed lens conn fr := by
  cases fr <;> trivial

/-- Every frame that an endpoint ever sent is true of it. -/
theorem sent_backed {ok : Bool → Conn → Op → Prop} {net₀ net : Network.Net Conn Frame}
    {ls : List (Bool × Op)}
    (hok : ∀ side conn op, ok side conn op → op.Proper ∧ op.accepted conn)
    (hrun : Network.Run (fun side => endpoint (ok side)) net₀ ls net) (hstart : Connected net₀)
    (side : Bool) (hkinds : LimitKinds (net₀.state side)) :
    Truthful (net₀.state side) (Network.own side ls) (net.state side) ∧
      ∀ fr ∈ net.sent side,
        Backed (writtenLens (net₀.state side) (Network.own side ls)) (net.state side) fr := by
  have init := hstart.initial side
  refine Network.run_sent hrun side (hstart.sent side) (Truthful (net₀.state side))
    (fun ops => Backed (writtenLens (net₀.state side) ops)) (init.truthful hkinds) ?_ ?_ ?_
  · intro ops conn op conn' h hstep
    obtain ⟨hproper, haccepted⟩ := hok _ _ _ hstep.2
    exact (h.step init hstep.1 hproper haccepted).1
  · intro ops conn op conn' h hstep fr hfr
    obtain ⟨hproper, haccepted⟩ := hok _ _ _ hstep.2
    have hwf := (init.chargedRun h.run).reach.wellFormed
    rcases hstep.1.emits_held hwf hfr with hun | hclose | hheld
    · exact .of_untracked hun
    · exact .of_close hclose
    · exact (h.step init hstep.1 hproper haccepted).1.held fr hheld
  · intro ops conn op conn' fr h hstep hback
    obtain ⟨hproper, haccepted⟩ := hok _ _ _ hstep.2
    exact hback.mono (h.step init hstep.1 hproper haccepted).2 fun id => h.goesOn op

end

end Ngtcp2
