import Polygon.StreamsOnce

/-!
# What a STREAM frame can do to a connection

The functions behind the lookup of a stream write to this stream only, and forwards:
bytes that arrived stay there, and so does the end of the receive side. So what a
frame did is not undone later.
-/
namespace Ngtcp2

open Ranges

/-! ## Missing bytes -/

/-- The number of missing bytes. -/
def missing (gs : List Range) : Nat := (gs.map rangeLen).sum

@[simp] theorem missing_cons (g : Range) (gs : List Range) :
    missing (g :: gs) = rangeLen g + missing gs := rfl

@[simp] theorem missing_append (gs gs' : List Range) :
    missing (gs ++ gs') = missing gs + missing gs' := by
  simp [missing]

theorem robRemovePrefixGaps_missing (offset : Nat) (gs : List Range) :
    missing (robRemovePrefixGaps offset gs) ≤ missing gs := by
  induction gs with
  | nil => exact Nat.le_refl _
  | cons g gs ih =>
    unfold robRemovePrefixGaps
    split
    · exact Nat.le_refl _
    split
    · simp only [missing_cons, rangeLen]
      omega
    · rw [missing_cons]
      omega

/-- A cut that takes something out of a gap leaves less of it. -/
theorem cutGap_missing {g m : Range} (hbeg : g.begin ≤ m.begin) (hend : m.end_ ≤ g.end_)
    (hlt : m.begin < m.end_)
    (hne : g ≠ m) : missing (cutGap g m).1 + rangeLen (cutGap g m).2 < rangeLen g := by
  have hside : 0 < rangeLen (rangeCut g m).1 ∨ 0 < rangeLen (rangeCut g m).2 := by
    by_contra hc
    apply hne
    obtain ⟨gb, ge⟩ := g
    obtain ⟨mb, me⟩ := m
    simp only [rangeCut, rangeLen] at hc hbeg hend hlt
    simp only [Range.mk.injEq]
    omega
  unfold cutGap
  dsimp only
  split
  · split
    · simp only [missing, List.map_cons, List.map_nil, List.sum_cons, List.sum_nil, rangeCut,
        rangeLen]
      omega
    · simp only [missing, List.map_nil, List.sum_nil, rangeCut, rangeLen]
      omega
  · next hl =>
    rw [if_pos (hside.resolve_left hl)]
    simp only [missing, List.map_nil, List.sum_nil, rangeCut, rangeLen]
    omega

/-- Pushing a frame fills gaps, or changes neither the gaps nor the chunks. -/
theorem robPushLoop_missing (rob : Rob) (offset : Nat) (data : List UInt8) (gs : List Range)
    (ds : List RobData) :
    missing (robPushLoop rob offset data gs ds).1 < missing gs ∨
    robPushLoop rob offset data gs ds = (gs, ds) := by
  induction gs generalizing ds with
  | nil => exact .inr rfl
  | cons g gs ih =>
    have hle : ∀ ds, missing (robPushLoop rob offset data gs ds).1 ≤ missing gs := fun ds => by
      rcases ih ds with hlt | heq
      · exact Nat.le_of_lt hlt
      · exact Nat.le_of_eq (by rw [heq])
    unfold robPushLoop
    dsimp only
    split
    · next hpos =>
      left
      have hm := rangeIntersect_of_pos hpos
      have hlt := (rangeIntersect_len_pos _ _).mp hpos
      split
      · next heq =>
        have hg : 0 < rangeLen g := by
          rw [heq]
          exact hpos
        rw [missing_cons]
        exact Nat.lt_of_le_of_lt (hle _) (Nat.lt_add_of_pos_left hg)
      · next hne =>
        have hcut := cutGap_missing (g := g) (m := rangeIntersect ⟨offset, offset + data.length⟩ g)
          (by rw [hm]; exact Nat.le_max_right _ _) (by rw [hm]; exact Nat.min_le_right _ _)
          (by rw [hm]; exact hlt) hne
        rw [missing_append, missing_cons, missing_cons]
        split
        · dsimp only
          omega
        · have := hle (robWrite rob offset data (rangeIntersect ⟨offset, offset + data.length⟩ g) ds)
          omega
    · split
      · exact .inr rfl
      · rcases ih ds with hlt | heq
        · left
          simp only [missing_cons]
          omega
        · right
          rw [heq]

theorem robPush_missing (rob : Rob) (offset : Nat) (data : List UInt8) :
    missing (robPush rob offset data).gap < missing rob.gap ∨ robPush rob offset data = rob := by
  rcases robPushLoop_missing rob offset data rob.gap rob.data with hlt | heq
  · exact .inl hlt
  · right
    unfold robPush
    rw [heq]

/-- The frame has bytes that the buffer misses. -/
def robNews (rob : Rob) (offset : Nat) (data : List UInt8) : Bool :=
  gaptrPush rob.gap offset data.length != rob.gap

theorem robPush_news {rob : Rob} {offset : Nat} {data : List UInt8}
    (h : robNews rob offset data = true) :
    missing (robPush rob offset data).gap < missing rob.gap := by
  rcases robPush_missing rob offset data with hlt | heq
  · exact hlt
  · have hgap : gaptrPush rob.gap offset data.length = (robPush rob offset data).gap :=
      (robPushLoop_gaps rob offset data rob.gap rob.data).symm
    rw [robNews, hgap, heq] at h
    simp at h

theorem robPush_noNews {rob : Rob} {offset : Nat} {data : List UInt8}
    (h : robNews rob offset data = false) :
    robPush rob offset data = rob := by
  rcases robPush_missing rob offset data with hlt | heq
  · have hgap : gaptrPush rob.gap offset data.length = (robPush rob offset data).gap :=
      (robPushLoop_gaps rob offset data rob.gap rob.data).symm
    rw [robNews, hgap] at h
    have heq : (robPush rob offset data).gap = rob.gap := by simpa using h
    rw [heq] at hlt
    exact absurd hlt (Nat.lt_irrefl _)
  · exact heq

theorem robPop_gap {rob rob' : Rob} {offset len : Nat} (h : robPop rob offset len = some rob') :
    rob'.gap = rob.gap := by
  unfold robPop at h
  split at h
  · cases h
  · obtain rfl := Option.some.inj h
    split <;> rfl

/-! ## One stream moves forwards -/

/-- The call delivers data of a stream other than stream 0. -/
def Event.delivers : Event → Bool
  | .recvStreamData .. => true
  | _ => false

/-- The receive side has moved forwards. -/
structure RxGrows (strm strm' : Strm) : Prop where
  shutRd : strm.shutRd = true → strm'.shutRd = true := by exact fun hs => hs
  gap : missing strm'.rob.gap ≤ missing strm.rob.gap := by exact Nat.le_refl _

theorem RxGrows.trans {strm strm₁ strm' : Strm} (h : RxGrows strm strm₁)
    (h' : RxGrows strm₁ strm') : RxGrows strm strm' :=
  ⟨fun hs => h'.shutRd (h.shutRd hs), Nat.le_trans h'.gap h.gap⟩

/-- The call passes on data only of the stream `id`, in the way of stream 0 or of the others. -/
def Event.fits (id : Nat) : Event → Prop
  | .recvStreamData .. => id ≠ 0
  | .recvStream0Data _ => id = 0
  | _ => True

/-- The entries of protected packets. -/
def protectedEnts (conn : Conn) : List RtbEntry := conn.rtb.head.filter fun ent => !ent.unprotected

/-- Only the stream `id` has changed, and its receive side forwards; no data of another kind of
stream was delivered. -/
structure OnStrm (id : Nat) (conn conn' : Conn) : Prop where
  ids : SameIds conn conn'
  rxOffset : conn'.rxOffset = conn.rxOffset
  ents : protectedEnts conn' = protectedEnts conn
  earlyRtb : conn'.earlyRtb = conn.earlyRtb
  others : ∀ i, i ≠ id → conn'.strms i = conn.strms i
  grows : ∀ strm', conn'.strms id = some strm' →
    ∃ strm, conn.strms id = some strm ∧ RxGrows strm strm'
  told : ∃ evs, conn'.log = conn.log ++ evs ∧ ∀ ev ∈ evs, ev.fits id

section
variable {id : Nat} {conn conn₁ conn' : Conn} {strm strm' : Strm}

/-- Nothing but fields that `OnStrm` does not look at. -/
theorem OnStrm.of_strms (ids : SameIds conn conn') (rxOffset : conn'.rxOffset = conn.rxOffset)
    (rtb : conn'.rtb.head = conn.rtb.head) (earlyRtb : conn'.earlyRtb = conn.earlyRtb)
    (strms : conn'.strms = conn.strms)
    (log : ∃ evs, conn'.log = conn.log ++ evs ∧ ∀ ev ∈ evs, ev.fits id) : OnStrm id conn conn' := by
  refine ⟨ids, rxOffset, ?_, earlyRtb, fun i _ => congrFun strms i, fun strm' hfind => ?_, log⟩
  · rw [protectedEnts, rtb]
    rfl
  · rw [strms] at hfind
    exact ⟨strm', hfind, ⟨fun h => h, Nat.le_refl _⟩⟩

theorem OnStrm.refl (id : Nat) (conn : Conn) : OnStrm id conn conn :=
  .of_strms ⟨rfl, fun _ => rfl, fun _ => rfl⟩ rfl rfl rfl rfl ⟨[], (List.append_nil _).symm,
    by simp⟩

theorem OnStrm.of_same {α : Type} {x r : Except Err α} (h : (x, conn) = (r, conn')) :
    OnStrm id conn conn' := by
  obtain ⟨-, rfl⟩ := Prod.mk.inj h
  exact .refl _ _

theorem OnStrm.trans (h : OnStrm id conn conn₁) (h' : OnStrm id conn₁ conn') :
    OnStrm id conn conn' := by
  obtain ⟨evs, hlog, hevs⟩ := h.told
  obtain ⟨evs', hlog', hevs'⟩ := h'.told
  refine ⟨h.ids.trans h'.ids, h'.rxOffset.trans h.rxOffset, h'.ents.trans h.ents,
    h'.earlyRtb.trans h.earlyRtb,
    fun i hi => (h'.others i hi).trans (h.others i hi), fun strm' hfind => ?_, evs ++ evs', ?_,
      fun ev hev => ?_⟩
  · obtain ⟨strm₁, hfind₁, hgrows'⟩ := h'.grows strm' hfind
    obtain ⟨strm, hfind, hgrows⟩ := h.grows strm₁ hfind₁
    exact ⟨strm, hfind, hgrows.trans hgrows'⟩
  · rw [hlog', hlog, List.append_assoc]
  · exact (List.mem_append.mp hev).elim (hevs ev) (hevs' ev)

theorem OnStrm.setStrm (find : conn.strms strm.streamId = some strm)
    (hid : strm'.streamId = strm.streamId)
    (hgrows : RxGrows strm strm') : OnStrm strm.streamId conn (conn.setStrm strm') := by
  refine ⟨⟨rfl, fun _ => rfl, fun _ => rfl⟩, rfl, rfl, rfl, fun i hi => ?_, fun strm'' hfind => ?_,
    [], (List.append_nil _).symm, by simp⟩
  · rw [Conn.setStrm_strms, if_neg (by rw [hid]; exact hi)]
  · rw [Conn.setStrm_strms, if_pos hid.symm] at hfind
    obtain rfl := Option.some.inj hfind
    exact ⟨strm, find, hgrows⟩

theorem OnStrm.tell (conn : Conn) {ev : Event} (hev : ev.fits id) : OnStrm id conn (conn.tell ev) :=
  .of_strms ⟨rfl, fun _ => rfl, fun _ => rfl⟩ rfl rfl rfl rfl ⟨[ev], rfl, by simpa using hev⟩

theorem OnStrm.setFcStrms (conn : Conn) (fcStrms : List Nat) :
    OnStrm id conn (conn.setFcStrms fcStrms) :=
  .of_strms ⟨rfl, fun _ => rfl, fun _ => rfl⟩ rfl rfl rfl rfl ⟨[], (List.append_nil _).symm,
    by simp⟩

theorem connCall_snd (conn : Conn) (ev : Event) : (connCall conn ev).2 = conn.tell ev := by
  rcases connCall_cases conn ev with h | h <;> rw [h]

theorem connCall_tell {ev : Event} {r : Except Err Unit} (h : connCall conn ev = (r, conn')) :
    conn' = conn.tell ev := by
  rw [← connCall_snd, h]

theorem OnStrm.andThen {α β : Type} {x : Result α} {f : α → Conn → Result β} {r : Except Err β}
    (h : x.andThen f = (r, conn')) (first : ∀ r₁ conn₁, x = (r₁, conn₁) → OnStrm id conn conn₁)
    (second : ∀ a conn₁, x = (.ok a, conn₁) → f a conn₁ = (r, conn') → OnStrm id conn₁ conn') :
    OnStrm id conn conn' := by
  rcases andThen_cases h with ⟨e, hx, rfl⟩ | ⟨a, conn₁, hx, hf⟩
  · exact first _ _ hx
  · exact (first _ _ hx).trans (second a conn₁ hx hf)

theorem OnStrm.removeStrm (id : Nat) (conn : Conn) : OnStrm id conn (conn.removeStrm id) := by
  refine ⟨⟨rfl, fun _ => rfl, fun _ => rfl⟩, rfl, rfl, rfl, fun i hi => if_neg hi,
    fun strm' hfind => ?_,
    [], (List.append_nil _).symm, by simp⟩
  have hfind : (if id = id then none else conn.strms id) = some strm' := hfind
  rw [if_pos rfl] at hfind
  cases hfind

/-- A stream that is found is removed first. -/
theorem ngtcp2ConnCloseStream_onStrm {strm₁ : Strm} {code : Nat} {r : Except Err Unit}
    (find : conn.strms strm.streamId = some strm₁)
    (h : ngtcp2ConnCloseStream conn strm code = (r, conn')) :
    OnStrm strm.streamId (conn.removeStrm strm.streamId) conn' := by
  unfold ngtcp2ConnCloseStream at h
  rw [find] at h
  dsimp only at h
  refine OnStrm.andThen h (fun r₁ conn₁ h₁ => ?_) fun _ conn₁ _ h => ?_
  · rw [connCall_tell h₁]
    exact .tell _ trivial
  obtain ⟨-, rfl⟩ := Prod.mk.inj h
  have hids : ∀ c : Conn, OnStrm strm.streamId c (if connLocalStream c strm.streamId then c else
      c.setIds (bidiStream strm.streamId)
        (handleRemoteStreamIdExtension (c.ids (bidiStream strm.streamId)))) := by
    intro c
    split
    · exact .refl _ _
    · refine .of_strms (.setIds _ _ (handleRemoteStreamIdExtension_idtr _) ?_) ?_ ?_ ?_
        (Conn.setIds_strms _ _ _)
        ⟨[], by rw [Conn.setIds_log, List.append_nil], by simp⟩
      · unfold handleRemoteStreamIdExtension
        split <;> rfl
      all_goals
        unfold Conn.setIds
        split <;> rfl
  have hfc : ∀ c : Conn, OnStrm strm.streamId c (connImmediateAck
      (if strm.onFc then c.setFcStrms (c.fcStrms.erase strm.streamId) else c)) := by
    intro c
    refine (?_ : OnStrm strm.streamId c (if strm.onFc then _ else c)).trans
      (.of_strms ⟨rfl, fun _ => rfl, fun _ => rfl⟩ rfl rfl rfl rfl ⟨[], (List.append_nil _).symm,
        by simp⟩)
    split
    · exact .setFcStrms _ _
    · exact .refl _ _
  exact (hids conn₁).trans (hfc _)

theorem ngtcp2ConnCloseStreamIfShutRdwr_onStrm {code : Nat} {r : Except Err Unit}
    (h : ngtcp2ConnCloseStreamIfShutRdwr conn strm code = (r, conn')) :
    OnStrm strm.streamId conn conn' := by
  unfold ngtcp2ConnCloseStreamIfShutRdwr at h
  split at h
  · cases hfind : conn.strms strm.streamId with
    | none =>
      unfold ngtcp2ConnCloseStream at h
      rw [hfind] at h
      exact .of_same h
    | some strm₁ => exact (OnStrm.removeStrm _ conn).trans (ngtcp2ConnCloseStream_onStrm hfind h)
  · exact .of_same h

theorem connEmitPendingStreamData_onStrm (fuel : Nat) {rxOffset : Nat} {r : Except Err Strm}
    (find : conn.strms strm.streamId = some strm) (hid : strm.streamId ≠ 0)
    (h : connEmitPendingStreamData fuel conn strm rxOffset = (r, conn')) :
    OnStrm strm.streamId conn conn' ∧ ∀ strm', r = .ok strm' → strm'.streamId = strm.streamId ∧
      conn'.strms strm'.streamId = some strm' := by
  induction fuel generalizing conn strm rxOffset with
  | zero =>
    obtain ⟨rfl, rfl⟩ := Prod.mk.inj h
    exact ⟨.refl _ _, by simp⟩
  | succ fuel ih =>
    unfold connEmitPendingStreamData at h
    split at h
    · obtain ⟨rfl, rfl⟩ := Prod.mk.inj h
      exact ⟨.refl _ _, by simp⟩
    next data _ =>
    split at h
    · split at h
      · obtain ⟨rfl, rfl⟩ := Prod.mk.inj h
        refine ⟨.refl _ _, fun strm' hs => ?_⟩
        obtain rfl := Except.ok.inj hs
        exact ⟨rfl, find⟩
      · obtain ⟨rfl, rfl⟩ := Prod.mk.inj h
        exact ⟨.refl _ _, by simp⟩
    have htell : ∀ {r₁ conn₁},
      connCallRecvStreamData conn strm.streamId (strm.shutRd && rxOffset + data.length ==
        strm.lastRxOffset) data = (r₁, conn₁) → OnStrm strm.streamId conn conn₁ ∧
          conn₁.strms strm.streamId = some strm := fun hcall => by
      rw [connCall_tell hcall]
      exact ⟨.tell _ hid, find⟩
    rcases andThen_cases h with ⟨e, hcall, rfl⟩ | ⟨_, conn₁, hcall, h⟩
    · exact ⟨(htell hcall).1, by simp⟩
    obtain ⟨htell, find₁⟩ := htell hcall
    split at h
    · obtain ⟨rfl, rfl⟩ := Prod.mk.inj h
      exact ⟨htell, by simp⟩
    next rob hpop =>
    dsimp only at h
    have hset : OnStrm strm.streamId conn₁ (conn₁.setStrm (strm.setRob rob)) :=
      .setStrm find₁ rfl { gap := Nat.le_of_eq (congrArg missing (robPop_gap hpop)) }
    obtain ⟨hon, hend⟩ := ih (setStrm_find conn₁ (strm.setRob rob)) hid h
    exact ⟨htell.trans (hset.trans hon), hend⟩

/-- The stream after `conn_extend_max_stream_offset`, and the connection. -/
theorem connExtendMaxStreamOffset_onStrm (find : conn.strms strm.streamId = some strm')
    (hid : strm'.streamId = strm.streamId)
    (hgrows : RxGrows strm' strm) (datalen : Nat) :
    ∃ strm₁ conn₁, connExtendMaxStreamOffset conn strm datalen = (strm₁, conn₁) ∧
    OnStrm strm.streamId conn conn₁ ∧
      strm₁.streamId = strm.streamId ∧ conn₁.strms strm₁.streamId = some strm₁ := by
  obtain ⟨strm₁, fc, heq, -, hrx, -⟩ := connExtendMaxStreamOffset_cases conn strm datalen
  have hgrows₁ : RxGrows strm' strm₁ :=
    hgrows.trans ⟨fun hs => hrx.shutRd.trans hs, Nat.le_of_eq (by rw [hrx.rob])⟩
  have hset : OnStrm strm'.streamId (conn.setFcStrms fc) ((conn.setFcStrms fc).setStrm strm₁) :=
    .setStrm (hid.symm ▸ find) (hrx.streamId.trans hid.symm) hgrows₁
  rw [hid] at hset
  exact ⟨strm₁, _, heq, (OnStrm.setFcStrms conn fc).trans hset, hrx.streamId, setStrm_find _ strm₁⟩

theorem connCallRecvStream0Data_onStrm {data : List UInt8} {r : Except Err Unit} (hid : id = 0)
    (h : connCallRecvStream0Data conn data = (r, conn')) : OnStrm id conn conn' := by
  rw [connCallRecvStream0Data_tell h]
  exact .tell _ hid

theorem connEmitPendingStream0Data_onStrm (fuel : Nat) {rxOffset : Nat} {r : Except Err Strm}
    (find : conn.strms strm.streamId = some strm) (hzero : strm.streamId = 0)
    (h : connEmitPendingStream0Data fuel conn strm rxOffset = (r, conn')) :
    OnStrm strm.streamId conn conn' ∧ ∀ strm', r = .ok strm' → strm'.streamId = strm.streamId := by
  induction fuel generalizing conn strm rxOffset with
  | zero =>
    obtain ⟨rfl, rfl⟩ := Prod.mk.inj h
    exact ⟨.refl _ _, by simp⟩
  | succ fuel ih =>
    unfold connEmitPendingStream0Data at h
    split at h
    · obtain ⟨rfl, rfl⟩ := Prod.mk.inj h
      exact ⟨.refl _ _, by simp⟩
    next data _ =>
    split at h
    · split at h
      · obtain ⟨rfl, rfl⟩ := Prod.mk.inj h
        refine ⟨.refl _ _, fun strm' hs => ?_⟩
        obtain rfl := Except.ok.inj hs
        rfl
      · obtain ⟨rfl, rfl⟩ := Prod.mk.inj h
        exact ⟨.refl _ _, by simp⟩
    rcases andThen_cases h with ⟨e, hcall, rfl⟩ | ⟨_, conn₁, hcall, h⟩
    · exact ⟨connCallRecvStream0Data_onStrm hzero hcall, by simp⟩
    have hcall := connCallRecvStream0Data_tell hcall
    subst hcall
    have find₁ : (conn.tell (.recvStream0Data data)).strms strm.streamId = some strm := find
    have htell : OnStrm strm.streamId conn (conn.tell (.recvStream0Data data)) := .tell _ hzero
    dsimp only at h
    have hunsent : RxGrows strm
      (strm.setUnsentMaxRxOffset (strm.unsentMaxRxOffset + data.length)) :=
      ⟨fun h => h, Nat.le_refl _⟩
    have hid₀ : strm.streamId =
      (strm.setUnsentMaxRxOffset (strm.unsentMaxRxOffset + data.length)).streamId := rfl
    generalize strm.setUnsentMaxRxOffset (strm.unsentMaxRxOffset + data.length) =
      strm₀ at h hunsent hid₀
    obtain ⟨strm₁, conn₁, heq, hext, hid, hfind⟩ :=
      connExtendMaxStreamOffset_onStrm (hid₀ ▸ find₁) hid₀ hunsent data.length
    rw [← hid₀] at hext hid
    rw [heq] at h
    dsimp only at h
    split at h
    · obtain ⟨rfl, rfl⟩ := Prod.mk.inj h
      exact ⟨htell.trans hext, by simp⟩
    next rob hpop =>
    have hset : OnStrm strm₁.streamId conn₁ (conn₁.setStrm (strm₁.setRob rob)) :=
      .setStrm hfind rfl { gap := Nat.le_of_eq (congrArg missing (robPop_gap hpop)) }
    obtain ⟨hon, hend⟩ := ih (setStrm_find conn₁ (strm₁.setRob rob)) (hid.trans hzero) h
    rw [hid] at hset
    have hon : OnStrm strm.streamId (conn₁.setStrm (strm₁.setRob rob)) conn' := hid ▸ hon
    exact ⟨(htell.trans hext).trans (hset.trans hon), fun strm' hs => (hend strm' hs).trans hid⟩

theorem RxGrows.removePrefix (strm : Strm) (rxOffset : Nat) :
    RxGrows strm (strm.setRob (robRemovePrefix strm.rob rxOffset)) :=
  { gap := robRemovePrefixGaps_missing _ _ }

theorem RxGrows.reordering (strm : Strm) (fr : StreamFrame) :
    RxGrows strm (strmRecvReordering strm fr) := by
  refine { gap := ?_ }
  change missing (robPush strm.rob fr.offset fr.data).gap ≤ _
  rcases robPush_missing strm.rob fr.offset fr.data with hlt | heq
  · exact Nat.le_of_lt hlt
  · exact Nat.le_of_eq (by rw [heq])

theorem connRecvStreamDeliver_onStrm {fr : StreamFrame} {rxOffset : Nat} {r : Except Err Unit}
    (find : conn.strms strm.streamId = some strm)
    (h : connRecvStreamDeliver conn strm fr rxOffset = (r, conn')) :
    OnStrm strm.streamId conn conn' := by
  unfold connRecvStreamDeliver at h
  -- What the first part leaves is the same stream, which may be closed then.
  have hfirst : ∀ x conn₁, (if fr.offset ≤ rxOffset then
      let data := fr.data.drop (rxOffset - fr.offset)
      let rxOffset := rxOffset + data.length
      let strm := strm.setRob (robRemovePrefix strm.rob rxOffset)
      let conn := conn.setStrm strm
      if strm.streamId = 0 then
        (connCallRecvStream0Data conn data).andThen fun _ conn =>
        connEmitPendingStream0Data (emitFuel strm.rob) conn strm rxOffset
      else
        let fin := strm.shutRd && rxOffset == strm.lastRxOffset
        (connCallRecvStreamData conn strm.streamId fin data).andThen fun _ conn =>
        connEmitPendingStreamData (emitFuel strm.rob) conn strm rxOffset
    else
      let strm := strmRecvReordering strm fr
      (.ok strm, conn.setStrm strm) : Result Strm) = (x, conn₁) →
      OnStrm strm.streamId conn conn₁ ∧ ∀ strm', x = .ok strm' →
        strm'.streamId = strm.streamId := by
    intro x conn₁ hx
    split at hx
    · dsimp only at hx
      generalize hdata : fr.data.drop (rxOffset - fr.offset) = data at hx
      have hset : OnStrm strm.streamId conn (conn.setStrm (strm.setRob (robRemovePrefix strm.rob
          (rxOffset + data.length)))) := .setStrm find rfl (.removePrefix strm _)
      generalize hstrm : strm.setRob (robRemovePrefix strm.rob (rxOffset + data.length)) =
        strm₁ at hx hset
      have hid : strm₁.streamId = strm.streamId := by rw [← hstrm]; rfl
      have find₁ : ∀ ev, ((conn.setStrm strm₁).tell ev).strms strm₁.streamId = some strm₁ :=
        fun ev =>
        setStrm_find conn strm₁
      split at hx
      · next hzero =>
        rcases andThen_cases hx with ⟨e, hcall, rfl⟩ | ⟨_, conn₂, hcall, hx⟩
        · exact ⟨hset.trans (connCallRecvStream0Data_onStrm (hid.symm.trans hzero) hcall), by simp⟩
        · have htell : OnStrm strm.streamId _ _ :=
            connCallRecvStream0Data_onStrm (hid.symm.trans hzero) hcall
          rw [connCallRecvStream0Data_tell hcall] at hx htell
          obtain ⟨hon, hend⟩ := connEmitPendingStream0Data_onStrm _ (find₁ _) hzero hx
          rw [hid] at hon
          exact ⟨hset.trans (htell.trans hon), fun strm' hs => (hend strm' hs).trans hid⟩
      · next hne =>
        rw [hid] at hne
        rcases andThen_cases hx with ⟨e, hcall, rfl⟩ | ⟨_, conn₂, hcall, hx⟩
        · rw [connCall_tell hcall]
          exact ⟨hset.trans (.tell _ hne), by simp⟩
        · rw [connCall_tell hcall] at hx
          obtain ⟨hon, hend⟩ := connEmitPendingStreamData_onStrm _ (find₁ _) (hid ▸ hne) hx
          rw [hid] at hon
          have htell : ∀ fin, OnStrm strm.streamId (conn.setStrm strm₁)
              ((conn.setStrm strm₁).tell (.recvStreamData strm.streamId fin data)) :=
                fun _ => .tell _ hne
          exact ⟨hset.trans ((htell _).trans hon), fun strm' hs => (hend strm' hs).1.trans hid⟩
    · obtain ⟨rfl, rfl⟩ := Prod.mk.inj hx
      refine ⟨.setStrm find rfl (.reordering strm fr), fun strm' hs => ?_⟩
      obtain rfl := Except.ok.inj hs
      rfl
  rcases andThen_cases h with ⟨e, hx, rfl⟩ | ⟨strm', conn₁, hx, h⟩
  · exact (hfirst _ _ hx).1
  · obtain ⟨hon, hend⟩ := hfirst _ _ hx
    have hclose := ngtcp2ConnCloseStreamIfShutRdwr_onStrm h
    rw [hend strm' rfl] at hclose
    exact hon.trans hclose

theorem fcUnlink_onStrm (find : conn.strms strm.streamId = some strm) :
    OnStrm strm.streamId conn (fcUnlink conn strm).2 ∧
    (fcUnlink conn strm).1.streamId = strm.streamId ∧
      (fcUnlink conn strm).2.strms strm.streamId = some (fcUnlink conn strm).1 := by
  unfold fcUnlink
  split
  · refine ⟨?_, rfl, if_pos rfl⟩
    have hset : OnStrm strm.streamId (conn.setFcStrms (conn.fcStrms.erase strm.streamId))
        ((conn.setFcStrms (conn.fcStrms.erase strm.streamId)).setStrm (strm.setOnFc false)) :=
      .setStrm find rfl ⟨fun h => h, Nat.le_refl _⟩
    exact (OnStrm.setFcStrms conn _).trans hset
  · exact ⟨.refl _ _, rfl, find⟩

theorem connRecvStreamFin_onStrm {fr : StreamFrame} {r : Except Err Unit}
    (find : conn.strms strm.streamId = some strm)
    (hid : strm.streamId ≠ 0) (h : connRecvStreamFin conn strm fr = (r, conn')) :
    OnStrm strm.streamId conn conn' := by
  unfold connRecvStreamFin at h
  split at h
  · split at h
    · exact .of_same h
    · exact .of_same h
  split at h
  · exact .of_same h
  dsimp only at h
  have hset : OnStrm strm.streamId conn
    (conn.setStrm (strm.setLastRxOffset fr.endOffset).shutdownRd) :=
    .setStrm find rfl { shutRd := fun _ => rfl }
  refine hset.trans ?_
  split at h
  · have hclose := ngtcp2ConnCloseStreamIfShutRdwr_onStrm h
    exact hclose
  obtain ⟨hunlink, hid₁, hfind₁⟩ :=
    fcUnlink_onStrm (setStrm_find conn (strm.setLastRxOffset fr.endOffset).shutdownRd)
  generalize fcUnlink (conn.setStrm (strm.setLastRxOffset fr.endOffset).shutdownRd)
    (strm.setLastRxOffset fr.endOffset).shutdownRd = x at h hunlink hid₁ hfind₁
  obtain ⟨strm₁, conn₁⟩ := x
  have hid₁ : strm₁.streamId = strm.streamId := hid₁
  have hunlink : OnStrm strm.streamId _ conn₁ := hunlink
  have hfind₁ : conn₁.strms strm.streamId = some strm₁ := hfind₁
  refine hunlink.trans ?_
  rw [← hid₁] at hfind₁ hid ⊢
  dsimp only at h
  split at h
  · refine OnStrm.andThen h (fun r₁ conn₂ hcall => ?_) fun _ conn₂ _ h =>
      ngtcp2ConnCloseStreamIfShutRdwr_onStrm h
    rw [connCall_tell hcall]
    exact .tell _ hid
  · exact connRecvStreamDeliver_onStrm hfind₁ h

theorem connRecvStreamNoFin_onStrm {fr : StreamFrame} {r : Except Err Unit}
    (find : conn.strms strm.streamId = some strm)
    (h : connRecvStreamNoFin conn strm fr = (r, conn')) : OnStrm strm.streamId conn conn' := by
  unfold connRecvStreamNoFin at h
  split at h
  · exact .of_same h
  dsimp only at h
  have hset : OnStrm strm.streamId conn
      (conn.setStrm (strm.setLastRxOffset (max strm.lastRxOffset fr.endOffset))) :=
      .setStrm find rfl ⟨fun h => h, Nat.le_refl _⟩
  refine hset.trans ?_
  split at h
  · exact .of_same h
  split at h
  · exact .of_same h
  · have hdeliver := connRecvStreamDeliver_onStrm
      (setStrm_find conn (strm.setLastRxOffset (max strm.lastRxOffset fr.endOffset))) h
    exact hdeliver

/-! ## Nothing is undone -/

/-- The connection has moved forwards: used IDs stay used, received bytes received, and a stream
object was there before unless its ID was not used. -/
structure Grows (conn conn' : Conn) : Prop where
  server : conn'.server = conn.server
  next : ∀ bidi, (conn'.ids bidi).nextLocalStreamId = (conn.ids bidi).nextLocalStreamId
  used : ∀ i, Used conn i → Used conn' i
  rxOffset : conn.rxOffset ≤ conn'.rxOffset
  strms : ∀ i, i ≠ 0 → Used conn i → ∀ strm', conn'.strms i = some strm' →
    ∃ strm, conn.strms i = some strm ∧ RxGrows strm strm'
  delivered : conn.log.countP Event.delivers ≤ conn'.log.countP Event.delivers

theorem Grows.refl (conn : Conn) : Grows conn conn :=
  ⟨rfl, fun _ => rfl, fun _ h => h, Nat.le_refl _,
    fun _ _ _ strm' hfind => ⟨strm', hfind, ⟨fun h => h, Nat.le_refl _⟩⟩, Nat.le_refl _⟩

theorem Grows.trans (h : Grows conn conn₁) (h' : Grows conn₁ conn') : Grows conn conn' := by
  refine ⟨h'.server.trans h.server, fun bidi => (h'.next bidi).trans (h.next bidi),
    fun i hi => h'.used i (h.used i hi),
    Nat.le_trans h.rxOffset h'.rxOffset, fun i hi hused strm' hfind => ?_,
      Nat.le_trans h.delivered h'.delivered⟩
  obtain ⟨strm₁, hfind₁, hgrows'⟩ := h'.strms i hi (h.used i hused) strm' hfind
  obtain ⟨strm, hfind, hgrows⟩ := h.strms i hi hused strm₁ hfind₁
  exact ⟨strm, hfind, hgrows.trans hgrows'⟩

theorem OnStrm.grows_conn (h : OnStrm id conn conn') : Grows conn conn' := by
  obtain ⟨evs, hlog, -⟩ := h.told
  refine ⟨h.ids.server, h.ids.next, fun i hi => (h.ids.used i).mpr hi, Nat.le_of_eq h.rxOffset.symm,
    fun i hi _ strm' hfind => ?_, ?_⟩
  · by_cases heq : i = id
    · rw [heq] at hfind ⊢
      exact h.grows strm' hfind
    · rw [h.others i heq] at hfind
      exact ⟨strm', hfind, ⟨fun h => h, Nat.le_refl _⟩⟩
  · rw [hlog, List.countP_append]
    exact Nat.le_add_right _ _

/-- Something was done that is not undone later. -/
inductive Advances (conn conn' : Conn) : Prop where
  | opened (i : Nat) (remote : connLocalStream conn i = false) (fresh : ¬Used conn i)
      (used : Used conn' i)
  | charged (lt : conn.rxOffset < conn'.rxOffset)
  | delivered (lt : conn.log.countP Event.delivers < conn'.log.countP Event.delivers)
  | received (i : Nat) (hi : i ≠ 0) (used : Used conn i) (strm : Strm)
      (find : conn.strms i = some strm)
      (after : ∀ strm', conn'.strms i = some strm' → (strm.shutRd = false ∧ strm'.shutRd = true) ∨
        missing strm'.rob.gap < missing strm.rob.gap)

theorem Advances.grows (h : Advances conn conn₁) (h' : Grows conn₁ conn')
    (hused : ∀ i, Used conn i → Used conn₁ i) :
    Advances conn conn' := by
  cases h with
  | opened i remote fresh used => exact .opened i remote fresh (h'.used i used)
  | charged lt => exact .charged (Nat.lt_of_lt_of_le lt h'.rxOffset)
  | delivered lt => exact .delivered (Nat.lt_of_lt_of_le lt h'.delivered)
  | received i hi used strm find after =>
    refine .received i hi used strm find fun strm' hfind => ?_
    obtain ⟨strm₁, hfind₁, hgrows⟩ := h'.strms i hi (hused i used) strm' hfind
    rcases after strm₁ hfind₁ with ⟨hopen, hshut⟩ | hlt
    · exact .inl ⟨hopen, hgrows.shutRd hshut⟩
    · exact .inr (Nat.lt_of_le_of_lt hgrows.gap hlt)

theorem Grows.advances (h : Grows conn conn₁) (h' : Advances conn₁ conn')
    (h'' : Grows conn₁ conn') : Advances conn conn' := by
  have hlocal : ∀ i, connLocalStream conn₁ i = connLocalStream conn i :=
    connLocalStream_congr h.server
  cases h' with
  | opened i remote fresh used =>
    exact .opened i ((hlocal i).symm.trans remote) (fun hc => fresh (h.used i hc)) used
  | charged lt => exact .charged (Nat.lt_of_le_of_lt h.rxOffset lt)
  | delivered lt => exact .delivered (Nat.lt_of_le_of_lt h.delivered lt)
  | received i hi used strm find after =>
    by_cases hused : Used conn i
    · obtain ⟨strm₀, hfind₀, hgrows⟩ := h.strms i hi hused strm find
      refine .received i hi hused strm₀ hfind₀ fun strm' hfind' => ?_
      rcases after strm' hfind' with ⟨hopen, hshut⟩ | hlt
      · refine .inl ⟨?_, hshut⟩
        by_contra hc
        rw [hgrows.shutRd (by simpa using hc)] at hopen
        cases hopen
      · exact .inr (Nat.lt_of_lt_of_le hlt hgrows.gap)
    · -- The ID was used in between, so it is a remote one.
      refine .opened i ?_ hused (h''.used i used)
      by_contra hc
      have hloc : connLocalStream conn i = true := by simpa using hc
      apply hused
      unfold Used at used ⊢
      rw [hlocal, hloc, if_pos rfl, h.next] at used
      rw [hloc, if_pos rfl]
      exact used

/-! ## The effects of a STREAM frame -/

/-- The frame changes its stream, though it has no bytes behind the ones that were charged. -/
def touchesStrm (strm : Strm) (fr : StreamFrame) : Bool :=
  if fr.fin then !strm.shutRd && strm.lastRxOffset ≤ fr.endOffset
  else strmRxOffset strm < fr.endOffset && !strm.stopSending &&
    (fr.offset ≤ strmRxOffset strm || robNews strm.rob fr.offset fr.data || strmShutRdwr strm)

/-- The frame passes the checks of `conn_recv_stream` and opens a stream, is charged, or changes
its stream. -/
def touches (conn : Conn) (fr : StreamFrame) : Bool :=
  (connCheckStreamFrame conn fr).isNone &&
    match conn.strms fr.streamId with
    | none => !connLocalStream conn fr.streamId &&
      (idtrOpen (conn.ids (bidiStream fr.streamId)).remoteIdtr fr.streamId).isSome
    | some strm =>
      fr.endOffset ≤ strm.maxRxOffset &&
        if strm.lastRxOffset < fr.endOffset then !connMaxDataViolated conn
          (fr.endOffset - strm.lastRxOffset)
        else touchesStrm strm fr

theorem setLastRxOffset_self (strm : Strm) {n : Nat} (h : n ≤ strm.lastRxOffset) :
    strm.setLastRxOffset (max strm.lastRxOffset n) = strm := by
  rw [Nat.max_eq_left h]
  rfl

theorem Used.usedId (h : Used conn id) (hids : IdsInv conn) : UsedId conn id := by
  unfold Used at h
  by_cases hlocal : connLocalStream conn id = true
  · exact .inl hlocal
  rw [if_neg hlocal] at h
  refine .inr ?_
  cases ho : idtrOpen (conn.ids (bidiStream id)).remoteIdtr id with
  | none => rfl
  | some idtr =>
    obtain ⟨gs, hgs, -⟩ := Option.map_eq_some_iff.mp ho
    exact absurd (idtrOpenLoop_some (hids.sorted _) hgs).1 h

/-- A frame without effect leaves the connection as it is. -/
theorem connRecvStream_untouched {fr : StreamFrame} (hkeyed : StrmsKeyed conn)
    (hid : fr.streamId ≠ 0)
    (h : touches conn fr = false) : (connRecvStream conn fr).2 = conn := by
  unfold touches at h
  unfold connRecvStream
  cases hcheck : connCheckStreamFrame conn fr with
  | some e => rfl
  | none =>
  rw [hcheck, Option.isNone_none, Bool.true_and] at h
  cases hfind : conn.strms fr.streamId with
  | none =>
    have hused : UsedId conn fr.streamId := by
      rw [hfind] at h
      dsimp only at h
      by_cases hloc : connLocalStream conn fr.streamId = true
      · exact .inl hloc
      · simp only [hloc, Bool.not_false, Bool.true_and, Option.isSome_eq_false_iff,
          Option.isNone_iff_eq_none] at h
        exact .inr h
    rw [connFindOrOpenStream_closed hfind hused, andThen_ok]
  | some strm =>
  have hstrm : strm.streamId = fr.streamId := hkeyed _ _ hfind
  rw [hfind] at h
  rw [connFindOrOpenStream_find hfind, andThen_ok]
  dsimp only at h ⊢
  have hself : conn.setStrm strm = conn := Conn.setStrm_of_eq (hstrm ▸ hfind)
  unfold connRecvStreamCharge
  by_cases hmax : strm.maxRxOffset < fr.endOffset
  · rw [if_pos hmax, andThen_error]
  rw [if_neg hmax]
  rw [decide_eq_true (Nat.le_of_not_lt hmax), Bool.true_and] at h
  by_cases hlast : strm.lastRxOffset < fr.endOffset
  · -- Bytes that cannot be charged are refused.
    have hviolated : connMaxDataViolated conn (fr.endOffset - strm.lastRxOffset) = true := by
      rw [if_pos hlast] at h
      simpa using h
    rw [if_pos ⟨hlast, hstrm ▸ hid⟩]
    dsimp only
    rw [if_pos hviolated, andThen_error]
  rw [if_neg (fun hc => hlast hc.1), andThen_ok]
  rw [if_neg hlast] at h
  have hle : fr.endOffset ≤ strm.lastRxOffset := Nat.le_of_not_lt hlast
  unfold touchesStrm at h
  split
  · next hfin =>
    rw [if_pos hfin] at h
    unfold connRecvStreamFin
    split
    · split <;> rfl
    next hopen =>
    have hlt : fr.endOffset < strm.lastRxOffset := by
      have hopen : strm.shutRd = false := by simpa using hopen
      rw [hopen] at h
      simpa using h
    rw [if_pos hlt]
  · next hfin =>
    rw [if_neg hfin] at h
    unfold connRecvStreamNoFin
    rw [if_neg (fun hc => hlast hc.2)]
    dsimp only
    rw [setLastRxOffset_self strm hle, hself]
    by_cases hrx : fr.endOffset ≤ strmRxOffset strm
    · rw [if_pos hrx]
    rw [if_neg hrx]
    by_cases hstop : strm.stopSending = true
    · rw [if_pos hstop]
    rw [if_neg hstop]
    have hstop : strm.stopSending = false := by simpa using hstop
    rw [decide_eq_true (Nat.lt_of_not_le hrx), hstop] at h
    simp only [Bool.not_false, Bool.and_self, Bool.true_and, Bool.or_eq_false_iff,
      decide_eq_false_iff_not] at h
    obtain ⟨⟨hoff, hnews⟩, hshut⟩ := h
    unfold connRecvStreamDeliver
    rw [if_neg hoff]
    have hre : strmRecvReordering strm fr = strm := by
      unfold strmRecvReordering
      rw [robPush_noNews hnews]
      rfl
    dsimp only
    rw [hre, hself, andThen_ok]
    unfold ngtcp2ConnCloseStreamIfShutRdwr
    rw [hshut]
    rfl

theorem Change.used {H : List Frame} {k : Kind} (h : Change H k conn conn') (hinv : IdsInv conn)
    (hused : Used conn id) :
    Used conn' id := by
  cases hk : k.keepsIds with
  | true => exact ((h.sameIds hk).used id).mpr hused
  | false =>
    cases h.idStep_opens hk hinv id with
    | keep _ used => exact used.mpr hused
    | consume used => exact used
    | create _ used => exact used
    | close _ used => exact used.mpr hused

/-- Stream 0 is in use from the start. -/
theorem Initial.used_zero (h : Initial conn) : Used conn 0 := by
  cases h with
  | client => exact (by decide : (0 : Nat) < 4)
  | server => exact fun hc => ((idtrOpen_getD _ 0 (streamIdsInit_used ..)).2 0).mp hc |>.2 rfl

/-- What the handlers of stream frames rely on. -/
structure StrmsUsed (conn : Conn) : Prop where
  keyed : StrmsKeyed conn
  ids : IdsInv conn
  zero : Used conn 0
  live : ∀ i, i ≠ 0 → (conn.strms i).isSome = true → Used conn i

theorem Reachable.strmsUsed (h : Reachable conn) : StrmsUsed conn := by
  refine ⟨h.wellFormed.keyed, (h.lifeInv Nat.one_ne_zero).ids, ?_, fun i hi hsome => ?_⟩
  · obtain ⟨conn₀, ops, hinit, hrun⟩ := h
    refine (hrun.invariant (fun _ c => WellFormed c ∧ IdsInv c ∧ Used c 0)
      ⟨hinit.wellFormed, hinit.idsInv, hinit.used_zero⟩ fun _ _ _ _ hP hstep => ?_).2.2
    have hch := Step.changes hP.1 hstep
    exact ⟨Step.wellFormed hP.1 hstep, hch.keeps (fun c => IdsInv c ∧ Used c 0)
      (fun _ _ _ _ hP hc => ⟨hc.idsInv hP.1, hc.used hP.1 hP.2⟩) hP.2⟩
  · cases (h.lifeInv hi).phase with
    | unused _ noObj =>
      rw [noObj] at hsome
      cases hsome
    | live used => exact used
    | gone used => exact used

/-- An ID that can be opened was not used. -/
theorem not_used_of_idtrOpen {idtr : Idtr} (hinv : IdsInv conn)
    (hremote : connLocalStream conn id = false)
    (hopen : idtrOpen (conn.ids (bidiStream id)).remoteIdtr id = some idtr) : ¬Used conn id := by
  obtain ⟨gs, hgs, -⟩ := Option.map_eq_some_iff.mp hopen
  unfold Used
  rw [hremote]
  exact not_not_intro (idtrOpenLoop_some (hinv.sorted _) hgs).1

theorem openRemote_usedId {idtr : Idtr} (hinv : IdsInv conn)
    (hremote : connLocalStream conn id = false)
    (hopen : idtrOpen (conn.ids (bidiStream id)).remoteIdtr id = some idtr) (i : Nat) :
    Used (openRemote conn id idtr) i ↔ Used conn i ∨ i = id := by
  rw [openRemote_eq hopen]
  have hsame : SameIds (openId conn id)
      (((openId conn id).setStrm (openedStrm conn id)).tell (.strmInit id)) :=
      ⟨rfl, fun _ => rfl, fun _ => rfl⟩
  rw [hsame.used, openId_used hinv hremote]

theorem openRemote_grows {idtr : Idtr} (hinv : IdsInv conn)
    (hremote : connLocalStream conn id = false)
    (hopen : idtrOpen (conn.ids (bidiStream id)).remoteIdtr id = some idtr) :
    Grows conn (openRemote conn id idtr) := by
  have hused := openRemote_usedId hinv hremote hopen
  refine ⟨Conn.setIds_server _ _ _, fun bidi => ?_, fun i hi => (hused i).mpr (.inl hi), ?_,
    fun i _ hi strm' hfind => ?_, ?_⟩
  · change (Conn.ids (conn.setIds _ _) bidi).nextLocalStreamId = _
    rw [Conn.ids_setIds]
    split
    · next h => rw [h]
    · rfl
  · unfold openRemote Conn.setIds
    split <;> exact Nat.le_refl _
  · have hne : i ≠ id := by
      rintro rfl
      exact not_used_of_idtrOpen hinv hremote hopen hi
    have hstrms : (openRemote conn id idtr).strms i = conn.strms i := by
      change ((conn.setIds _ _).setStrm (openedStrm conn id)).strms i = _
      rw [Conn.setStrm_strms, openedStrm_streamId, if_neg hne, Conn.setIds_strms]
    rw [hstrms] at hfind
    exact ⟨strm', hfind, ⟨fun h => h, Nat.le_refl _⟩⟩
  · rw [openRemote_log, List.countP_append]
    exact Nat.le_add_right _ _

theorem Grows.setRxOffset (conn : Conn) {rxOffset : Nat} (h : conn.rxOffset ≤ rxOffset) :
    Grows conn (conn.setRxOffset rxOffset) :=
  ⟨rfl, fun _ => rfl, fun _ h => h, h,
    fun _ _ _ strm' hfind => ⟨strm', hfind, ⟨fun h => h, Nat.le_refl _⟩⟩, Nat.le_refl _⟩

/-- The bytes of a frame are charged, or refused. -/
theorem connRecvStreamCharge_cases {frEndOffset : Nat} {r : Except Err Unit}
    (h : connRecvStreamCharge conn strm frEndOffset = (r, conn')) :
    (conn' = conn ∧ (r = .ok () → strm.streamId = 0 ∨ frEndOffset ≤ strm.lastRxOffset)) ∨
      (strm.lastRxOffset < frEndOffset ∧ strm.streamId ≠ 0 ∧ r = .ok () ∧
        conn' = conn.setRxOffset (conn.rxOffset + (frEndOffset - strm.lastRxOffset))) := by
  unfold connRecvStreamCharge at h
  split at h
  · obtain ⟨rfl, rfl⟩ := Prod.mk.inj h
    exact .inl ⟨rfl, by simp⟩
  split at h
  · next hnew =>
    dsimp only at h
    split at h
    · obtain ⟨rfl, rfl⟩ := Prod.mk.inj h
      exact .inl ⟨rfl, by simp⟩
    · obtain ⟨rfl, rfl⟩ := Prod.mk.inj h
      exact .inr ⟨hnew.1, hnew.2, rfl, rfl⟩
  · next hold =>
    obtain ⟨rfl, rfl⟩ := Prod.mk.inj h
    refine .inl ⟨rfl, fun _ => ?_⟩
    by_cases hid : strm.streamId = 0
    · exact .inl hid
    · exact .inr (Nat.le_of_not_lt fun hlt => hold ⟨hlt, hid⟩)

/-- What follows the charge, in both branches. -/
theorem connRecvStreamBranch_onStrm {fr : StreamFrame} {r : Except Err Unit}
    (find : conn.strms strm.streamId = some strm)
    (hfin : fr.fin = true → strm.streamId ≠ 0)
    (h : (if fr.fin then connRecvStreamFin conn strm fr else connRecvStreamNoFin conn strm fr) = (r,
    conn')) :
    OnStrm strm.streamId conn conn' := by
  split at h
  · next hf => exact connRecvStreamFin_onStrm find (hfin hf) h
  · exact connRecvStreamNoFin_onStrm find h

theorem connRecvStreamFound_grows {fr : StreamFrame} {r : Except Err Unit}
    (find : conn.strms strm.streamId = some strm)
    (hid : strm.streamId ≠ 0)
    (h : ((connRecvStreamCharge conn strm fr.endOffset).andThen fun _ conn =>
      if fr.fin then connRecvStreamFin conn strm fr else connRecvStreamNoFin conn strm fr) = (r,
      conn')) :
    Grows conn conn' := by
  have hcharge : ∀ {r₁ conn₁}, connRecvStreamCharge conn strm fr.endOffset = (r₁, conn₁) →
      Grows conn conn₁ ∧ conn₁.strms = conn.strms := fun h₁ => by
    rcases connRecvStreamCharge_cases h₁ with ⟨rfl, -⟩ | ⟨-, -, -, rfl⟩
    · exact ⟨.refl _, rfl⟩
    · exact ⟨.setRxOffset _ (Nat.le_add_right _ _), rfl⟩
  rcases andThen_cases h with ⟨e, h₁, rfl⟩ | ⟨_, conn₁, h₁, h₂⟩
  · exact (hcharge h₁).1
  · obtain ⟨hgrows, hstrms⟩ := hcharge h₁
    exact hgrows.trans (connRecvStreamBranch_onStrm (by rw [hstrms]; exact find) (fun _ => hid) h₂).grows_conn

/-- A STREAM frame never undoes anything. -/
theorem connRecvStream_grows {fr : StreamFrame} {r : Except Err Unit} (hc : StrmsUsed conn)
    (hid : fr.streamId ≠ 0)
    (h : connRecvStream conn fr = (r, conn')) : Grows conn conn' := by
  have hsame : ∀ {α : Type} {x y : Except Err α}, (x, conn) = (y, conn') → Grows conn conn' :=
    fun h => by
    obtain ⟨-, rfl⟩ := Prod.mk.inj h
    exact .refl _
  unfold connRecvStream at h
  split at h
  · exact hsame h
  cases hfind : conn.strms fr.streamId with
  | some strm =>
    have hstrm := hc.keyed _ _ hfind
    rw [connFindOrOpenStream_find hfind, andThen_ok] at h
    exact connRecvStreamFound_grows (hstrm ▸ hfind) (hstrm ▸ hid) h
  | none =>
    by_cases hloc : connLocalStream conn fr.streamId = true
    · rw [connFindOrOpenStream_closed hfind (.inl hloc), andThen_ok] at h
      exact hsame h
    have hremote : connLocalStream conn fr.streamId = false := by simpa using hloc
    cases ho : idtrOpen (conn.ids (bidiStream fr.streamId)).remoteIdtr fr.streamId with
    | none =>
      rw [connFindOrOpenStream_closed hfind (.inr ho), andThen_ok] at h
      exact hsame h
    | some idtr =>
      rw [connFindOrOpenStream_open hfind hremote ho, andThen_ok] at h
      have hstrm := openedStrm_streamId conn fr.streamId
      have hopened : (openRemote conn fr.streamId idtr).strms
        (openedStrm conn fr.streamId).streamId =
          some (openedStrm conn fr.streamId) := setStrm_find _ (openedStrm conn fr.streamId)
      exact (openRemote_grows hc.ids hremote ho).trans
        (connRecvStreamFound_grows hopened (hstrm.symm ▸ hid) h)

/-- A frame on stream 0 stays on stream 0. -/
theorem connRecvStream_zero {fr : StreamFrame} {r : Except Err Unit} (hc : StrmsUsed conn)
    (hid : fr.streamId = 0)
    (h : connRecvStream conn fr = (r, conn')) : OnStrm 0 conn conn' := by
  unfold connRecvStream at h
  split at h
  · exact .of_same h
  next hcheck =>
  cases hfind : conn.strms fr.streamId with
  | some strm =>
    have hstrm : strm.streamId = 0 := (hc.keyed _ _ hfind).trans hid
    have hfind : conn.strms strm.streamId = some strm := by rw [hstrm, ← hid, hfind]
    rw [connFindOrOpenStream_find (hid ▸ hstrm ▸ hfind), andThen_ok] at h
    have hfin : fr.fin = true → strm.streamId ≠ 0 := by
      intro hfin
      unfold connCheckStreamFrame at hcheck
      rw [if_pos ⟨hid, hfin⟩] at hcheck
      cases hcheck
    rcases andThen_cases h with ⟨e, h₁, rfl⟩ | ⟨_, conn₁, h₁, h₂⟩
    · rcases connRecvStreamCharge_cases h₁ with ⟨rfl, -⟩ | ⟨-, hne, -⟩
      · exact .refl _ _
      · exact absurd hstrm hne
    · rcases connRecvStreamCharge_cases h₁ with ⟨rfl, -⟩ | ⟨-, hne, -⟩
      · exact hstrm ▸ connRecvStreamBranch_onStrm hfind hfin h₂
      · exact absurd hstrm hne
  | none =>
    have hused : UsedId conn fr.streamId := Used.usedId (hid ▸ hc.zero) hc.ids
    rw [connFindOrOpenStream_closed hfind hused, andThen_ok] at h
    exact .of_same h

/-- A STREAM frame in a handshake packet writes to stream 0 only. -/
theorem connRecvHandshakeStream_onStrm {type : PktType} {handshakeFailed : Bool} {fr : StreamFrame}
    {r : Except Err Bool}
    (hkeyed : StrmsKeyed conn)
    (h : connRecvHandshakeStream conn type handshakeFailed fr = (r, conn')) :
    OnStrm 0 conn conn' := by
  unfold connRecvHandshakeStream at h
  split at h
  · exact .of_same h
  split at h
  · exact .of_same h
  split at h
  · exact .of_same h
  split at h
  · exact .of_same h
  cases hs : conn.strms 0 with
  | none =>
    simp only [hs] at h
    exact .of_same h
  | some strm0 =>
  simp only [hs] at h
  have hid : strm0.streamId = 0 := hkeyed _ _ hs
  have hset : ∀ {c : Conn} {strm strm' : Strm}, c.strms 0 = some strm → strm.streamId = 0 →
    strm'.streamId = 0 →
      RxGrows strm strm' → OnStrm 0 c (c.setStrm strm') := by
    intro c strm strm' hfind hzero hzero' hgrows
    have hon := OnStrm.setStrm (hzero ▸ hfind) (hzero'.trans hzero.symm) hgrows
    rwa [hzero] at hon
  have hfound : ∀ (c : Conn) (strm : Strm), strm.streamId = 0 →
    (c.setStrm strm).strms 0 = some strm := fun _ _ hzero =>
    if_pos hzero.symm
  split at h
  · exact .of_same h
  have hlast : OnStrm 0 conn
    (conn.setStrm (strm0.setLastRxOffset (max strm0.lastRxOffset fr.endOffset))) :=
    hset hs hid hid {}
  have hfind := hfound conn (strm0.setLastRxOffset (max strm0.lastRxOffset fr.endOffset)) hid
  have hid₁ : (strm0.setLastRxOffset (max strm0.lastRxOffset fr.endOffset)).streamId = 0 := hid
  generalize strm0.setLastRxOffset (max strm0.lastRxOffset fr.endOffset) =
    strm₁ at h hlast hfind hid₁
  split at h
  · obtain ⟨-, rfl⟩ := Prod.mk.inj h
    exact hlast
  split at h
  · generalize fr.data.drop (strmRxOffset strm0 - fr.offset) = data at h
    generalize strmRxOffset strm0 + data.length = rxOffset at h
    have hcut : OnStrm 0 conn ((conn.setStrm strm₁).setStrm (strm₁.setRob (robRemovePrefix strm₁.rob rxOffset))) :=
      hlast.trans (hset hfind hid₁ hid₁ (.removePrefix strm₁ rxOffset))
    have hid₂ : (strm₁.setRob (robRemovePrefix strm₁.rob rxOffset)).streamId = 0 := hid₁
    generalize strm₁.setRob (robRemovePrefix strm₁.rob rxOffset) = strm₂ at h hcut hid₂
    have hfind₂ := hfound (conn.setStrm strm₁) _ hid₂
    generalize (conn.setStrm strm₁).setStrm strm₂ = conn₁ at h hcut hfind₂
    generalize hcall : connCallRecvStream0Data conn₁ data = y at h
    obtain ⟨res, conn₂⟩ := y
    have htell : OnStrm 0 conn conn₂ := hcut.trans (connCallRecvStream0Data_onStrm rfl hcall)
    have hcredit : OnStrm 0 conn
      (conn₂.setStrm (strm₂.setUnsentMaxRxOffset (strm₂.unsentMaxRxOffset + data.length))) := by
      refine htell.trans (hset ?_ hid₂ hid₂ {})
      rw [connCallRecvStream0Data_tell hcall]
      exact hfind₂
    have hfind₃ := setStrm_find conn₂
      (strm₂.setUnsentMaxRxOffset (strm₂.unsentMaxRxOffset + data.length))
    have hid₃ : (strm₂.setUnsentMaxRxOffset (strm₂.unsentMaxRxOffset + data.length)).streamId = 0 :=
      hid₂
    generalize strm₂.setUnsentMaxRxOffset (strm₂.unsentMaxRxOffset + data.length) =
      strm₃ at h hcredit hfind₃ hid₃
    cases res with
    | error e =>
      cases e with
      | tlsHandshake =>
        obtain ⟨-, rfl⟩ := Prod.mk.inj h
        exact hcredit
      | _ =>
        obtain ⟨-, rfl⟩ := Prod.mk.inj h
        exact htell
    | ok =>
      dsimp only at h
      split at h
      · obtain ⟨-, rfl⟩ := Prod.mk.inj h
        exact hcredit
      refine hcredit.trans (OnStrm.andThen h (fun r₁ conn₃ hx => ?_) fun a conn₃ hx h => ?_)
      · exact hid₃ ▸ (connEmitPendingStream0Data_onStrm _ hfind₃ hid₃ hx).1
      · obtain ⟨-, rfl⟩ := Prod.mk.inj h
        exact .refl _ _
  · split at h
    · obtain ⟨-, rfl⟩ := Prod.mk.inj h
      exact hlast
    · obtain ⟨-, rfl⟩ := Prod.mk.inj h
      exact hlast.trans (hset hfind hid₁ hid₁ (.reordering strm₁ fr))

/-- New bytes next to the delivered ones are delivered at once. -/
theorem connRecvStreamDeliver_delivers {fr : StreamFrame} {rxOffset : Nat} {r : Except Err Unit}
    (hid : strm.streamId ≠ 0) (hoff : fr.offset ≤ rxOffset)
    (h : connRecvStreamDeliver conn strm fr rxOffset = (r, conn')) :
    conn.log.countP Event.delivers < conn'.log.countP Event.delivers := by
  unfold connRecvStreamDeliver at h
  rw [if_pos hoff] at h
  extract_lets data rx strm₁ conn₁ fin at h
  have hid₁ : strm₁.streamId = strm.streamId := rfl
  have htold : conn.log.countP Event.delivers <
      (conn₁.tell (.recvStreamData strm₁.streamId fin data)).log.countP Event.delivers := by
    change _ < (conn.log ++ [Event.recvStreamData strm₁.streamId fin data]).countP _
    rw [List.countP_append, List.countP_singleton]
    exact Nat.lt_succ_self _
  have find₁ : (conn₁.tell (.recvStreamData strm₁.streamId fin data)).strms strm₁.streamId =
    some strm₁ :=
    setStrm_find conn strm₁
  rw [if_neg (hid₁ ▸ hid)] at h
  rcases andThen_cases h with ⟨e, h₁, rfl⟩ | ⟨strm₂, conn₂, h₁, h₂⟩
  · rcases andThen_cases h₁ with ⟨e, hcall, -⟩ | ⟨_, conn₃, hcall, hemit⟩
    · rw [connCall_tell hcall]
      exact htold
    · rw [connCall_tell hcall] at hemit
      have hon := (connEmitPendingStreamData_onStrm _ find₁ (hid₁ ▸ hid) hemit).1
      exact Nat.lt_of_lt_of_le htold hon.grows_conn.delivered
  · rcases andThen_cases h₁ with ⟨e, hcall, hr⟩ | ⟨_, conn₃, hcall, hemit⟩
    · cases hr
    · rw [connCall_tell hcall] at hemit
      have hon := (connEmitPendingStreamData_onStrm _ find₁ (hid₁ ▸ hid) hemit).1
      have hclose := (ngtcp2ConnCloseStreamIfShutRdwr_onStrm h₂).grows_conn
      exact Nat.lt_of_lt_of_le htold (Nat.le_trans hon.grows_conn.delivered hclose.delivered)

/-- A frame on a live stream that has nothing new to charge changes its stream all the same. -/
theorem connRecvStreamBranch_advances {fr : StreamFrame} {r : Except Err Unit}
    (find : conn.strms strm.streamId = some strm)
    (hid : strm.streamId ≠ 0) (hused : Used conn strm.streamId)
    (hle : fr.endOffset ≤ strm.lastRxOffset)
    (ht : touchesStrm strm fr = true)
    (h : (if fr.fin then connRecvStreamFin conn strm fr else connRecvStreamNoFin conn strm fr) = (r,
    conn')) :
    Advances conn conn' := by
  unfold touchesStrm at ht
  split at h
  · next hfin =>
    rw [if_pos hfin] at ht
    simp only [Bool.and_eq_true, Bool.not_eq_true', decide_eq_true_eq] at ht
    obtain ⟨hopen, hlast⟩ := ht
    -- From here on the stream is shut, or gone.
    have hshut : OnStrm strm.streamId
      (conn.setStrm (strm.setLastRxOffset fr.endOffset).shutdownRd) conn' := by
      have hfound := setStrm_find conn (strm.setLastRxOffset fr.endOffset).shutdownRd
      unfold connRecvStreamFin at h
      rw [if_neg (by rw [hopen]; exact Bool.false_ne_true), if_neg (Nat.not_lt.mpr hlast)] at h
      dsimp only at h
      split at h
      · have hclose := ngtcp2ConnCloseStreamIfShutRdwr_onStrm h
        exact hclose
      obtain ⟨hunlink, hid₁, hfind₁⟩ := fcUnlink_onStrm hfound
      generalize fcUnlink (conn.setStrm (strm.setLastRxOffset fr.endOffset).shutdownRd)
        (strm.setLastRxOffset fr.endOffset).shutdownRd = x at h hunlink hid₁ hfind₁
      obtain ⟨strm₁, conn₁⟩ := x
      have hid₁ : strm₁.streamId = strm.streamId := hid₁
      have hunlink : OnStrm strm.streamId _ conn₁ := hunlink
      have hfind₁ : conn₁.strms strm.streamId = some strm₁ := hfind₁
      refine hunlink.trans ?_
      rw [← hid₁] at hfind₁ hid ⊢
      dsimp only at h
      split at h
      · refine OnStrm.andThen h (fun r₁ conn₂ hcall => ?_) fun _ conn₂ _ h =>
          ngtcp2ConnCloseStreamIfShutRdwr_onStrm h
        rw [connCall_tell hcall]
        exact .tell _ hid
      · exact connRecvStreamDeliver_onStrm hfind₁ h
    refine .received strm.streamId hid hused strm find fun strm' hfind => .inl ⟨hopen, ?_⟩
    obtain ⟨strm₂, hfind₂, hgrows⟩ := hshut.grows strm' hfind
    obtain rfl := Option.some.inj ((setStrm_find conn _).symm.trans hfind₂)
    exact hgrows.shutRd rfl
  · next hfin =>
    rw [if_neg hfin] at ht
    simp only [Bool.and_eq_true, Bool.not_eq_true', decide_eq_true_eq, Bool.or_eq_true] at ht
    obtain ⟨⟨hrx, hstop⟩, hany⟩ := ht
    unfold connRecvStreamNoFin at h
    rw [if_neg (fun hc => Nat.not_lt.mpr hle hc.2)] at h
    dsimp only at h
    rw [setLastRxOffset_self strm hle, Conn.setStrm_of_eq find, if_neg (Nat.not_le.mpr hrx),
      if_neg (by rw [hstop]; exact Bool.false_ne_true)] at h
    by_cases hoff : fr.offset ≤ strmRxOffset strm
    · exact .delivered (connRecvStreamDeliver_delivers hid hoff h)
    refine .received strm.streamId hid hused strm find fun strm' hfind => ?_
    unfold connRecvStreamDeliver at h
    rw [if_neg hoff, andThen_ok] at h
    obtain ⟨strm₂, hfind₂, hgrows⟩ := (ngtcp2ConnCloseStreamIfShutRdwr_onStrm h).grows strm' hfind
    obtain rfl := Option.some.inj ((setStrm_find conn _).symm.trans hfind₂)
    rcases hany with (hc | hnews) | hshut
    · exact absurd hc hoff
    · exact .inr (Nat.lt_of_le_of_lt hgrows.gap (robPush_news hnews))
    · by_cases hnews : robNews strm.rob fr.offset fr.data = true
      · exact .inr (Nat.lt_of_le_of_lt hgrows.gap (robPush_news hnews))
      -- The stream was done before and is closed now.
      have hsame : strmRecvReordering strm fr = strm := by
        unfold strmRecvReordering
        rw [robPush_noNews (by simpa using hnews)]
        rfl
      rw [hsame, Conn.setStrm_of_eq find] at h
      unfold ngtcp2ConnCloseStreamIfShutRdwr at h
      rw [if_pos hshut] at h
      obtain ⟨strm₃, hfind₃, -⟩ := (ngtcp2ConnCloseStream_onStrm find h).grows strm' hfind
      have hfind₃ : (if strm.streamId = strm.streamId then none else conn.strms strm.streamId) =
        some strm₃ := hfind₃
      rw [if_pos rfl] at hfind₃
      cases hfind₃

/-- A frame that touches the state leaves a trace. -/
theorem connRecvStream_advances {fr : StreamFrame} {r : Except Err Unit} (hc : StrmsUsed conn)
    (hid : fr.streamId ≠ 0)
    (ht : touches conn fr = true) (h : connRecvStream conn fr = (r, conn')) :
    Advances conn conn' := by
  unfold touches at ht
  rw [Bool.and_eq_true, Option.isNone_iff_eq_none] at ht
  obtain ⟨hcheck, ht⟩ := ht
  unfold connRecvStream at h
  rw [hcheck] at h
  dsimp only at h
  cases hfind : conn.strms fr.streamId with
  | none =>
    rw [hfind] at ht
    simp only [Bool.and_eq_true, Bool.not_eq_true', Option.isSome_iff_exists] at ht
    obtain ⟨hremote, idtr, ho⟩ := ht
    rw [connFindOrOpenStream_open hfind hremote ho, andThen_ok] at h
    have hstrm := openedStrm_streamId conn fr.streamId
    have hopened : (openRemote conn fr.streamId idtr).strms (openedStrm conn fr.streamId).streamId =
        some (openedStrm conn fr.streamId) := setStrm_find _ (openedStrm conn fr.streamId)
    have hused : Used (openRemote conn fr.streamId idtr) fr.streamId :=
      (openRemote_usedId hc.ids hremote ho _).mpr (.inr rfl)
    exact .opened fr.streamId hremote (not_used_of_idtrOpen hc.ids hremote ho)
      ((connRecvStreamFound_grows hopened (hstrm.symm ▸ hid) h).used _ hused)
  | some strm =>
    have hstrm := hc.keyed _ _ hfind
    have hused : Used conn strm.streamId := hstrm ▸ hc.live _ hid (by rw [hfind]; rfl)
    have hfind' : conn.strms strm.streamId = some strm := hstrm ▸ hfind
    rw [hfind] at ht
    simp only [Bool.and_eq_true, decide_eq_true_eq] at ht
    obtain ⟨hmax, ht⟩ := ht
    rw [connFindOrOpenStream_find hfind, andThen_ok] at h
    dsimp only at h
    by_cases hlast : strm.lastRxOffset < fr.endOffset
    · rw [if_pos hlast, Bool.not_eq_true'] at ht
      have hcharge : connRecvStreamCharge conn strm fr.endOffset =
          (.ok (), conn.setRxOffset (conn.rxOffset + (fr.endOffset - strm.lastRxOffset))) := by
        unfold connRecvStreamCharge
        rw [if_neg (Nat.not_lt.mpr hmax), if_pos ⟨hlast, hstrm.symm ▸ hid⟩]
        dsimp only
        rw [ht]
        rfl
      rw [hcharge, andThen_ok] at h
      have hbranch : OnStrm strm.streamId
        (conn.setRxOffset (conn.rxOffset + (fr.endOffset - strm.lastRxOffset))) conn' :=
        connRecvStreamBranch_onStrm hfind' (fun _ => hstrm.symm ▸ hid) h
      have hgrows := hbranch.grows_conn
      exact .charged (Nat.lt_of_lt_of_le (Nat.lt_add_of_pos_right (Nat.sub_pos_of_lt hlast)) hgrows.rxOffset)
    · rw [if_neg hlast] at ht
      have hcharge : connRecvStreamCharge conn strm fr.endOffset = (.ok (), conn) := by
        unfold connRecvStreamCharge
        rw [if_neg (Nat.not_lt.mpr hmax), if_neg (fun hc => hlast hc.1)]
      rw [hcharge, andThen_ok] at h
      exact connRecvStreamBranch_advances hfind' (hstrm.symm ▸ hid) hused
        (Nat.le_of_not_lt hlast) ht h

end

end Ngtcp2
