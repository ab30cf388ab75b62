import Polygon.StopSendingOrder

/-!
# The code of a closed stream

A stream has the code with which the application shut it down, and whoever closes it supplies one.
The close callback gets the wrong one of the two.
-/
namespace Ngtcp2

section
variable {conn : Conn} {strm : Strm} {id code code' : Nat} {r : Result Unit}

/-- The code of the application if it shut the stream down, else the one that is supplied. -/
def ownCode (strm : Strm) (code : Nat) : Nat :=
  if strm.appErrorCode ≠ 0 then strm.appErrorCode else code

/-- The call closes the stream, and the close callback gets the code. -/
def TellsCode (conn : Conn) (id code : Nat) (r : Result Unit) : Prop :=
  ∃ evs, (∀ ev ∈ evs, ∀ i c, ev ≠ .streamClose i c) ∧
    r.2.log = conn.log ++ evs ++ [.streamClose id code]

theorem TellsCode.unique (h : TellsCode conn id code r) (h' : TellsCode conn id code' r) :
    code = code' := by
  obtain ⟨evs, -, hlog⟩ := h
  obtain ⟨evs', -, hlog'⟩ := h'
  obtain ⟨-, hlast⟩ := List.append_inj' (hlog.symm.trans hlog') rfl
  exact (Event.streamClose.inj (List.cons.inj hlast).1).2

/-- The wrong one of the two codes is the right one when they are the same. -/
theorem TellsCode.own_iff
    (h : TellsCode conn id (if strm.appErrorCode = 0 then strm.appErrorCode else code) r) :
    TellsCode conn id (ownCode strm code) r ↔ code = strm.appErrorCode := by
  constructor
  · intro hown
    have heq := h.unique hown
    unfold ownCode at heq
    split_ifs at heq <;> omega
  · rintro rfl
    unfold ownCode
    rw [ite_self] at h
    rwa [ite_self]

theorem ngtcp2ConnCloseStream_tells (code : Nat)
    (hfind : (conn.strms strm.streamId).isSome = true) :
    TellsCode conn strm.streamId (if strm.appErrorCode = 0 then strm.appErrorCode else code)
      (ngtcp2ConnCloseStream conn strm code) := by
  obtain ⟨strm', hfind⟩ := Option.isSome_iff_exists.mp hfind
  refine ⟨[], by simp, ?_⟩
  unfold ngtcp2ConnCloseStream connCallStreamClose
  dsimp only
  rw [hfind]
  dsimp only
  generalize (if strm.appErrorCode = 0 then strm.appErrorCode else code) = code'
  have hcall := connCall_snd (conn.removeStrm strm.streamId) (.streamClose strm.streamId code')
  cases hr : connCall (conn.removeStrm strm.streamId) (.streamClose strm.streamId code') with
  | mk r conn₁ =>
    rw [hr] at hcall
    obtain rfl : conn₁ = (conn.removeStrm strm.streamId).tell (.streamClose strm.streamId code') :=
      hcall
    rw [List.append_nil]
    cases r with
    | error e => rfl
    | ok _ =>
      rw [andThen_ok]
      split <;> split <;> simp [connImmediateAck, Conn.setFcStrms, Conn.tell, Conn.removeStrm]

/-- The connection was told of something, but not of the end of a stream. -/
def NothingClosed (conn conn' : Conn) : Prop :=
  ∃ evs, (∀ ev ∈ evs, ∀ i c, ev ≠ .streamClose i c) ∧ conn'.log = conn.log ++ evs

theorem NothingClosed.of_log {conn' : Conn} (hlog : conn'.log = conn.log) :
    NothingClosed conn conn' :=
  ⟨[], by simp, by rw [hlog, List.append_nil]⟩

theorem NothingClosed.of_tell {conn' : Conn} (ev : Event) (hev : ∀ i c, ev ≠ .streamClose i c)
    (hlog : conn'.log = conn.log ++ [ev]) : NothingClosed conn conn' :=
  ⟨[ev], by simpa using hev, hlog⟩

theorem NothingClosed.trans {conn₁ conn₂ : Conn} (h : NothingClosed conn conn₁)
    (h' : NothingClosed conn₁ conn₂) : NothingClosed conn conn₂ := by
  obtain ⟨evs, hevs, hlog⟩ := h
  obtain ⟨evs', hevs', hlog'⟩ := h'
  exact ⟨evs ++ evs', fun ev hev => (List.mem_append.mp hev).elim (hevs ev) (hevs' ev), by
    rw [hlog', hlog, List.append_assoc]⟩

theorem NothingClosed.not_tells {x : Except Err Unit} {conn' : Conn} (h : NothingClosed conn conn') :
    ¬TellsCode conn id code (x, conn') := by
  rintro ⟨evs', -, hlog'⟩
  obtain ⟨evs, hevs, hlog⟩ := h
  have heq : evs = evs' ++ [.streamClose id code] := by
    rw [List.append_assoc] at hlog'
    exact List.append_cancel_left (hlog.symm.trans hlog')
  exact hevs (.streamClose id code) (by simp [heq]) id code rfl

theorem NothingClosed.tells {conn₁ : Conn} (h : NothingClosed conn conn₁)
    (h₁ : TellsCode conn₁ id code r) : TellsCode conn id code r := by
  obtain ⟨evs, hevs, hlog⟩ := h
  obtain ⟨evs', hevs', hlog'⟩ := h₁
  exact ⟨evs ++ evs', fun ev hev => (List.mem_append.mp hev).elim (hevs ev) (hevs' ev), by
    rw [hlog', hlog, List.append_assoc conn.log]⟩

/-- The code that the call tells is the right one of the two in one case only. -/
def OwnIff (conn : Conn) (strm : Strm) (code : Nat) (r : Result Unit) : Prop :=
  (∃ c, TellsCode conn strm.streamId c r) →
    (TellsCode conn strm.streamId (ownCode strm code) r ↔ code = strm.appErrorCode)

theorem OwnIff.of_nothing {x : Except Err Unit} {conn' : Conn} (h : NothingClosed conn conn') :
    OwnIff conn strm code (x, conn') := by
  rintro ⟨c, htells⟩
  exact absurd htells h.not_tells

/-- The stream is still the one of before, as far as its end is concerned. -/
structure SameClose (strm strm' : Strm) : Prop where
  streamId : strm'.streamId = strm.streamId := by rfl
  appErrorCode : strm'.appErrorCode = strm.appErrorCode := by rfl

theorem SameClose.trans {strm strm₁ strm' : Strm} (h : SameClose strm strm₁) (h' : SameClose strm₁ strm') :
    SameClose strm strm' :=
  ⟨h'.streamId.trans h.streamId, h'.appErrorCode.trans h.appErrorCode⟩

theorem OwnIff.closeIfShut {conn₁ : Conn} {strm₁ : Strm} (code : Nat)
    (hnothing : NothingClosed conn conn₁) (hsame : SameClose strm strm₁) :
    OwnIff conn strm code (ngtcp2ConnCloseStreamIfShutRdwr conn₁ strm₁ code) := by
  unfold ngtcp2ConnCloseStreamIfShutRdwr
  split
  · cases hfind : conn₁.strms strm₁.streamId with
    | none =>
      unfold ngtcp2ConnCloseStream
      rw [hfind]
      exact .of_nothing hnothing
    | some s =>
      intro _
      have htells := hnothing.tells (ngtcp2ConnCloseStream_tells code (by rw [hfind]; rfl))
      rw [hsame.streamId, hsame.appErrorCode] at htells
      exact htells.own_iff
  · exact .of_nothing hnothing

theorem OwnIff.andThen {α : Type} {x : Result α} {f : α → Conn → Result Unit}
    (first : ∀ r₁ conn₁, x = (r₁, conn₁) → NothingClosed conn conn₁)
    (second : ∀ a conn₁, x = (.ok a, conn₁) → OwnIff conn strm code (f a conn₁)) :
    OwnIff conn strm code (x.andThen f) := by
  obtain ⟨r₁, conn₁⟩ := x
  cases r₁ with
  | error e => exact .of_nothing (first _ _ rfl)
  | ok a => exact second a conn₁ rfl

/-! ## The ways in which a stream is closed -/

theorem NothingClosed.recvStreamData (conn : Conn) (sid : Nat) (fin : Bool) (data : List UInt8) :
    NothingClosed conn (connCallRecvStreamData conn sid fin data).2 := by
  unfold connCallRecvStreamData
  rw [connCall_snd]
  exact .of_tell (.recvStreamData sid fin data) (by simp) rfl

theorem NothingClosed.recvStream0Data (conn : Conn) (data : List UInt8) :
    NothingClosed conn (connCallRecvStream0Data conn data).2 := by
  have hcall : connCallRecvStream0Data conn data = (_, _) := (Prod.eta _).symm
  rw [connCallRecvStream0Data_tell hcall]
  exact .of_tell (.recvStream0Data data) (by simp) rfl

/-- A call that ends no stream and gives back the stream it got. -/
def KeepsStrm (conn : Conn) (strm : Strm) (r : Result Strm) : Prop :=
  NothingClosed conn r.2 ∧ ∀ strm', r.1 = .ok strm' → SameClose strm strm'

theorem KeepsStrm.of_error {e : Err} {conn₁ : Conn} (h : NothingClosed conn conn₁) :
    KeepsStrm conn strm (.error e, conn₁) :=
  ⟨h, by simp⟩

theorem KeepsStrm.of_ok {conn₁ : Conn} {strm₁ : Strm} (h : NothingClosed conn conn₁)
    (hsame : SameClose strm strm₁) : KeepsStrm conn strm (.ok strm₁, conn₁) :=
  ⟨h, fun strm' hs => by
    obtain rfl := Except.ok.inj hs
    exact hsame⟩

theorem KeepsStrm.andThen {x : Result Unit} {f : Unit → Conn → Result Strm}
    (first : NothingClosed conn x.2)
    (second : ∀ conn₁, NothingClosed conn conn₁ → KeepsStrm conn strm (f () conn₁)) :
    KeepsStrm conn strm (x.andThen f) := by
  obtain ⟨r₁, conn₁⟩ := x
  cases r₁ with
  | error e => exact .of_error first
  | ok a => exact second conn₁ first

theorem KeepsStrm.after {conn₁ : Conn} {strm₁ : Strm} {r : Result Strm}
    (hnothing : NothingClosed conn conn₁) (hsame : SameClose strm strm₁)
    (h : KeepsStrm conn₁ strm₁ r) : KeepsStrm conn strm r :=
  ⟨hnothing.trans h.1, fun strm' hs => hsame.trans (h.2 strm' hs)⟩

theorem connEmitPendingStreamData_keepsStrm (fuel : Nat) (conn : Conn) (strm : Strm)
    (rxOffset : Nat) : KeepsStrm conn strm (connEmitPendingStreamData fuel conn strm rxOffset) := by
  induction fuel generalizing conn strm rxOffset with
  | zero => exact .of_error (.of_log rfl)
  | succ fuel ih =>
    unfold connEmitPendingStreamData
    split
    · exact .of_error (.of_log rfl)
    next data _ =>
    split
    · split
      · exact .of_ok (.of_log rfl) {}
      · exact .of_error (.of_log rfl)
    refine .andThen (.recvStreamData ..) fun conn₁ hnothing => ?_
    split
    · exact .of_error hnothing
    next rob _ =>
    have hset : NothingClosed conn (conn₁.setStrm (strm.setRob rob)) :=
      hnothing.trans (.of_log rfl)
    exact .after hset {} (ih _ (strm.setRob rob) _)

theorem connExtendMaxStreamOffset_keepsStrm (conn : Conn) (strm : Strm) (datalen : Nat) :
    NothingClosed conn (connExtendMaxStreamOffset conn strm datalen).2 ∧
      SameClose strm (connExtendMaxStreamOffset conn strm datalen).1 := by
  unfold connExtendMaxStreamOffset
  dsimp only
  split <;> split <;> exact ⟨.of_log rfl, {}⟩

theorem connEmitPendingStream0Data_keepsStrm (fuel : Nat) (conn : Conn) (strm : Strm)
    (rxOffset : Nat) : KeepsStrm conn strm (connEmitPendingStream0Data fuel conn strm rxOffset) := by
  induction fuel generalizing conn strm rxOffset with
  | zero => exact .of_error (.of_log rfl)
  | succ fuel ih =>
    unfold connEmitPendingStream0Data
    split
    · exact .of_error (.of_log rfl)
    next data _ =>
    split
    · split
      · exact .of_ok (.of_log rfl) {}
      · exact .of_error (.of_log rfl)
    refine .andThen (.recvStream0Data ..) fun conn₁ hnothing => ?_
    dsimp only
    obtain ⟨hextend, hsame⟩ := connExtendMaxStreamOffset_keepsStrm conn₁
      (strm.setUnsentMaxRxOffset (strm.unsentMaxRxOffset + data.length)) data.length
    generalize connExtendMaxStreamOffset conn₁
      (strm.setUnsentMaxRxOffset (strm.unsentMaxRxOffset + data.length)) data.length = ext
      at hextend hsame ⊢
    obtain ⟨strm₂, conn₂⟩ := ext
    dsimp only at hextend hsame ⊢
    split
    · exact .of_error (hnothing.trans hextend)
    next rob _ =>
    have hset : NothingClosed conn (conn₂.setStrm (strm₂.setRob rob)) :=
      (hnothing.trans hextend).trans (.of_log rfl)
    have hsame₂ : SameClose strm (strm₂.setRob rob) := ⟨hsame.streamId, hsame.appErrorCode⟩
    exact .after hset hsame₂ (ih _ (strm₂.setRob rob) _)

theorem OwnIff.deliver {conn₁ : Conn} {strm₁ : Strm} (hnothing : NothingClosed conn conn₁)
    (hsame : SameClose strm strm₁) (fr : StreamFrame) (rxOffset : Nat) :
    OwnIff conn strm 0 (connRecvStreamDeliver conn₁ strm₁ fr rxOffset) := by
  unfold connRecvStreamDeliver
  generalize hx : (if fr.offset ≤ rxOffset then _ else _ : Result Strm) = x
  have hkeeps : KeepsStrm conn strm x := by
    rw [← hx]
    split
    · dsimp only
      have hset : ∀ rob, NothingClosed conn (conn₁.setStrm (strm₁.setRob rob)) :=
        fun rob => hnothing.trans (.of_log rfl)
      split
      · refine .andThen ((hset _).trans (.recvStream0Data ..)) fun conn₂ hnothing₂ => ?_
        exact .after hnothing₂ (hsame.trans {}) (connEmitPendingStream0Data_keepsStrm _ _ _ _)
      · refine .andThen ((hset _).trans (.recvStreamData ..)) fun conn₂ hnothing₂ => ?_
        exact .after hnothing₂ (hsame.trans {}) (connEmitPendingStreamData_keepsStrm _ _ _ _)
    · have hset : NothingClosed conn (conn₁.setStrm (strmRecvReordering strm₁ fr)) :=
        hnothing.trans (.of_log rfl)
      exact .of_ok hset (hsame.trans {})
  refine .andThen (fun r₁ conn₂ heq => ?_) fun strm₂ conn₂ heq => ?_
  · rw [heq] at hkeeps
    exact hkeeps.1
  · rw [heq] at hkeeps
    exact .closeIfShut 0 hkeeps.1 (hkeeps.2 strm₂ rfl)

/-- The code that `conn_recv_stream` supplies. -/
def suppliedCode (strm : Strm) : Nat := if strm.stopSending then strm.appErrorCode else 0

/-- The calls that close a stream, and the code that each supplies: a RST_STREAM frame, a
STOP_SENDING frame, the end of the data and an acknowledgement. -/
inductive ClosedBy (conn : Conn) (strm : Strm) : Nat → Result Unit → Prop where
  | rstStream (fr : RstStreamFrame) (find : conn.strms fr.streamId = some strm) :
      ClosedBy conn strm fr.appErrorCode (connRecvRstStream conn fr)
  | stopSending (fr : StopSendingFrame) (find : conn.strms fr.streamId = some strm) :
      ClosedBy conn strm fr.appErrorCode (connRecvStopSending conn fr)
  | stream (fr : StreamFrame) (find : conn.strms fr.streamId = some strm) :
      ClosedBy conn strm (suppliedCode strm) (connRecvStream conn fr)
  | acked (fr : StreamFrame) (find : conn.strms fr.streamId = some strm) :
      ClosedBy conn strm 0 (callAckedStreamOffset [.stream fr] conn)

theorem connRecvRstStream_ownIff {fr : RstStreamFrame} (hfind : conn.strms fr.streamId = some strm) :
    OwnIff conn strm fr.appErrorCode (connRecvRstStream conn fr) := by
  unfold connRecvRstStream
  split
  · exact .of_nothing (.of_log rfl)
  split
  · exact .of_nothing (.of_log rfl)
  dsimp only
  rw [hfind]
  dsimp only
  split
  · exact .of_nothing (.of_log rfl)
  split
  · exact .of_nothing (.of_log rfl)
  split
  · exact .of_nothing (.of_log rfl)
  · exact .closeIfShut _ (.of_log rfl) {}

/-- The frame that answers it is queued first. -/
theorem connRecvStopSending_ownIff {fr : StopSendingFrame}
    (hfind : conn.strms fr.streamId = some strm) :
    OwnIff conn strm fr.appErrorCode (connRecvStopSending conn fr) := by
  unfold connRecvStopSending
  split
  · exact .of_nothing (.of_log rfl)
  split
  · exact .of_nothing (.of_log rfl)
  dsimp only
  rw [hfind]
  exact .closeIfShut _ (.of_tell (.rstQueued strm.streamId) (by simp) rfl) {}

theorem fcUnlink_sameClose (conn : Conn) (strm : Strm) :
    NothingClosed conn (fcUnlink conn strm).2 ∧ SameClose strm (fcUnlink conn strm).1 := by
  unfold fcUnlink
  split <;> exact ⟨.of_log rfl, {}⟩

theorem connRecvStreamFin_ownIff {conn₁ : Conn} (hnothing : NothingClosed conn conn₁)
    (fr : StreamFrame) :
    OwnIff conn strm (suppliedCode strm) (connRecvStreamFin conn₁ strm fr) := by
  unfold connRecvStreamFin
  split
  · split <;> exact .of_nothing hnothing
  split
  · exact .of_nothing hnothing
  dsimp only
  have hset : NothingClosed conn (conn₁.setStrm (strm.setLastRxOffset fr.endOffset).shutdownRd) :=
    hnothing.trans (.of_log rfl)
  split
  · next hstop =>
    have hcode : suppliedCode strm = strm.appErrorCode := if_pos hstop
    rw [hcode]
    exact .closeIfShut _ hset {}
  next hstop =>
  have hcode : suppliedCode strm = 0 := if_neg hstop
  rw [hcode]
  obtain ⟨hunlink, hsame⟩ := fcUnlink_sameClose
    (conn₁.setStrm (strm.setLastRxOffset fr.endOffset).shutdownRd)
    (strm.setLastRxOffset fr.endOffset).shutdownRd
  generalize fcUnlink (conn₁.setStrm (strm.setLastRxOffset fr.endOffset).shutdownRd)
    (strm.setLastRxOffset fr.endOffset).shutdownRd = unlinked at hunlink hsame ⊢
  obtain ⟨strm₂, conn₂⟩ := unlinked
  have hnothing₂ : NothingClosed conn conn₂ := hset.trans hunlink
  have hsame₂ : SameClose strm strm₂ := ⟨hsame.streamId, hsame.appErrorCode⟩
  dsimp only
  split
  · have hrecv := NothingClosed.recvStreamData conn₂ strm₂.streamId true []
    refine .andThen (fun r₁ conn₃ heq => ?_) fun _ conn₃ heq => .closeIfShut 0 ?_ hsame₂
    all_goals
      rw [heq] at hrecv
      exact hnothing₂.trans hrecv
  · exact .deliver hnothing₂ hsame₂ fr _

theorem connRecvStreamNoFin_ownIff {conn₁ : Conn} (hnothing : NothingClosed conn conn₁)
    (fr : StreamFrame) :
    OwnIff conn strm (suppliedCode strm) (connRecvStreamNoFin conn₁ strm fr) := by
  have hset : NothingClosed conn
      (conn₁.setStrm (strm.setLastRxOffset (max strm.lastRxOffset fr.endOffset))) :=
    hnothing.trans (.of_log rfl)
  unfold connRecvStreamNoFin
  split
  · exact .of_nothing hnothing
  dsimp only
  split
  · exact .of_nothing hset
  split
  · exact .of_nothing hset
  next hstop =>
  have hcode : suppliedCode strm = 0 := if_neg hstop
  rw [hcode]
  exact .deliver hset {} fr _

/-- What a STREAM frame supplies depends on whether STOP_SENDING was sent. -/
theorem connRecvStream_ownIff {fr : StreamFrame} (hfind : conn.strms fr.streamId = some strm) :
    OwnIff conn strm (suppliedCode strm) (connRecvStream conn fr) := by
  unfold connRecvStream
  split
  · exact .of_nothing (.of_log rfl)
  have hopen : connFindOrOpenStream conn fr.streamId = (.ok (some strm), conn) := by
    unfold connFindOrOpenStream
    rw [hfind]
  rw [hopen, andThen_ok]
  dsimp only
  have hcharge : ∀ {r₁ conn₁}, connRecvStreamCharge conn strm fr.endOffset = (r₁, conn₁) →
      NothingClosed conn conn₁ := by
    intro r₁ conn₁ h₁
    rcases connRecvStreamCharge_cases h₁ with ⟨rfl, -⟩ | ⟨-, -, -, rfl⟩ <;> exact .of_log rfl
  refine .andThen (fun r₁ conn₁ heq => hcharge heq) fun _ conn₁ heq => ?_
  split
  · exact connRecvStreamFin_ownIff (hcharge heq) fr
  · exact connRecvStreamNoFin_ownIff (hcharge heq) fr

theorem callAckedStreamOffset_ownIff {fr : StreamFrame}
    (hfind : conn.strms fr.streamId = some strm) :
    OwnIff conn strm 0 (callAckedStreamOffset [.stream fr] conn) := by
  unfold callAckedStreamOffset
  rw [hfind]
  dsimp only
  generalize gaptrPush strm.ackedTxOffset fr.offset fr.data.length = gap
  have hset : NothingClosed conn (conn.setStrm (strm.setAckedTxOffset gap)) := .of_log rfl
  split
  · exact .of_nothing hset
  have hcall : ∀ {off len : Nat} {r₁ : Except Err Unit} {conn₁ : Conn},
      connCall (conn.setStrm (strm.setAckedTxOffset gap)) (.ackedStreamDataOffset
        (strm.setAckedTxOffset gap).streamId off len) = (r₁, conn₁) →
      NothingClosed conn conn₁ := fun heq => by
    rw [connCall_tell heq]
    exact hset.trans (.of_tell (.ackedStreamDataOffset _ _ _) (by simp) rfl)
  refine .andThen (fun r₁ conn₁ heq => hcall heq) fun _ conn₁ heq => ?_
  have hsame : SameClose strm (strm.setAckedTxOffset gap) := {}
  have hclose := OwnIff.closeIfShut 0 (hcall heq) hsame
  -- There is no frame left.
  have hnil : ∀ x : Result Unit, x.andThen (fun _ conn => callAckedStreamOffset [] conn) = x := by
    rintro ⟨r, conn₂⟩
    cases r <;> rfl
  rw [hnil]
  exact hclose

theorem ClosedBy.ownIff (h : ClosedBy conn strm code r) : OwnIff conn strm code r := by
  cases h with
  | rstStream fr find => exact connRecvRstStream_ownIff find
  | stopSending fr find => exact connRecvStopSending_ownIff find
  | stream fr find => exact connRecvStream_ownIff find
  | acked fr find => exact callAckedStreamOffset_ownIff find

/-- The close callback gets the code it should get exactly when the two codes are the same,
whoever closes the stream. -/
theorem ngtcp2ConnCloseStream_code (conn : Conn) (strm : Strm) (code : Nat) :
    ((conn.strms strm.streamId).isSome = true →
      (TellsCode conn strm.streamId (ownCode strm code) (ngtcp2ConnCloseStream conn strm code) ↔
        code = strm.appErrorCode)) ∧
      ∀ r, ClosedBy conn strm code r → (∃ c, TellsCode conn strm.streamId c r) →
        (TellsCode conn strm.streamId (ownCode strm code) r ↔ code = strm.appErrorCode) :=
  ⟨fun hfind => (ngtcp2ConnCloseStream_tells code hfind).own_iff, fun _ h htells => h.ownIff htells⟩

end

/-- A server that has received one byte, and then does or receives something. -/
def withByte (ops : List Op) : Conn :=
  runOps smallServer (.recvFrame false (.stream ⟨4, 0, [1], false⟩) :: ops)

/-- The peer stops the stream and resets it. -/
def stoppedByPeer : Conn := withByte [.recvFrame false (.stopSending ⟨4, 7⟩)]

/-- The application shuts the stream down. -/
def shutWithCode : Conn := withByte [.shutdownStream 4 5]

theorem tellsCode_last {conn : Conn} {id code : Nat} {r : Result Unit}
    (hlog : r.2.log = conn.log ++ [.streamClose id code]) : TellsCode conn id code r :=
  ⟨[], by simp, by rw [List.append_nil, hlog]⟩

/-- With different codes, the one of the peer is lost, and so is the one of the application. -/
theorem ngtcp2ConnCloseStream_code_lost :
    (Reachable stoppedByPeer ∧ ∃ strm, stoppedByPeer.strms 4 = some strm ∧ strm.streamId = 4 ∧
      ownCode strm 7 = 7 ∧ TellsCode stoppedByPeer 4 0 (connRecvRstStream stoppedByPeer ⟨4, 7, 1⟩) ∧
      ¬TellsCode stoppedByPeer 4 7 (connRecvRstStream stoppedByPeer ⟨4, 7, 1⟩)) ∧
    Reachable shutWithCode ∧ ∃ strm, shutWithCode.strms 4 = some strm ∧ strm.streamId = 4 ∧
      ownCode strm 9 = 5 ∧ TellsCode shutWithCode 4 9 (connRecvRstStream shutWithCode ⟨4, 9, 1⟩) ∧
      ¬TellsCode shutWithCode 4 5 (connRecvRstStream shutWithCode ⟨4, 9, 1⟩) := by
  have hpeer : TellsCode stoppedByPeer 4 0 (connRecvRstStream stoppedByPeer ⟨4, 7, 1⟩) :=
    tellsCode_last rfl
  have happ : TellsCode shutWithCode 4 9 (connRecvRstStream shutWithCode ⟨4, 9, 1⟩) :=
    tellsCode_last rfl
  refine ⟨⟨?_, _, rfl, rfl, rfl, hpeer, fun h => ?_⟩, ?_, _, rfl, rfl, rfl, happ, fun h => ?_⟩
  · exact smallServer_reachable.runOps _ (by decide)
  · exact absurd (h.unique hpeer) (by decide)
  · exact smallServer_reachable.runOps _ (by decide)
  · exact absurd (h.unique happ) (by decide)

/-- The peer resets the stream with the code with which the application has shut it down. -/
theorem ngtcp2ConnCloseStream_code_same :
    ∃ strm, shutWithCode.strms 4 = some strm ∧
      TellsCode shutWithCode 4 5 (connRecvRstStream shutWithCode ⟨4, 5, 1⟩) :=
  ⟨_, rfl, ((ngtcp2ConnCloseStream_code shutWithCode _ 5).2 _ (.rstStream ⟨4, 5, 1⟩ rfl)
    ⟨5, tellsCode_last rfl⟩).mpr rfl⟩

end Ngtcp2
