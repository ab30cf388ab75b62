import Polygon.StreamHoldings

/-!
# FIN frames in any order

A frame with FIN on a stream whose end is known is taken for a repetition, whatever bytes it
carries. The other accepted frames lose none.
-/
namespace Ngtcp2

open Ranges

section
variable {conn conn₁ conn' : Conn} {strm strm' : Strm}

/-! ## Stream 0 -/

/-- The application refused bytes of the handshake. -/
def Err.isTls : Err → Bool
  | .tlsHandshake | .tlsFatalAlertGenerated | .tlsFatalAlertReceived => true
  | _ => false

/-- The step reports no failure of the handshake, and comes after none. -/
def Op.holdsHandshake (conn : Conn) (op : Op) : Prop :=
  (∀ e, (op.run conn).1 = .error e → e.isTls = false) ∧
    ∀ type handshakeFailed fr, op = .recvHandshakeFrame type handshakeFailed fr →
      handshakeFailed = false ∧ (connRecvHandshakeFrame type handshakeFailed conn fr).1 ≠ .ok true

/-- The bytes of stream 0 that the application has after the step, if it had `given` before. -/
def stream0GivenBy (conn : Conn) (given : List UInt8) (op : Op) : List UInt8 :=
  if op.completesRetry conn then []
  else given ++ stream0Data ((op.run conn).2.log.drop conn.log.length)

/-- The bytes of stream 0 that the application has after some steps; a Retry packet starts the
stream again. -/
def stream0Given : Conn → List UInt8 → List Op → List UInt8
  | _, given, [] => given
  | conn, given, op :: ops => stream0Given (op.run conn).2 (stream0GivenBy conn given op) ops

/-- What arrived of stream 0 is in `given` up to the first gap, and stored behind it. -/
structure Holding0 (given : List UInt8) (strm0 : Strm) : Prop where
  streamId : strm0.streamId = 0
  shutRd : strm0.shutRd = false
  stopSending : strm0.stopSending = false
  rob : ∃ w, RobUpTo stream0Top w (strmRxOffset strm0) strm0.rob
  given : given.length = strmRxOffset strm0

theorem stream0Given_snoc (conn : Conn) (given : List UInt8) (ops : List Op) (op : Op) :
    stream0Given conn given (ops ++ [op]) =
      stream0GivenBy (runOps conn ops) (stream0Given conn given ops) op := by
  induction ops generalizing conn given with
  | nil => rfl
  | cons op' ops ih => exact ih _ _

theorem connCallRecvStream0Data_error {data : List UInt8} {e : Err}
    (h : connCallRecvStream0Data conn data = (.error e, conn')) :
    e.isFatal = true ∨ e.isTls = true := by
  unfold connCallRecvStream0Data at h
  dsimp only at h
  split at h
  · cases h
  · obtain rfl := Except.error.inj (Prod.mk.inj h).1
    exact .inr rfl
  · obtain rfl := Except.error.inj (Prod.mk.inj h).1
    exact .inr rfl
  · obtain rfl := Except.error.inj (Prod.mk.inj h).1
    exact .inr rfl
  · obtain rfl := Except.error.inj (Prod.mk.inj h).1
    exact .inl rfl

theorem connEmitPendingStream0Data_error (fuel : Nat) {rx : Nat} {e : Err}
    (h : connEmitPendingStream0Data fuel conn strm rx = (.error e, conn')) :
    e.isFatal = true ∨ e.isTls = true := by
  have habort : ∀ {c : Conn}, ((.error .abort, c) : Result Strm) = (.error e, conn') →
      e.isFatal = true ∨ e.isTls = true := by
    intro c heq
    obtain rfl := Except.error.inj (Prod.mk.inj heq).1
    exact .inl rfl
  induction fuel generalizing conn strm rx with
  | zero => exact habort h
  | succ fuel ih =>
    unfold connEmitPendingStream0Data at h
    split at h
    · exact habort h
    split at h
    · split at h
      · cases h
      · exact habort h
    rcases andThen_cases h with ⟨e', hcall, he⟩ | ⟨_, conn₁, -, h⟩
    · obtain rfl := Except.error.inj he
      exact connCallRecvStream0Data_error hcall
    · dsimp only at h
      split at h
      · exact habort h
      · exact ih h

theorem Holding0.quiet {given : List UInt8} {strm0 strm0' : Strm} (h : Holding0 given strm0)
    (hsame : SameRx0 strm0 strm0') : Holding0 given strm0' := by
  have hrx : strmRxOffset strm0' = strmRxOffset strm0 := by
    rw [strmRxOffset, strmRxOffset, hsame.rob]
  constructor
  · exact hsame.streamId.trans h.streamId
  · exact hsame.shutRd.trans h.shutRd
  · exact hsame.stopSending.trans h.stopSending
  · rw [hrx, hsame.rob]
    exact h.rob
  · exact h.given.trans hrx.symm

theorem Holding0.took {given : List UInt8} {strm0 strm0' : Strm} {base : Nat} {w : Nat → UInt8}
    {fr : StreamFrame} {evs : List Event} (h : Holding0 given strm0)
    (htook : Took0 stream0Top w base fr strm0 strm0' evs) :
    Holding0 (given ++ stream0Data evs) strm0' := by
  constructor
  · exact htook.streamId.trans h.streamId
  · exact htook.shutRd.trans h.shutRd
  · exact htook.stopSending.trans h.stopSending
  · exact ⟨w, htook.rob⟩
  · have hadvance := htook.advance
    rw [List.length_append, h.given, htook.data, slice_length]
    omega

/-- The content of stream 0 after the frame. -/
theorem overwrite_writes0 (w : Nat → UInt8) {strm0 : Strm} (fr : StreamFrame)
    (hopen : strm0.shutRd = false) (hgoes : strm0.stopSending = false) :
    Writes0 w (overwrite w strm0 fr) strm0 fr := by
  have hw := overwrite_writes w strm0 fr
  have hdrop : frameDropped strm0 fr = false := by
    unfold frameDropped
    rw [hopen, hgoes, Bool.and_false]
    rfl
  constructor
  · exact hw.new hdrop
  · exact fun n hn => hw.old n (.inr (.inr hn))

/-- A stream 0 that is not read on, or that took a frame. -/
def Holds0 (fr : StreamFrame) (strm0 : Strm) (conn conn' : Conn) : Prop :=
  ∃ strm0' evs, conn'.strms 0 = some strm0' ∧ conn'.log = conn.log ++ evs ∧
    (SameRx0 strm0 strm0' ∧ stream0Data evs = [] ∨
      ∃ base w, Took0 stream0Top w base fr strm0 strm0' evs)

theorem pushFrame_holds0 {given : List UInt8} {strm0 : Strm} {fr : StreamFrame}
    (h : Holding0 given strm0) (hwire : fr.WireRange) (hout : strmRxOffset strm0 < fr.offset)
    (hfind : conn'.strms 0 = some (pushFrame strm0 fr)) (hlog : conn'.log = conn.log) :
    Holds0 fr strm0 conn conn' := by
  obtain ⟨w, hrob⟩ := h.rob
  have hw := overwrite_writes0 w fr h.shutRd h.stopSending
  refine ⟨_, [], hfind, hlog.trans (List.append_nil _).symm, .inr ⟨0, overwrite w strm0 fr, ?_⟩⟩
  exact .buffered hrob hw hout hwire.le_top rfl rfl rfl rfl rfl

theorem connRecvStream_holds0 {given : List UInt8} {strm0 : Strm} {fr : StreamFrame}
    {r : Except Err Unit} (h : Holding0 given strm0) (h0 : conn.strms 0 = some strm0)
    (hwire : fr.WireRange) (hfr : fr.streamId = 0) (hrun : connRecvStream conn fr = (r, conn'))
    (hr : ∀ e, r = .error e → e.isFatal = false ∧ e.isTls = false) :
    Holds0 fr strm0 conn conn' := by
  obtain ⟨w, hrob⟩ := h.rob
  have hw := overwrite_writes0 w fr h.shutRd h.stopSending
  cases r with
  | ok _ =>
    obtain ⟨strm0', evs, hfind, hlog, htook⟩ := connRecvStream_took0 h0 h.streamId h.shutRd
      h.stopSending hrob hw hwire.le_top hfr hrun
    exact ⟨strm0', evs, hfind, hlog, .inr ⟨0, _, htook⟩⟩
  | error e =>
    obtain ⟨hfatal, htls⟩ := hr e rfl
    rcases connRecvStream_cases0 h0 h.streamId h.shutRd h.stopSending hfr hrun with
      ⟨⟨⟨strm0', hfind, hsame, -⟩, evs, hlog, hevs⟩, -⟩ | ⟨hout, hfind, hlog⟩ |
      ⟨-, hlt, -, -, hrun⟩
    · exact ⟨strm0', evs, hfind, hlog, .inl ⟨hsame, hevs⟩⟩
    · exact pushFrame_holds0 h hwire hout hfind hlog
    · exfalso
      have hfails : e.isFatal = true ∨ e.isTls = true := by
        rcases andThen_cases hrun with ⟨e', hdeliver, he⟩ | ⟨strm₁, conn₁, hdeliver, hclose⟩
        · obtain rfl := Except.error.inj he
          rcases andThen_cases hdeliver with ⟨e', hcall, he⟩ | ⟨_, conn₁, -, hemit⟩
          · obtain rfl := Except.error.inj he
            exact connCallRecvStream0Data_error hcall
          · exact connEmitPendingStream0Data_error _ hemit
        · -- Stream 0 is open, so it is not closed behind a delivery.
          rcases andThen_cases hdeliver with ⟨e', -, he⟩ | ⟨_, conn₂, hcall, hemit⟩
          · cases he
          have hcut : RobUpTo stream0Top _ fr.endOffset (cutFrame strm0 fr).rob :=
            hrob.cut hw (Nat.le_of_lt hlt) hwire.le_top
          have hfind₂ : conn₂.strms (cutFrame strm0 fr).streamId = some (cutFrame strm0 fr) := by
            rw [connCallRecvStream0Data_tell hcall]
            exact setStrm_find _ _
          obtain ⟨-, evs, -, hem⟩ :=
            connEmitPendingStream0Data_spec _ hcut hfind₂ h.streamId hemit
          cases (hem.close h.shutRd hclose).1
      rcases hfails with hf | ht
      · exact Bool.false_ne_true (hfatal.symm.trans hf)
      · exact Bool.false_ne_true (htls.symm.trans ht)

theorem connRecvHandshakeStream_holds0 {given : List UInt8} {strm0 : Strm} {fr : StreamFrame}
    {type : PktType} {r : Except Err Bool} (h : Holding0 given strm0)
    (h0 : conn.strms 0 = some strm0) (hwire : fr.WireRange) (hfr : fr.streamId = 0)
    (hrun : connRecvHandshakeStream conn type false fr = (r, conn')) (hfails : r ≠ .ok true)
    (hr : ∀ e, r = .error e → e.isFatal = false ∧ e.isTls = false) :
    Holds0 fr strm0 conn conn' := by
  obtain ⟨w, hrob⟩ := h.rob
  have hw := overwrite_writes0 w fr h.shutRd h.stopSending
  cases r with
  | ok failed =>
    cases failed with
    | true => exact absurd rfl hfails
    | false =>
      obtain ⟨strm0', evs, hfind, hlog, htook⟩ :=
        connRecvHandshakeStream_took0 h0 h.streamId hrob hw hwire.le_top hfr hrun
      exact ⟨strm0', evs, hfind, hlog, .inr ⟨_, _, htook⟩⟩
  | error e =>
    obtain ⟨hfatal, htls⟩ := hr e rfl
    rcases connRecvHandshakeStream_cases h0 h.streamId hfr hrun with
      ⟨⟨⟨strm0', hfind, hsame, -⟩, evs, hlog, hevs⟩, -⟩ | ⟨hout, hfind, hlog⟩ | ⟨-, -, -, hrun⟩
    · exact ⟨strm0', evs, hfind, hlog, .inl ⟨hsame, hevs⟩⟩
    · exact pushFrame_holds0 h hwire hout hfind hlog
    · exfalso
      have hfails : e.isFatal = true ∨ e.isTls = true := by
        unfold handshakeDeliver at hrun
        generalize hcall : connCallRecvStream0Data (conn.setStrm (cutFrame strm0 fr))
          (newBytes strm0 fr) = y at hrun
        obtain ⟨res, conn₁⟩ := y
        dsimp only at hrun
        split at hrun
        · cases hrun
        · obtain ⟨he, -⟩ := Prod.mk.inj hrun
          obtain rfl := Except.error.inj he
          exact connCallRecvStream0Data_error hcall
        · rw [if_neg Bool.false_ne_true] at hrun
          rcases andThen_cases hrun with ⟨e', hemit, he⟩ | ⟨_, conn₂, -, heq⟩
          · obtain rfl := Except.error.inj he
            exact connEmitPendingStream0Data_error _ hemit
          · cases heq
      rcases hfails with hf | ht
      · exact Bool.false_ne_true (hfatal.symm.trans hf)
      · exact Bool.false_ne_true (htls.symm.trans ht)

theorem Holding0.kept {given : List UInt8} {strm0 : Strm} {op : Op} (fr : StreamFrame)
    (h : Holding0 given strm0) (hretry : op.completesRetry conn = false)
    (hconn : (op.run conn).2 = conn') (hholds : Holds0 fr strm0 conn conn') :
    ∃ strm0', conn'.strms 0 = some strm0' ∧ Holding0 (stream0GivenBy conn given op) strm0' := by
  obtain ⟨strm0', evs, hfind, hlog, hcase⟩ := hholds
  have hgiven : stream0GivenBy conn given op = given ++ stream0Data evs := by
    unfold stream0GivenBy
    rw [hretry, if_neg Bool.false_ne_true, hconn, hlog, List.drop_left]
  refine ⟨strm0', hfind, ?_⟩
  rw [hgiven]
  rcases hcase with ⟨hsame, hevs⟩ | ⟨base, w, htook⟩
  · rw [hevs, List.append_nil]
    exact h.quiet hsame
  · exact h.took htook

/-- One step of a connection whose handshake holds. -/
theorem Step.holding0 {ops : List Op} {op : Op} {given : List UInt8} {strm0 : Strm}
    (hreach : Reachable conn) (hstep : Step ops conn op conn') (hsized : op.Sized)
    (hholds : op.holdsHandshake conn) (h0 : conn.strms 0 = some strm0) (h : Holding0 given strm0) :
    ∃ strm0', conn'.strms 0 = some strm0' ∧ Holding0 (stream0GivenBy conn given op) strm0' := by
  cases hretry : op.completesRetry conn with
  | true =>
    refine ⟨_, hstep.restarted hretry, ?_⟩
    unfold stream0GivenBy
    rw [hretry, if_pos rfl]
    exact ⟨rfl, rfl, rfl, ⟨fun _ => 0, robInit_upTo (by decide) _ _ _ (by decide)⟩, rfl⟩
  | false =>
    have hkept := hstep
    obtain ⟨rv, hrun, hs⟩ := hstep
    have hconn : (op.run conn).2 = conn' := congrArg Prod.snd hrun
    have hrv : ∀ e, rv = .error e → e.isFatal = false ∧ e.isTls = false := by
      rintro e rfl
      refine ⟨?_, hholds.1 e (congrArg Prod.fst hrun)⟩
      simpa [survives] using hs
    cases hframe : op.stream0Frame with
    | none =>
      obtain ⟨⟨strm0', hfind, hsame, -⟩, evs, hlog, hevs⟩ :=
        Step.quiet0 hreach.wellFormed hreach.strmsUsed h0 h.shutRd hkept hretry hframe
      exact h.kept ⟨0, 0, [], false⟩ hretry hconn
        ⟨strm0', evs, hfind, hlog, .inl ⟨hsame, hevs⟩⟩
    | some fr =>
      have hstream : ∀ {fr' : StreamFrame}, (if fr'.streamId = 0 then some fr' else none) =
          some fr → fr' = fr ∧ fr.streamId = 0 := by
        intro fr' heq
        split at heq
        · next hid =>
          obtain rfl := Option.some.inj heq
          exact ⟨rfl, hid⟩
        · cases heq
      apply h.kept fr hretry hconn
      cases op with
      | recvFrame longForm fr' =>
        cases fr' with
        | stream fr' =>
          obtain ⟨rfl, hid⟩ := hstream hframe
          have hrun : (if fr'.streamId = 0 ∧ longForm then (.error .proto, conn)
            else connRecvStream conn fr') = (rv, conn') := hrun
          split at hrun
          · obtain ⟨-, rfl⟩ := Prod.mk.inj hrun
            exact ⟨strm0, [], h0, (List.append_nil _).symm, .inl ⟨by constructor <;> rfl, rfl⟩⟩
          · exact connRecvStream_holds0 h h0 hsized hid hrun hrv
        | _ => cases hframe
      | recvDelayedHandshakeFrame type fr' =>
        cases fr' with
        | stream fr' =>
          obtain ⟨rfl, hid⟩ := hstream hframe
          exact connRecvStream_holds0 h h0 hsized hid hrun hrv
        | _ => cases hframe
      | recvHandshakeFrame type failed fr' =>
        cases fr' with
        | stream fr' =>
          obtain ⟨rfl, hid⟩ := hstream hframe
          obtain ⟨rfl, hnot⟩ := hholds.2 type failed _ rfl
          obtain ⟨y, hy, hve⟩ := void_cases hrun
          have hy : connRecvHandshakeStream conn type false fr' = (y, conn') := hy
          have hnot : (connRecvHandshakeStream conn type false fr').1 ≠ .ok true := hnot
          rw [hy] at hnot
          refine connRecvHandshakeStream_holds0 h h0 hsized hid hy hnot fun e he => ?_
          exact hrv e ((hve e).mpr he)
        | _ => cases hframe
      | _ => cases hframe

/-! ## Accepted frames -/

/-- The bytes of the stream that the application has when a call behind the steps `ops` ends in
`conn'`. -/
def givenAfter (conn₀ : Conn) (ops : List Op) (conn' : Conn) (id : Nat) : List UInt8 :=
  if id = 0 then
    stream0Given conn₀ [] ops ++ stream0Data (conn'.log.drop (runOps conn₀ ops).log.length)
  else deliveredData id conn'.log

/-- At offset `n` of the stream the byte `b` was delivered, or is stored in the reorder buffer. -/
def HasByte (given : List UInt8) (conn : Conn) (id n : Nat) (b : UInt8) : Prop :=
  given[n]? = some b ∨
    ∃ strm, conn.strms id = some strm ∧ ¬InGap strm.rob.gap n ∧
      Stored strm.rob.chunk strm.rob.data n b

/-- The connection has each byte of the frame, with the frame's value where none was received
before. -/
def KeepsFrame (given : List UInt8) (strm : Strm) (conn' : Conn) (fr : StreamFrame) : Prop :=
  ∀ i (hi : i < fr.data.length), ∃ b, HasByte given conn' fr.streamId (fr.offset + i) b ∧
    (InGap strm.rob.gap (fr.offset + i) → b = fr.data[i])

/-- What the frame does to the bytes that were delivered and to the buffer. -/
structure Outcome (top : Nat) (w : Nat → UInt8) (given : List UInt8) (fr : StreamFrame)
    (strm strm' : Strm) : Prop where
  given : ∃ before : List UInt8, before.length = strmRxOffset strm ∧
    given = before ++ slice w (strmRxOffset strm) (strmRxOffset strm')
  before : ∃ w₀, RobUpTo top w₀ (strmRxOffset strm) strm.rob
  rob : RobUpTo top w (strmRxOffset strm') strm'.rob
  end_le : fr.endOffset ≤ top
  gap : ∀ n, InGap strm'.rob.gap n ↔
    InGap strm.rob.gap n ∧ ¬(frameDropped strm fr = false ∧ fr.offset ≤ n ∧ n < fr.endOffset)
  value : frameDropped strm fr = false → ∀ i (hi : i < fr.data.length),
    InGap strm.rob.gap (fr.offset + i) → w (fr.offset + i) = fr.data[i]

section
variable {top : Nat} {w : Nat → UInt8} {given : List UInt8} {fr : StreamFrame}

theorem Outcome.le_gap (h : Outcome top w given fr strm strm') {n : Nat}
    (hgap : InGap strm.rob.gap n) : strmRxOffset strm ≤ n := by
  obtain ⟨w₀, hbefore⟩ := h.before
  exact hbefore.gaps.firstGap_le hgap

theorem Outcome.rx_le (h : Outcome top w given fr strm strm') :
    strmRxOffset strm ≤ strmRxOffset strm' :=
  h.le_gap ((h.gap _).mp h.rob.inGap_firstGap).1

theorem Outcome.given_length (h : Outcome top w given fr strm strm') :
    given.length = strmRxOffset strm' := by
  obtain ⟨before, hlen, rfl⟩ := h.given
  rw [List.length_append, slice_length, hlen]
  exact Nat.add_sub_cancel' h.rx_le

/-- The bytes behind those delivered before are those of the content. -/
theorem Outcome.given_get (h : Outcome top w given fr strm strm') {n : Nat}
    (hle : strmRxOffset strm ≤ n) (hlt : n < strmRxOffset strm') : given[n]? = some (w n) := by
  obtain ⟨before, hlen, rfl⟩ := h.given
  rw [List.getElem?_append_right (hlen ▸ hle), hlen]
  have hget : strmRxOffset strm + (n - strmRxOffset strm) = n := Nat.add_sub_cancel' hle
  have hin : n - strmRxOffset strm < strmRxOffset strm' - strmRxOffset strm := by omega
  simp [slice, hin, hget]

/-- A byte that is missing in the buffer was not delivered. -/
theorem Outcome.not_hasByte (h : Outcome top w given fr strm strm') {id n : Nat} {b : UInt8}
    (hfind : ∀ s, conn'.strms id = some s → s = strm') (hgap : InGap strm'.rob.gap n) :
    ¬HasByte given conn' id n b := by
  rintro (hget | ⟨s, hs, hnot, -⟩)
  · obtain ⟨hlt, -⟩ := List.getElem?_eq_some_iff.mp hget
    rw [h.given_length] at hlt
    exact h.rob.not_inGap_of_lt hlt hgap
  · rw [hfind s hs] at hnot
    exact hnot hgap

/-- A byte that is not missing in the buffer was delivered or is stored. -/
theorem Outcome.hasByte (h : Outcome top w given fr strm strm') (id : Nat) {n : Nat}
    (hfind : conn'.strms id = some strm' ∨ n < strmRxOffset strm') (hlt : n < top)
    (hgap : ¬InGap strm'.rob.gap n) :
    ∃ b, HasByte given conn' id n b ∧ (InGap strm.rob.gap n → b = w n) := by
  by_cases hrx : n < strmRxOffset strm'
  · have hin : n < given.length := h.given_length ▸ hrx
    refine ⟨given[n], .inl (List.getElem?_eq_getElem hin), fun hold => ?_⟩
    have hget := h.given_get (h.le_gap hold) hrx
    rw [List.getElem?_eq_getElem hin] at hget
    exact Option.some.inj hget
  · have hstored := h.rob.stored n (Nat.le_of_not_lt hrx) hlt hgap
    exact ⟨w n, .inr ⟨strm', hfind.resolve_right hrx, hgap, hstored⟩, fun _ => rfl⟩

/-- The frame is kept unless it is dropped with a byte that was missing. -/
theorem Outcome.keepsFrame_iff (h : Outcome top w given fr strm strm')
    (hfind : conn'.strms fr.streamId = some strm' ∨
      conn'.strms fr.streamId = none ∧ fr.endOffset ≤ strmRxOffset strm') :
    KeepsFrame given strm conn' fr ↔
      (frameDropped strm fr = true →
        ∀ n, fr.offset ≤ n → n < fr.endOffset → ¬InGap strm.rob.gap n) := by
  constructor
  · intro hkeeps hdropped n hle hlt hgap
    have hi : n - fr.offset < fr.data.length := by
      unfold StreamFrame.endOffset at hlt
      omega
    obtain ⟨b, hb, -⟩ := hkeeps (n - fr.offset) hi
    rw [Nat.add_sub_cancel' hle] at hb
    have hmissing : InGap strm'.rob.gap n :=
      (h.gap n).mpr ⟨hgap, fun hc => by simp [hdropped] at hc⟩
    refine h.not_hasByte (fun s hs => ?_) hmissing hb
    rcases hfind with hfind | ⟨hnone, -⟩
    · exact Option.some.inj (hs.symm.trans hfind)
    · rw [hnone] at hs
      cases hs
  · intro hcond i hi
    have hlt : fr.offset + i < fr.endOffset := Nat.add_lt_add_left hi _
    have hfilled : ¬InGap strm'.rob.gap (fr.offset + i) := by
      intro hgap
      obtain ⟨hold, hnot⟩ := (h.gap _).mp hgap
      cases hdropped : frameDropped strm fr with
      | true => exact hcond hdropped _ (Nat.le_add_right _ _) hlt hold
      | false => exact hnot ⟨hdropped, Nat.le_add_right _ _, hlt⟩
    obtain ⟨b, hb, hw⟩ := h.hasByte fr.streamId
      (hfind.imp_right fun hclosed => Nat.lt_of_lt_of_le hlt hclosed.2)
      (Nat.lt_of_lt_of_le hlt h.end_le) hfilled
    refine ⟨b, hb, fun hold => ?_⟩
    rw [hw hold]
    cases hdropped : frameDropped strm fr with
    | true => exact absurd hold (hcond hdropped _ (Nat.le_add_right _ _) hlt)
    | false => exact h.value hdropped i hi hold

/-- An accepted frame of a stream of the application. -/
theorem connRecvStream_outcome (hc : Collects conn) (hid : fr.streamId ≠ 0)
    (hfound : connFindOrOpenStream conn fr.streamId = (.ok (some strm), conn₁))
    (hrst : strm.recvRst = false) (hok : connRecvStream conn fr = (.ok (), conn')) :
    ∃ w strm', Outcome maxVarint w (deliveredData fr.streamId conn'.log) fr strm strm' ∧
      (conn'.strms fr.streamId = some strm' ∨
        conn'.strms fr.streamId = none ∧ fr.endOffset ≤ strmRxOffset strm') := by
  cases connRecvStream_taken hc hid hok (not_fatal_ok _) with
  | aside _ _ refused => exact absurd hfound (refused rfl strm conn₁)
  | taken conn₂ strm₂ strm' w rxOffset fcStrms evs found _ _ holding streamId _ received writes _
      _ _ _ _ ends =>
    obtain ⟨hsome, rfl⟩ := Prod.mk.inj (found.symm.trans hfound)
    obtain rfl := Option.some.inj (Except.ok.inj hsome)
    obtain ⟨w₀, hw⟩ := writes
    obtain ⟨w₁, hrx⟩ := holding.rx
    have hsid : strm'.streamId = fr.streamId := by
      rw [received.same]
      exact streamId
    have hlast : strm'.lastRxOffset = max strm₂.lastRxOffset fr.endOffset := by rw [received.same]
    have hend : fr.endOffset ≤ strm'.lastRxOffset := hlast ▸ Nat.le_max_right _ _
    refine ⟨w, strm', ⟨?_, ⟨w₁, hrx.rob⟩, received.rx.rob, ?_, received.gap, ?_⟩, ?_⟩
    · have hdata : deliveredData fr.streamId conn'.log =
          deliveredData fr.streamId (conn₂.log ++ evs) := by
        rcases ends with rfl | ⟨-, hclosed⟩
        · rfl
        · obtain ⟨code, hlog⟩ := hclosed.log
          rw [hlog]
          exact deliveredData_quiet fun ev hev => List.mem_singleton.mp hev ▸ rfl
      refine ⟨deliveredData fr.streamId conn₂.log, streamId ▸ holding.delivered, ?_⟩
      rw [hdata, deliveredData_append, ← streamId, received.told.data_eq]
    · exact Nat.le_trans hend received.rx.last_le
    · intro hdropped i hi hgap
      have hle : strmRxOffset strm₂ ≤ fr.offset + i := hrx.rob.gaps.firstGap_le hgap
      exact hw.new hdropped i hi hle (.inr hgap)
    · rcases ends with rfl | ⟨hshut, hclosed⟩
      · exact .inl (hsid ▸ setStrm_find _ strm')
      · refine .inr ⟨?_, ?_⟩
        · rw [hclosed.strms]
          exact if_pos rfl
        · -- A stream that was not reset is closed when all of it was delivered.
          have hrst' : strm'.recvRst = false := by
            rw [received.same]
            exact hrst
          unfold strmShutRdwr at hshut
          rw [hrst', Bool.false_or] at hshut
          simp only [Bool.and_eq_true, beq_iff_eq] at hshut
          exact Nat.le_trans hend (Nat.le_of_eq hshut.1.2.symm)

/-- An accepted frame of stream 0. -/
theorem connRecvStream_outcome0 {given : List UInt8} {strm0 : Strm} (h : Holding0 given strm0)
    (h0 : conn.strms 0 = some strm0) (hwire : fr.WireRange) (hid : fr.streamId = 0)
    (hok : connRecvStream conn fr = (.ok (), conn')) :
    ∃ w strm', Outcome stream0Top w (given ++ stream0Data (conn'.log.drop conn.log.length)) fr
      strm0 strm' ∧ conn'.strms 0 = some strm' := by
  obtain ⟨w, hrob⟩ := h.rob
  have hw := overwrite_writes0 w fr h.shutRd h.stopSending
  have hkeep : frameDropped strm0 fr = false := by
    unfold frameDropped
    rw [h.shutRd, h.stopSending, Bool.and_false]
    rfl
  obtain ⟨strm', evs, hfind, hlog, htook⟩ := connRecvStream_took0 h0 h.streamId h.shutRd
    h.stopSending hrob hw hwire.le_top hid hok
  refine ⟨_, strm', ⟨?_, ⟨w, hrob⟩, htook.rob, hwire.le_top, fun n => ?_, ?_⟩, hfind⟩
  · refine ⟨given, h.given, ?_⟩
    rw [hlog, List.drop_left, htook.data]
  · rw [htook.gap, hkeep]
    simp
  · intro _ i hi hgap
    have hle : strmRxOffset strm0 ≤ fr.offset + i := hrob.gaps.firstGap_le hgap
    exact hw.new i hi hle (.inr hgap)

end

/-! ## Runs -/

variable {conn₀ : Conn} {ops : List Op}

theorem holding0_of_run (init : Initial conn₀)
    (hrun : Runs.Run (Runs.Guarded Step fun _ conn op => op.Sized ∧ op.holdsHandshake conn)
      conn₀ ops conn) :
    runOps conn₀ ops = conn ∧
      ∃ strm0, conn.strms 0 = some strm0 ∧ Holding0 (stream0Given conn₀ [] ops) strm0 := by
  have hstart : ∃ strm0, conn₀.strms 0 = some strm0 ∧ Holding0 [] strm0 := by
    cases init <;>
      exact ⟨_, rfl, rfl, rfl, rfl, ⟨fun _ => 0, robInit_upTo (by decide) _ _ _ (by decide)⟩, rfl⟩
  refine (hrun.invariant (fun ops conn => Reachable conn ∧ runOps conn₀ ops = conn ∧
    ∃ strm0, conn.strms 0 = some strm0 ∧ Holding0 (stream0Given conn₀ [] ops) strm0)
    ⟨init.reachable, rfl, hstart⟩ ?_).2
  rintro ops conn₁ op conn₂ ⟨hreach, rfl, strm0, h0, h⟩ ⟨hstep, hsized, hholds⟩
  refine ⟨hreach.step hstep, ?_, ?_⟩
  · obtain ⟨rv, hop, -⟩ := hstep
    rw [runOps, List.foldl_append]
    exact congrArg Prod.snd hop
  · rw [stream0Given_snoc]
    exact hstep.holding0 hreach hsized hholds h0 h

/-- A frame that was accepted is kept, but for FIN frames of a stream whose end is known that
bring bytes which were not received before. -/
theorem connRecvStream_keepsFrame_iff {fr : StreamFrame} (init : Initial conn₀)
    (hrun : Runs.Run (Runs.Guarded Step fun _ _ op => op.Sized) conn₀ ops conn)
    (hholds : fr.streamId = 0 → Runs.Run
      (Runs.Guarded Step fun _ conn op => op.Sized ∧ op.holdsHandshake conn) conn₀ ops conn)
    (hwire : fr.WireRange)
    (hfound : connFindOrOpenStream conn fr.streamId = (.ok (some strm), conn₁))
    (hrst : strm.recvRst = false) (hstop : strm.stopSending = false)
    (hok : connRecvStream conn fr = (.ok (), conn')) :
    KeepsFrame (givenAfter conn₀ ops conn' fr.streamId) strm conn' fr ↔
      (fr.fin = true → strm.shutRd = true →
        ∀ n, fr.offset ≤ n → n < fr.endOffset → ¬InGap strm.rob.gap n) := by
  have hdropped : frameDropped strm fr = true ↔ fr.fin = true ∧ strm.shutRd = true := by
    unfold frameDropped
    rw [hstop, Bool.false_or, Bool.and_eq_true]
  have hiff : KeepsFrame (givenAfter conn₀ ops conn' fr.streamId) strm conn' fr ↔
      (frameDropped strm fr = true →
        ∀ n, fr.offset ≤ n → n < fr.endOffset → ¬InGap strm.rob.gap n) := by
    unfold givenAfter
    by_cases hid : fr.streamId = 0
    · obtain ⟨rfl, strm0, h0, h⟩ := holding0_of_run init (hholds hid)
      have hsome := hfound
      rw [hid, connFindOrOpenStream_find h0] at hsome
      obtain rfl := Option.some.inj (Except.ok.inj (Prod.mk.inj hsome).1)
      obtain ⟨w, strm', houtcome, hfind⟩ := connRecvStream_outcome0 h h0 hwire hid hok
      rw [if_pos hid]
      exact houtcome.keepsFrame_iff (.inl (hid ▸ hfind))
    · obtain ⟨w, strm', houtcome, hfind⟩ :=
        connRecvStream_outcome (collects_of_run init hrun) hid hfound hrst hok
      rw [if_neg hid]
      exact houtcome.keepsFrame_iff hfind
  rw [hiff, hdropped]
  exact ⟨fun h hfin hshut => h ⟨hfin, hshut⟩, fun h hc => h hc.1 hc.2⟩

end

/-- A server that got an empty FIN frame first. -/
def finFirstOps : List Op := [.recvFrame false (.stream ⟨4, 3, [], true⟩)]

theorem finFirst_run : Runs.Run (Runs.Guarded Step fun _ _ op => op.Sized) smallServer finFirstOps
    (runOps smallServer finFirstOps) :=
  Runs.Run.nil.snoc ⟨⟨_, rfl, rfl⟩, ⟨by decide, by decide, by decide⟩⟩

/-- The stream with its end in sight. -/
def finFirstStrm : Strm := ((openedStrm smallServer 4).setLastRxOffset 3).shutdownRd

/-- The data comes with FIN again, and none of it is kept. -/
theorem connRecvStream_finFirst :
    Runs.Run (Runs.Guarded Step fun _ _ op => op.Sized) smallServer finFirstOps
      (runOps smallServer finFirstOps) ∧
    (runOps smallServer finFirstOps).strms 4 = some finFirstStrm ∧
    finFirstStrm.recvRst = false ∧ finFirstStrm.stopSending = false ∧
    connRecvStream (runOps smallServer finFirstOps) ⟨4, 0, [1, 2, 3], true⟩ =
      (.ok (), runOps smallServer finFirstOps) ∧
    ¬KeepsFrame (givenAfter smallServer finFirstOps (runOps smallServer finFirstOps) 4) finFirstStrm
      (runOps smallServer finFirstOps) ⟨4, 0, [1, 2, 3], true⟩ := by
  have hfind : (runOps smallServer finFirstOps).strms 4 = some finFirstStrm := rfl
  refine ⟨finFirst_run, hfind, rfl, rfl, rfl, fun hkeeps => ?_⟩
  obtain ⟨b, hget | ⟨s, hs, hgap, -⟩, -⟩ := hkeeps 0 (by decide)
  · cases hget
  · obtain rfl := Option.some.inj (hfind.symm.trans hs)
    exact hgap (by decide)

/-- Behind the empty FIN frame, the data without FIN is kept. -/
theorem connRecvStream_keepsFrame_finFirst :
    KeepsFrame (givenAfter smallServer finFirstOps
      (connRecvStream (runOps smallServer finFirstOps) ⟨4, 0, [1, 2], false⟩).2 4) finFirstStrm
      (connRecvStream (runOps smallServer finFirstOps) ⟨4, 0, [1, 2], false⟩).2
      ⟨4, 0, [1, 2], false⟩ :=
  (connRecvStream_keepsFrame_iff (.server ..) finFirst_run (fun hid => by cases hid)
    ⟨by decide, by decide, by decide⟩ (connFindOrOpenStream_find rfl) rfl rfl rfl).mpr nofun

end Ngtcp2
