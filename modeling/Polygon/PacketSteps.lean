import Polygon.ConnRecvPkt
import Polygon.StepChanges

/-!
# Packets as steps

Every frame that is decoded uses up bytes, so the loops over payloads end. A packet
given to `ngtcp2_conn_recv` takes the connection through the steps of its frames, of
the calls TLS makes, and of its end.
-/
namespace Ngtcp2

/-! ## The loops end -/

/-- The errors of a decoder: a bad format, or a failed assertion. -/
def Complains {α : Type} (x : Except Err α) : Prop :=
    ∀ e, x = .error e → e = .frameFormat ∨ e = .abort

/-- A decoded frame has bytes of its own, and the decoder complains only about the format. -/
structure Decodes (x : Except Err Decoded) : Prop where
  consumes : ∀ d, x = .ok d → 0 < d.len
  complains : Complains x

theorem complains_ok {α : Type} (a : α) : Complains (.ok a : Except Err α) := nofun

theorem complains_frameFormat {α : Type} : Complains (.error .frameFormat : Except Err α) := by
  intro e h
  exact .inl (Except.error.inj h).symm

theorem complains_ite {α : Type} {p : Prop} [Decidable p] {x y : Except Err α} (hx : Complains x)
    (hy : Complains y) :
    Complains (if p then x else y) := by
  split
  · exact hx
  · exact hy

theorem Complains.bind {α β : Type} {x : Except Err α} {f : α → Except Err β} (hx : Complains x)
    (hf : ∀ a, Complains (f a)) : Complains (x.bind f) := by
  cases x with
  | error e => exact fun e' h => hx e' (congrArg Except.error (Except.error.inj h))
  | ok a => exact hf a

theorem decodes_frameFormat : Decodes (.error .frameFormat) := ⟨nofun, complains_frameFormat⟩

theorem decodes_ok {d : Decoded} (hlen : 0 < d.len) : Decodes (.ok d) := by
  refine ⟨fun d' h => ?_, complains_ok d⟩
  obtain rfl := Except.ok.inj h
  exact hlen

theorem decodes_decodedFrame {len : Nat} (hlen : 0 < len) (payload p : List UInt8) (fr : Frame)
    (flags : Nat) :
    Decodes (decodedFrame payload len p fr flags) := by
  unfold decodedFrame
  split
  · exact decodes_ok hlen
  · exact ⟨nofun, fun e h => .inr (Except.error.inj h).symm⟩

theorem decodes_ite {p : Prop} [Decidable p] {x y : Except Err Decoded} (hx : Decodes x)
    (hy : Decodes y) :
    Decodes (if p then x else y) := by
  split
  · exact hx
  · exact hy

theorem decodes_bind {α : Type} {x : Except Err α} {f : α → Except Err Decoded} (hx : Complains x)
    (h : ∀ a, x = .ok a → Decodes (f a)) : Decodes (x.bind f) := by
  cases x with
  | error e => exact ⟨nofun, fun e' h => hx e' (congrArg Except.error (Except.error.inj h))⟩
  | ok a => exact h a rfl

theorem checkVarint_complains (payloadlen len : Nat) (p : List UInt8) :
    Complains (checkVarint payloadlen len p) := by
  unfold checkVarint
  exact complains_ite complains_frameFormat (complains_ok _)

theorem checkVarint_le {payloadlen len : Nat} {p : List UInt8} {x : Nat × List UInt8}
    (h : checkVarint payloadlen len p = .ok x) : len ≤ x.1 := by
  unfold checkVarint at h
  dsimp only at h
  split at h
  · cases h
  · obtain rfl := Except.ok.inj h
    exact Nat.le_add_right ..

theorem checkNextVarint_complains (payloadlen len : Nat) (p : List UInt8) :
    Complains (checkNextVarint payloadlen len p) := by
  unfold checkNextVarint
  exact complains_ite complains_frameFormat (checkVarint_complains _ _ _)

theorem checkNextVarint_le {payloadlen len : Nat} {p : List UInt8} {x : Nat × List UInt8}
    (h : checkNextVarint payloadlen len p = .ok x) : len ≤ x.1 := by
  unfold checkNextVarint at h
  split at h
  · cases h
  · exact Nat.le_of_succ_le (checkVarint_le h)

theorem checkVarints_complains (payloadlen k len : Nat) (p : List UInt8) :
    Complains (checkVarints payloadlen k len p) := by
  induction k generalizing len p with
  | zero => exact complains_ok _
  | succ k ih => exact (checkVarint_complains _ _ _).bind fun x => ih x.1 x.2

theorem checkVarints_le {payloadlen : Nat} (k : Nat) {len : Nat} {p : List UInt8}
    {x : Nat × List UInt8}
    (h : checkVarints payloadlen k len p = .ok x) : len ≤ x.1 := by
  induction k generalizing len p with
  | zero =>
    obtain rfl := Except.ok.inj h
    exact Nat.le_refl _
  | succ k ih =>
    have h : (checkVarint payloadlen len p).bind (fun x => checkVarints payloadlen k x.1 x.2) =
      .ok x := h
    cases hc : checkVarint payloadlen len p with
    | error e =>
      rw [hc] at h
      cases h
    | ok y =>
      rw [hc] at h
      exact (checkVarint_le hc).trans (ih h)

theorem pktDecodeStreamFrame_decodes (payload : List UInt8) :
    Decodes (pktDecodeStreamFrame payload) := by
  unfold pktDecodeStreamFrame
  dsimp only
  split
  · exact decodes_frameFormat
  refine decodes_bind (checkVarint_complains _ _ _) fun x hx => ?_
  refine decodes_bind (complains_ite (checkNextVarint_complains _ _ _) (complains_ok _)) fun y hy =>
    ?_
  refine decodes_bind ?_ fun len hlen => ?_
  · refine complains_ite ((checkNextVarint_complains _ _ _).bind fun z => ?_) (complains_ok _)
    exact complains_ite complains_frameFormat (complains_ok _)
  have hle := checkVarint_le hx
  have hpos : 0 < len := by
    have hxy : x.1 ≤ y.1 := by
      split at hy
      · exact checkNextVarint_le hy
      · obtain rfl := Except.ok.inj hy
        exact Nat.le_refl _
    split at hlen
    · cases hz : checkNextVarint payload.length y.1 y.2 with
      | error e =>
        rw [hz] at hlen
        cases hlen
      | ok z =>
        rw [hz] at hlen
        have hlen : (if payload.length < z.1 + (getVarint y.2).1 then .error .frameFormat
          else .ok (z.1 + (getVarint y.2).1) : Except Err Nat) = .ok len := hlen
        split at hlen
        · cases hlen
        · obtain rfl := Except.ok.inj hlen
          have hz := checkNextVarint_le hz
          exact Nat.lt_of_lt_of_le (by omega) (Nat.le_add_right ..)
    · obtain rfl := Except.ok.inj hlen
      omega
  split
  · exact decodes_decodedFrame hpos _ _ _ _
  · next hlong _ => exact decodes_ok (Nat.lt_of_lt_of_le Nat.two_pos (Nat.le_of_not_lt hlong))

theorem pktDecodeAckFrame_decodes (payload : List UInt8) : Decodes (pktDecodeAckFrame payload) := by
  unfold pktDecodeAckFrame
  dsimp only
  split
  · exact decodes_frameFormat
  refine decodes_bind (checkVarint_complains _ _ _) fun x hx =>
    decodes_bind (checkVarint_complains _ _ _) fun y hy => ?_
  refine decodes_bind (checkVarint_complains _ _ _) fun z hz => decodes_ite decodes_frameFormat ?_
  refine decodes_bind (checkVarint_complains _ _ _) fun u hu =>
    decodes_bind (checkVarints_complains _ _ _ _) fun v hv => ?_
  refine decodes_decodedFrame ?_ _ _ _ _
  have hx := checkVarint_le hx
  have hy := checkVarint_le hy
  have hz := checkVarint_le hz
  have hu := checkVarint_le hu
  have hv := checkVarints_le _ hv
  omega

theorem decodeClose_decodes (payload : List UInt8) (frame : Nat → List UInt8 → Frame) :
    Decodes (decodeClose payload frame) := by
  unfold decodeClose
  dsimp only
  split
  · exact decodes_frameFormat
  refine decodes_bind (checkVarint_complains _ _ _) fun x hx => ?_
  have hx := checkVarint_le hx
  split
  · exact decodes_frameFormat
  · exact decodes_decodedFrame (by omega) _ _ _ _

theorem decodeVarintFrame_decodes (payload : List UInt8) (frame : Nat → Frame) :
    Decodes (decodeVarintFrame payload frame) := by
  unfold decodeVarintFrame
  dsimp only
  split
  · exact decodes_frameFormat
  · exact decodes_bind (checkVarint_complains _ _ _) fun x hx =>
      decodes_decodedFrame (Nat.lt_of_lt_of_le (by decide) (checkVarint_le hx)) _ _ _ _

theorem decodeVarintsFrame_decodes (payload : List UInt8) (frame : Nat → Nat → Frame) :
    Decodes (decodeVarintsFrame payload frame) := by
  unfold decodeVarintsFrame
  dsimp only
  split
  · exact decodes_frameFormat
  · refine decodes_bind (checkVarint_complains _ _ _) fun x hx =>
      decodes_bind (checkVarint_complains _ _ _) fun y hy => ?_
    have hle := (checkVarint_le hx).trans (checkVarint_le hy)
    exact decodes_decodedFrame (Nat.lt_of_lt_of_le (by decide) hle) _ _ _ _

theorem decodePing_decodes (payload : List UInt8) (frame : List UInt8 → Frame) :
    Decodes (decodePing payload frame) := by
  unfold decodePing
  dsimp only
  split
  · exact decodes_frameFormat
  split
  · exact decodes_frameFormat
  · exact decodes_decodedFrame (by omega) _ _ _ _

theorem pktDecodeRstStreamFrame_decodes (payload : List UInt8) :
    Decodes (pktDecodeRstStreamFrame payload) := by
  unfold pktDecodeRstStreamFrame
  dsimp only
  split
  · exact decodes_frameFormat
  · refine decodes_bind (checkVarint_complains _ _ _) fun x hx =>
      decodes_bind (checkVarint_complains _ _ _) fun y hy => ?_
    have hle := (checkVarint_le hx).trans (checkVarint_le hy)
    exact decodes_decodedFrame (Nat.lt_of_lt_of_le (by decide) hle) _ _ _ _

theorem pktDecodeNewConnectionIdFrame_decodes (payload : List UInt8) :
    Decodes (pktDecodeNewConnectionIdFrame payload) := by
  unfold pktDecodeNewConnectionIdFrame
  dsimp only
  split
  · exact decodes_frameFormat
  · exact decodes_bind (checkVarint_complains _ _ _) fun x hx =>
      decodes_decodedFrame (Nat.lt_of_lt_of_le (by decide) (checkVarint_le hx)) _ _ _ _

theorem pktDecodeStopSendingFrame_decodes (payload : List UInt8) :
    Decodes (pktDecodeStopSendingFrame payload) := by
  unfold pktDecodeStopSendingFrame
  dsimp only
  split
  · exact decodes_frameFormat
  · exact decodes_bind (checkVarint_complains _ _ _) fun x hx =>
      decodes_decodedFrame (Nat.lt_of_lt_of_le (by decide) (checkVarint_le hx)) _ _ _ _

/-- Every decoder takes at least the byte of the type, and complains only about the format. -/
theorem pktDecodeFrame_cases (payload : List UInt8) : pktDecodeFrame payload = .ok none ∨
    ∃ x, pktDecodeFrame payload = x.map some ∧ Decodes x := by
  cases payload with
  | nil => exact .inl rfl
  | cons type rest =>
    refine .inr ⟨_, rfl, ?_⟩
    refine decodes_ite (pktDecodeStreamFrame_decodes _) ?_
    refine decodes_ite (pktDecodeAckFrame_decodes _) ?_
    refine decodes_ite (decodes_ok (Nat.lt_of_lt_of_le Nat.one_pos (Nat.le_add_right ..))) ?_
    refine decodes_ite (pktDecodeRstStreamFrame_decodes _) ?_
    refine decodes_ite (decodeClose_decodes _ _) ?_
    refine decodes_ite (decodeClose_decodes _ _) ?_
    refine decodes_ite (decodeVarintFrame_decodes _ _) ?_
    refine decodes_ite (decodeVarintsFrame_decodes _ _) ?_
    refine decodes_ite (decodeVarintFrame_decodes _ _) ?_
    refine decodes_ite (decodePing_decodes _ _) ?_
    refine decodes_ite (decodeVarintFrame_decodes _ _) ?_
    refine decodes_ite (decodeVarintsFrame_decodes _ _) ?_
    refine decodes_ite (decodeVarintFrame_decodes _ _) ?_
    refine decodes_ite (pktDecodeNewConnectionIdFrame_decodes _) ?_
    refine decodes_ite (pktDecodeStopSendingFrame_decodes _) ?_
    exact decodes_ite (decodePing_decodes _ _) (decodes_frameFormat)

theorem pktDecodeFrame_pos {payload : List UInt8} {d : Decoded}
    (h : pktDecodeFrame payload = .ok (some d)) :
    0 < d.len := by
  rcases pktDecodeFrame_cases payload with hnone | ⟨x, hx, hdec⟩
  · rw [hnone] at h
    cases h
  rw [hx] at h
  cases x with
  | error e => cases h
  | ok d' =>
    obtain rfl := Option.some.inj (Except.ok.inj h)
    exact hdec.consumes _ rfl

theorem pktDecodeFrame_complains (payload : List UInt8) : Complains (pktDecodeFrame payload) := by
  rcases pktDecodeFrame_cases payload with hnone | ⟨x, hx, hdec⟩
  · rw [hnone]
    exact complains_ok _
  rw [hx]
  cases x with
  | error e => exact fun e' h => hdec.complains e' (congrArg Except.error (Except.error.inj h))
  | ok d => exact complains_ok _

/-- The fuel of a payload's length never runs out: more of it changes nothing. -/
theorem recvFrames_fuel {σ : Type} (rx : RxCallbacks) (hd : PktHd)
    (handle : σ → Conn → Frame → Result σ)
    {fuel fuel' : Nat} {payload : List UInt8} (h : payload.length < fuel)
    (h' : payload.length < fuel') (s : σ)
    (conn : Conn) : recvFrames rx hd handle fuel payload s conn =
    recvFrames rx hd handle fuel' payload s conn := by
  induction fuel generalizing fuel' payload s conn with
  | zero => omega
  | succ fuel ih =>
    cases fuel' with
    | zero => omega
    | succ fuel' =>
      unfold recvFrames
      cases hdec : pktDecodeFrame payload with
      | error e => rfl
      | ok o =>
        cases o with
        | none => rfl
        | some fr =>
          have hpos := pktDecodeFrame_pos hdec
          have hne : payload ≠ [] := by
            rintro rfl
            cases hdec
          have hlen := List.length_pos_iff.mpr hne
          have hdrop : (payload.drop fr.len).length < payload.length := by
            rw [List.length_drop]
            omega
          have hrest : (fun s conn => recvFrames rx hd handle fuel (payload.drop fr.len) s conn) =
              fun s conn => recvFrames rx hd handle fuel' (payload.drop fr.len) s conn := by
            funext s conn
            exact ih (by omega) (by omega) s conn
          have hrest : recvFrames rx hd handle fuel (payload.drop fr.len) =
              recvFrames rx hd handle fuel' (payload.drop fr.len) := hrest
          simp only [hrest]

/-! ## Packets are runs of steps -/

/-- The steps that a received packet consists of. -/
def Op.isRx : Op → Bool
  | recvFrame .. | recvDelayedHandshakeFrame .. | recvHandshakeFrame .. | recvProtectedPkt | recvPktEnd ..
  | recvHandshakePktEnd .. | recvHandshakeDone .. | negotiateConnId _ | statelessReset => true
  | op => op.isTls

/-- Some steps of a received packet, one after the other. -/
def RxSteps (conn conn' : Conn) : Prop :=
    ∃ ops, (∀ op ∈ ops, op.isRx = true) ∧ Runs.Run Step conn ops conn'

section
variable {conn conn₁ conn' : Conn}

theorem RxSteps.refl (conn : Conn) : RxSteps conn conn := ⟨[], by simp, .nil⟩

theorem RxSteps.of_same {α : Type} {x r : Except Err α} (h : (x, conn) = (r, conn')) :
    RxSteps conn conn' := by
  obtain ⟨-, rfl⟩ := Prod.mk.inj h
  exact .refl _

theorem RxSteps.trans (h : RxSteps conn conn₁) (h' : RxSteps conn₁ conn') : RxSteps conn conn' := by
  obtain ⟨ops, hrx, hrun⟩ := h
  obtain ⟨ops', hrx', hrun'⟩ := h'
  refine ⟨ops ++ ops', fun op hop => ?_, hrun.append (fun _ _ _ _ _ hs => hs) hrun'⟩
  rcases List.mem_append.mp hop with hop | hop
  · exact hrx op hop
  · exact hrx' op hop

theorem survives_of_not_fatal {r : Except Err Unit} (h : ¬Fatal r) : survives r = true := by
  cases r with
  | ok _ => rfl
  | error e =>
    cases he : e.isFatal with
    | false => simp [survives, he]
    | true => exact absurd ⟨e, rfl, he⟩ h

theorem RxSteps.one (op : Op) {r : Except Err Unit} (hrx : op.isRx = true)
    (h : op.run conn = (r, conn'))
    (hr : ¬Fatal r) : RxSteps conn conn' :=
  ⟨[op], by simpa using hrx, Runs.Run.nil.snoc ⟨r, h, survives_of_not_fatal hr⟩⟩

/-- Two parts of a function, each made of steps unless it fails fatally. -/
theorem RxSteps.andThen {α β : Type} {x : Result α} {f : α → Conn → Result β} {r : Except Err β}
    (h : x.andThen f = (r, conn')) (hr : ¬Fatal r)
    (first : ∀ r₁ conn₁, x = (r₁, conn₁) → ¬Fatal r₁ → RxSteps conn conn₁)
    (second : ∀ a conn₁, x = (.ok a, conn₁) → f a conn₁ = (r, conn') → RxSteps conn₁ conn') :
    RxSteps conn conn' := by
  rcases andThen_cases h with ⟨e, hx, rfl⟩ | ⟨a, conn₁, hx, hf⟩
  · exact first _ _ hx fun hc => hr hc.cast
  · exact (first _ _ hx (not_fatal_ok a)).trans (second a conn₁ hx hf)

theorem runTls_steps {ops : List Op} {r : Except Err Unit} (htls : ∀ op ∈ ops, op.isTls = true)
    (h : runTls ops conn = (r, conn')) (hr : ¬Fatal r) : RxSteps conn conn' := by
  induction ops generalizing conn with
  | nil => exact .of_same h
  | cons op ops ih =>
    have hrx : op.isRx = true := by
      have htls := htls op List.mem_cons_self
      cases op <;> first | rfl | exact htls
    have hrest := fun {conn₂} (h : runTls ops conn₂ = (r, conn')) =>
      ih (fun op hop => htls op (List.mem_cons_of_mem _ hop)) h
    unfold runTls at h
    split at h
    · next hop => exact (RxSteps.one op hrx hop (not_fatal_ok _)).trans (hrest h)
    · next e conn₁ hop =>
      split at h
      · next hfatal =>
        obtain ⟨rfl, -⟩ := Prod.mk.inj h
        exact absurd ⟨e, rfl, hfatal⟩ hr
      · next hgoes =>
        have hlives : ¬Fatal (.error e : Except Err Unit) := by
          rintro ⟨e', he, hfatal⟩
          obtain rfl := Except.error.inj he
          exact hgoes hfatal
        exact (RxSteps.one op hrx hop hlives).trans (hrest h)

/-- The loop over the frames of a payload is a run of steps when every frame is. -/
theorem recvFrames_steps {σ : Type} {rx : RxCallbacks} {hd : PktHd}
    {handle : σ → Conn → Frame → Result σ}
    (hframe : ∀ s conn fr r conn', handle s conn fr = (r, conn') → ¬Fatal r → RxSteps conn conn')
    {fuel : Nat}
    {payload : List UInt8} {s : σ} {r : Except Err σ}
    (h : recvFrames rx hd handle fuel payload s conn = (r, conn'))
    (hr : ¬Fatal r) : RxSteps conn conn' := by
  induction fuel generalizing payload s conn with
  | zero => exact .of_same h
  | succ fuel ih =>
    unfold recvFrames at h
    split at h
    · exact .of_same h
    · exact .of_same h
    split at h
    · exact .of_same h
    refine RxSteps.andThen h hr (fun _ _ => hframe _ _ _ _ _) fun s conn₁ _ h => ?_
    refine RxSteps.andThen h hr (fun _ _ => runTls_steps (rx.isTls _)) fun _ conn₂ _ h => ?_
    exact ih h

theorem handleHandshakeFrame_steps {type : PktType} {s : Bool × Bool} {fr : Frame}
    {r : Except Err (Bool × Bool)}
    (h : handleHandshakeFrame type s conn fr = (r, conn')) (hr : ¬Fatal r) :
    RxSteps conn conn' := by
  refine RxSteps.andThen h hr (fun r₁ conn₁ h₁ hr₁ => ?_) fun _ _ _ h => .of_same h
  refine RxSteps.one (.recvHandshakeFrame type s.2 fr) rfl (r := r₁.map fun _ => ()) ?_ ?_
  · have hvoid : Op.run conn (.recvHandshakeFrame type s.2 fr) = Result.void (r₁, conn₁) :=
      congrArg Result.void h₁
    rw [hvoid]
    cases r₁ <;> rfl
  · cases r₁ with
    | ok _ => exact not_fatal_ok _
    | error e => exact fun hc => hr₁ hc.cast

theorem handleDelayedFrame_steps {type : PktType} {s : Bool} {fr : Frame} {r : Except Err Bool}
    (h : handleDelayedFrame type s conn fr = (r, conn')) (hr : ¬Fatal r) : RxSteps conn conn' :=
  RxSteps.andThen h hr (fun _ _ h₁ hr₁ => RxSteps.one (.recvDelayedHandshakeFrame type fr) rfl h₁ hr₁)
    fun _ _ _ h => .of_same h

theorem handleFrame_steps {longForm s : Bool} {fr : Frame} {r : Except Err Bool}
    (h : handleFrame longForm s conn fr = (r, conn')) (hr : ¬Fatal r) : RxSteps conn conn' :=
  RxSteps.andThen h hr (fun _ _ h₁ hr₁ => RxSteps.one (.recvFrame longForm fr) rfl h₁ hr₁)
    fun _ _ _ h => .of_same h

theorem connRecvDelayedHandshakePkt_steps {rx : RxCallbacks} {hd : PktHd} {payload ad : List UInt8}
    {ts : Nat}
    {r : Except Err Unit} (h : connRecvDelayedHandshakePkt rx conn hd payload ad ts = (r, conn'))
    (hr : ¬Fatal r) :
    RxSteps conn conn' := by
  unfold connRecvDelayedHandshakePkt at h
  split at h
  · exact .of_same h
  split at h
  · exact .of_same h
  split at h
  · exact .of_same h
  refine RxSteps.andThen h hr
    (fun _ _ => recvFrames_steps fun _ _ _ _ _ => handleDelayedFrame_steps)
    fun requireAck conn₁ _ h => ?_
  exact RxSteps.one (.recvPktEnd hd.pktNum requireAck true ts) rfl h hr

theorem connRecvPktPayload_steps {rx : RxCallbacks} {hd : PktHd} {payload : List UInt8} {ts : Nat}
    {r : Except Err Unit} (h : connRecvPktPayload rx conn hd payload ts = (r, conn'))
    (hr : ¬Fatal r) :
    RxSteps conn conn' := by
  unfold connRecvPktPayload at h
  dsimp only at h
  have hmark : RxSteps conn
    (if hd.longForm then conn else { conn with recvProtectedPkt := true }) := by
    split
    · exact .refl _
    · exact RxSteps.one .recvProtectedPkt rfl rfl (not_fatal_ok ())
  refine hmark.trans ?_
  generalize (if hd.longForm then conn else { conn with recvProtectedPkt := true }) = conn at h
  split at h
  · exact .of_same h
  refine RxSteps.andThen h hr (fun _ _ => recvFrames_steps fun _ _ _ _ _ => handleFrame_steps)
    fun requireAck conn₁ _ h => ?_
  exact RxSteps.one (.recvPktEnd hd.pktNum requireAck false ts) rfl h hr

theorem connOnStatelessReset_steps {r : Except Err Unit}
    (h : connOnStatelessReset conn = (r, conn')) :
    RxSteps conn conn' := by
  cases r with
  | ok u =>
    have hrun : Op.run conn .statelessReset = (.ok (), conn') := by simp only [Op.run, h]
    exact RxSteps.one .statelessReset rfl hrun (not_fatal_ok _)
  | error e =>
    have hrun : Op.run conn .statelessReset = (.error .tlsDecrypt, conn') := by
      simp only [Op.run, h]
    refine RxSteps.one .statelessReset rfl hrun ?_
    rintro ⟨e', he, hfatal⟩
    obtain rfl := Except.error.inj he
    cases hfatal

theorem connRecvShortPkt_steps {c : RxConn} {pkt : List UInt8} {ts : Nat} {r : Except Err Unit}
    (h : connRecvShortPkt c pkt ts = (r, conn')) (hr : ¬Fatal r) : RxSteps c.conn conn' := by
  unfold connRecvShortPkt at h
  dsimp only at h
  split at h
  · exact .of_same h
  split at h
  · exact .of_same h
  split at h
  · exact .of_same h
  split at h
  · split at h
    · split at h
      · next hreset =>
        obtain ⟨-, rfl⟩ := Prod.mk.inj h
        exact connOnStatelessReset_steps hreset
      · next hreset =>
        obtain ⟨-, rfl⟩ := Prod.mk.inj h
        exact connOnStatelessReset_steps hreset
    · exact .of_same h
  · exact .of_same h
  · exact connRecvPktPayload_steps h hr

theorem connRecvLongPkt_steps {c : RxConn} {pkt : List UInt8} {ts : Nat} {r : Except Err Unit}
    (h : connRecvLongPkt c pkt ts = (r, conn')) (hr : ¬Fatal r) : RxSteps c.conn conn' := by
  unfold connRecvLongPkt at h
  dsimp only at h
  split at h
  · exact .of_same h
  split at h
  · split at h
    · exact .of_same h
    split at h
    · exact .of_same h
    · exact .of_same h
  split at h
  · exact .of_same h
  split at h
  · exact .of_same h
  split at h
  · exact connRecvDelayedHandshakePkt_steps h hr
  split at h
  · split at h
    · exact .of_same h
    split at h
    · exact .of_same h
    · exact connRecvPktPayload_steps h hr
  · exact .of_same h

/-- `conn_recv_pkt` is a run of steps. -/
theorem connRecvPkt_steps {c : RxConn} {pkt : List UInt8} {ts : Nat} {r : Except Err Unit}
    (h : connRecvPkt c pkt ts = (r, conn')) (hr : ¬Fatal r) : RxSteps c.conn conn' := by
  unfold connRecvPkt at h
  split at h
  · exact connRecvLongPkt_steps h hr
  · exact connRecvShortPkt_steps h hr

theorem connRecvHandshakePayload_steps {rx : RxCallbacks} {hd : PktHd} {payload : List UInt8}
    {ts : Nat}
    {r : Except Err Unit} (h : connRecvHandshakePayload rx conn hd payload ts = (r, conn'))
    (hr : ¬Fatal r) :
    RxSteps conn conn' := by
  refine RxSteps.andThen h hr
    (fun _ _ => recvFrames_steps fun _ _ _ _ _ => handleHandshakeFrame_steps)
    fun s conn₁ _ h => ?_
  exact RxSteps.one (.recvHandshakePktEnd hd.type s.2 hd.pktNum s.1 ts) rfl h hr

end

section
variable {c c' : RxConn} {pkt : List UInt8} {ts : Nat} {r : Except Err Unit}

theorem RxSteps.of_same_rx {x : Except Err Unit} (h : (x, c) = (r, c')) :
    RxSteps c.conn c'.conn := by
  obtain ⟨-, rfl⟩ := Prod.mk.inj h
  exact .refl _

theorem RxSteps.lift {x : Result Unit} (h : c.lift x = (r, c'))
    (steps : ∀ conn', x = (r, conn') → RxSteps c.conn conn') : RxSteps c.conn c'.conn := by
  obtain ⟨rfl, rfl⟩ := Prod.mk.inj h
  exact steps _ rfl

theorem connBufferProtectedPkt_conn (c : RxConn) (pkt : List UInt8) :
    (connBufferProtectedPkt c pkt).conn = c.conn := by
  unfold connBufferProtectedPkt
  split <;> rfl

/-- What is done before the decryption is the negotiation of a connection ID, or nothing. -/
theorem serverAcceptsPkt_steps {hd : PktHd} {o : Option (Except Err Unit)}
    (hserver : c.conn.server = true)
    (h : serverAcceptsPkt c hd pkt = (o, c')) (hr : ∀ r, o = some r → ¬Fatal r) :
    RxSteps c.conn c'.conn := by
  have hsame : ∀ {x : Option (Except Err Unit)}, (x, c) = (o, c') → RxSteps c.conn c'.conn :=
    fun h => by
    obtain ⟨-, rfl⟩ := Prod.mk.inj h
    exact .refl _
  unfold serverAcceptsPkt at h
  dsimp only at h
  split at h
  · split at h
    · exact hsame h
    have hneg : RxSteps c.conn { c.conn with connIdNegotiated := true, clientConnId := hd.connId } := by
      refine RxSteps.one (.negotiateConnId hd.connId) rfl ?_ (not_fatal_ok ())
      exact if_pos hserver
    split at h
    · obtain ⟨rfl, -⟩ := Prod.mk.inj h
      exact absurd ⟨_, rfl, rfl⟩ (hr _ rfl)
    split at h
    · next htls =>
      obtain ⟨-, rfl⟩ := Prod.mk.inj h
      exact hneg.trans (runTls_steps (c.rx.isTls _) htls (not_fatal_ok _))
    · next htls =>
      obtain ⟨rfl, rfl⟩ := Prod.mk.inj h
      exact hneg.trans (runTls_steps (c.rx.isTls _) htls (hr _ rfl))
  · split at h
    · exact hsame h
    · exact hsame h
  · split at h
    · obtain ⟨-, rfl⟩ := Prod.mk.inj h
      rw [connBufferProtectedPkt_conn]
      exact .refl _
    · exact hsame h
  · exact hsame h

theorem clientAcceptsPkt_steps {hd : PktHd} {payload : List UInt8} {o : Option (Except Err Unit)}
    (hclient : c.conn.server ≠ true) (h : clientAcceptsPkt c hd payload = (o, c')) :
    RxSteps c.conn c'.conn := by
  have hsame : ∀ {x : Option (Except Err Unit)}, (x, c) = (o, c') → RxSteps c.conn c'.conn :=
    fun h => by
    obtain ⟨-, rfl⟩ := Prod.mk.inj h
    exact .refl _
  unfold clientAcceptsPkt at h
  dsimp only at h
  split at h
  · split at h
    · split at h
      · exact hsame h
      · exact hsame h
    · obtain ⟨-, rfl⟩ := Prod.mk.inj h
      refine RxSteps.one (.negotiateConnId hd.connId) rfl ?_ (not_fatal_ok ())
      exact if_neg hclient
  · split at h
    · exact hsame h
    split at h
    · exact hsame h
    split at h
    · exact hsame h
    · exact hsame h
  · split at h
    · exact hsame h
    split at h
    · exact hsame h
    split at h
    · exact hsame h
    · exact hsame h
  · exact hsame h

theorem connRecvLongHandshakePkt_steps {nread : Nat} {hd : PktHd}
    (h : connRecvLongHandshakePkt c pkt nread hd ts = (r, c')) (hr : ¬Fatal r) :
    RxSteps c.conn c'.conn := by
  unfold connRecvLongHandshakePkt at h
  by_cases hversion : hd.version ≠ 0 ∧ c.conn.version ≠ hd.version
  · rw [if_pos hversion] at h
    exact .of_same_rx h
  rw [if_neg hversion] at h
  extract_lets hdpktlen hd₁ payload at h
  split at h
  · exact .of_same_rx h
  generalize haccepts : (if c.conn.server then _ else _ : Option (Except Err Unit) × RxConn) =
    a at h
  obtain ⟨o, c₁⟩ := a
  have haccept : (∀ r, o = some r → ¬Fatal r) → RxSteps c.conn c₁.conn := by
    intro ho
    split at haccepts
    · next hserver => exact serverAcceptsPkt_steps hserver haccepts ho
    · next hclient => exact clientAcceptsPkt_steps hclient haccepts
  cases o with
  | some rv =>
    obtain ⟨rfl, rfl⟩ := Prod.mk.inj h
    refine haccept fun r' hr' => ?_
    obtain rfl := Option.some.inj hr'
    exact hr
  | none =>
    refine (haccept fun r' hr' => nomatch hr').trans ?_
    dsimp only at h
    split at h
    · exact .of_same_rx h
    · exact RxSteps.lift h fun conn' h => connRecvHandshakePayload_steps h hr

/-- `conn_recv_handshake_pkt` is a run of steps. -/
theorem connRecvHandshakePkt_steps (h : connRecvHandshakePkt c pkt ts = (r, c')) (hr : ¬Fatal r) :
    RxSteps c.conn c'.conn := by
  unfold connRecvHandshakePkt at h
  split at h
  · split at h
    · exact .of_same_rx h
    · obtain ⟨-, rfl⟩ := Prod.mk.inj h
      rw [connBufferProtectedPkt_conn]
      exact .refl _
  split at h
  · exact .of_same_rx h
  split at h
  · exact RxSteps.lift h fun conn' h => connRecvPkt_steps h hr
  · exact connRecvLongHandshakePkt_steps h hr

theorem processBufferedPkts_steps {recv : RxConn → List UInt8 → RxResult}
    (hrecv : ∀ c pkt r c', recv c pkt = (r, c') → ¬Fatal r → RxSteps c.conn c'.conn) {fuel i : Nat}
    (h : processBufferedPkts recv fuel i c = (r, c')) (hr : ¬Fatal r) : RxSteps c.conn c'.conn := by
  induction fuel generalizing i c with
  | zero => exact .of_same_rx h
  | succ fuel ih =>
    unfold processBufferedPkts at h
    split at h
    · obtain ⟨-, rfl⟩ := Prod.mk.inj h
      exact .refl _
    split at h
    · next hpkt =>
      obtain ⟨rfl, rfl⟩ := Prod.mk.inj h
      exact hrecv _ _ _ _ hpkt hr
    · next hpkt => exact (hrecv _ _ _ _ hpkt (not_fatal_ok _)).trans (ih h)

theorem connRecvHandshakeDone_fatal (state : ConnState) (conn : Conn) {rv : Except Err Unit}
    (h : Fatal rv) :
    Fatal (connRecvHandshakeDone state conn rv).1 := by
  obtain ⟨e, rfl, he⟩ := h
  cases e with
  | tlsHandshake => cases he
  | _ => cases state <;> exact ⟨_, rfl, he⟩

theorem connRecvRest_steps {state : ConnState} {x : RxResult}
    (h : connRecvRest state x ts = (r, c')) (hr : ¬Fatal r)
    {c : RxConn} (hx : ¬Fatal x.1 → RxSteps c.conn x.2.conn) : RxSteps c.conn c'.conn := by
  obtain ⟨rv, c₁⟩ := x
  unfold connRecvRest at h
  dsimp only at h
  generalize hdone : connRecvHandshakeDone state c₁.conn rv = d at h
  obtain ⟨rd, conn₂⟩ := d
  have hsteps : ¬Fatal rd → RxSteps c.conn conn₂ := by
    intro hrd
    have hrv : ¬Fatal rv := fun hfatal => by
      have hdone' := connRecvHandshakeDone_fatal state c₁.conn hfatal
      rw [hdone] at hdone'
      exact hrd hdone'
    exact (hx hrv).trans (RxSteps.one (.recvHandshakeDone state rv) rfl hdone hrd)
  cases rd with
  | error e =>
    obtain ⟨rfl, rfl⟩ := Prod.mk.inj h
    exact hsteps hr
  | ok u =>
    refine (hsteps (not_fatal_ok u)).trans ?_
    dsimp only at h
    split at h
    · exact RxSteps.of_same_rx (c := { c₁ with conn := conn₂ }) h
    split at h
    · exact processBufferedPkts_steps (c := { c₁ with conn := conn₂ })
        (fun _ _ _ _ => connRecvHandshakePkt_steps) h hr
    split at h
    · refine processBufferedPkts_steps (c := { c₁ with conn := conn₂ })
        (fun c pkt r c' h hr => ?_) h hr
      exact RxSteps.lift h fun conn' h => connRecvPkt_steps h hr
    · exact RxSteps.of_same_rx (c := { c₁ with conn := conn₂ }) h

theorem connRecvOne_steps (h : connRecvOne c pkt ts = (r, c')) (hr : ¬Fatal r) :
    RxSteps c.conn c'.conn := by
  unfold connRecvOne at h
  split at h
  all_goals first
    | exact connRecvHandshakePkt_steps h hr
    | exact RxSteps.lift h fun conn' h => connRecvPkt_steps h hr
    | exact .of_same_rx h

/-- A packet that `ngtcp2_conn_recv` survives takes the connection through steps. -/
theorem ngtcp2ConnRecv_steps (h : ngtcp2ConnRecv c pkt ts = (r, c')) (hr : ¬Fatal r) :
    RxSteps c.conn c'.conn := by
  unfold ngtcp2ConnRecv at h
  split at h
  · exact .of_same_rx h
  split at h
  all_goals first
    | exact connRecvRest_steps h hr fun hx => connRecvOne_steps rfl hx
    | exact connRecvOne_steps h hr

/-- So what is reachable with packets is reachable by steps. -/
theorem Reachable.ngtcp2ConnRecv (hreach : Reachable c.conn) (h : ngtcp2ConnRecv c pkt ts = (r, c'))
    (hr : ¬Fatal r) : Reachable c'.conn := by
  obtain ⟨ops, -, hrun⟩ := ngtcp2ConnRecv_steps h hr
  obtain ⟨conn₀, ops₀, hinit, hrun₀⟩ := hreach
  exact ⟨conn₀, ops₀ ++ ops, hinit, hrun₀.append (fun _ _ _ _ _ hs => hs) hrun⟩

end

end Ngtcp2
