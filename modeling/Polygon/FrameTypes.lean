import Polygon.FrameReads
import Mathlib.Tactic.IntervalCases

/-!
# What the decoder takes a payload for

The decoder of a frame looks for the bits of STREAM and of ACK in the first byte before it
compares the byte with the other types, and so takes other bytes for these two types as well. The
blocks of an ACK frame are written into an object of the caller, which one of the three callers
makes too small.
-/
namespace Ngtcp2

/-! ## Complete frames -/

section
variable {payload p : List UInt8} {L len k : Nat}

theorem VarintsFit.le (h : VarintsFit k p) : k ≤ p.length := by
  induction k generalizing p with
  | zero => exact Nat.zero_le _
  | succ k ih =>
    have hrest := ih h.2
    have hpos := (getVarintLen_range p).1
    have hin := h.1
    rw [List.length_drop] at hrest
    omega

/-- The decoder rejects what does not have the property, and takes the rest. -/
def Decides {α : Type} (P : Prop) (x : Except Err α) (Q : α → Prop) : Prop :=
  (¬P ∧ x = .error .frameFormat) ∨ (P ∧ ∃ a, x = .ok a ∧ Q a)

theorem Decides.reject {α : Type} {P : Prop} {Q : α → Prop} (h : ¬P) :
    Decides P (.error .frameFormat) Q := .inl ⟨h, rfl⟩

theorem Decides.take {α : Type} {P : Prop} {Q : α → Prop} {a : α} (h : P) (hq : Q a) :
    Decides P (.ok a) Q := .inr ⟨h, a, rfl, hq⟩

theorem Decides.congr {α : Type} {P P' : Prop} {x : Except Err α} {Q : α → Prop}
    (h : Decides P x Q) (hiff : P ↔ P') : Decides P' x Q := by
  rwa [Decides, ← hiff]

theorem bind_bind {α β γ : Type} (x : Except Err α) (f : α → Except Err β)
    (g : β → Except Err γ) : (x.bind f).bind g = x.bind fun a => (f a).bind g := by
  cases x <;> rfl

/-- A varint is checked together with the bytes counted ahead. -/
theorem Decides.varint {α : Type} {P : Prop} {f : Nat × List UInt8 → Except Err α} {Q : α → Prop}
    (extra : Nat) (hlen : len + p.length = L + (extra + 1))
    (ahead : P → extra ≤ (p.drop (getVarintLen p)).length)
    (next : ∀ len', len' + (p.drop (getVarintLen p)).length = L + extra →
      Decides P (f (len', p.drop (getVarintLen p))) Q) :
    Decides (getVarintLen p ≤ p.length ∧ P) ((checkVarint L len p).bind f) Q := by
  have hpos := (getVarintLen_range p).1
  rw [List.length_drop] at ahead next
  unfold checkVarint
  dsimp only
  split
  · refine .reject fun ⟨hin, h⟩ => ?_
    have hahead := ahead h
    omega
  · exact (next _ (by omega)).congr ⟨fun h => ⟨by omega, h⟩, And.right⟩

/-- A varint for which no byte is counted. -/
theorem Decides.nextVarint {α : Type} {P : Prop} {f : Nat × List UInt8 → Except Err α}
    {Q : α → Prop} (hlen : len + p.length = L)
    (next : ∀ len', len' + (p.drop (getVarintLen p)).length = L →
      Decides P (f (len', p.drop (getVarintLen p))) Q) :
    Decides (getVarintLen p ≤ p.length ∧ P) ((checkNextVarint L len p).bind f) Q := by
  have hpos := (getVarintLen_range p).1
  unfold checkNextVarint
  split
  · exact .reject fun ⟨hin, _⟩ => by omega
  · exact .varint 0 (by omega) (fun _ => Nat.zero_le _) next

theorem Decides.fits {α : Type} {f : Nat × List UInt8 → Except Err α} {Q : α → Prop}
    (extra : Nat) (hlen : len + p.length = L + (extra + 1)) (hk : extra ≤ k)
    (next : ∀ len', len' + (p.drop (getVarintLen p)).length = L + extra →
      Decides (VarintsFit k (p.drop (getVarintLen p))) (f (len', p.drop (getVarintLen p))) Q) :
    Decides (VarintsFit (k + 1) p) ((checkVarint L len p).bind f) Q :=
  .varint extra hlen (fun hfit => Nat.le_trans hk hfit.le) next

theorem Decides.varints {α : Type} {f : Nat × List UInt8 → Except Err α} {Q : α → Prop}
    (hlen : len + p.length = L + k)
    (next : ∀ len', len' + (varintsEnd k p).length = L →
      ∃ a, f (len', varintsEnd k p) = .ok a ∧ Q a) :
    Decides (VarintsFit k p) ((checkVarints L k len p).bind f) Q := by
  induction k generalizing len p with
  | zero => exact .inr ⟨trivial, next len hlen⟩
  | succ k ih =>
    rw [checkVarints, bind_bind]
    exact .fits k hlen (Nat.le_refl _) fun len' hlen' => ih hlen' next

theorem getVarint_snd (p : List UInt8) : (getVarint p).2 = p.drop (getVarintLen p) := rfl

/-- The block count of an ACK frame. -/
def ackBlkCount (payload : List UInt8) : Nat := (getVarint (varintsEnd 2 (payload.drop 1))).1

/-- The type byte has the bits of ACK, not that of STREAM, and everything that an ACK frame
announces is there. -/
structure AckComplete (payload : List UInt8) : Prop where
  notStream : hasMask (payload.headD 0).toNat 0x10 = false
  mask : hasMask (payload.headD 0).toNat 0x0e = true
  fits : VarintsFit (4 + 2 * ackBlkCount payload) (payload.drop 1)

/-- The stream ID, the offset if its bit is set, and the length with as much data if its bit is
set. -/
def StreamFits (offBit lenBit : Bool) (p : List UInt8) : Prop :=
  getVarintLen p ≤ p.length ∧
    let p := p.drop (getVarintLen p)
    (offBit = true → getVarintLen p ≤ p.length) ∧
      let p := if offBit then p.drop (getVarintLen p) else p
      (lenBit = true → getVarintLen p ≤ p.length ∧
        (getVarint p).1 ≤ (p.drop (getVarintLen p)).length)

/-- The type byte has the bit of STREAM, and everything that a STREAM frame announces is there. -/
structure StreamComplete (payload : List UInt8) : Prop where
  mask : hasMask (payload.headD 0).toNat 0x10 = true
  fits : StreamFits (decide ((payload.headD 0).toNat &&& 0x04 ≠ 0))
    (decide ((payload.headD 0).toNat &&& 0x02 ≠ 0)) (payload.drop 1)

/-- The offset of a STREAM frame. -/
theorem Decides.offset {α : Type} {P : Prop} {f : Nat × List UInt8 → Except Err α} {Q : α → Prop}
    (offBit : Bool) (hlen : len + p.length = L)
    (next : ∀ len', len' + (if offBit then p.drop (getVarintLen p) else p).length = L →
      Decides P (f (len', if offBit then p.drop (getVarintLen p) else p)) Q) :
    Decides ((offBit = true → getVarintLen p ≤ p.length) ∧ P)
      ((if offBit then checkNextVarint L len p else .ok (len, p)).bind f) Q := by
  cases offBit with
  | true =>
    exact (Decides.nextVarint hlen next).congr
      ⟨fun h => ⟨fun _ => h.1, h.2⟩, fun h => ⟨h.1 rfl, h.2⟩⟩
  | false => exact (next len hlen).congr ⟨fun h => ⟨nofun, h⟩, And.right⟩

/-- The decoder of STREAM frames rejects what is not complete. -/
theorem pktDecodeStreamFrame_decides :
    Decides (StreamFits (decide ((payload.headD 0).toNat &&& 0x04 ≠ 0))
      (decide ((payload.headD 0).toNat &&& 0x02 ≠ 0)) (payload.drop 1))
      (pktDecodeStreamFrame payload) fun d => ∃ fr, d.fr = .stream fr := by
  unfold pktDecodeStreamFrame StreamFits
  dsimp only
  generalize decide ((payload.headD 0).toNat &&& 0x04 ≠ 0) = offBit
  generalize decide ((payload.headD 0).toNat &&& 0x02 ≠ 0) = lenBit
  by_cases hmin : payload.length < 1 + 1
  · rw [if_pos hmin]
    refine .reject fun h => ?_
    have hin := h.1
    have hpos := (getVarintLen_range (payload.drop 1)).1
    rw [List.length_drop] at hin
    omega
  rw [if_neg hmin]
  have hlen : 1 + 1 + (payload.drop 1).length = payload.length + (0 + 1) := by
    rw [List.length_drop]
    omega
  have hoffset : ∀ p : List UInt8, (if offBit then getVarint p else (0, p)).2 =
      if offBit then p.drop (getVarintLen p) else p := by
    intro p
    cases offBit <;> rfl
  simp only [getVarint_snd, hoffset]
  generalize payload.drop 1 = p at hlen ⊢
  refine .varint 0 hlen (fun _ => Nat.zero_le _) fun len₁ hlen₁ => ?_
  generalize p.drop (getVarintLen p) = p₁ at hlen₁ ⊢
  refine .offset offBit hlen₁ fun len₂ hlen₂ => ?_
  generalize (if offBit then p₁.drop (getVarintLen p₁) else p₁) = p₂ at hlen₂ ⊢
  cases lenBit with
  | false => exact .take nofun ⟨_, rfl⟩
  | true =>
    simp only [if_true, bind_bind]
    refine (Decides.nextVarint hlen₂ fun len₃ hlen₃ => ?_).congr
      ⟨fun h _ => h, fun h => h trivial⟩
    dsimp only
    generalize p₂.drop (getVarintLen p₂) = p₃ at hlen₃ ⊢
    split
    · exact .reject (by omega)
    · have hend := List.length_drop (i := (getVarint p₂).1) (l := p₃)
      dsimp only [Except.bind]
      unfold decodedFrame
      rw [if_pos (by omega)]
      exact .take (by omega) ⟨_, rfl⟩

theorem getAckBlks_length (k : Nat) (p : List UInt8) : (getAckBlks k p).1.length = k := by
  induction k generalizing p with
  | zero => rfl
  | succ k ih =>
    unfold getAckBlks
    exact congrArg Nat.succ (ih _)

/-- The decoder of ACK frames rejects what is not complete, and keeps the first blocks. -/
theorem pktDecodeAckFrame_decides :
    Decides (VarintsFit (4 + 2 * ackBlkCount payload) (payload.drop 1)) (pktDecodeAckFrame payload)
      fun d => ∃ fr, d.fr = .ack fr ∧ fr.blks.length = min maxAckBlks (ackBlkCount payload) := by
  have hnum : (getVarint (varintsEnd 2 (payload.drop 1))).1 = ackBlkCount payload := rfl
  generalize ackBlkCount payload = n at hnum ⊢
  rw [show 4 + 2 * n = 2 * n + 1 + 1 + 1 + 1 by omega]
  unfold pktDecodeAckFrame
  dsimp only
  split
  · refine .reject fun hfit => ?_
    have hle := hfit.le
    rw [List.length_drop] at hle
    omega
  have hlen : 1 + 1 + 1 + 1 + 1 + (payload.drop 1).length = payload.length + (3 + 1) := by
    rw [List.length_drop]
    omega
  change (getVarint (((payload.drop 1).drop _).drop _)).1 = n at hnum
  simp only [getVarint_snd]
  generalize payload.drop 1 = p at hlen hnum ⊢
  refine .fits 3 hlen (by omega) fun len₁ hlen₁ => ?_
  generalize p.drop (getVarintLen p) = p₁ at hlen₁ hnum ⊢
  refine .fits 2 hlen₁ (by omega) fun len₂ hlen₂ => ?_
  generalize p₁.drop (getVarintLen p₁) = p₂ at hlen₂ hnum ⊢
  refine .fits 1 hlen₂ (by omega) fun len₃ hlen₃ => ?_
  generalize p₂.drop (getVarintLen p₂) = p₃ at hlen₃ ⊢
  dsimp only
  rw [hnum]
  split
  · refine .reject fun hfit => ?_
    have hle := hfit.le
    omega
  -- the blocks are counted now
  have hblks : len₃ + n * (1 + 1) + p₃.length = payload.length + (2 * n + 1) := by omega
  refine .fits (2 * n) hblks (Nat.le_refl _) fun len₄ hlen₄ => ?_
  generalize p₃.drop (getVarintLen p₃) = p₄ at hlen₄ ⊢
  refine .varints hlen₄ fun len₅ hlen₅ => ?_
  have hend : (getAckBlks (n - min maxAckBlks n) (getAckBlks (min maxAckBlks n) p₄).2).2 =
      varintsEnd (2 * n) p₄ := by
    rw [getAckBlks_end, getAckBlks_end, ← varintsEnd_add]
    congr 1
    omega
  dsimp only
  rw [hend]
  unfold decodedFrame
  rw [if_pos (by omega)]
  exact ⟨_, rfl, _, rfl, getAckBlks_length _ _⟩

end

/-! ## The types of the format -/

/-- `ngtcp2_frame_type`. -/
inductive FrameType where
  | padding | rstStream | connectionClose | applicationClose | maxData | maxStreamData | maxStreamId
  | ping | blocked | streamBlocked | streamIdBlocked | newConnectionId | stopSending | pong | ack
  | stream
  deriving DecidableEq, Repr

/-- The types below STREAM, from 0x00 on. -/
def plainTypes : List FrameType :=
  [.padding, .rstStream, .connectionClose, .applicationClose, .maxData, .maxStreamData,
    .maxStreamId, .ping, .blocked, .streamBlocked, .streamIdBlocked, .newConnectionId,
    .stopSending, .pong, .ack]

/-- The type that a first byte stands for; that of a STREAM frame has three bits for flags. -/
def FrameType.ofByte? (type : Nat) : Option FrameType :=
  if 0x10 ≤ type ∧ type ≤ 0x17 then some .stream else plainTypes[type]?

/-- The decoder of a type. -/
def FrameType.decoder : FrameType → List UInt8 → Except Err Decoded
  | .padding => fun payload => .ok (pktDecodePaddingFrame payload)
  | .rstStream => pktDecodeRstStreamFrame
  | .connectionClose => pktDecodeConnectionCloseFrame
  | .applicationClose => pktDecodeApplicationCloseFrame
  | .maxData => pktDecodeMaxDataFrame
  | .maxStreamData => pktDecodeMaxStreamDataFrame
  | .maxStreamId => pktDecodeMaxStreamIdFrame
  | .ping => pktDecodePingFrame
  | .blocked => pktDecodeBlockedFrame
  | .streamBlocked => pktDecodeStreamBlockedFrame
  | .streamIdBlocked => pktDecodeStreamIdBlockedFrame
  | .newConnectionId => pktDecodeNewConnectionIdFrame
  | .stopSending => pktDecodeStopSendingFrame
  | .pong => pktDecodePongFrame
  | .ack => pktDecodeAckFrame
  | .stream => pktDecodeStreamFrame

/-- A payload of a known type goes to the decoder of this type, and every other one is rejected. -/
def DecodedByType (type : UInt8) (p : List UInt8) : Prop :=
  match FrameType.ofByte? type.toNat with
  | some t => pktDecodeFrame (type :: p) = (t.decoder (type :: p)).map some
  | none => pktDecodeFrame (type :: p) = .error .frameFormat

theorem pktDecodeFrame_stream {type : UInt8} (p : List UInt8)
    (hmask : hasMask type.toNat 0x10 = true) :
    pktDecodeFrame (type :: p) = (pktDecodeStreamFrame (type :: p)).map some := by
  unfold pktDecodeFrame
  dsimp only
  rw [if_pos hmask]

theorem pktDecodeFrame_ack {type : UInt8} (p : List UInt8)
    (hstream : hasMask type.toNat 0x10 = false) (hmask : hasMask type.toNat 0x0e = true) :
    pktDecodeFrame (type :: p) = (pktDecodeAckFrame (type :: p)).map some := by
  unfold pktDecodeFrame
  dsimp only
  rw [if_neg (by rw [hstream]; exact Bool.false_ne_true), if_pos hmask]

theorem pktDecodeFrame_known {type : UInt8} {t : FrameType} (p : List UInt8)
    (h : FrameType.ofByte? type.toNat = some t) :
    pktDecodeFrame (type :: p) = (t.decoder (type :: p)).map some := by
  unfold FrameType.ofByte? at h
  split at h
  · next hstream =>
    obtain rfl := Option.some.inj h
    refine pktDecodeFrame_stream p ?_
    generalize type.toNat = n at hstream ⊢
    obtain ⟨hge, hle⟩ := hstream
    interval_cases n <;> rfl
  · obtain ⟨hlt, -⟩ := List.getElem?_eq_some_iff.mp h
    have htype : UInt8.ofNat type.toNat = type := UInt8.ofNat_toNat
    generalize type.toNat = n at h hlt htype
    subst type
    change n < 15 at hlt
    interval_cases n
    all_goals
      obtain rfl := Option.some.inj h
      rfl

theorem Decides.error_iff {α : Type} {P : Prop} {x : Except Err α} {Q : α → Prop}
    (h : Decides P x Q) : x = .error .frameFormat ↔ ¬P := by
  rcases h with ⟨hnot, herr⟩ | ⟨hp, a, hok, -⟩
  · exact ⟨fun _ => hnot, fun _ => herr⟩
  · rw [hok]
    exact ⟨nofun, fun hnot => absurd hp hnot⟩

theorem map_some_error_iff {α : Type} (x : Except Err α) (e : Err) :
    x.map some = .error e ↔ x = .error e := by
  cases x <;> simp [Except.map]

/-- A payload of an unknown type is rejected unless its first byte and the rest make a complete
STREAM or ACK frame. -/
theorem pktDecodeFrame_unknown {type : UInt8} (p : List UInt8)
    (h : FrameType.ofByte? type.toNat = none) : pktDecodeFrame (type :: p) = .error .frameFormat ↔
      ¬StreamComplete (type :: p) ∧ ¬AckComplete (type :: p) := by
  by_cases hstream : hasMask type.toNat 0x10 = true
  · have hack : ¬AckComplete (type :: p) := fun hack => by
      have hnot : hasMask type.toNat 0x10 = false := hack.notStream
      rw [hstream] at hnot
      cases hnot
    rw [pktDecodeFrame_stream p hstream, map_some_error_iff, pktDecodeStreamFrame_decides.error_iff]
    exact ⟨fun hnot => ⟨fun hc => hnot hc.fits, hack⟩, fun hnot hfits => hnot.1 ⟨hstream, hfits⟩⟩
  have hnostream : ¬StreamComplete (type :: p) := fun hc => hstream hc.mask
  by_cases hack : hasMask type.toNat 0x0e = true
  · have hoff : hasMask type.toNat 0x10 = false := by simpa using hstream
    rw [pktDecodeFrame_ack p hoff hack, map_some_error_iff, pktDecodeAckFrame_decides.error_iff]
    exact ⟨fun hnot => ⟨hnostream, fun hc => hnot hc.fits⟩,
      fun hnot hfits => hnot.2 ⟨hoff, hack, hfits⟩⟩
  · have hnoack : ¬AckComplete (type :: p) := fun hc => hack hc.mask
    have hge : 15 ≤ type.toNat := by
      unfold FrameType.ofByte? at h
      split at h
      · cases h
      · exact List.getElem?_eq_none_iff.mp h
    have hne : ∀ b : UInt8, b.toNat < 15 → type ≠ b := by
      rintro b hb rfl
      omega
    refine iff_of_true ?_ ⟨hnostream, hnoack⟩
    unfold pktDecodeFrame
    dsimp only
    rw [if_neg hstream, if_neg hack, if_neg (hne 0x00 (by decide)), if_neg (hne 0x01 (by
      decide)), if_neg (hne 0x02 (by decide)), if_neg (hne 0x03 (by decide)), if_neg (hne 0x04
      (by decide)), if_neg (hne 0x05 (by decide)), if_neg (hne 0x06 (by decide)), if_neg (hne
      0x07 (by decide)), if_neg (hne 0x08 (by decide)), if_neg (hne 0x09 (by decide)), if_neg
      (hne 0x0a (by decide)), if_neg (hne 0x0b (by decide)), if_neg (hne 0x0c (by decide)),
      if_neg (hne 0x0d (by decide))]
    rfl

/-- Exactly the payloads of an unknown type that look like a complete STREAM or ACK frame are not
treated by their type. -/
theorem decodedByType_iff (type : UInt8) (p : List UInt8) : DecodedByType type p ↔
    (FrameType.ofByte? type.toNat ≠ none ∨
      (¬StreamComplete (type :: p) ∧ ¬AckComplete (type :: p))) := by
  unfold DecodedByType
  cases htype : FrameType.ofByte? type.toNat with
  | some t => exact iff_of_true (pktDecodeFrame_known p htype) (.inl (by simp))
  | none =>
    dsimp only
    rw [pktDecodeFrame_unknown p htype]
    simp

/-- A byte with the bit of STREAM, and one with the bits of ACK. -/
theorem decodedByType_lookalikes :
    FrameType.ofByte? 0x98 = none ∧ ¬DecodedByType 0x98 [4, 1, 2] ∧
      pktDecodeFrame [0x98, 4, 1, 2] = .ok (some ⟨4, .stream ⟨4, 0, [1, 2], false⟩, 0x88⟩) ∧
      FrameType.ofByte? 0x0f = none ∧ ¬DecodedByType 0x0f [5, 0, 0, 2] ∧
      pktDecodeFrame [0x0f, 5, 0, 0, 2] = .ok (some ⟨5, .ack ⟨5, 0, 2, []⟩, 0⟩) := by
  have hstream : pktDecodeFrame [0x98, 4, 1, 2] =
      .ok (some ⟨4, .stream ⟨4, 0, [1, 2], false⟩, 0x88⟩) := by rfl
  have hack : pktDecodeFrame [0x0f, 5, 0, 0, 2] = .ok (some ⟨5, .ack ⟨5, 0, 2, []⟩, 0⟩) := by rfl
  refine ⟨rfl, fun h => ?_, hstream, rfl, fun h => ?_, hack⟩
  · have h : pktDecodeFrame [0x98, 4, 1, 2] = .error .frameFormat := h
    rw [hstream] at h
    cases h
  · have h : pktDecodeFrame [0x0f, 5, 0, 0, 2] = .error .frameFormat := h
    rw [hack] at h
    cases h

/-! ## The room for the blocks of an ACK frame -/

/-- The callers of `ngtcp2_pkt_decode_frame`. -/
inductive FrameReceiver where
  | recvPkt | recvHandshakePkt | recvDelayedHandshakePkt
  deriving DecidableEq, Repr

/-- The objects they pass: a `ngtcp2_frame`, whose ACK frame has room for one block, or a
`ngtcp2_max_frame`. -/
inductive FrameDest where
  | frame | maxFrame
  deriving DecidableEq, Repr

/-- The blocks that an object has room for. -/
def FrameDest.blkRoom : FrameDest → Nat
  | .frame => 1
  | .maxFrame => 1 + (maxAckBlks - 1)

/-- The object that a caller passes. -/
def FrameReceiver.dest : FrameReceiver → FrameDest
  | .recvPkt => .maxFrame
  | .recvHandshakePkt => .maxFrame
  | .recvDelayedHandshakePkt => .frame

/-- The blocks that `ngtcp2_pkt_decode_frame` writes. Only the decoder of ACK frames writes any:
those of the frame that it returns, as it has checked everything before. -/
def ackBlksWritten (payload : List UInt8) : Nat :=
  match payload with
  | [] => 0
  | type :: _ =>
    if hasMask type.toNat 0x10 then 0
    else if hasMask type.toNat 0x0e then
      match pktDecodeAckFrame payload with
      | .ok ⟨_, .ack fr, _⟩ => fr.blks.length
      | _ => 0
    else 0

theorem AckComplete.ackBlksWritten {payload : List UInt8} (h : AckComplete payload) :
    ackBlksWritten payload = min maxAckBlks (ackBlkCount payload) := by
  cases payload with
  | nil => exact absurd h.mask (by decide)
  | cons type p =>
    have hstream : hasMask type.toNat 0x10 = false := h.notStream
    have hack : hasMask type.toNat 0x0e = true := h.mask
    unfold Ngtcp2.ackBlksWritten
    dsimp only
    rw [if_neg (by rw [hstream]; exact Bool.false_ne_true), if_pos hack]
    rcases @pktDecodeAckFrame_decides (type :: p) with ⟨hnot, -⟩ | ⟨-, d, hok, fr, hfr, hlen⟩
    · exact absurd h.fits hnot
    · obtain ⟨len, fr', flags⟩ := d
      obtain rfl : fr' = .ack fr := hfr
      rw [hok]
      exact hlen

theorem ackBlksWritten_of_not {payload : List UInt8} (h : ¬AckComplete payload) :
    ackBlksWritten payload = 0 := by
  cases payload with
  | nil => rfl
  | cons type p =>
    unfold ackBlksWritten
    dsimp only
    split
    · rfl
    next hstream =>
    split
    · next hack =>
      have hnot : ¬VarintsFit (4 + 2 * ackBlkCount (type :: p)) ((type :: p).drop 1) :=
        fun hfits => h ⟨by simpa using hstream, hack, hfits⟩
      rw [pktDecodeAckFrame_decides.error_iff.mpr hnot]
    · rfl

/-- The blocks fit into the object of the caller, except for two or more blocks in a delayed
handshake packet. -/
theorem ackBlksWritten_le_iff (rc : FrameReceiver) (payload : List UInt8) :
    ackBlksWritten payload ≤ rc.dest.blkRoom ↔
      ¬(rc = .recvDelayedHandshakePkt ∧ AckComplete payload ∧ 2 ≤ ackBlkCount payload) := by
  by_cases h : AckComplete payload
  · rw [h.ackBlksWritten]
    have hmax : maxAckBlks = 255 := rfl
    cases rc with
    | recvPkt =>
      have hroom : FrameReceiver.recvPkt.dest.blkRoom = 255 := rfl
      exact iff_of_true (by omega) (by simp)
    | recvHandshakePkt =>
      have hroom : FrameReceiver.recvHandshakePkt.dest.blkRoom = 255 := rfl
      exact iff_of_true (by omega) (by simp)
    | recvDelayedHandshakePkt =>
      have hroom : FrameReceiver.recvDelayedHandshakePkt.dest.blkRoom = 1 := rfl
      constructor
      · rintro hle ⟨-, -, htwo⟩
        omega
      · intro hnot
        have hlt : ¬2 ≤ ackBlkCount payload := fun htwo => hnot ⟨rfl, h, htwo⟩
        omega
  · rw [ackBlksWritten_of_not h]
    exact iff_of_true (Nat.zero_le _) fun hc => h hc.2.1

/-- Two blocks, and room for one. -/
theorem ackBlksWritten_overflow :
    ackBlksWritten [0x0e, 9, 0, 2, 0, 0, 0, 0, 0] = 2 ∧
      ¬ackBlksWritten [0x0e, 9, 0, 2, 0, 0, 0, 0, 0] ≤
        FrameReceiver.recvDelayedHandshakePkt.dest.blkRoom := ⟨rfl, by decide⟩

end Ngtcp2
