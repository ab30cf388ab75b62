import Polygon.FrameRoundTrip
import Polygon.PacketSteps
import Polygon.Lib.Buffer

/-!
# Packets in their buffer

`ngtcp2_ppe` with the bytes of its buffer. The header and the frames are written one after
the other, with the room of the AEAD kept free, and the payload is encrypted in place. What
the receiver decrypts and decodes is what was written.
-/
namespace Ngtcp2

/-! ## Headers -/

/-- The value of an `ngtcp2_pkt_type`. -/
def pktTypeCode : PktType → Nat
  | .initial => 0x7f
  | .retry => 0x7e
  | .handshake => 0x7d
  | .zeroRttProtected => 0x7c
  | .pkt01 => 0x1f
  | .pkt02 => 0x1e
  | .pkt03 => 0x1d
  | .versionNegotiation => 0x00

/-- `ngtcp2_pkt_encode_hd_long`: the bytes it writes. -/
def pktEncodeHdLong (outlen : Nat) (hd : PktHd) : Except Err (List UInt8) :=
  if outlen < longHeaderlen then .error .noBuf
  else
    .ok (UInt8.ofNat (0x80 ||| pktTypeCode hd.type) :: putUint64be hd.connId ++ putUint32be hd.version ++
      putUint32be hd.pktNum)

/-- The header encoder that `ngtcp2_ppe_encode_hd` chooses. -/
def pktEncodeHd (outlen : Nat) (hd : PktHd) : Except Err (List UInt8) :=
  if hd.longForm then pktEncodeHdLong outlen hd else pktEncodeHdShort outlen hd

/-- `ngtcp2_pkt_decode_hd`. -/
def pktDecodeHd (pkt : List UInt8) : Except Err (Nat × PktHd) :=
  if pkt.length = 0 then .error .invalidArgument
  else if (pkt.headD 0).toNat &&& 0x80 ≠ 0 then pktDecodeHdLong pkt
  else pktDecodeHdShort pkt

/-! ## The packet encoder -/

/-- `ngtcp2_ppe`. -/
structure PpeBuf where
  buf : Buffer UInt8
  hdlen : Nat
  pktNum : Nat

/-- The encrypt callback: it adds `overhead` bytes, and decrypt takes them away again. -/
structure Aead where
  overhead : Nat
  encrypt : (plain key nonce ad : List UInt8) → List UInt8
  decrypt : (cipher key nonce ad : List UInt8) → Except Err (List UInt8)
  encrypt_length : ∀ plain key nonce ad, (encrypt plain key nonce ad).length =
    plain.length + overhead
  decrypt_encrypt : ∀ plain key nonce ad, decrypt (encrypt plain key nonce ad) key nonce ad =
    .ok plain

namespace PpeBuf

/-- `ngtcp2_ppe_init`. -/
def init (out : List UInt8) : PpeBuf := { buf := ⟨out, 0⟩, hdlen := 0, pktNum := 0 }

/-- `ngtcp2_ppe_encode_hd`. -/
def encodeHd (ppe : PpeBuf) (aeadOverhead : Nat) (hd : PktHd) : Except Err Unit × PpeBuf :=
  if ppe.buf.left < aeadOverhead then (.error .noBuf, ppe)
  else
    match pktEncodeHd (ppe.buf.left - aeadOverhead) hd with
    | .error e => (.error e, ppe)
    | .ok bytes => (.ok (), { buf := ppe.buf.write bytes, hdlen := bytes.length, pktNum := hd.pktNum })

/-- `ngtcp2_ppe_encode_frame`. -/
def encodeFrame (ppe : PpeBuf) (aeadOverhead : Nat) (fr : Frame) : Except Err Unit × PpeBuf :=
  if ppe.buf.left < aeadOverhead then (.error .noBuf, ppe)
  else
    match pktEncodeFrame (ppe.buf.left - aeadOverhead) fr with
    | .error e => (.error e, ppe)
    | .ok enc => (.ok (), { ppe with buf := ppe.buf.write enc.bytes })

/-- `ngtcp2_ppe_left`. -/
def left (ppe : PpeBuf) (aeadOverhead : Nat) : Nat :=
  if ppe.buf.left < aeadOverhead then 0 else ppe.buf.left - aeadOverhead

/-- `ngtcp2_ppe_padding`, with its assertion. -/
def padding (ppe : PpeBuf) (aeadOverhead : Nat) : Except Err Nat × PpeBuf :=
  if ppe.buf.left < aeadOverhead then (.error .abort, ppe)
  else
    let len := ppe.buf.left - aeadOverhead
    (.ok len, { ppe with buf := ppe.buf.write (List.replicate len 0) })

/-- `ngtcp2_ppe_final`: the payload is encrypted in place, with the header as additional data. -/
def final (ppe : PpeBuf) (aead : Aead) (ckm : CryptoKm) : List UInt8 × PpeBuf :=
  let payload := ppe.buf.content.drop ppe.hdlen
  let nonce := cryptoCreateNonce ckm.iv ppe.pktNum
  let cipher := aead.encrypt payload ckm.key nonce (ppe.buf.content.take ppe.hdlen)
  let ppe := { ppe with buf := (ppe.buf.rewind ppe.hdlen).write cipher }
  (ppe.buf.content, ppe)

/-- The writer of a packet goes through its frames; those without room are left out. The frames in
the packet come with the encoder. -/
def encodeFrames (aeadOverhead : Nat) : List Frame → PpeBuf → List Frame × PpeBuf
  | [], ppe => ([], ppe)
  | fr :: frs, ppe =>
    match ppe.encodeFrame aeadOverhead fr with
    | (.ok _, ppe) =>
      let (sent, ppe) := encodeFrames aeadOverhead frs ppe
      (fr :: sent, ppe)
    | (.error _, ppe) => encodeFrames aeadOverhead frs ppe

/-- The end of a packet, with or without padding. -/
def finish (ppe : PpeBuf) (aead : Aead) (ckm : CryptoKm) (pad : Bool) :
    Except Err (List UInt8 × PpeBuf) :=
  if pad then
    match ppe.padding aead.overhead with
    | (.error e, _) => .error e
    | (.ok _, ppe) => .ok (ppe.final aead ckm)
  else .ok (ppe.final aead ckm)

end PpeBuf

/-- The frames of a payload, one after the other. The fuel bounds the turns. -/
def pktDecodeFrames : Nat → List UInt8 → Except Err (List Frame)
  | 0, _ => .error .abort
  | fuel + 1, payload =>
    match pktDecodeFrame payload with
    | .error e => .error e
    | .ok none => .ok []
    | .ok (some fr) => (pktDecodeFrames fuel (payload.drop fr.len)).map (fr.fr :: ·)

/-! ## Headers on the wire -/

/-- One of the four types of a long header. -/
def PktType.isLong (type : PktType) : Prop :=
    type ∈ [.initial, .retry, .handshake, .zeroRttProtected]

/-- The values of a header that the wire can carry, and one of the types of its form. -/
structure PktHd.WireRange (hd : PktHd) : Prop where
  connId : hd.connId < 2 ^ 64
  version : hd.version < 2 ^ 32
  type : if hd.longForm then hd.type.isLong else hd.type.isShort

/-- What a header looks like to its receiver: the packet number is cut to its width, and what the
form of the header has no room for is lost. -/
def PktHd.seen (hd : PktHd) : PktHd :=
  if hd.longForm then { hd with omitConnId := false, keyPhase := false, pktNum := hd.pktNum % 256 ^ 4 }
  else hd.shortSeen ((pktNumLen hd.type).getD 0)

/-- The two sides of a header: it is written as `bytes`, and read back from them. -/
structure HdOnWire (hd : PktHd) (bytes : List UInt8) : Prop where
  len : hdLen hd = .ok bytes.length
  encode : ∀ outlen, pktEncodeHd outlen hd =
    if outlen < bytes.length then .error .noBuf else .ok bytes
  decode : ∀ rest, pktDecodeHd (bytes ++ rest) = .ok (bytes.length, hd.seen)

theorem longFirstByte_bits {type : PktType} (h : type.isLong) : 0x80 ||| pktTypeCode type < 256 ∧
    (0x80 ||| pktTypeCode type) &&& 0x80 ≠ 0 ∧
    longTypeOf ((0x80 ||| pktTypeCode type) &&& 0x7f) = some type := by
  have hall : ∀ type ∈ [PktType.initial, .retry, .handshake, .zeroRttProtected],
    0x80 ||| pktTypeCode type < 256 ∧
      (0x80 ||| pktTypeCode type) &&& 0x80 ≠ 0 ∧
        longTypeOf ((0x80 ||| pktTypeCode type) &&& 0x7f) = some type := by
    decide
  exact hall type h

/-- What a long header writes. -/
def longHdBytes (hd : PktHd) : List UInt8 :=
  UInt8.ofNat (0x80 ||| pktTypeCode hd.type) :: putUint64be hd.connId ++ putUint32be hd.version ++ putUint32be hd.pktNum

theorem longHdBytes_length (hd : PktHd) : (longHdBytes hd).length = longHeaderlen := by
  simp only [longHdBytes, putUint64be, putUint32be, List.length_append, List.length_cons,
    BigEndian.put_length, longHeaderlen]

theorem longHdBytes_headD {hd : PktHd} (h : hd.type.isLong) (rest : List UInt8) :
    ((longHdBytes hd ++ rest).headD 0).toNat = 0x80 ||| pktTypeCode hd.type := by
  obtain ⟨hbyte, -, -⟩ := longFirstByte_bits h
  show (UInt8.ofNat (0x80 ||| pktTypeCode hd.type)).toNat = _
  rw [UInt8.toNat_ofNat']
  omega

theorem PktHd.WireRange.isLong {hd : PktHd} (h : hd.WireRange) (hlong : hd.longForm = true) :
    hd.type.isLong := by
  have htype := h.type
  rwa [if_pos hlong] at htype

theorem PktHd.WireRange.isShort {hd : PktHd} (h : hd.WireRange) (hlong : hd.longForm = false) :
    hd.type.isShort := by
  have htype := h.type
  rwa [if_neg (by rw [hlong]; exact Bool.false_ne_true)] at htype

theorem pktDecodeHdLong_encode {hd : PktHd} (h : hd.WireRange) (hlong : hd.longForm = true)
    (rest : List UInt8) :
    pktDecodeHdLong (longHdBytes hd ++ rest) = .ok (longHeaderlen, hd.seen) := by
  obtain ⟨-, hform, hof⟩ := longFirstByte_bits (h.isLong hlong)
  have hb := longHdBytes_headD (h.isLong hlong) rest
  have hlen : ¬(longHdBytes hd ++ rest).length < longHeaderlen := by
    rw [List.length_append, longHdBytes_length]
    omega
  have h8 : (putUint64be hd.connId).length = 8 := BigEndian.put_length 8 _
  have h4 : (putUint32be hd.version).length = 4 := BigEndian.put_length 4 _
  have h4' : (putUint32be hd.pktNum).length = 4 := BigEndian.put_length 4 _
  have hsplit : longHdBytes hd ++ rest = UInt8.ofNat (0x80 ||| pktTypeCode hd.type) ::
      (putUint64be hd.connId ++ (putUint32be hd.version ++ (putUint32be hd.pktNum ++ rest))) := by
    simp only [longHdBytes, List.cons_append, List.append_assoc]
  have hconnId : getUint64 ((longHdBytes hd ++ rest).drop 1) = hd.connId := by
    rw [hsplit]
    exact getUint64_put h.connId _
  have hversion : getUint32 ((longHdBytes hd ++ rest).drop 9) = hd.version := by
    rw [hsplit, List.drop_succ_cons, List.drop_left' h8, getUint32, List.take_left' h4]
    exact BigEndian.get_put_of_lt h.version
  have hpktNum : getUint32 ((longHdBytes hd ++ rest).drop 13) = hd.pktNum % 256 ^ 4 := by
    rw [hsplit, List.drop_succ_cons, ← List.append_assoc,
      List.drop_left' (by rw [List.length_append, h8, h4]), getUint32,
      List.take_left' h4']
    exact BigEndian.get_put 4 _
  unfold pktDecodeHdLong
  dsimp only
  rw [hb, if_neg hlen, if_neg hform, hof, hconnId, hversion, hpktNum, PktHd.seen, if_pos hlong,
    hlong]

/-- A long header on the wire. -/
theorem hdOnWire_long {hd : PktHd} (h : hd.WireRange) (hlong : hd.longForm = true) :
    HdOnWire hd (longHdBytes hd) := by
  obtain ⟨-, hform, -⟩ := longFirstByte_bits (h.isLong hlong)
  refine ⟨?_, fun outlen => ?_, fun rest => ?_⟩
  · rw [hdLen, hlong, longHdBytes_length]
    rfl
  · rw [pktEncodeHd, hlong, longHdBytes_length]
    rfl
  · have hlen : (longHdBytes hd ++ rest).length ≠ 0 := by
      rw [List.length_append, longHdBytes_length]
      exact Nat.ne_of_gt (Nat.lt_of_lt_of_le (by decide) (Nat.le_add_right _ _))
    rw [longHdBytes_length, pktDecodeHd, if_neg hlen, longHdBytes_headD (h.isLong hlong),
      if_pos hform,
      pktDecodeHdLong_encode h hlong]

/-- What a short header writes, with `n` bytes for the packet number. -/
def shortHdBytes (hd : PktHd) (n : Nat) : List UInt8 :=
  UInt8.ofNat (shortFirstByte hd.type hd.omitConnId hd.keyPhase) ::
    (if hd.omitConnId then [] else putUint64be hd.connId) ++ BigEndian.put n hd.pktNum

theorem shortHdBytes_length (hd : PktHd) (n : Nat) :
    (shortHdBytes hd n).length = (if hd.omitConnId then 1 else 1 + 8) + n := by
  cases homit : hd.omitConnId <;> simp [shortHdBytes, homit, putUint64be] <;> omega

theorem pktEncodeHdShort_eq {hd : PktHd} {n : Nat} (hn : pktNumLen hd.type = some n)
    (outlen : Nat) :
    pktEncodeHdShort outlen hd =
      if outlen < (shortHdBytes hd n).length then .error .noBuf else .ok (shortHdBytes hd n) := by
  rw [shortHdBytes_length, pktEncodeHdShort, hn]
  rfl

/-- A short header on the wire. -/
theorem hdOnWire_short {hd : PktHd} (h : hd.WireRange) (hlong : hd.longForm = false) :
    ∃ bytes, HdOnWire hd bytes := by
  have hshort := h.isShort hlong
  obtain ⟨n, hn⟩ : ∃ n, pktNumLen hd.type = some n := by
    rcases hshort with ht | ht | ht <;> rw [ht] <;> exact ⟨_, rfl⟩
  have hencode := pktEncodeHdShort_eq hn
  refine ⟨shortHdBytes hd n, ?_, fun outlen => ?_, fun rest => ?_⟩
  · rw [hdLen_short hlong hn, shortHdBytes_length]
  · rw [pktEncodeHd, hlong, ← hencode]
    rfl
  · have hbytes := (hencode (shortHdBytes hd n).length).trans (if_neg (Nat.lt_irrefl _))
    have hdec := pktDecodeHdShort_encode hshort h.connId hn hbytes rest
    have hpos : (shortHdBytes hd n ++ rest).length ≠ 0 := Nat.succ_ne_zero _
    have hform : ¬((shortHdBytes hd n ++ rest).headD 0).toNat &&& 0x80 ≠ 0 := by
      intro hform
      rw [pktDecodeHdShort, if_pos hform] at hdec
      cases hdec
    rw [pktDecodeHd, if_neg hpos, if_neg hform, hdec, PktHd.seen, hlong, if_neg Bool.false_ne_true,
      hn]
    rfl

theorem PktHd.WireRange.onWire {hd : PktHd} (h : hd.WireRange) : ∃ bytes, HdOnWire hd bytes := by
  cases hlong : hd.longForm with
  | true => exact ⟨_, hdOnWire_long h hlong⟩
  | false => exact hdOnWire_short h hlong

/-! ## Frames on the wire -/

/-- The frames written one after the other, none of them padding. -/
inductive FramesOnWire : List Frame → List UInt8 → Prop where
  | nil : FramesOnWire [] []
  | cons {fr : Frame} {frs : List Frame} {bytes rest : List UInt8} {flags : Nat}
      (wire : OnWire fr bytes flags)
      (other : ∀ len, fr ≠ .padding len) (more : FramesOnWire frs rest) :
        FramesOnWire (fr :: frs) (bytes ++ rest)

/-- The frames that zeros behind the last frame are read as. -/
def paddingFrames (len : Nat) : List Frame := if len = 0 then [] else [.padding len]

theorem FramesOnWire.snoc {fr : Frame} {frs : List Frame} {bytes bs : List UInt8} {flags : Nat}
    (h : FramesOnWire frs bytes)
    (wire : OnWire fr bs flags) (other : ∀ len, fr ≠ .padding len) :
    FramesOnWire (frs ++ [fr]) (bytes ++ bs) := by
  induction h with
  | nil => simpa using FramesOnWire.cons wire other .nil
  | cons wire' other' _ ih =>
    rw [List.cons_append, List.append_assoc]
    exact .cons wire' other' ih

theorem pktDecodeFrames_zeros {fuel len : Nat} (h : len < fuel) :
    pktDecodeFrames fuel (List.replicate len 0) = .ok (paddingFrames len) := by
  obtain ⟨fuel, rfl⟩ : ∃ k, fuel = k + 1 := Nat.exists_eq_add_of_le' (Nat.one_le_of_lt h)
  rw [pktDecodeFrames]
  by_cases hlen : len = 0
  · rw [hlen, paddingFrames, if_pos rfl]
    rfl
  · have hdec := (onWire_padding (Nat.pos_of_ne_zero hlen)).decode [] (by simp [Frame.follows])
    obtain ⟨fuel, rfl⟩ : ∃ k, fuel = k + 1 := Nat.exists_eq_add_of_le' (by omega)
    rw [List.append_nil] at hdec
    rw [hdec, paddingFrames, if_neg hlen]
    dsimp only
    rw [List.drop_of_length_le (Nat.le_refl _)]
    rfl

/-- The frames and the padding behind them are read back. -/
theorem FramesOnWire.decode {frs : List Frame} {bytes : List UInt8} (h : FramesOnWire frs bytes)
    {fuel len : Nat}
    (hfuel : bytes.length + len < fuel) :
    pktDecodeFrames fuel (bytes ++ List.replicate len 0) = .ok (frs ++ paddingFrames len) := by
  induction h generalizing fuel with
  | nil => exact pktDecodeFrames_zeros (by simpa using hfuel)
  | @cons fr frs bytes rest flags wire other more ih =>
    obtain ⟨fuel, rfl⟩ : ∃ k, fuel = k + 1 := Nat.exists_eq_add_of_le' (Nat.one_le_of_lt hfuel)
    have hfollows : fr.follows (rest ++ List.replicate len 0) := by
      cases fr with
      | padding n => exact absurd rfl (other n)
      | _ => trivial
    have hdec := wire.decode _ hfollows
    have hpos : 0 < bytes.length := pktDecodeFrame_pos hdec
    rw [List.length_append] at hfuel
    rw [pktDecodeFrames, List.append_assoc, hdec]
    dsimp only
    rw [List.drop_left, ih (by omega)]
    rfl

/-! ## Filling the buffer -/

/-- A step that needs `len` bytes: with enough room they are written behind what is there, otherwise the step returns
`NGTCP2_ERR_NOBUF` and nothing is written. -/
def Guarded (aeadOverhead len : Nat) (ppe : PpeBuf) (r : Except Err Unit × PpeBuf) : Prop :=
  if len + aeadOverhead ≤ ppe.buf.left then
    r.1 = .ok () ∧ r.2.buf.mem.length = ppe.buf.mem.length ∧
      ∃ bytes, bytes.length = len ∧ r.2.buf.content = ppe.buf.content ++ bytes
  else r = (.error .noBuf, ppe)

/-- The buffer holds the header and the frames, and room for the AEAD. -/
structure Filled (aeadOverhead : Nat) (hd : PktHd) (hdBytes : List UInt8) (size : Nat)
    (frs : List Frame) (ppe : PpeBuf) :
    Prop where
  length : ppe.buf.mem.length = size
  room : ppe.buf.last + aeadOverhead ≤ size
  content : ∃ payload, ppe.buf.content = hdBytes ++ payload ∧ FramesOnWire frs payload
  hdlen : ppe.hdlen = hdBytes.length
  pktNum : ppe.pktNum = hd.pktNum

section
variable {aeadOverhead len size : Nat} {hd : PktHd} {hdBytes bytes : List UInt8} {frs : List Frame} {fr : Frame}
  {ppe : PpeBuf}

/-- A write with the room that was checked. -/
theorem guarded_write (hlast : ppe.buf.last ≤ ppe.buf.mem.length) {ppe' : PpeBuf}
    (hbuf : ppe'.buf = ppe.buf.write bytes) :
    Guarded aeadOverhead bytes.length ppe
      (if bytes.length + aeadOverhead ≤ ppe.buf.left then (.ok (), ppe') else (.error .noBuf,
      ppe)) := by
  unfold Guarded
  split
  · next hfits =>
    unfold Buffer.left at hfits
    refine ⟨rfl, ?_, bytes, rfl, ?_⟩
    · rw [hbuf, Buffer.write_length (by omega)]
    · rw [hbuf, Buffer.write_content hlast]
  · rfl

theorem encodeHd_eq (wire : HdOnWire hd hdBytes) (ppe : PpeBuf) :
    ppe.encodeHd aeadOverhead hd =
      if hdBytes.length + aeadOverhead ≤ ppe.buf.left then
        (.ok (), { buf := ppe.buf.write hdBytes, hdlen := hdBytes.length, pktNum := hd.pktNum })
      else (.error .noBuf, ppe) := by
  unfold PpeBuf.encodeHd
  rw [wire.encode]
  split_ifs <;> first | rfl | omega

theorem encodeFrame_eq {flags : Nat} (wire : OnWire fr bytes flags) (ppe : PpeBuf) :
    ppe.encodeFrame aeadOverhead fr =
      if bytes.length + aeadOverhead ≤ ppe.buf.left then (.ok (),
      { ppe with buf := ppe.buf.write bytes })
      else (.error .noBuf, ppe) := by
  unfold PpeBuf.encodeFrame
  rw [wire.encode, wire.len, encodeBytes, if_pos rfl]
  split_ifs <;> first | rfl | omega

theorem encodeHd_guarded (wire : HdOnWire hd hdBytes) (hlast : ppe.buf.last ≤ ppe.buf.mem.length) :
    Guarded aeadOverhead hdBytes.length ppe (ppe.encodeHd aeadOverhead hd) := by
  rw [encodeHd_eq wire]
  exact guarded_write hlast rfl

theorem encodeFrame_guarded {flags : Nat} (wire : OnWire fr bytes flags)
    (hlast : ppe.buf.last ≤ ppe.buf.mem.length) :
    Guarded aeadOverhead bytes.length ppe (ppe.encodeFrame aeadOverhead fr) := by
  rw [encodeFrame_eq wire]
  exact guarded_write hlast rfl

theorem Filled.last_le (h : Filled aeadOverhead hd hdBytes size frs ppe) :
    ppe.buf.last ≤ ppe.buf.mem.length := by
  have hroom := h.room
  rw [h.length]
  omega

/-- The header is the first thing in the buffer. -/
theorem encodeHd_filled {out : List UInt8} (wire : HdOnWire hd hdBytes)
    (h : (PpeBuf.init out).encodeHd aeadOverhead hd = (.ok (), ppe)) :
    Filled aeadOverhead hd hdBytes out.length [] ppe := by
  rw [encodeHd_eq wire] at h
  split at h
  · next hfits =>
    obtain ⟨-, rfl⟩ := Prod.mk.inj h
    have hfits : hdBytes.length + aeadOverhead ≤ out.length - 0 := hfits
    refine ⟨?_, ?_, ⟨[], ?_, .nil⟩, rfl, rfl⟩
    · exact Buffer.write_length (by show 0 + _ ≤ out.length; omega)
    · show 0 + hdBytes.length + aeadOverhead ≤ out.length
      omega
    · rw [List.append_nil]
      exact Buffer.write_content (Nat.zero_le _)
  · cases h

/-- One more frame, if there is room for it. -/
theorem Filled.encodeFrame {flags : Nat} (h : Filled aeadOverhead hd hdBytes size frs ppe)
    (wire : OnWire fr bytes flags)
    (other : ∀ len, fr ≠ .padding len) :
    (∃ ppe', ppe.encodeFrame aeadOverhead fr = (.ok (), ppe') ∧
    Filled aeadOverhead hd hdBytes size (frs ++ [fr]) ppe') ∨
      ppe.encodeFrame aeadOverhead fr = (.error .noBuf, ppe) := by
  rw [encodeFrame_eq wire]
  split
  · next hfits =>
    have hroom := h.room
    unfold Buffer.left at hfits
    rw [h.length] at hfits
    obtain ⟨payload, hcontent, hframes⟩ := h.content
    refine .inl ⟨_, rfl, ?_, ?_, ⟨payload ++ bytes, ?_, hframes.snoc wire other⟩, h.hdlen, h.pktNum⟩
    · exact (Buffer.write_length (by rw [h.length]; omega)).trans h.length
    · show ppe.buf.last + bytes.length + aeadOverhead ≤ size
      omega
    · rw [← List.append_assoc, ← hcontent]
      exact Buffer.write_content h.last_le
  · exact .inr rfl

/-- The frames that can be written and are not padding. -/
def Sendable (frs : List Frame) : Prop := ∀ fr ∈ frs, fr.WireRange ∧ ∀ len, fr ≠ .padding len

theorem Filled.encodeFrames {frs' : List Frame} (h : Filled aeadOverhead hd hdBytes size frs ppe)
    (hfrs : Sendable frs') :
    Filled aeadOverhead hd hdBytes size (frs ++ (PpeBuf.encodeFrames aeadOverhead frs' ppe).1)
      (PpeBuf.encodeFrames aeadOverhead frs' ppe).2 := by
  induction frs' generalizing frs ppe with
  | nil =>
    rw [PpeBuf.encodeFrames, List.append_nil]
    exact h
  | cons fr frs' ih =>
    obtain ⟨hrange, hother⟩ := hfrs fr List.mem_cons_self
    obtain ⟨bytes, flags, wire⟩ := hrange.onWire
    have hrest : Sendable frs' := fun fr' hfr' => hfrs fr' (List.mem_cons_of_mem _ hfr')
    rw [PpeBuf.encodeFrames]
    rcases h.encodeFrame wire hother with ⟨ppe', heq, hfilled⟩ | heq
    · rw [heq]
      have hall := ih hfilled hrest
      rw [List.append_assoc] at hall
      exact hall
    · rw [heq]
      exact ih h hrest

theorem encodeFrames_sublist (frs : List Frame) (ppe : PpeBuf) :
    (PpeBuf.encodeFrames aeadOverhead frs ppe).1.Sublist frs := by
  induction frs generalizing ppe with
  | nil => exact List.Sublist.refl _
  | cons fr frs ih =>
    rw [PpeBuf.encodeFrames]
    rcases ppe.encodeFrame aeadOverhead fr with ⟨_ | _, ppe'⟩
    · exact (ih ppe').cons _
    · exact (ih ppe').cons_cons _

end

/-! ## The packet -/

/-- What the receiver of a packet reads: the header, and the frames of the payload once it is decrypted. -/
structure Reads (aead : Aead) (ckm : CryptoKm) (hd : PktHd) (frs : List Frame) (pkt : List UInt8) :
    Prop where
  reads : ∃ nread plain, pktDecodeHd pkt = .ok (nread, hd.seen) ∧
    aead.decrypt (pkt.drop nread) ckm.key (cryptoCreateNonce ckm.iv hd.pktNum) (pkt.take nread) =
      .ok plain ∧
    pktDecodeFrames (plain.length + 1) plain = .ok frs

section
variable {size : Nat} {hd : PktHd} {hdBytes payload : List UInt8} {frs : List Frame} {ppe : PpeBuf}

/-- The encrypted packet. -/
theorem final_eq (aead : Aead) (ckm : CryptoKm) (hlast : ppe.buf.last ≤ ppe.buf.mem.length)
    (hcontent : ppe.buf.content = hdBytes ++ payload) (hhdlen : ppe.hdlen = hdBytes.length) :
    (ppe.final aead ckm).1 =
      hdBytes ++ aead.encrypt payload ckm.key (cryptoCreateNonce ckm.iv ppe.pktNum) hdBytes := by
  have hle : hdBytes.length ≤ ppe.buf.last := by
    rw [← Buffer.content_length hlast, hcontent, List.length_append]
    exact Nat.le_add_right _ _
  have hrewind : (ppe.buf.rewind hdBytes.length).last ≤
    (ppe.buf.rewind hdBytes.length).mem.length := le_trans hle hlast
  unfold PpeBuf.final
  dsimp only
  rw [hhdlen, Buffer.write_content hrewind, Buffer.rewind_content hle, hcontent, List.take_left,
    List.drop_left]

theorem final_reads (aead : Aead) (ckm : CryptoKm) (wire : HdOnWire hd hdBytes)
    (hdec : pktDecodeFrames (payload.length + 1) payload = .ok frs) :
    Reads aead ckm hd frs (hdBytes ++ aead.encrypt payload ckm.key (cryptoCreateNonce ckm.iv hd.pktNum) hdBytes) := by
  refine ⟨hdBytes.length, payload, wire.decode _, ?_, hdec⟩
  rw [List.drop_left, List.take_left, aead.decrypt_encrypt]

/-- A filled buffer becomes a packet: the room that was kept free is what the AEAD needs. -/
theorem final_spec (aead : Aead) (ckm : CryptoKm) {len : Nat} (wire : HdOnWire hd hdBytes)
    (hroom : ppe.buf.last + aead.overhead ≤ size) (hlength : ppe.buf.mem.length = size)
    (hcontent : ppe.buf.content = hdBytes ++ payload ++ List.replicate len 0)
    (hframes : FramesOnWire frs payload)
    (hhdlen : ppe.hdlen = hdBytes.length) (hpktNum : ppe.pktNum = hd.pktNum) :
    (ppe.final aead ckm).1.length = ppe.buf.last + aead.overhead ∧
    (ppe.final aead ckm).2.buf.mem.length = size ∧
      Reads aead ckm hd (frs ++ paddingFrames len) (ppe.final aead ckm).1 := by
  have hlast : ppe.buf.last ≤ ppe.buf.mem.length := by omega
  rw [List.append_assoc] at hcontent
  have hlens : ppe.buf.last = hdBytes.length + (payload ++ List.replicate len 0).length := by
    rw [← Buffer.content_length hlast, hcontent, List.length_append]
  have hpkt := final_eq aead ckm hlast hcontent hhdlen
  rw [hpktNum] at hpkt
  refine ⟨?_, ?_, ?_⟩
  · rw [hpkt, List.length_append, aead.encrypt_length, hlens]
    omega
  · refine (Buffer.write_length ?_).trans hlength
    show ppe.hdlen + _ ≤ ppe.buf.mem.length
    rw [aead.encrypt_length, hcontent, hhdlen, List.drop_left, hlength]
    omega
  · rw [hpkt]
    refine final_reads aead ckm wire (hframes.decode ?_)
    rw [List.length_append, List.length_replicate]
    exact Nat.lt_succ_self _

/-- The end of a packet whose buffer holds its header and frames. -/
theorem Filled.finish {aead : Aead} (h : Filled aead.overhead hd hdBytes size frs ppe)
    (wire : HdOnWire hd hdBytes)
    (ckm : CryptoKm) (pad : Bool) :
    ∃ pkt ppe', ppe.finish aead ckm pad = .ok (pkt, ppe') ∧ pkt.length ≤ size ∧
      (pad = true → pkt.length = size) ∧ ppe'.buf.mem.length = size ∧
      Reads aead ckm hd (frs ++ if pad then paddingFrames (ppe.left aead.overhead) else []) pkt := by
  obtain ⟨payload, hcontent, hframes⟩ := h.content
  have hroom := h.room
  have hleft : ppe.buf.left = size - ppe.buf.last := by rw [Buffer.left, h.length]
  cases pad with
  | false =>
    have hnil : ppe.buf.content = hdBytes ++ payload ++ List.replicate 0 0 := by rw [hcontent]; simp
    obtain ⟨hlen, hmem, hreads⟩ :=
      final_spec aead ckm wire hroom h.length hnil hframes h.hdlen h.pktNum
    exact ⟨_, _, rfl, hlen ▸ hroom, fun hp => (Bool.false_ne_true hp).elim, hmem, hreads⟩
  | true =>
    have hfree : ¬ppe.buf.left < aead.overhead := by omega
    obtain ⟨zeros, hzeros⟩ : ∃ zeros :
      List UInt8, zeros = List.replicate (ppe.buf.left - aead.overhead) 0 := ⟨_, rfl⟩
    have hlen : ppe.buf.last + zeros.length + aead.overhead = size := by
      rw [hzeros, List.length_replicate, hleft]
      omega
    have hfits : ppe.buf.last + zeros.length ≤ ppe.buf.mem.length := by
      rw [h.length]
      omega
    obtain ⟨ppe', hppe'⟩ : ∃ ppe' : PpeBuf, ppe' = { ppe with buf := ppe.buf.write zeros } :=
      ⟨_, rfl⟩
    have hpadded : ppe.padding aead.overhead = (.ok (ppe.buf.left - aead.overhead), ppe') := by
      rw [hppe', hzeros]
      exact if_neg hfree
    have hcontent' : ppe'.buf.content =
      hdBytes ++ payload ++ List.replicate (ppe.buf.left - aead.overhead) 0 := by
      rw [hppe', ← hzeros, ← hcontent]
      exact Buffer.write_content h.last_le
    have hlast : ppe'.buf.last = ppe.buf.last + zeros.length := by rw [hppe', Buffer.write_last]
    have hmem : ppe'.buf.mem.length = size := by
      rw [hppe', ← h.length]
      exact Buffer.write_length hfits
    have hleft' : ppe.left aead.overhead = ppe.buf.left - aead.overhead := if_neg hfree
    obtain ⟨hpkt, hmem', hreads⟩ :=
      final_spec aead ckm wire (by rw [hlast, hlen]) hmem hcontent' hframes
      (by rw [hppe', h.hdlen]) (by rw [hppe', h.pktNum])
    rw [hlast, hlen] at hpkt
    unfold PpeBuf.finish
    rw [if_pos rfl, hpadded, hleft']
    exact ⟨_, _, rfl, le_of_eq hpkt, fun _ => hpkt, hmem', hreads⟩

end

/-- Packets: a step either has the room it needs or returns `NGTCP2_ERR_NOBUF` and leaves the buffer as it was; a
packet never exceeds its buffer, with padding it fills it, and the receiver reads the header and the frames back. -/
theorem packet_assembly (aead : Aead) (ckm : CryptoKm) (out : List UInt8) (hd : PktHd)
    (frs : List Frame)
    (hhd : hd.WireRange) (hfrs : Sendable frs) :
    (∃ len, hdLen hd = .ok len ∧
      Guarded aead.overhead len (.init out) ((PpeBuf.init out).encodeHd aead.overhead hd)) ∧
    ∀ ppe, (PpeBuf.init out).encodeHd aead.overhead hd = (.ok (), ppe) →
      ∀ sent ppe', PpeBuf.encodeFrames aead.overhead frs ppe = (sent, ppe') →
        sent.Sublist frs ∧
        (∀ fr : Frame, fr.WireRange → ∃ len, frameLen fr = some len ∧
          Guarded aead.overhead len ppe' (ppe'.encodeFrame aead.overhead fr)) ∧
        ∀ pad, ∃ pkt ppe'', ppe'.finish aead ckm pad = .ok (pkt, ppe'') ∧ pkt.length ≤ out.length ∧
          (pad = true → pkt.length = out.length) ∧ ppe''.buf.mem.length = out.length ∧
          Reads aead ckm hd (sent ++ if pad then paddingFrames (ppe'.left aead.overhead) else []) pkt := by
  obtain ⟨hdBytes, wire⟩ := hhd.onWire
  refine ⟨⟨_, wire.len, encodeHd_guarded wire (Nat.zero_le _)⟩, fun ppe hppe sent ppe' hsent => ?_⟩
  have hfilled := (encodeHd_filled wire hppe).encodeFrames hfrs
  have hsub : (PpeBuf.encodeFrames aead.overhead frs ppe).1.Sublist frs :=
    encodeFrames_sublist frs ppe
  rw [hsent] at hfilled hsub
  refine ⟨hsub, fun fr hfr => ?_, fun pad => hfilled.finish wire ckm pad⟩
  obtain ⟨bytes, flags, wire'⟩ := hfr.onWire
  exact ⟨_, wire'.len, encodeFrame_guarded wire' hfilled.last_le⟩

/-- An AEAD of sixteen bytes that keeps the payload as it is. -/
def plainAead : Aead where
  overhead := 16
  encrypt plain _ _ _ := plain ++ List.replicate 16 0
  decrypt cipher _ _ _ := .ok (cipher.take (cipher.length - 16))
  encrypt_length plain _ _ _ := by rw [List.length_append, List.length_replicate]
  decrypt_encrypt plain _ _ _ := by simp

/-- A PING in a buffer of forty bytes, with padding behind it. -/
theorem packet_assembly_ping : ∃ pkt ppe,
    (PpeBuf.encodeFrames 16 [.ping [1, 2]]
      ((PpeBuf.init (List.replicate 40 0)).encodeHd 16 ⟨false, false, false, .pkt02, 7, 300,
      1⟩).2).2.finish plainAead
        ⟨[1], [1, 2, 3, 4, 5, 6, 7, 8]⟩ true = .ok (pkt, ppe) ∧ pkt.length = 40 ∧
      Reads plainAead ⟨[1], [1, 2, 3, 4, 5, 6, 7, 8]⟩ ⟨false, false, false, .pkt02, 7, 300, 1⟩
        [.ping [1, 2], .padding 9] pkt := by
  have hhd : PktHd.WireRange ⟨false, false, false, .pkt02, 7, 300, 1⟩ :=
    ⟨by decide, by decide, .inr (.inl rfl)⟩
  have hfrs : Sendable [.ping [1, 2]] := by
    intro fr hfr
    obtain rfl := List.mem_singleton.mp hfr
    exact ⟨(by decide : [1, 2].length ≤ 255), fun len hc => by cases hc⟩
  obtain ⟨-, -, hfinish⟩ :=
    (packet_assembly plainAead ⟨[1], [1, 2, 3, 4, 5, 6, 7, 8]⟩ (List.replicate 40 0)
    ⟨false, false, false, .pkt02, 7, 300, 1⟩ [.ping [1, 2]] hhd hfrs).2 _ rfl _ _ rfl
  obtain ⟨pkt, ppe, hpkt, -, hfull, -, hreads⟩ := hfinish true
  exact ⟨pkt, ppe, hpkt, hfull rfl, hreads⟩

/-! ## The encoder of the connection -/

/-- The encoder that keeps lengths and frames is at the same place as the one with the bytes. -/
structure PpeBuf.SameRoom (aeadOverhead : Nat) (ppe : PpeBuf) (ppe' : Ppe) : Prop where
  destlen : ppe'.destlen = ppe.buf.mem.length
  len : ppe'.len = ppe.buf.last
  overhead : ppe'.aeadOverhead = aeadOverhead

section
variable {aeadOverhead : Nat} {hd : PktHd} {hdBytes bytes out : List UInt8} {fr : Frame} {ppe : PpeBuf} {ppe' : Ppe}

/-- A header fits the one if and only if it fits the other. -/
theorem ppeEncodeHd_sameRoom (wire : HdOnWire hd hdBytes) (ckm : Option CryptoKm) :
    (∃ ppe', ppeEncodeHd out.length aeadOverhead ckm hd = .ok ppe' ∧
      ((PpeBuf.init out).encodeHd aeadOverhead hd).1 = .ok () ∧
      ((PpeBuf.init out).encodeHd aeadOverhead hd).2.SameRoom aeadOverhead ppe') ∨
    (ppeEncodeHd out.length aeadOverhead ckm hd = .error .noBuf ∧
      ((PpeBuf.init out).encodeHd aeadOverhead hd).1 = .error .noBuf) := by
  have hleft : (PpeBuf.init out).buf.left = out.length := Nat.sub_zero _
  rw [encodeHd_eq wire, hleft]
  unfold ppeEncodeHd
  rw [wire.len]
  dsimp only
  by_cases hfits : hdBytes.length + aeadOverhead ≤ out.length
  · rw [if_pos hfits, if_neg (by omega), if_neg (by omega)]
    refine .inl ⟨_, rfl, rfl, ?_, ?_, rfl⟩
    · have hroom : (PpeBuf.init out).buf.last + hdBytes.length ≤
        (PpeBuf.init out).buf.mem.length := by
        show 0 + _ ≤ out.length
        omega
      exact (Buffer.write_length hroom).symm
    · exact (Nat.zero_add _).symm
  · rw [if_neg hfits]
    refine .inr ⟨?_, rfl⟩
    by_cases haead : out.length < aeadOverhead
    · rw [if_pos haead]
    · rw [if_neg haead, if_pos (by omega)]

theorem PpeBuf.SameRoom.left (h : ppe.SameRoom aeadOverhead ppe') :
    ppeLeft ppe' = ppe.left aeadOverhead := by
  unfold ppeLeft PpeBuf.left Buffer.left
  rw [h.destlen, h.len, h.overhead]
  split_ifs <;> omega

/-- So does a frame. -/
theorem PpeBuf.SameRoom.encodeFrame {flags : Nat} (h : ppe.SameRoom aeadOverhead ppe')
    (wire : OnWire fr bytes flags)
    (hlast : ppe.buf.last ≤ ppe.buf.mem.length) :
    (∃ ppe'', ppeEncodeFrame ppe' fr = .ok ppe'' ∧ (ppe.encodeFrame aeadOverhead fr).1 = .ok () ∧
      (ppe.encodeFrame aeadOverhead fr).2.SameRoom aeadOverhead ppe'') ∨
    (ppeEncodeFrame ppe' fr = .error .noBuf ∧
    (ppe.encodeFrame aeadOverhead fr).1 = .error .noBuf) := by
  rw [encodeFrame_eq wire]
  unfold ppeEncodeFrame Buffer.left
  rw [wire.len, h.destlen, h.len, h.overhead]
  dsimp only
  by_cases hfits : bytes.length + aeadOverhead ≤ ppe.buf.mem.length - ppe.buf.last
  · rw [if_pos hfits, if_neg (by omega), if_neg (by omega)]
    have hroom : ppe.buf.last + bytes.length ≤ ppe.buf.mem.length := by omega
    exact .inl ⟨_, rfl, rfl, (Buffer.write_length hroom).symm, rfl, rfl⟩
  · rw [if_neg hfits]
    refine .inr ⟨?_, rfl⟩
    by_cases haead : ppe.buf.mem.length - ppe.buf.last < aeadOverhead
    · rw [if_pos haead]
    · rw [if_neg haead, if_pos (by omega)]

/-- The length the connection gives a packet is the number of its bytes. -/
theorem PpeBuf.SameRoom.final {aead : Aead} {conn conn' : Conn} {pkt : Pkt} (ckm : CryptoKm)
    (h : ppe.SameRoom aead.overhead ppe') (hhdlen : ppe.hdlen ≤ ppe.buf.last)
    (hlast : ppe.buf.last ≤ ppe.buf.mem.length)
    (hfinal : ppeFinal conn ppe' = (.ok pkt, conn')) : (ppe.final aead ckm).1.length = pkt.len := by
  have hlen : pkt.len = ppe'.len + ppe'.aeadOverhead := by
    unfold ppeFinal at hfinal
    split at hfinal
    · cases hfinal
    · obtain ⟨_, _, -, hok⟩ := andThen_eq_ok hfinal
      cases hok
      rfl
  have hcontent := Buffer.content_length hlast
  rw [hlen, h.len, h.overhead]
  rw [final_eq aead ckm hlast (List.take_append_drop ppe.hdlen _).symm
    (by rw [List.length_take, hcontent, Nat.min_eq_left hhdlen]), List.length_append,
      aead.encrypt_length,
    ← Nat.add_assoc, ← List.length_append, List.take_append_drop, hcontent]

end

end Ngtcp2
