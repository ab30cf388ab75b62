import Polygon.Conn

/-!
# The packet encoder

`ngtcp2_ppe` fills one packet with frames. Encoders are modelled by the exact
lengths they need, a packet by its header and the frames written into it.
-/
namespace Ngtcp2

/-- `NGTCP2_HANDSHAKE_AEAD_OVERHEAD`. -/
def handshakeAeadOverhead : Nat := 16

/-- `ngtcp2_ppe`, with the frames in the buffer and the `send_pkt_cb_called` of its writer. -/
structure Ppe where
  destlen : Nat
  aeadOverhead : Nat
  ckm : Option CryptoKm
  hd : PktHd
  len : Nat
  frames : List Frame
  sendPktCbCalled : Bool

/-- `ngtcp2_ppe_init` and `ngtcp2_ppe_encode_hd`. -/
def ppeEncodeHd (destlen aeadOverhead : Nat) (ckm : Option CryptoKm) (hd : PktHd) :
    Except Err Ppe :=
  if destlen < aeadOverhead then .error .noBuf
  else
    match hdLen hd with
    | .error e => .error e
    | .ok len =>
      if destlen - aeadOverhead < len then .error .noBuf
      else .ok { destlen, aeadOverhead, ckm, hd, len, frames := [], sendPktCbCalled := false }

/-- `ngtcp2_ppe_encode_frame`. -/
def ppeEncodeFrame (ppe : Ppe) (fr : Frame) : Except Err Ppe :=
  if ppe.destlen - ppe.len < ppe.aeadOverhead then .error .noBuf
  else
    match frameLen fr with
    | none => .error .abort
    | some len =>
      if ppe.destlen - ppe.len - ppe.aeadOverhead < len then .error .noBuf
      else .ok { ppe with len := ppe.len + len, frames := ppe.frames ++ [fr] }

/-- `ngtcp2_ppe_left`. -/
def ppeLeft (ppe : Ppe) : Nat := ppe.destlen - ppe.len - ppe.aeadOverhead

/-- `ngtcp2_ppe_padding`, with the padding it writes. -/
def ppePadding (ppe : Ppe) : Ppe :=
  { ppe with len := ppe.len + ppeLeft ppe, frames := ppe.frames ++ [.padding (ppeLeft ppe)] }

/-- `ngtcp2_ppe_final`: the payload is encrypted and grows by the AEAD overhead. -/
def ppeFinal (conn : Conn) (ppe : Ppe) : Result Pkt :=
  match ppe.ckm with
  | none => (.error .abort, conn)
  | some ckm =>
    (connCall conn (.encrypt ppe.hd)).andThen fun _ conn =>
    (.ok { hd := ppe.hd, frames := ppe.frames, len := ppe.len + ppe.aeadOverhead, ckm }, conn)

/-- `conn_ppe_write_frame`. -/
def connPpeWriteFrame (conn : Conn) (ppe : Ppe) (fr : Frame) : Result Ppe :=
  match ppeEncodeFrame ppe fr with
  | .error e => (.error e, conn)
  | .ok ppe =>
    Result.andThen (if ppe.sendPktCbCalled then (.ok (),
      conn) else connCallSendPkt conn ppe.hd) fun _ conn =>
    (connCallSendFrame conn ppe.hd fr).andThen fun _ conn =>
    (.ok { ppe with sendPktCbCalled := true }, conn)

/-- A chain of frames after a packet was filled from it: the encoder, the frames before the
cursor, those from the cursor on, and whether the packet is full. -/
structure Written where
  ppe : Ppe
  done : List Frame
  rest : List Frame
  full : Bool

/-- One turn of a loop that fills a packet: the frame `fr` at the cursor is written and the loop
goes on behind it, or it stays when there is no room. -/
def writeFrame (fr : Frame) (frc : List Frame) (ppe : Ppe) (conn : Conn)
    (next : Ppe → Conn → Result Written) : Result Written :=
  match connPpeWriteFrame conn ppe fr with
  | (.error .noBuf, conn) => (.ok ⟨ppe, [], fr :: frc, true⟩, conn)
  | (.error e, conn) => (.error e, conn)
  | (.ok ppe, conn) => (next ppe conn).andThen fun w conn => (.ok { w with done := fr :: w.done }, conn)

/-- Frames are written until one does not fit; cancelled frames are deleted on the way. -/
def writeFrames (cancel : Frame → Bool) : List Frame → Ppe → Conn → Result Written
  | [], ppe, conn => (.ok ⟨ppe, [], [], false⟩, conn)
  | fr :: frc, ppe, conn =>
    if cancel fr then writeFrames cancel frc ppe conn
    else writeFrame fr frc ppe conn (writeFrames cancel frc)

end Ngtcp2
