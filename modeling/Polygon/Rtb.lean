import Polygon.Pq
import Polygon.Frame

/-!
# The retransmission buffer

`ngtcp2_rtb` holds the sent packets that wait for an acknowledgement twice: in a
heap ordered by expiry and in a linked list from `head`. An entry is identified
by its address, the number of its allocation.
-/
namespace Ngtcp2

/-- `NGTCP2_INITIAL_EXPIRY`. -/
def initialExpiry : Nat := 1000000

/-- `NGTCP2_PKT_DEADLINE_PERIOD`. -/
def pktDeadlinePeriod : Nat := 5000000

/-- `ngtcp2_rtb_entry`; `unprotected` is its only flag. -/
structure RtbEntry where
  addr : Nat
  hd : PktHd
  frc : List Frame
  expiry : Nat
  deadline : Nat
  count : Nat
  pktlen : Nat
  unprotected : Bool
  deriving DecidableEq, Repr

def rtbEntryNew (addr : Nat) (hd : PktHd) (frc : List Frame) (ts deadline pktlen : Nat)
    (unprotected : Bool) : RtbEntry :=
  { addr, hd, frc, expiry := ts + initialExpiry, deadline, count := 0, pktlen, unprotected }

def rtbEntryExtendExpiry (ent : RtbEntry) (ts : Nat) : RtbEntry :=
  { ent with expiry := ts + initialExpiry * 2 ^ (ent.count + 1), count := ent.count + 1 }

def expiryLess (lhs rhs : RtbEntry) : Bool := lhs.expiry < rhs.expiry

/-- `ngtcp2_rtb`. -/
structure Rtb where
  pq : List RtbEntry
  head : List RtbEntry
  bytesInFlight : Nat
  largestAcked : Nat
  deriving DecidableEq, Repr

def rtbInit : Rtb := ⟨[], [], 0, 0⟩

def rtbAdd (rtb : Rtb) (ent : RtbEntry) : Rtb :=
  { rtb with
    pq := Pq.push expiryLess rtb.pq ent
    head := ent :: rtb.head
    bytesInFlight := rtb.bytesInFlight + ent.pktlen }

def rtbTop (rtb : Rtb) : Option RtbEntry := Pq.top rtb.pq

/-- Unlinks the entry at an address. -/
def unlink (addr : Nat) (ents : List RtbEntry) : List RtbEntry := ents.eraseP (·.addr == addr)

/-- `ngtcp2_rtb_pop` of the top entry; `none` is its failed assertion. -/
def rtbPop (rtb : Rtb) (ent : RtbEntry) : Option Rtb :=
  if ent.pktlen ≤ rtb.bytesInFlight then
    some { rtb with
      pq := Pq.pop expiryLess rtb.pq
      head := unlink ent.addr rtb.head
      bytesInFlight := rtb.bytesInFlight - ent.pktlen }
  else none

/-- `rtb_remove`; `none` is a failed assertion. -/
def rtbRemove (rtb : Rtb) (ent : RtbEntry) : Option Rtb :=
  match rtb.pq.findIdx? (·.addr == ent.addr) with
  | none => none
  | some index =>
    if ent.pktlen ≤ rtb.bytesInFlight then
      some { rtb with
        pq := Pq.removeAt expiryLess rtb.pq index
        head := unlink ent.addr rtb.head
        bytesInFlight := rtb.bytesInFlight - ent.pktlen }
    else none

end Ngtcp2
