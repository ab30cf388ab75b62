import Polygon.AckOfAck
import Polygon.Lib.Intrusive

/-!
# The pointers of the ACK tracker

`ngtcp2_acktr` with its entries in memory, each linked by pointers, and the pointer to the
last one, which is computed from a link. The tracker of the connection holds what the
pointers hold.
-/
namespace Ngtcp2

open Intrusive Intrusive.Links

/-- The pointer `acktr->tail`. `outside` is what `ngtcp2_struct_of` makes of the list's head. -/
inductive TailPtr where
  | null
  | entry (addr : Nat)
  | outside
  deriving DecidableEq, Repr

/-- `ngtcp2_struct_of` for the link of an entry. -/
def structOf : Loc Nat → TailPtr
  | .head => .outside
  | .next addr => .entry addr

/-- `ngtcp2_acktr`, with the entries by their addresses. -/
structure AcktrMem where
  ents : Nat → Option AcktrEntry
  links : Links Nat
  tail : TailPtr
  nack : Nat
  acks : List AcktrAckEntry
  activeAck : Bool

def acktrMemInit : AcktrMem := ⟨fun _ => none, .empty, .null, 0, [], false⟩

/-- The ring position of the sent ACK frame that `ngtcp2_acktr_recv_ack` looks for. -/
def acktrSearch (acks : List AcktrAckEntry) (fr : AckFrame) (unprotected : Bool) : Option Nat :=
  let newer := acks.takeWhile fun e => fr.largestAck < e.pktNum
  let minAck := subU64 fr.largestAck fr.firstAckBlklen
  let skipped := (acks.drop newer.length).takeWhile fun e =>
    minAck ≤ e.pktNum && e.pktNum ≤ fr.largestAck && unprotected && !e.unprotected
  let j := newer.length + skipped.length
  match acks.drop j with
  | [] => none
  | e :: rest =>
    if minAck ≤ e.pktNum && e.pktNum ≤ fr.largestAck then some j
    else acktrFindBlks unprotected minAck fr.blks (e :: rest) j

namespace AcktrMem

/-- An entry is freed. -/
def free (acktr : AcktrMem) (addr : Nat) : AcktrMem :=
  { acktr with ents := fun a => if a = addr then none else acktr.ents a }

/-- The loop of `ngtcp2_acktr_add`: the pointer where the entry goes. The outer `none`, here and
below, is a failed assertion, a bad pointer or a loop that does not end. -/
def findPlace (acktr : AcktrMem) (pktNum : Nat) : Nat → Loc Nat → Option (Except Err (Loc Nat))
  | 0, _ => none
  | fuel + 1, pent =>
    match acktr.links.read pent with
    | none => some (.ok pent)
    | some addr =>
      match acktr.ents addr with
      | none => none
      | some e =>
        if pktNum < e.pktNum then findPlace acktr pktNum fuel (.next addr)
        else if e.pktNum = pktNum then some (.error .proto)
        else some (.ok pent)

/-- The entry linked in at `pent`. -/
def link (acktr : AcktrMem) (addr : Nat) (ent : AcktrEntry) (activeAck : Bool) (pent : Loc Nat) :
    AcktrMem :=
  { acktr with
    ents := fun a => if a = addr then some ent else acktr.ents a
    links := acktr.links.insertAt addr pent
    tail := if acktr.links.read pent = none then .entry addr else acktr.tail
    nack := acktr.nack + 1
    activeAck := activeAck || acktr.activeAck }

/-- The last entry removed. -/
def evict (acktr : AcktrMem) : Option AcktrMem :=
  match acktr.tail with
  | .null => none
  | .outside => none
  | .entry addr =>
    match acktr.ents addr, acktr.links.pprev addr with
    | some _, some loc =>
      some ({ acktr with
        links := acktr.links.write loc none
        tail := structOf loc
        nack := subU64 acktr.nack 1 }.free addr)
    | _, _ => none

/-- `ngtcp2_acktr_add` of a new object. -/
def add (acktr : AcktrMem) (addr : Nat) (ent : AcktrEntry) (activeAck : Bool) :
    Option (Except Err Unit × AcktrMem) :=
  match acktr.findPlace ent.pktNum (acktr.nack + 1) .head with
  | none => none
  | some (.error e) => some (.error e, acktr)
  | some (.ok pent) =>
    let acktr := acktr.link addr ent activeAck pent
    if acktrMaxEnt < acktr.nack then acktr.evict.map (.ok (), ·) else some (.ok (), acktr)

/-- The last loop of `ngtcp2_acktr_forget`. -/
def freeFrom : Nat → Option Nat → AcktrMem → Option AcktrMem
  | 0, _, _ => none
  | _ + 1, none, acktr => some acktr
  | fuel + 1, some addr, acktr =>
    match acktr.ents addr with
    | none => none
    | some _ =>
      freeFrom fuel (acktr.links.next addr) { acktr.free addr with nack := subU64 acktr.nack 1 }

/-- `ngtcp2_acktr_forget`. -/
def forget (acktr : AcktrMem) (addr : Nat) : Option AcktrMem :=
  match acktr.ents addr, acktr.links.pprev addr with
  | some _, some loc =>
    let tail := if loc = .head then .null else structOf loc
    freeFrom (acktr.nack + 1) (some addr)
      { acktr with links := acktr.links.write loc none, tail }
  | _, _ => none

/-- `ngtcp2_acktr_pop`. -/
def pop (acktr : AcktrMem) : Option AcktrMem :=
  match acktr.links.head with
  | none => none
  | some addr =>
    match acktr.ents addr with
    | none => none
    | some _ =>
      some ({ acktr with
        links := acktr.links.unlinkAt .head
        tail := if acktr.links.next addr = none then .null else acktr.tail
        nack := subU64 acktr.nack 1 }.free addr)

/-- `acktr_remove`. -/
def remove (acktr : AcktrMem) (pent : Loc Nat) : Option AcktrMem :=
  match acktr.links.read pent with
  | none => none
  | some addr =>
    match acktr.ents addr with
    | none => none
    | some _ =>
      some ({ acktr with
        links := acktr.links.unlinkAt pent
        tail := if acktr.links.next addr = none then structOf pent else acktr.tail
        nack := subU64 acktr.nack 1 }.free addr)

/-- The first loop of `acktr_on_ack`, up to the first entry that is not newer. -/
def skipNewer (acktr : AcktrMem) (largestAck : Nat) : Nat → Loc Nat → Option (Loc Nat)
  | 0, _ => none
  | fuel + 1, pent =>
    match acktr.links.read pent with
    | none => some pent
    | some addr =>
      match acktr.ents addr with
      | none => none
      | some e =>
        if e.pktNum ≤ largestAck then some pent else skipNewer acktr largestAck fuel (.next addr)

/-- The loop over the first range. -/
def onAckFirst (minAck largestAck : Nat) (pent : Loc Nat) : Nat → AcktrMem → Option AcktrMem
  | 0, _ => none
  | fuel + 1, acktr =>
    match acktr.links.read pent with
    | none => some acktr
    | some addr =>
      match acktr.ents addr with
      | none => none
      | some e =>
        if minAck ≤ e.pktNum ∧ e.pktNum ≤ largestAck then
          (acktr.remove pent).bind (onAckFirst minAck largestAck pent fuel)
        else some acktr

/-- The loop over one further range. -/
def onAckBlk (minAck largestAck : Nat) : Nat → Loc Nat → AcktrMem → Option (Loc Nat × AcktrMem)
  | 0, _, _ => none
  | fuel + 1, pent, acktr =>
    match acktr.links.read pent with
    | none => some (pent, acktr)
    | some addr =>
      match acktr.ents addr with
      | none => none
      | some e =>
        if largestAck < e.pktNum then onAckBlk minAck largestAck fuel (.next addr) acktr
        else if e.pktNum < minAck then some (pent, acktr)
        else (acktr.remove pent).bind (onAckBlk minAck largestAck fuel pent)

/-- The loop over the further ranges. -/
def onAckBlks (fuel : Nat) : Nat → List AckBlk → Loc Nat → AcktrMem → Option AcktrMem
  | _, [], _, acktr => some acktr
  | minAck, blk :: blks, pent, acktr =>
    match acktr.links.read pent with
    | none => some acktr
    | some _ =>
      let (minAck, largestAck) := ackBlkRange minAck blk
      (onAckBlk minAck largestAck fuel pent acktr).bind fun (pent, acktr) =>
        onAckBlks fuel minAck blks pent acktr

/-- `acktr_on_ack`. -/
def onAck (acktr : AcktrMem) (j : Nat) : Option AcktrMem :=
  match acktr.acks[j]? with
  | none => none
  | some ackEnt =>
    let fr := ackEnt.ack
    let fuel := acktr.nack + 1
    (acktr.skipNewer fr.largestAck fuel .head).bind fun pent =>
      let minAck := subU64 fr.largestAck fr.firstAckBlklen
      ((onAckFirst minAck fr.largestAck pent fuel acktr).bind
        (onAckBlks fuel minAck fr.blks pent)).map fun acktr =>
          { acktr with acks := acktr.acks.take j }

/-- `ngtcp2_acktr_recv_ack`. -/
def recvAck (acktr : AcktrMem) (fr : AckFrame) (unprotected : Bool) : Option AcktrMem :=
  match acktrSearch acktr.acks fr unprotected with
  | none => some acktr
  | some j => acktr.onAck j

/-- `ngtcp2_acktr_add_ack`. -/
def addAck (acktr : AcktrMem) (pktNum : Nat) (fr : AckFrame) (unprotected : Bool) : AcktrMem :=
  { acktr with acks := (⟨fr, pktNum, unprotected⟩ :: acktr.acks).take acktrRingSize }

end AcktrMem

/-! ## What the memory holds -/

/-- Entries with their addresses, in the order of the list. -/
abbrev Placed := List (Nat × AcktrEntry)

def Placed.addrs (xs : Placed) : List Nat := xs.map Prod.fst

def Placed.ents (xs : Placed) : List AcktrEntry := xs.map Prod.snd

/-- The list of the memory consists of these entries: each is linked with its way back, nothing else
is allocated, the numbers get smaller, they are counted, and the last one is known. -/
structure AcktrMem.Holds (m : AcktrMem) (xs : Placed) : Prop where
  links : m.links.Linked xs.addrs
  ents : ∀ x ∈ xs, m.ents x.1 = some x.2
  allocated : ∀ addr, m.ents addr ≠ none → addr ∈ xs.addrs
  desc : Descending (xs.ents.map (·.pktNum))
  nack : m.nack = xs.length
  small : xs.length < 2 ^ 64
  tail : xs ≠ [] → m.tail = structOf (endLoc .head xs.addrs)

@[simp] theorem Placed.addrs_append (xs ys : Placed) :
    Placed.addrs (xs ++ ys) = xs.addrs ++ ys.addrs := List.map_append

@[simp] theorem Placed.addrs_cons (x : Nat × AcktrEntry) (xs : Placed) :
    Placed.addrs (x :: xs) = x.1 :: xs.addrs := rfl

@[simp] theorem Placed.ents_append (xs ys : Placed) :
    Placed.ents (xs ++ ys) = xs.ents ++ ys.ents := List.map_append

@[simp] theorem Placed.ents_cons (x : Nat × AcktrEntry) (xs : Placed) :
    Placed.ents (x :: xs) = x.2 :: xs.ents := rfl

theorem Placed.mem_addrs {xs : Placed} {x : Nat × AcktrEntry} (h : x ∈ xs) : x.1 ∈ xs.addrs :=
  List.mem_map_of_mem h

theorem acktrMemInit_holds : acktrMemInit.Holds [] where
  links := .empty
  ents := fun _ h => nomatch h
  allocated := fun _ h => absurd rfl h
  desc := .nil
  nack := rfl
  small := by decide
  tail := fun h => absurd rfl h

namespace AcktrMem

/-- The ring of sent ACK frames is the same. -/
structure SameAcks (m m' : AcktrMem) : Prop where
  acks : m'.acks = m.acks := by rfl
  activeAck : m'.activeAck = m.activeAck := by rfl

section
variable {m m' : AcktrMem} {xs pre suf : Placed} {x : Nat × AcktrEntry} {addr : Nat}
  {ent : AcktrEntry}

theorem Holds.split (h : m.Holds (pre ++ x :: suf)) :
    m.links.Linked (pre.addrs ++ x.1 :: suf.addrs) := by
  have hlinks := h.links
  rwa [Placed.addrs_append, Placed.addrs_cons] at hlinks

/-- Behind the last entry the list ends. -/
theorem Holds.read_nil (h : m.Holds pre) : m.links.read (endLoc .head pre.addrs) = none := by
  have hchain := h.links.chain
  rw [← List.append_nil pre.addrs] at hchain
  exact hchain.suffix

theorem Holds.read_cons (h : m.Holds (pre ++ x :: suf)) :
    m.links.read (endLoc .head pre.addrs) = some x.1 ∧ m.ents x.1 = some x.2 :=
  ⟨h.split.pprev.2, h.ents x (List.mem_append_right _ List.mem_cons_self)⟩

/-- The pointer inside an entry leads on. -/
theorem endLoc_addrs_concat (pre : Placed) (x : Nat × AcktrEntry) :
    endLoc .head (Placed.addrs (pre ++ [x])) = .next x.1 := by
  rw [Placed.addrs_append]
  exact endLoc_concat _ _ _

theorem Holds.addr_not_mem (h : m.Holds (pre ++ x :: suf)) : x.1 ∉ Placed.addrs (pre ++ suf) := by
  have hnodup := h.split.nodup
  rw [Placed.addrs_append]
  exact (List.nodup_cons.mp (List.nodup_middle.mp hnodup)).1

/-- An entry is out of the list and freed. -/
theorem Holds.freed (h : m.Holds (pre ++ x :: suf)) (links : Links Nat) (tail : TailPtr)
    (hlinks : links.Linked (Placed.addrs (pre ++ suf)))
    (htail : pre ++ suf ≠ [] → tail = structOf (endLoc .head (Placed.addrs (pre ++ suf)))) :
    ({ m with links, tail, nack := subU64 m.nack 1 }.free x.1).Holds (pre ++ suf) := by
  have hout := h.addr_not_mem
  have hsub : (pre ++ suf).Sublist (pre ++ x :: suf) :=
    (List.sublist_cons_self x suf).append_left pre
  have hlength : (pre ++ x :: suf).length = (pre ++ suf).length + 1 := by simp; omega
  have hsmall := h.small
  constructor
  · exact hlinks
  · intro y hy
    have hne : y.1 ≠ x.1 := fun he => hout (he ▸ Placed.mem_addrs hy)
    exact (if_neg hne).trans (h.ents y (hsub.subset hy))
  · intro addr hne
    have hne : (if addr = x.1 then none else m.ents addr) ≠ none := hne
    split at hne
    · exact absurd rfl hne
    · next hx =>
      have hmem := h.allocated addr hne
      rw [Placed.addrs_append, Placed.addrs_cons] at hmem
      rw [Placed.addrs_append]
      rcases List.mem_append.mp hmem with hmem | hmem
      · exact List.mem_append_left _ hmem
      · exact List.mem_append_right _ ((List.mem_cons.mp hmem).resolve_left hx)
  · exact h.desc.sublist ((hsub.map _).map _)
  · show subU64 m.nack 1 = (pre ++ suf).length
    rw [h.nack, subU64_of_le (by omega) hsmall]
    omega
  · omega
  · exact htail

/-! ### Removing entries -/

theorem Holds.remove (h : m.Holds (pre ++ x :: suf)) :
    ∃ m', m.remove (endLoc .head pre.addrs) = some m' ∧ m'.Holds (pre ++ suf) ∧ SameAcks m m' := by
  obtain ⟨hread, hent⟩ := h.read_cons
  have hremove : m.remove (endLoc .head pre.addrs) = some ({ m with
      links := m.links.unlinkAt (endLoc .head pre.addrs)
      tail := if m.links.next x.1 = none then structOf (endLoc .head pre.addrs) else m.tail
      nack := subU64 m.nack 1 }.free x.1) := by
    unfold AcktrMem.remove
    rw [hread]
    dsimp only
    rw [hent]
  refine ⟨_, hremove, h.freed _ _ ?_ fun _ => ?_, {}⟩
  · rw [Placed.addrs_append]
    exact h.split.unlinkAt
  · have hrest := h.split.chain.suffix.2.2
    cases suf with
    | nil =>
      have hnone : m.links.next x.1 = none := hrest
      rw [if_pos hnone, List.append_nil]
    | cons y suf =>
      have hsome : m.links.next x.1 = some y.1 := hrest.1
      rw [if_neg (by rw [hsome]; simp), h.tail (by simp), Placed.addrs_append, Placed.addrs_append,
        endLoc_append, endLoc_append]
      rfl

theorem Holds.pop (h : m.Holds (x :: suf)) :
    ∃ m', m.pop = some m' ∧ m'.Holds suf ∧ SameAcks m m' := by
  have h' : m.Holds ([] ++ x :: suf) := h
  obtain ⟨hread, hent⟩ := h'.read_cons
  have hread : m.links.head = some x.1 := hread
  have hpop : m.pop = some ({ m with
      links := m.links.unlinkAt .head
      tail := if m.links.next x.1 = none then .null else m.tail
      nack := subU64 m.nack 1 }.free x.1) := by
    unfold AcktrMem.pop
    rw [hread]
    dsimp only
    rw [hent]
  refine ⟨_, hpop, h'.freed _ _ h'.split.unlinkAt fun hne => ?_, {}⟩
  have hrest := h'.split.chain.suffix.2.2
  cases suf with
  | nil => exact absurd rfl hne
  | cons y suf =>
    have hsome : m.links.next x.1 = some y.1 := hrest.1
    rw [if_neg (by rw [hsome]; simp), h.tail (by simp)]
    rfl

/-- The last entry leaves a list of several. -/
theorem Holds.evict (h : m.Holds (pre ++ [x])) :
    ∃ m', m.evict = some m' ∧ m'.Holds pre ∧ SameAcks m m' := by
  have htail : m.tail = .entry x.1 := by
    rw [h.tail (by simp), endLoc_addrs_concat]
    rfl
  have hevict : m.evict = some ({ m with
      links := m.links.write (endLoc .head pre.addrs) none
      tail := structOf (endLoc .head pre.addrs)
      nack := subU64 m.nack 1 }.free x.1) := by
    unfold AcktrMem.evict
    rw [htail]
    dsimp only
    rw [h.read_cons.2, h.split.pprev.1]
  have hcut : (m.links.write (endLoc .head pre.addrs) none).Linked (Placed.addrs (pre ++ [])) := by
    rw [List.append_nil]
    exact h.split.cut
  have hfreed := h.freed _ (structOf (endLoc .head pre.addrs)) hcut fun _ => by
    rw [List.append_nil]
  rw [List.append_nil] at hfreed
  exact ⟨_, hevict, hfreed, {}⟩

/-! ### Adding an entry -/

/-- The search stops at a number that is there already, or at the place between the larger and
the smaller numbers. -/
theorem Holds.findPlace (num fuel : Nat) (h : m.Holds (pre ++ suf)) (hfuel : suf.length < fuel) :
    (num ∈ suf.ents.map (·.pktNum) ∧
      m.findPlace num fuel (endLoc .head pre.addrs) = some (.error .proto)) ∨
    ∃ mid rest, suf = mid ++ rest ∧
      m.findPlace num fuel (endLoc .head pre.addrs) =
        some (.ok (endLoc .head (Placed.addrs (pre ++ mid)))) ∧
      (∀ n ∈ mid.ents.map (·.pktNum), num < n) ∧ ∀ n ∈ rest.ents.map (·.pktNum), n < num := by
  induction suf generalizing pre fuel with
  | nil =>
    obtain ⟨fuel, rfl⟩ := Nat.exists_eq_succ_of_ne_zero (Nat.ne_of_gt hfuel)
    rw [List.append_nil] at h
    refine .inr ⟨[], [], rfl, ?_, by simp [Placed.ents], by simp [Placed.ents]⟩
    rw [AcktrMem.findPlace, h.read_nil, List.append_nil]
  | cons x suf ih =>
    obtain ⟨fuel, rfl⟩ := Nat.exists_eq_succ_of_ne_zero (Nat.ne_of_gt (Nat.zero_lt_of_lt hfuel))
    obtain ⟨hread, hent⟩ := h.read_cons
    rw [AcktrMem.findPlace, hread]
    dsimp only
    rw [hent]
    dsimp only
    split
    · next hlt =>
      have h' : m.Holds ((pre ++ [x]) ++ suf) := by rwa [List.append_assoc]
      have hnext := ih fuel h' (Nat.lt_of_succ_lt_succ hfuel)
      rw [endLoc_addrs_concat] at hnext
      rcases hnext with ⟨hmem, hfind⟩ | ⟨mid, rest, rfl, hfind, habove, hbelow⟩
      · exact .inl ⟨List.mem_cons_of_mem _ hmem, hfind⟩
      · refine .inr ⟨x :: mid, rest, rfl, ?_, ?_, hbelow⟩
        · rw [hfind, List.append_assoc]
          rfl
        · rintro n hn
          rcases List.mem_cons.mp hn with rfl | hn
          · exact hlt
          · exact habove n hn
    next hge =>
    split
    · next heq => exact .inl ⟨by rw [← heq]; exact List.mem_cons_self, rfl⟩
    · next hne =>
      refine .inr ⟨[], x :: suf, rfl, by rw [List.append_nil], by simp [Placed.ents], ?_⟩
      have hdesc := h.desc
      rw [Placed.ents_append, List.map_append] at hdesc
      have hdesc := List.pairwise_cons.mp (List.pairwise_append.mp hdesc).2.1
      rintro n hn
      rcases List.mem_cons.mp hn with rfl | hn
      · show x.2.pktNum < num
        omega
      · have hn : n < x.2.pktNum := hdesc.1 n hn
        omega

/-- A new object goes between the larger and the smaller numbers. -/
theorem Holds.link (h : m.Holds (pre ++ suf)) (hnew : m.ents addr = none)
    (hsmall : (pre ++ suf).length + 1 < 2 ^ 64)
    (habove : ∀ n ∈ pre.ents.map (·.pktNum), ent.pktNum < n)
    (hbelow : ∀ n ∈ suf.ents.map (·.pktNum), n < ent.pktNum) (activeAck : Bool) :
    (m.link addr ent activeAck (endLoc .head pre.addrs)).Holds (pre ++ (addr, ent) :: suf) := by
  have hout : addr ∉ Placed.addrs (pre ++ suf) := by
    intro hmem
    obtain ⟨y, hy, rfl⟩ := List.mem_map.mp hmem
    exact nomatch hnew.symm.trans (h.ents y hy)
  constructor
  · have hlinks := h.links
    rw [Placed.addrs_append] at hlinks hout ⊢
    exact hlinks.insertAt hout
  · intro y hy
    rcases List.mem_append.mp hy with hy | hy
    · have hmem : y ∈ pre ++ suf := List.mem_append_left _ hy
      have hne : y.1 ≠ addr := fun he => hout (he ▸ Placed.mem_addrs hmem)
      exact (if_neg hne).trans (h.ents y hmem)
    rcases List.mem_cons.mp hy with rfl | hy
    · exact if_pos rfl
    · have hmem : y ∈ pre ++ suf := List.mem_append_right _ hy
      have hne : y.1 ≠ addr := fun he => hout (he ▸ Placed.mem_addrs hmem)
      exact (if_neg hne).trans (h.ents y hmem)
  · intro a hne
    have hne : (if a = addr then some ent else m.ents a) ≠ none := hne
    rw [Placed.addrs_append, Placed.addrs_cons]
    split at hne
    · next ha => exact List.mem_append_right _ (List.mem_cons.mpr (.inl ha))
    · have hmem := h.allocated a hne
      rw [Placed.addrs_append] at hmem
      rcases List.mem_append.mp hmem with hmem | hmem
      · exact List.mem_append_left _ hmem
      · exact List.mem_append_right _ (List.mem_cons_of_mem _ hmem)
  · have hdesc := h.desc
    rw [Placed.ents_append, List.map_append] at hdesc ⊢
    obtain ⟨hpre, hsuf, hcross⟩ := List.pairwise_append.mp hdesc
    refine List.pairwise_append.mpr ⟨hpre, List.pairwise_cons.mpr ⟨hbelow, hsuf⟩,
      fun a ha b hb => ?_⟩
    rcases List.mem_cons.mp hb with rfl | hb
    · exact habove a ha
    · exact hcross a ha b hb
  · show m.nack + 1 = (pre ++ (addr, ent) :: suf).length
    rw [h.nack, List.length_append, List.length_append, List.length_cons]
    omega
  · rw [List.length_append] at hsmall ⊢
    rw [List.length_cons]
    omega
  · intro _
    show (if m.links.read (endLoc .head pre.addrs) = none then TailPtr.entry addr else m.tail) = _
    cases suf with
    | nil =>
      rw [List.append_nil] at h
      rw [if_pos h.read_nil, endLoc_addrs_concat]
      rfl
    | cons y suf =>
      rw [if_neg (by rw [h.read_cons.1]; simp), h.tail (by simp), Placed.addrs_append,
        Placed.addrs_append, endLoc_append, endLoc_append]
      rfl

/-- The insertion of the list goes between the same entries. -/
theorem acktrInsert_between {es es' : List AcktrEntry}
    (habove : ∀ n ∈ es.map (·.pktNum), ent.pktNum < n)
    (hbelow : ∀ n ∈ es'.map (·.pktNum), n < ent.pktNum) :
    acktrInsert ent (es ++ es') = some (es ++ ent :: es') := by
  induction es with
  | nil =>
    cases es' with
    | nil => rfl
    | cons e es' =>
      have hlt : e.pktNum < ent.pktNum := hbelow _ (by simp)
      show acktrInsert ent (e :: es') = some (ent :: e :: es')
      rw [acktrInsert, if_neg (by omega), if_neg (by omega)]
  | cons e es ih =>
    have hlt : ent.pktNum < e.pktNum := habove _ (by simp)
    show acktrInsert ent (e :: (es ++ es')) = some (e :: (es ++ ent :: es'))
    rw [acktrInsert, if_pos hlt, ih fun n hn => habove n (List.mem_cons_of_mem _ hn)]
    rfl

theorem acktrInsert_duplicate {es : List AcktrEntry} (hdesc : Descending (es.map (·.pktNum)))
    (hmem : ent.pktNum ∈ es.map (·.pktNum)) : acktrInsert ent es = none := by
  induction es with
  | nil => cases hmem
  | cons e es ih =>
    obtain ⟨hlt, hdesc⟩ := List.pairwise_cons.mp hdesc
    rw [acktrInsert]
    rcases List.mem_cons.mp hmem with heq | hmem
    · have heq : ent.pktNum = e.pktNum := heq
      rw [if_neg (by omega), if_pos heq.symm]
    · have hbelow : ent.pktNum < e.pktNum := hlt _ hmem
      rw [if_pos hbelow, ih hdesc hmem]
      rfl

/-- The tracker of the connection that the memory stands for. -/
def view (m : AcktrMem) (xs : Placed) : Acktr := ⟨xs.ents, m.acks, m.activeAck⟩

/-- A new number goes into the list; a full list loses its smallest number. -/
inductive Added (xs : Placed) (x : Nat × AcktrEntry) : Placed → Prop where
  | room {ys : Placed} (perm : ys.Perm (x :: xs)) (few : xs.length < acktrMaxEnt) : Added xs x ys
  | evicted {ys : Placed} (least : Nat × AcktrEntry) (full : xs.length = acktrMaxEnt)
      (perm : (least :: ys).Perm (x :: xs)) (smallest : ∀ y ∈ ys, least.2.pktNum < y.2.pktNum) :
      Added xs x ys

theorem Holds.add_duplicate (h : m.Holds xs) (hmem : ent.pktNum ∈ xs.ents.map (·.pktNum))
    (addr : Nat) (activeAck : Bool) :
    m.add addr ent activeAck = some (.error .proto, m) ∧
      acktrAdd (m.view xs) ent activeAck = none := by
  have h' : m.Holds ([] ++ xs) := h
  constructor
  · have hplace := h'.findPlace ent.pktNum (m.nack + 1) (by rw [h.nack]; omega)
    rcases hplace with ⟨-, hfind⟩ | ⟨mid, rest, hsplit, -, habove, hbelow⟩
    · have hfind : m.findPlace ent.pktNum (m.nack + 1) .head = some (.error .proto) := hfind
      rw [AcktrMem.add, hfind]
    · rw [hsplit, Placed.ents_append, List.map_append] at hmem
      rcases List.mem_append.mp hmem with hmem | hmem
      · exact absurd (habove _ hmem) (Nat.lt_irrefl _)
      · exact absurd (hbelow _ hmem) (Nat.lt_irrefl _)
  · have hnone : acktrInsert ent (m.view xs).ent = none := acktrInsert_duplicate h.desc hmem
    rw [acktrAdd, hnone]
    rfl

theorem Holds.add (h : m.Holds xs) (hfew : xs.length ≤ acktrMaxEnt) (hnew : m.ents addr = none)
    (hout : ent.pktNum ∉ xs.ents.map (·.pktNum)) (activeAck : Bool) :
    ∃ m' ys, m.add addr ent activeAck = some (.ok (), m') ∧ m'.Holds ys ∧ Added xs (addr, ent) ys ∧
      acktrAdd (m.view xs) ent activeAck = some (m'.view ys) := by
  have h' : m.Holds ([] ++ xs) := h
  have hplace := h'.findPlace ent.pktNum (m.nack + 1) (by rw [h.nack]; omega)
  rcases hplace with ⟨hmem, -⟩ | ⟨mid, rest, hsplit, hfind, habove, hbelow⟩
  · exact absurd hmem hout
  have hfind : m.findPlace ent.pktNum (m.nack + 1) .head =
    some (.ok (endLoc .head (Placed.addrs mid))) := hfind
  subst hsplit
  have hlength : (mid ++ (addr, ent) :: rest).length = (mid ++ rest).length + 1 := by simp; omega
  have hsmall : (mid ++ rest).length + 1 < 2 ^ 64 := by
    unfold acktrMaxEnt at hfew
    omega
  have hlink := h.link hnew hsmall habove hbelow activeAck
  have hview : acktrInsert ent (m.view (mid ++ rest)).ent =
      some (Placed.ents (mid ++ (addr, ent) :: rest)) := by
    show acktrInsert ent (Placed.ents (mid ++ rest)) = _
    rw [Placed.ents_append, Placed.ents_append]
    exact acktrInsert_between habove hbelow
  have hents : (Placed.ents (mid ++ (addr, ent) :: rest)).length = (mid ++ rest).length + 1 := by
    rw [← hlength]
    exact List.length_map _
  rw [AcktrMem.add, hfind, acktrAdd, hview]
  dsimp only
  rw [hlink.nack, hlength, Option.map_some, hents]
  split
  · next hfull =>
    obtain ⟨zs, x, hzs⟩ := List.eq_nil_or_concat (mid ++ (addr, ent) :: rest) |>.resolve_left
      (by simp)
    rw [List.concat_eq_append] at hzs
    have hdesc := hlink.desc
    rw [hzs] at hlink hdesc ⊢
    obtain ⟨m', hevict, hholds, hsame⟩ := hlink.evict
    refine ⟨m', zs, by rw [hevict]; rfl, hholds, .evicted x (by omega) ?_ fun y hy => ?_, ?_⟩
    · have hmiddle : (mid ++ (addr, ent) :: rest).Perm ((addr, ent) :: (mid ++ rest)) :=
        List.perm_middle
      rw [hzs] at hmiddle
      exact (List.perm_append_singleton x zs).symm.trans hmiddle
    · rw [Placed.ents_append, List.map_append] at hdesc
      refine (List.pairwise_append.mp hdesc).2.2 _ ?_ _ (by simp [Placed.ents])
      exact List.mem_map_of_mem (List.mem_map_of_mem hy)
    · have hview' : m'.view zs = ⟨Placed.ents zs, m.acks, activeAck || m.activeAck⟩ := by
        rw [AcktrMem.view, hsame.acks, hsame.activeAck]
        rfl
      have hdrop : (Placed.ents (zs ++ [x])).dropLast = Placed.ents zs := by simp [Placed.ents]
      rw [hview', hdrop]
      rfl
  · next hroom =>
    exact ⟨_, _, rfl, hlink, .room List.perm_middle (by omega), rfl⟩

/-! ### Forgetting entries -/

/-- The entries of a chain are freed one after the other. -/
theorem freeFrom_chain {l : Links Nat} {loc : Loc Nat} (fuel : Nat) (hchain : l.Chain loc xs.addrs)
    (hnext : ∀ x ∈ xs, m.links.next x.1 = l.next x.1) (hents : ∀ x ∈ xs, m.ents x.1 = some x.2)
    (hnodup : xs.addrs.Nodup) (hfuel : xs.length < fuel) (hnack : xs.length ≤ m.nack)
    (hsmall : m.nack < 2 ^ 64) :
    freeFrom fuel (l.read loc) m = some { m with
      ents := fun addr => if addr ∈ xs.addrs then none else m.ents addr
      nack := m.nack - xs.length } := by
  induction xs generalizing m loc fuel with
  | nil =>
    obtain ⟨fuel, rfl⟩ := Nat.exists_eq_succ_of_ne_zero (Nat.ne_of_gt hfuel)
    have hread : l.read loc = none := hchain
    rw [hread, freeFrom]
    simp [Placed.addrs]
  | cons x xs ih =>
    obtain ⟨fuel, rfl⟩ := Nat.exists_eq_succ_of_ne_zero (Nat.ne_of_gt (Nat.zero_lt_of_lt hfuel))
    obtain ⟨hread, -, hrest⟩ := hchain
    obtain ⟨hx, hnodup⟩ := List.nodup_cons.mp hnodup
    rw [List.length_cons] at hnack hfuel
    rw [hread, freeFrom, hents x List.mem_cons_self]
    dsimp only
    rw [hnext x List.mem_cons_self]
    have hsub : subU64 m.nack 1 = m.nack - 1 := subU64_of_le (by omega) hsmall
    have hstep := ih (m := { m.free x.1 with nack := subU64 m.nack 1 }) fuel hrest
      (fun y hy => hnext y (List.mem_cons_of_mem _ hy)) (fun y hy => ?_) hnodup
      (Nat.lt_of_succ_lt_succ hfuel) (by dsimp only; omega) (by dsimp only; omega)
    · have hents : (fun addr => if addr ∈ Placed.addrs xs then none else (m.free x.1).ents addr) =
          fun addr => if addr ∈ Placed.addrs (x :: xs) then none else m.ents addr := by
        funext addr
        rw [Placed.addrs_cons]
        by_cases hmem : addr ∈ Placed.addrs xs
        · rw [if_pos hmem, if_pos (List.mem_cons_of_mem _ hmem)]
        · rw [if_neg hmem]
          show (if addr = x.1 then none else m.ents addr) = _
          simp only [List.mem_cons, hmem, or_false]
      refine hstep.trans ?_
      dsimp only
      rw [hents, hsub, List.length_cons, Nat.sub_sub, Nat.add_comm 1]
      rfl
    · have hne : y.1 ≠ x.1 := fun he => hx (he ▸ Placed.mem_addrs hy)
      exact (if_neg hne).trans (hents y (List.mem_cons_of_mem _ hy))

theorem endLoc_ne_head (hne : pre ≠ []) : endLoc .head pre.addrs ≠ .head := by
  obtain ⟨init, y, rfl⟩ := List.eq_nil_or_concat pre |>.resolve_left hne
  rw [List.concat_eq_append, endLoc_addrs_concat]
  exact nofun

/-- An entry is forgotten with all those behind it. -/
theorem Holds.forget (h : m.Holds (pre ++ x :: suf)) :
    ∃ m', m.forget x.1 = some m' ∧ m'.Holds pre ∧ SameAcks m m' := by
  have hnodup := List.nodup_append.mp h.split.nodup
  have hchain : m.links.Chain (endLoc .head pre.addrs) (Placed.addrs (x :: suf)) :=
    h.split.chain.suffix
  have hlength : (pre ++ x :: suf).length = pre.length + (x :: suf).length := List.length_append
  have hsmall := h.small
  -- The cut is before the entry, so the links that the loop follows stay.
  have hnext : ∀ y ∈ x :: suf, (m.links.write (endLoc .head pre.addrs) none).next y.1 =
      m.links.next y.1 := by
    intro y hy
    have hne : Loc.next y.1 ≠ endLoc .head pre.addrs := by
      rcases endLoc_cases .head pre.addrs with he | ⟨b, hb, he⟩
      · rw [he]
        exact nofun
      · rw [he]
        intro hc
        exact hnodup.2.2 b hb y.1 (Placed.mem_addrs hy) (Loc.next.inj hc).symm
    exact read_write_other m.links none hne
  have hfree := freeFrom_chain (m := { m with
      links := m.links.write (endLoc .head pre.addrs) none
      tail := if endLoc .head pre.addrs = .head then .null else structOf (endLoc .head pre.addrs) })
    (m.nack + 1) hchain hnext (fun y hy => h.ents y (List.mem_append_right _ hy))
    hnodup.2.1 (by rw [h.nack]; omega) (by rw [h.nack]; omega) (by rw [h.nack]; omega)
  rw [h.split.pprev.2] at hfree
  have hforget : m.forget x.1 = freeFrom (m.nack + 1) (some x.1) { m with
      links := m.links.write (endLoc .head pre.addrs) none
      tail := if endLoc .head pre.addrs = .head then .null
        else structOf (endLoc .head pre.addrs) } := by
    unfold AcktrMem.forget
    rw [h.read_cons.2, h.split.pprev.1]
  refine ⟨_, hforget.trans hfree, ?_, {}⟩
  constructor
  · exact h.split.cut
  · intro y hy
    have hout : y.1 ∉ Placed.addrs (x :: suf) := fun hmem =>
      hnodup.2.2 y.1 (Placed.mem_addrs hy) y.1 hmem rfl
    exact (if_neg hout).trans (h.ents y (List.mem_append_left _ hy))
  · intro a hne
    have hne : (if a ∈ Placed.addrs (x :: suf) then none else m.ents a) ≠ none := hne
    split at hne
    · exact absurd rfl hne
    · next hout =>
      have hmem := h.allocated a hne
      rw [Placed.addrs_append] at hmem
      exact (List.mem_append.mp hmem).resolve_right hout
  · exact h.desc.sublist (((List.sublist_append_left pre _).map _).map _)
  · show m.nack - (x :: suf).length = pre.length
    rw [h.nack]
    omega
  · omega
  · exact fun hne => if_neg (endLoc_ne_head hne)

/-! ### Acknowledged ACK frames -/

theorem SameAcks.trans {m₁ : AcktrMem} (h : SameAcks m m₁) (h' : SameAcks m₁ m') : SameAcks m m' :=
  ⟨h'.acks.trans h.acks, h'.activeAck.trans h.activeAck⟩

/-- The loop stops behind the entries that are newer. -/
theorem Holds.skipNewer (fuel largestAck : Nat) (h : m.Holds (pre ++ suf))
    (hfuel : suf.length < fuel) :
    m.skipNewer largestAck fuel (endLoc .head pre.addrs) =
      some (endLoc .head
        (Placed.addrs (pre ++ suf.takeWhile fun x => largestAck < x.2.pktNum))) := by
  induction suf generalizing pre fuel with
  | nil =>
    obtain ⟨fuel, rfl⟩ := Nat.exists_eq_succ_of_ne_zero (Nat.ne_of_gt hfuel)
    rw [List.append_nil] at h
    rw [AcktrMem.skipNewer, h.read_nil, List.takeWhile_nil, List.append_nil]
  | cons x suf ih =>
    obtain ⟨fuel, rfl⟩ := Nat.exists_eq_succ_of_ne_zero (Nat.ne_of_gt (Nat.zero_lt_of_lt hfuel))
    obtain ⟨hread, hent⟩ := h.read_cons
    rw [AcktrMem.skipNewer, hread]
    dsimp only
    rw [hent]
    dsimp only
    split
    · next hle =>
      rw [List.takeWhile_cons_of_neg (by simpa using hle), List.append_nil]
    · next hgt =>
      have h' : m.Holds ((pre ++ [x]) ++ suf) := by rwa [List.append_assoc]
      have hnext := ih fuel h' (Nat.lt_of_succ_lt_succ hfuel)
      rw [endLoc_addrs_concat, List.append_assoc] at hnext
      rw [List.takeWhile_cons_of_pos (by simpa using hgt)]
      exact hnext

/-- The entries of the first range are removed. -/
theorem Holds.onAckFirst (fuel minAck largestAck : Nat) (h : m.Holds (pre ++ suf))
    (hfuel : suf.length < fuel) :
    ∃ m', onAckFirst minAck largestAck (endLoc .head pre.addrs) fuel m = some m' ∧
      m'.Holds (pre ++ suf.dropWhile fun x =>
        decide (minAck ≤ x.2.pktNum) && decide (x.2.pktNum ≤ largestAck)) ∧ SameAcks m m' := by
  induction suf generalizing m fuel with
  | nil =>
    obtain ⟨fuel, rfl⟩ := Nat.exists_eq_succ_of_ne_zero (Nat.ne_of_gt hfuel)
    refine ⟨m, ?_, h, {}⟩
    rw [List.append_nil] at h
    rw [AcktrMem.onAckFirst, h.read_nil]
  | cons x suf ih =>
    obtain ⟨fuel, rfl⟩ := Nat.exists_eq_succ_of_ne_zero (Nat.ne_of_gt (Nat.zero_lt_of_lt hfuel))
    obtain ⟨hread, hent⟩ := h.read_cons
    rw [AcktrMem.onAckFirst, hread]
    dsimp only
    rw [hent]
    dsimp only
    split
    · next hin =>
      obtain ⟨m₁, hremove, hholds₁, hsame₁⟩ := h.remove
      obtain ⟨m', hloop, hholds, hsame⟩ := ih fuel hholds₁ (Nat.lt_of_succ_lt_succ hfuel)
      rw [hremove, Option.bind_some, List.dropWhile_cons_of_pos (by simpa using hin)]
      exact ⟨m', hloop, hholds, hsame₁.trans hsame⟩
    · next hin =>
      rw [List.dropWhile_cons_of_neg (by simpa using hin)]
      exact ⟨m, rfl, h, {}⟩

/-- The entries of one further range are removed, those above it are passed over. -/
theorem Holds.onAckBlk (fuel lo hi : Nat) (h : m.Holds (pre ++ suf)) (hfuel : suf.length < fuel) :
    ∃ m' kept rest, onAckBlk lo hi fuel (endLoc .head pre.addrs) m =
        some (endLoc .head (Placed.addrs (pre ++ kept)), m') ∧
      m'.Holds ((pre ++ kept) ++ rest) ∧
      acktrOnAckBlk lo hi suf.ents = (Placed.ents kept, Placed.ents rest) ∧
      rest.length ≤ suf.length ∧ SameAcks m m' := by
  induction suf generalizing m pre fuel with
  | nil =>
    obtain ⟨fuel, rfl⟩ := Nat.exists_eq_succ_of_ne_zero (Nat.ne_of_gt hfuel)
    refine ⟨m, [], [], ?_, by rwa [List.append_nil], rfl, Nat.le_refl _, {}⟩
    rw [List.append_nil] at h
    rw [AcktrMem.onAckBlk, h.read_nil, List.append_nil]
  | cons x suf ih =>
    obtain ⟨fuel, rfl⟩ := Nat.exists_eq_succ_of_ne_zero (Nat.ne_of_gt (Nat.zero_lt_of_lt hfuel))
    obtain ⟨hread, hent⟩ := h.read_cons
    rw [AcktrMem.onAckBlk, hread, Placed.ents_cons, acktrOnAckBlk]
    dsimp only
    rw [hent]
    dsimp only
    split
    · have h' : m.Holds ((pre ++ [x]) ++ suf) := by rwa [List.append_assoc]
      obtain ⟨m', kept, rest, hloop, hholds, hlist, hle, hsame⟩ :=
        ih fuel h' (Nat.lt_of_succ_lt_succ hfuel)
      rw [endLoc_addrs_concat, List.append_assoc] at hloop
      rw [List.append_assoc pre [x] kept] at hholds
      refine ⟨m', x :: kept, rest, hloop, hholds, ?_, Nat.le_succ_of_le hle, hsame⟩
      rw [hlist]
      rfl
    split
    · exact ⟨m, [], x :: suf, by rw [List.append_nil], by rwa [List.append_nil], rfl,
        Nat.le_refl _, {}⟩
    · obtain ⟨m₁, hremove, hholds₁, hsame₁⟩ := h.remove
      obtain ⟨m', kept, rest, hloop, hholds, hlist, hle, hsame⟩ :=
        ih fuel hholds₁ (Nat.lt_of_succ_lt_succ hfuel)
      rw [hremove, Option.bind_some]
      exact ⟨m', kept, rest, hloop, hholds, hlist, Nat.le_succ_of_le hle, hsame₁.trans hsame⟩

theorem Holds.onAckBlks (fuel minAck : Nat) (blks : List AckBlk) (h : m.Holds (pre ++ suf))
    (hfuel : suf.length < fuel) :
    ∃ m' ys, onAckBlks fuel minAck blks (endLoc .head pre.addrs) m = some m' ∧
      m'.Holds (pre ++ ys) ∧ Placed.ents ys = acktrOnAckBlks minAck blks suf.ents ∧
      SameAcks m m' := by
  induction blks generalizing m pre suf minAck with
  | nil => exact ⟨m, suf, rfl, h, rfl, {}⟩
  | cons blk blks ih =>
    cases suf with
    | nil =>
      refine ⟨m, [], ?_, h, (acktrOnAckBlks_nil _ _).symm, {}⟩
      rw [List.append_nil] at h
      rw [AcktrMem.onAckBlks, h.read_nil]
    | cons x suf =>
      obtain ⟨range, hrange⟩ : ∃ range, ackBlkRange minAck blk = range := ⟨_, rfl⟩
      rw [AcktrMem.onAckBlks, h.read_cons.1, acktrOnAckBlks, hrange]
      dsimp only
      obtain ⟨m₁, kept, rest, hloop, hholds₁, hlist, hle, hsame₁⟩ :=
        h.onAckBlk fuel range.1 range.2 hfuel
      obtain ⟨m', ys, hloops, hholds, hys, hsame⟩ :=
        ih range.1 hholds₁ (Nat.lt_of_le_of_lt hle hfuel)
      rw [hloop, Option.bind_some, hlist]
      refine ⟨m', kept ++ ys, hloops, ?_, ?_, hsame₁.trans hsame⟩
      · rwa [List.append_assoc] at hholds
      · rw [Placed.ents_append, hys]

theorem Holds.setAcks (h : m.Holds xs) (acks : List AcktrAckEntry) : { m with acks }.Holds xs :=
  ⟨h.links, h.ents, h.allocated, h.desc, h.nack, h.small, h.tail⟩

/-- The removal of `acktr_on_ack`. -/
theorem Holds.onAck {j : Nat} {ackEnt : AcktrAckEntry} (h : m.Holds xs)
    (hj : m.acks[j]? = some ackEnt) :
    ∃ m' ys, m.onAck j = some m' ∧ m'.Holds ys ∧ acktrOnAck (m.view xs) j = m'.view ys := by
  have h' : m.Holds ([] ++ xs) := h
  have hloop := h'.skipNewer (m.nack + 1) ackEnt.ack.largestAck (by rw [h.nack]; omega)
  have hskip : m.skipNewer ackEnt.ack.largestAck (m.nack + 1) .head = some (endLoc .head
    (Placed.addrs (xs.takeWhile fun x => ackEnt.ack.largestAck < x.2.pktNum))) := hloop
  have hsplit := List.takeWhile_append_dropWhile
    (p := fun x : Nat × AcktrEntry => decide (ackEnt.ack.largestAck < x.2.pktNum)) (l := xs)
  have hview : acktrOnAck (m.view xs) j =
      ⟨Placed.ents (xs.takeWhile fun x => ackEnt.ack.largestAck < x.2.pktNum) ++
        acktrOnAckBlks (subU64 ackEnt.ack.largestAck ackEnt.ack.firstAckBlklen) ackEnt.ack.blks
          (acktrOnAckFirst (subU64 ackEnt.ack.largestAck ackEnt.ack.firstAckBlklen)
            ackEnt.ack.largestAck
            (Placed.ents (xs.dropWhile fun x => ackEnt.ack.largestAck < x.2.pktNum))),
        m.acks.take j, m.activeAck⟩ := by
    have hfind : (m.view xs).acks[j]? = some ackEnt := hj
    rw [acktrOnAck, hfind]
    dsimp only
    rw [drop_takeWhile]
    simp only [AcktrMem.view, Placed.ents, List.takeWhile_map, List.dropWhile_map]
    rfl
  generalize (xs.takeWhile fun x => decide (ackEnt.ack.largestAck < x.2.pktNum)) = newer
    at hskip hsplit hview
  generalize (xs.dropWhile fun x => decide (ackEnt.ack.largestAck < x.2.pktNum)) = es
    at hsplit hview
  generalize hmin : subU64 ackEnt.ack.largestAck ackEnt.ack.firstAckBlklen = minAck at hview
  subst hsplit
  have hlength : es.length < m.nack + 1 := by
    rw [h.nack, List.length_append]
    omega
  obtain ⟨m₁, hfirst, hholds₁, hsame₁⟩ :=
    h.onAckFirst (m.nack + 1) minAck ackEnt.ack.largestAck hlength
  have hle := (List.dropWhile_sublist (l := es) fun x =>
    decide (minAck ≤ x.2.pktNum) && decide (x.2.pktNum ≤ ackEnt.ack.largestAck)).length_le
  obtain ⟨m₂, ys, hblks, hholds₂, hys, hsame₂⟩ :=
    hholds₁.onAckBlks (m.nack + 1) minAck ackEnt.ack.blks (Nat.lt_of_le_of_lt hle hlength)
  have hsame := hsame₁.trans hsame₂
  refine ⟨{ m₂ with acks := m₂.acks.take j }, newer ++ ys, ?_, hholds₂.setAcks _, ?_⟩
  · rw [AcktrMem.onAck, hj]
    dsimp only
    rw [hskip, Option.bind_some, hmin, hfirst, Option.bind_some, hblks, Option.map_some]
  · have hrest : acktrOnAckFirst minAck ackEnt.ack.largestAck (Placed.ents es) =
        Placed.ents (es.dropWhile fun x =>
          decide (minAck ≤ x.2.pktNum) && decide (x.2.pktNum ≤ ackEnt.ack.largestAck)) := by
      simp only [acktrOnAckFirst, Placed.ents, List.dropWhile_map]
      rfl
    have hview' : AcktrMem.view { m₂ with acks := m₂.acks.take j } (newer ++ ys) =
      ⟨Placed.ents (newer ++ ys), m₂.acks.take j, m₂.activeAck⟩ := rfl
    rw [hview', hview, hrest, ← hys, Placed.ents_append, hsame.acks, hsame.activeAck]

theorem acktrFindBlks_lt {unprotected : Bool} {minAck j k : Nat} {blks : List AckBlk}
    {acks : List AcktrAckEntry} (h : acktrFindBlks unprotected minAck blks acks j = some k) :
    k < j + acks.length := by
  induction blks generalizing minAck j acks with
  | nil => cases h
  | cons blk blks ih =>
    obtain ⟨range, hrange⟩ : ∃ range, ackBlkRange minAck blk = range := ⟨_, rfl⟩
    rw [acktrFindBlks, hrange] at h
    dsimp only at h
    generalize (acks.takeWhile fun e => decide (range.2 < e.pktNum) ||
      (decide (range.1 ≤ e.pktNum) && unprotected && !e.unprotected)).length = n at h
    split at h
    · cases h
    next e rest hdrop =>
    have hlength : (acks.drop n).length = rest.length + 1 := by rw [hdrop, List.length_cons]
    rw [List.length_drop] at hlength
    split at h
    · have hlt := ih h
      rw [List.length_cons] at hlt
      omega
    · obtain rfl := Option.some.inj h
      omega

/-- What the search finds is in the ring. -/
theorem acktrSearch_some {acks : List AcktrAckEntry} {fr : AckFrame} {unprotected : Bool} {j : Nat}
    (h : acktrSearch acks fr unprotected = some j) : j < acks.length := by
  unfold acktrSearch at h
  dsimp only at h
  generalize (acks.takeWhile fun e => decide (fr.largestAck < e.pktNum)).length +
    ((acks.drop (acks.takeWhile fun e => decide (fr.largestAck < e.pktNum)).length).takeWhile
      fun e => decide (subU64 fr.largestAck fr.firstAckBlklen ≤ e.pktNum) &&
        decide (e.pktNum ≤ fr.largestAck) && unprotected && !e.unprotected).length = n at h
  split at h
  · cases h
  next e rest hdrop =>
  have hlength : (acks.drop n).length = rest.length + 1 := by rw [hdrop, List.length_cons]
  rw [List.length_drop] at hlength
  split at h
  · obtain rfl := Option.some.inj h
    omega
  · have hlt := acktrFindBlks_lt h
    rw [List.length_cons] at hlt
    omega

/-- What `ngtcp2_acktr_recv_ack` does with the entry where its first loop stops. -/
theorem acktrRecv_found (acktr : Acktr) (acks : List AcktrAckEntry) (inside : AcktrAckEntry → Bool)
    (find : AcktrAckEntry → List AcktrAckEntry → Option Nat) (j : Nat) :
    (match acks with
      | [] => acktr
      | e :: rest =>
        if inside e then acktrOnAck acktr j
        else
          match find e rest with
          | none => acktr
          | some j => acktrOnAck acktr j) =
      match (match acks with
        | [] => none
        | e :: rest => if inside e then some j else find e rest : Option Nat) with
      | none => acktr
      | some j => acktrOnAck acktr j := by
  cases acks with
  | nil => rfl
  | cons e rest =>
    dsimp only
    cases inside e with
    | true => rfl
    | false => rfl

theorem acktrRecvAck_eq (acktr : Acktr) (fr : AckFrame) (unprotected : Bool) :
    acktrRecvAck acktr fr unprotected = match acktrSearch acktr.acks fr unprotected with
      | none => acktr
      | some j => acktrOnAck acktr j := by
  unfold acktrRecvAck acktrSearch
  exact acktrRecv_found acktr _
    (fun e => decide (subU64 fr.largestAck fr.firstAckBlklen ≤ e.pktNum) &&
      decide (e.pktNum ≤ fr.largestAck))
    (fun e rest => acktrFindBlks unprotected (subU64 fr.largestAck fr.firstAckBlklen) fr.blks
      (e :: rest) _) _

theorem Holds.recvAck (h : m.Holds xs) (fr : AckFrame) (unprotected : Bool) :
    ∃ m' ys, m.recvAck fr unprotected = some m' ∧ m'.Holds ys ∧
      acktrRecvAck (m.view xs) fr unprotected = m'.view ys := by
  rw [AcktrMem.recvAck, acktrRecvAck_eq]
  show ∃ (m' : AcktrMem) (ys : Placed), _ ∧ _ ∧ (match acktrSearch m.acks fr unprotected with
    | none => m.view xs
    | some j => acktrOnAck (m.view xs) j) = m'.view ys
  cases hsearch : acktrSearch m.acks fr unprotected with
  | none => exact ⟨m, xs, rfl, h, rfl⟩
  | some j => exact h.onAck (List.getElem?_eq_getElem (acktrSearch_some hsearch))

end

/-- The last entry is the one that `acktr->tail` points to. -/
theorem Holds.tail_eq {m : AcktrMem} {xs : Placed} (h : m.Holds xs) (hne : xs ≠ []) :
    m.tail = .entry (xs.getLast hne).1 := by
  have hconcat := List.dropLast_concat_getLast hne
  rw [h.tail hne]
  conv_lhs => rw [← hconcat]
  rw [endLoc_addrs_concat]
  rfl

end AcktrMem

/-! ## Runs -/

/-- The calls that change the tracker. -/
inductive AcktrOp where
  | add (addr : Nat) (ent : AcktrEntry) (activeAck : Bool)
  | forget (addr : Nat)
  | pop
  | addAck (pktNum : Nat) (fr : AckFrame) (unprotected : Bool)
  | recvAck (fr : AckFrame) (unprotected : Bool)

/-- One call. The object of `ngtcp2_acktr_add` is a new one. -/
inductive AcktrStep (ops : List AcktrOp) : AcktrMem → AcktrOp → AcktrMem → Prop where
  | add {m m' : AcktrMem} {addr : Nat} {ent : AcktrEntry} {activeAck : Bool} {r : Except Err Unit}
      (new : m.ents addr = none) (call : m.add addr ent activeAck = some (r, m')) :
      AcktrStep ops m (.add addr ent activeAck) m'
  | forget {m m' : AcktrMem} {addr : Nat} (call : m.forget addr = some m') :
      AcktrStep ops m (.forget addr) m'
  | pop {m m' : AcktrMem} (call : m.pop = some m') : AcktrStep ops m .pop m'
  | addAck (m : AcktrMem) (pktNum : Nat) (fr : AckFrame) (unprotected : Bool) :
      AcktrStep ops m (.addAck pktNum fr unprotected) (m.addAck pktNum fr unprotected)
  | recvAck {m m' : AcktrMem} {fr : AckFrame} {unprotected : Bool}
      (call : m.recvAck fr unprotected = some m') : AcktrStep ops m (.recvAck fr unprotected) m'

/-- The memory holds a list within the capacity. -/
def AcktrMem.Fits (m : AcktrMem) : Prop := ∃ xs : Placed, m.Holds xs ∧ xs.length ≤ acktrMaxEnt

section
variable {m m' : AcktrMem} {xs ys : Placed} {x : Nat × AcktrEntry} {ops : List AcktrOp}
  {op : AcktrOp}

theorem AcktrMem.Added.length_le (h : Added xs x ys) : ys.length ≤ acktrMaxEnt := by
  cases h with
  | room perm few =>
    have hlength := perm.length_eq
    rw [List.length_cons] at hlength
    omega
  | evicted least full perm smallest =>
    have hlength := perm.length_eq
    rw [List.length_cons, List.length_cons] at hlength
    omega

/-- An object in memory is in the list. -/
theorem AcktrMem.Holds.mem (h : m.Holds xs) {addr : Nat} (halloc : m.ents addr ≠ none) :
    ∃ pre x suf, xs = pre ++ x :: suf ∧ x.1 = addr := by
  obtain ⟨x, hx, rfl⟩ := List.mem_map.mp (h.allocated addr halloc)
  obtain ⟨pre, suf, rfl⟩ := List.append_of_mem hx
  exact ⟨pre, x, suf, rfl, rfl⟩

/-- A received ACK frame adds no entry. -/
theorem recvAck_length_le {fr : AckFrame} {unprotected : Bool}
    (hview : acktrRecvAck (m.view xs) fr unprotected = m'.view ys) : ys.length ≤ xs.length := by
  have hle := (acktrRecvAck_sublist (m.view xs) fr unprotected).length_le
  rw [hview] at hle
  have hxs : (m.view xs).ent.length = xs.length := List.length_map _
  have hys : (m'.view ys).ent.length = ys.length := List.length_map _
  omega

theorem AcktrStep.fits (h : AcktrStep ops m op m') (hfits : m.Fits) : m'.Fits := by
  obtain ⟨xs, hholds, hfew⟩ := hfits
  cases h with
  | @add _ addr ent activeAck r new call =>
    by_cases hmem : ent.pktNum ∈ xs.ents.map (·.pktNum)
    · have hadd := (hholds.add_duplicate hmem addr activeAck).1
      obtain ⟨-, rfl⟩ := Prod.mk.inj (Option.some.inj (hadd.symm.trans call))
      exact ⟨xs, hholds, hfew⟩
    · obtain ⟨m₁, ys, hadd, hholds₁, hadded, -⟩ := hholds.add hfew new hmem activeAck
      obtain ⟨-, rfl⟩ := Prod.mk.inj (Option.some.inj (hadd.symm.trans call))
      exact ⟨ys, hholds₁, hadded.length_le⟩
  | @forget _ addr call =>
    have halloc : m.ents addr ≠ none := by
      intro hnone
      rw [AcktrMem.forget, hnone] at call
      cases call
    obtain ⟨pre, x, suf, rfl, rfl⟩ := hholds.mem halloc
    obtain ⟨m₁, hforget, hholds₁, -⟩ := hholds.forget
    obtain rfl := Option.some.inj (hforget.symm.trans call)
    refine ⟨pre, hholds₁, ?_⟩
    rw [List.length_append] at hfew
    omega
  | pop call =>
    cases xs with
    | nil =>
      have hhead : m.links.head = none := hholds.read_nil
      rw [AcktrMem.pop, hhead] at call
      cases call
    | cons x suf =>
      obtain ⟨m₁, hpop, hholds₁, -⟩ := hholds.pop
      obtain rfl := Option.some.inj (hpop.symm.trans call)
      exact ⟨suf, hholds₁, Nat.le_of_succ_le hfew⟩
  | addAck pktNum fr unprotected => exact ⟨xs, hholds.setAcks _, hfew⟩
  | @recvAck _ fr unprotected call =>
    obtain ⟨m₁, ys, hrecv, hholds₁, hview⟩ := hholds.recvAck fr unprotected
    obtain rfl := Option.some.inj (hrecv.symm.trans call)
    exact ⟨ys, hholds₁, Nat.le_trans (recvAck_length_le hview) hfew⟩

theorem acktrRun_fits (h : Runs.Run AcktrStep acktrMemInit ops m) : m.Fits :=
  h.invariant (fun _ m => m.Fits) ⟨[], acktrMemInit_holds, by decide⟩
    fun _ _ _ _ hfits hstep => hstep.fits hfits

end

/-- The list is in order, linked both ways and counted, it fits, and its tail is known. A number
that is there is refused and changes nothing, another one goes in, if need be in place of the
smallest, and no call fails on its way. -/
structure AcktrMem.Sound (m : AcktrMem) (xs : Placed) : Prop where
  holds : m.Holds xs
  few : xs.length ≤ acktrMaxEnt
  tail : ∀ hne : xs ≠ [], m.tail = .entry (xs.getLast hne).1
  duplicate : ∀ addr ent activeAck, ent.pktNum ∈ xs.ents.map (·.pktNum) →
    m.add addr ent activeAck = some (.error .proto, m)
  add : ∀ addr ent activeAck, m.ents addr = none → ent.pktNum ∉ xs.ents.map (·.pktNum) →
    ∃ m' ys, m.add addr ent activeAck = some (.ok (), m') ∧ m'.Holds ys ∧
      AcktrMem.Added xs (addr, ent) ys
  forget : ∀ x ∈ xs, (m.forget x.1).isSome = true
  pop : xs ≠ [] → m.pop.isSome = true
  recvAck : ∀ fr unprotected, (m.recvAck fr unprotected).isSome = true

theorem AcktrMem.Holds.sound {m : AcktrMem} {xs : Placed} (h : m.Holds xs)
    (hfew : xs.length ≤ acktrMaxEnt) : m.Sound xs where
  holds := h
  few := hfew
  tail := h.tail_eq
  duplicate addr ent activeAck hmem := (h.add_duplicate hmem addr activeAck).1
  add addr ent activeAck hnew hout := by
    obtain ⟨m', ys, hadd, hholds, hadded, -⟩ := h.add hfew hnew hout activeAck
    exact ⟨m', ys, hadd, hholds, hadded⟩
  forget x hx := by
    obtain ⟨pre, suf, rfl⟩ := List.append_of_mem hx
    obtain ⟨m', hforget, -, -⟩ := h.forget
    rw [hforget]
    rfl
  pop hne := by
    obtain ⟨x, suf, rfl⟩ := List.exists_cons_of_ne_nil hne
    obtain ⟨m', hpop, -, -⟩ := h.pop
    rw [hpop]
    rfl
  recvAck fr unprotected := by
    obtain ⟨m', ys, hrecv, -, -⟩ := h.recvAck fr unprotected
    rw [hrecv]
    rfl

/-- After every run the tracker is sound. -/
theorem acktr_consistent {ops : List AcktrOp} {m : AcktrMem}
    (h : Runs.Run AcktrStep acktrMemInit ops m) : ∃ xs, m.Sound xs := by
  obtain ⟨xs, hholds, hfew⟩ := acktrRun_fits h
  exact ⟨xs, hholds.sound hfew⟩

/-- The tracker with the number 5, and with 7 before it. -/
def oneEntry : AcktrMem := acktrMemInit.link 1 ⟨5, 0, false⟩ true .head

def twoEntries : AcktrMem := oneEntry.link 2 ⟨7, 0, false⟩ true .head

theorem acktr_consistent_two : ∃ xs, twoEntries.Sound xs := by
  have hfirst : AcktrStep [] acktrMemInit (.add 1 ⟨5, 0, false⟩ true) oneEntry := .add rfl rfl
  have hsecond : AcktrStep [.add 1 ⟨5, 0, false⟩ true] oneEntry (.add 2 ⟨7, 0, false⟩ true)
    twoEntries := .add rfl rfl
  exact acktr_consistent ((Runs.Run.nil.snoc hfirst).snoc hsecond)

end Ngtcp2
