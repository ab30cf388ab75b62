import Mathlib.Data.List.Induction
import Polygon.StreamEffects

/-!
# The acknowledged bytes of a stream

The tracker of a stream's acknowledged bytes, whatever ranges are pushed, and what the
application is told of them, from which it frees its send buffers.
-/
namespace Ngtcp2

open Ranges

/-- An acknowledged range, whose end does not wrap around. -/
structure AckedRange where
  offset : Nat
  len : Nat
  noWrap : offset + len < 2 ^ 64
  deriving DecidableEq, Repr

namespace AckedRange

def range (r : AckedRange) : Range := ⟨r.offset, r.offset + r.len⟩

def pair (r : AckedRange) : Nat × Nat := (r.offset, r.len)

end AckedRange

/-- A fresh tracker after these ranges were pushed. -/
def pushes (rs : List AckedRange) : List Range :=
  rs.foldl (fun gaptr r => gaptrPush gaptr r.offset r.len) gapsInit

@[simp] theorem pushes_nil : pushes [] = gapsInit := rfl

@[simp] theorem pushes_snoc (rs : List AckedRange) (r : AckedRange) :
    pushes (rs ++ [r]) = gaptrPush (pushes rs) r.offset r.len := by
  simp [pushes]

/-- The gaps are sorted, disjoint and not empty, and they are the complement of the ranges. -/
structure TracksGaps (rs : List AckedRange) (gaptr : List Range) : Prop where
  ordered : Ordered 0 gaptr
  gaps : ∀ n, InGap gaptr n ↔ n < uint64Max ∧ ∀ r ∈ rs, n ∉ r.range

theorem TracksGaps.init : TracksGaps [] gapsInit where
  ordered := by decide
  gaps n := by simp [gapsInit]

theorem TracksGaps.push {rs : List AckedRange} {gaptr : List Range} (h : TracksGaps rs gaptr)
    (r : AckedRange) : TracksGaps (rs ++ [r]) (gaptrPush gaptr r.offset r.len) := by
  have heq : gaptrPush gaptr r.offset r.len = subtract r.range gaptr :=
    gaptrPush_eq_subtract r.offset r.len h.ordered
  rw [heq]
  refine ⟨ordered_subtract _ h.ordered, fun n => ?_⟩
  rw [inGap_subtract, h.gaps, and_assoc]
  refine and_congr_right fun _ => ⟨fun ⟨hrs, hr⟩ r' hr' => ?_, fun hall => ⟨?_, ?_⟩⟩
  · rcases List.mem_append.mp hr' with hr' | hr'
    · exact hrs r' hr'
    · rw [List.mem_singleton.mp hr']
      exact hr
  · exact fun r' hr' => hall r' (List.mem_append_left _ hr')
  · exact hall r (by simp)

theorem pushes_tracks (rs : List AckedRange) : TracksGaps rs (pushes rs) := by
  induction rs using List.reverseRecOn with
  | nil => exact .init
  | append_singleton rs r ih =>
    rw [pushes_snoc]
    exact ih.push r

section
variable {rs : List AckedRange} {gaptr : List Range}

theorem TracksGaps.firstGap_le_max (h : TracksGaps rs gaptr) :
    gaptrFirstGapOffset gaptr ≤ uint64Max := by
  cases gaptr with
  | nil => exact Nat.le_refl _
  | cons g gs =>
    have hin : InGap (g :: gs) (gaptrFirstGapOffset (g :: gs)) :=
      h.ordered.inGap_firstGap (List.cons_ne_nil g gs)
    exact Nat.le_of_lt ((h.gaps _).mp hin).1

/-- Below the first gap every byte was acknowledged. -/
theorem TracksGaps.covered (h : TracksGaps rs gaptr) {n : Nat}
    (hn : n < gaptrFirstGapOffset gaptr) :
    ∃ r ∈ rs, n ∈ r.range := by
  by_contra hnone
  have hin : InGap gaptr n := by
    rw [h.gaps]
    refine ⟨Nat.lt_of_lt_of_le hn h.firstGap_le_max, fun r hr hmem => hnone ⟨r, hr, hmem⟩⟩
  have hle : gaptrFirstGapOffset gaptr ≤ n := h.ordered.firstGap_le hin
  omega

/-- Another push never moves the first gap back. -/
theorem TracksGaps.firstGap_mono (h : TracksGaps rs gaptr) (r : AckedRange) :
    gaptrFirstGapOffset gaptr ≤ gaptrFirstGapOffset (gaptrPush gaptr r.offset r.len) := by
  have hpush := h.push r
  generalize gaptrPush gaptr r.offset r.len = gaptr' at hpush
  cases gaptr' with
  | nil => exact h.firstGap_le_max
  | cons g gs =>
    have hin : InGap (g :: gs) (gaptrFirstGapOffset (g :: gs)) :=
      hpush.ordered.inGap_firstGap (List.cons_ne_nil g gs)
    obtain ⟨hlt, hnone⟩ := (hpush.gaps _).mp hin
    refine h.ordered.firstGap_le ((h.gaps _).mpr ⟨hlt, fun r' hr' => ?_⟩)
    exact hnone r' (List.mem_append_left _ hr')

end

/-- Ranges, given by offset and length, that follow each other from `lo` to `hi`. -/
def Contiguous : Nat → List (Nat × Nat) → Nat → Prop
  | lo, [], hi => lo = hi
  | lo, (offset, len) :: reports, hi => offset = lo ∧ Contiguous (lo + len) reports hi

theorem Contiguous.snoc {lo mid len : Nat} {reports : List (Nat × Nat)}
    (h : Contiguous lo reports mid) : Contiguous lo (reports ++ [(mid, len)]) (mid + len) := by
  induction reports generalizing lo with
  | nil =>
    obtain rfl : lo = mid := h
    exact ⟨rfl, rfl⟩
  | cons report reports ih => exact ⟨h.1, ih h.2⟩

theorem Contiguous.sum {lo hi : Nat} {reports : List (Nat × Nat)} (h : Contiguous lo reports hi) :
    lo + (reports.map Prod.snd).sum = hi := by
  induction reports generalizing lo with
  | nil => exact h
  | cons report reports ih =>
    have hrest := ih h.2
    rw [List.map_cons, List.sum_cons]
    omega

/-- The ranges reported to `acked_stream_data_offset` for the stream. -/
def ackReports (id : Nat) (evs : List Event) : List (Nat × Nat) :=
  evs.filterMap fun ev => match ev with
    | .ackedStreamDataOffset streamId offset datalen =>
      if streamId = id then some (offset, datalen) else none
    | _ => none

@[simp] theorem ackReports_append (id : Nat) (evs evs' : List Event) :
    ackReports id (evs ++ evs') = ackReports id evs ++ ackReports id evs' := by
  simp [ackReports]

/-- The range of a STREAM frame of the stream. -/
def streamRange (id : Nat) : Frame → Option (Nat × Nat)
  | .stream fr => if fr.streamId = id then some (fr.offset, fr.data.length) else none
  | _ => none

/-- The object of the stream, while there is one, keeps its tracker, and nothing is reported. -/
structure NoReport (id : Nat) (conn conn' : Conn) : Prop where
  log : ∃ evs, conn'.log = conn.log ++ evs ∧ ackReports id evs = []
  tracker : ∀ strm', conn'.strms id = some strm' →
    ∃ strm, conn.strms id = some strm ∧ strm'.ackedTxOffset = strm.ackedTxOffset
  keyed : StrmsKeyed conn → StrmsKeyed conn'

/-- The frames of the packets that were acknowledged. -/
def ackedFrames (evs : List Event) : List Frame :=
  evs.flatMap fun ev => match ev with
    | .pktAcked _ frc => frc
    | _ => []

/-- The frames of these entries were sent within the offsets of a stream. -/
def NoWrap (ents : List RtbEntry) : Prop :=
  ∀ ent ∈ ents, ∀ fr, .stream fr ∈ ent.frc → fr.offset + fr.data.length < 2 ^ 64

/-- A run that starts with `conn₀`: ACK frames are received, and anything else may happen in
between. -/
inductive AckRun (id : Nat) (conn₀ : Conn) : Conn → Prop where
  | start : AckRun id conn₀ conn₀
  | recvAck {conn : Conn} (before : AckRun id conn₀ conn) (fr : AckFrame) (unprotected : Bool)
      (noWrap : NoWrap conn.rtb.head) : AckRun id conn₀ (ngtcp2RtbRecvAck conn fr unprotected).2
  | other {conn conn' : Conn} (before : AckRun id conn₀ conn) (quiet : NoReport id conn conn') :
      AckRun id conn₀ conn'

/-- The run starts with a stream whose tracker is fresh. -/
structure FreshStream (id : Nat) (conn : Conn) : Prop where
  keyed : StrmsKeyed conn
  fresh : ∃ strm, conn.strms id = some strm ∧ strm.ackedTxOffset = gapsInit

section
variable {id : Nat} {conn₀ conn conn₁ conn' : Conn} {strm : Strm} {frs frc : List Frame}

theorem NoReport.of_same (hlog : conn'.log = conn.log) (hstrms : conn'.strms = conn.strms) :
    NoReport id conn conn' where
  log := ⟨[], by rw [hlog, List.append_nil], rfl⟩
  tracker strm hfind := ⟨strm, by rw [← hstrms, hfind], rfl⟩
  keyed hkeyed := hkeyed.of_eq hstrms

theorem NoReport.trans (h : NoReport id conn conn₁) (h' : NoReport id conn₁ conn') :
    NoReport id conn conn' where
  log := by
    obtain ⟨evs, hlog, hnone⟩ := h.log
    obtain ⟨evs', hlog', hnone'⟩ := h'.log
    refine ⟨evs ++ evs', ?_, ?_⟩
    · rw [hlog', hlog, List.append_assoc]
    · rw [ackReports_append, hnone, hnone', List.append_nil]
  tracker strm hfind := by
    obtain ⟨strm₁, hfind₁, heq₁⟩ := h'.tracker strm hfind
    obtain ⟨strm₂, hfind₂, heq₂⟩ := h.tracker strm₁ hfind₁
    exact ⟨strm₂, hfind₂, heq₁.trans heq₂⟩
  keyed hkeyed := h'.keyed (h.keyed hkeyed)

theorem NoReport.tell {ev : Event} (hev : ackReports id [ev] = []) :
    NoReport id conn (conn.tell ev) where
  log := ⟨[ev], rfl, hev⟩
  tracker strm hfind := ⟨strm, hfind, rfl⟩
  keyed hkeyed := hkeyed

/-- Another stream's object is stored. -/
theorem NoReport.setStrm (hid : strm.streamId ≠ id) : NoReport id conn (conn.setStrm strm) where
  log := ⟨[], by simp, rfl⟩
  tracker strm' hfind := by
    rw [Conn.setStrm_strms, if_neg (Ne.symm hid)] at hfind
    exact ⟨strm', hfind, rfl⟩
  keyed hkeyed := hkeyed.setStrm strm

theorem NoReport.removeStrm (streamId : Nat) : NoReport id conn (conn.removeStrm streamId) where
  log := ⟨[], (List.append_nil _).symm, rfl⟩
  tracker strm hfind := by
    have hfind' : (if id = streamId then none else conn.strms id) = some strm := hfind
    split at hfind'
    · cases hfind'
    · exact ⟨strm, hfind', rfl⟩
  keyed hkeyed id' strm hfind := by
    have hfind' : (if id' = streamId then none else conn.strms id') = some strm := hfind
    split at hfind'
    · cases hfind'
    · exact hkeyed id' strm hfind'

theorem NoReport.andThen {α β : Type} {r : Result α} {f : α → Conn → Result β}
    (herror : ∀ x conn₁, r = (x, conn₁) → NoReport id conn conn₁)
    (hok : ∀ a conn₁, r = (.ok a, conn₁) → NoReport id conn (f a conn₁).2) :
    NoReport id conn (r.andThen f).2 := by
  obtain ⟨x, conn₁⟩ := r
  cases x with
  | error e => exact herror _ _ rfl
  | ok a => exact hok _ _ rfl

/-- A stream that is closed is reported closed. -/
theorem ngtcp2ConnCloseStreamIfShutRdwr_noReport (conn : Conn) (strm : Strm) (code : Nat) :
    NoReport id conn (ngtcp2ConnCloseStreamIfShutRdwr conn strm code).2 := by
  unfold ngtcp2ConnCloseStreamIfShutRdwr
  split
  · unfold ngtcp2ConnCloseStream
    cases conn.strms strm.streamId with
    | none => exact .of_same rfl rfl
    | some _ =>
      dsimp only
      generalize (if strm.appErrorCode = 0 then strm.appErrorCode else code) = code'
      have hclose : NoReport id conn
          ((conn.removeStrm strm.streamId).tell (.streamClose strm.streamId code')) :=
        (NoReport.removeStrm strm.streamId).trans (.tell rfl)
      refine .andThen (fun r conn₁ heq => ?_) fun _ conn₁ heq => ?_
      all_goals
        obtain rfl := connCall_tell heq
      · exact hclose
      · refine hclose.trans (.of_same ?_ ?_)
        · split <;> split <;> simp [connImmediateAck, Conn.setFcStrms]
        · split <;> split <;> simp [connImmediateAck, Conn.setFcStrms]
  · exact .of_same rfl rfl

theorem andThen_assoc {α β γ : Type} (r : Result α) (f : α → Conn → Result β)
    (g : β → Conn → Result γ) :
    (r.andThen f).andThen g = r.andThen fun a conn => (f a conn).andThen g := by
  obtain ⟨x, conn⟩ := r
  cases x <;> rfl

/-- The frames of a packet one after the other. -/
theorem callAckedStreamOffset_cons (fr : Frame) (frc : List Frame) (conn : Conn) :
    callAckedStreamOffset (fr :: frc) conn =
      (callAckedStreamOffset [fr] conn).andThen fun _ conn => callAckedStreamOffset frc conn := by
  cases fr with
  | stream fr =>
    simp only [callAckedStreamOffset]
    cases conn.strms fr.streamId with
    | none => rfl
    | some strm =>
      dsimp only
      split
      · rfl
      · rw [andThen_assoc]
        congr 1
        funext _ conn₁
        rw [andThen_assoc]
        rfl
  | _ => rfl

/-- Closing the stream once it was told of an acknowledgement, with no frame left. -/
theorem closeAcked_noReport (conn : Conn) (strm : Strm) :
    NoReport id conn ((ngtcp2ConnCloseStreamIfShutRdwr conn strm 0).andThen fun _ conn =>
      callAckedStreamOffset [] conn).2 := by
  have hclose : NoReport id conn (ngtcp2ConnCloseStreamIfShutRdwr conn strm 0).2 :=
    ngtcp2ConnCloseStreamIfShutRdwr_noReport conn strm 0
  refine .andThen (fun r conn₁ heq => ?_) fun _ conn₁ heq => ?_
  all_goals
    rw [heq] at hclose
    exact hclose

/-- A frame of another stream, or of another type. -/
theorem callAckedStreamOffset_noReport {fr : Frame} (hfr : streamRange id fr = none)
    (hkeyed : StrmsKeyed conn) : NoReport id conn (callAckedStreamOffset [fr] conn).2 := by
  have hnone : NoReport id conn conn := .of_same rfl rfl
  cases fr with
  | stream fr =>
    have hother : fr.streamId ≠ id := by simpa [streamRange] using hfr
    simp only [callAckedStreamOffset]
    cases hfind : conn.strms fr.streamId with
    | none => exact hnone
    | some strm =>
      have hid : strm.streamId ≠ id := by rwa [hkeyed _ _ hfind]
      dsimp only
      generalize gaptrPush strm.ackedTxOffset fr.offset fr.data.length = gaptr
      have hset : NoReport id conn (conn.setStrm (strm.setAckedTxOffset gaptr)) := .setStrm hid
      split
      · exact hset
      have htell : ∀ offset datalen, NoReport id conn
          ((conn.setStrm (strm.setAckedTxOffset gaptr)).tell
            (.ackedStreamDataOffset strm.streamId offset datalen)) :=
        fun offset datalen => hset.trans (.tell (by simp [ackReports, hid]))
      refine .andThen (fun r conn₁ heq => ?_) fun _ conn₁ heq => ?_
      all_goals
        obtain rfl := connCall_tell heq
      · exact htell _ _
      · exact (htell _ _).trans (closeAcked_noReport _ _)
  | _ => exact hnone

/-- What a run has pushed to the stream's tracker, and what it has reported. -/
structure Reported (id : Nat) (conn₀ : Conn) (frs : List Frame) (conn : Conn) (rs : List AckedRange)
    (evs : List Event) : Prop where
  keyed : StrmsKeyed conn
  frames : (rs.map AckedRange.pair).Sublist (frs.filterMap (streamRange id))
  log : conn.log = conn₀.log ++ evs
  reports : Contiguous 0 (ackReports id evs) (gaptrFirstGapOffset (pushes rs))
  tracker : ∀ strm, conn.strms id = some strm → strm.ackedTxOffset = pushes rs

theorem FreshStream.reported (h : FreshStream id conn₀) : Reported id conn₀ [] conn₀ [] [] where
  keyed := h.keyed
  frames := List.Sublist.refl _
  log := (List.append_nil _).symm
  reports := rfl
  tracker strm hfind := by
    obtain ⟨strm₀, hfind₀, hfresh⟩ := h.fresh
    obtain rfl := Option.some.inj (hfind.symm.trans hfind₀)
    exact hfresh

section
variable {rs : List AckedRange} {evs : List Event}

theorem Reported.noReport (h : Reported id conn₀ frs conn rs evs)
    (hquiet : NoReport id conn conn') :
    ∃ evs', Reported id conn₀ frs conn' rs (evs ++ evs') := by
  obtain ⟨evs', hlog, hnone⟩ := hquiet.log
  refine ⟨evs', hquiet.keyed h.keyed, h.frames, ?_, ?_, fun strm hfind => ?_⟩
  · rw [hlog, h.log, List.append_assoc]
  · rw [ackReports_append, hnone, List.append_nil]
    exact h.reports
  · obtain ⟨strm₁, hfind₁, heq⟩ := hquiet.tracker strm hfind
    rw [heq]
    exact h.tracker strm₁ hfind₁

theorem Reported.events (h : Reported id conn₀ frs conn rs evs) :
    Reported id conn₀ frs conn rs (evs ++ []) := by
  rwa [List.append_nil]

theorem Reported.tell (h : Reported id conn₀ frs conn rs evs) (ev : Event)
    (hev : ackReports id [ev] = []) : Reported id conn₀ frs (conn.tell ev) rs (evs ++ [ev]) where
  keyed := h.keyed
  frames := h.frames
  log := by
    rw [← List.append_assoc, ← h.log]
    rfl
  reports := by
    rw [ackReports_append, hev, List.append_nil]
    exact h.reports
  tracker := h.tracker

/-- More frames than those that were pushed. -/
theorem Reported.mono {frs' : List Frame} (h : Reported id conn₀ frs conn rs evs)
    (hsub : frs.Sublist frs') : Reported id conn₀ frs' conn rs evs where
  keyed := h.keyed
  frames := h.frames.trans (hsub.filterMap _)
  log := h.log
  reports := h.reports
  tracker := h.tracker

/-- The stream's object is stored after one more push. -/
theorem Reported.setStrm {r : AckedRange} {fr : Frame} (h : Reported id conn₀ frs conn rs evs)
    (hid : strm.streamId = id) (hfr : streamRange id fr = some r.pair)
    (htracker : strm.ackedTxOffset = pushes (rs ++ [r])) (evs' : List Event)
    (hreports : Contiguous 0 (ackReports id (evs ++ evs'))
      (gaptrFirstGapOffset (pushes (rs ++ [r])))) :
    Reported id conn₀ (frs ++ [fr]) ((conn.setStrm strm).tells evs') (rs ++ [r]) (evs ++ evs') where
  keyed := h.keyed.setStrm strm
  frames := by
    simp only [List.map_append, List.filterMap_append, List.map_cons, List.map_nil,
      List.filterMap_cons, hfr, List.filterMap_nil]
    exact h.frames.append (List.Sublist.refl _)
  log := by
    rw [← List.append_assoc, ← h.log]
    rfl
  reports := hreports
  tracker strm' hfind := by
    have hfind' : (conn.setStrm strm).strms id = some strm' := hfind
    rw [Conn.setStrm_strms, if_pos hid.symm] at hfind'
    obtain rfl := Option.some.inj hfind'
    exact htracker

/-- A frame of the stream: what it newly closes below the first gap is reported. -/
theorem Reported.acked {fr : StreamFrame} (h : Reported id conn₀ frs conn rs evs)
    (hid : fr.streamId = id) (hwrap : fr.offset + fr.data.length < 2 ^ 64) :
    ∃ rs' evs', Reported id conn₀ (frs ++ [.stream fr])
      (callAckedStreamOffset [.stream fr] conn).2 rs' (evs ++ evs') := by
  simp only [callAckedStreamOffset]
  cases hfind : conn.strms fr.streamId with
  | none => exact ⟨rs, [], (h.mono (List.sublist_append_left _ _)).events⟩
  | some strm =>
    dsimp only
    rw [hid] at hfind
    have hstrm : strm.streamId = id := h.keyed _ _ hfind
    let r : AckedRange := ⟨fr.offset, fr.data.length, hwrap⟩
    have hfr : streamRange id (.stream fr) = some r.pair := if_pos hid
    have hpush : gaptrPush strm.ackedTxOffset fr.offset fr.data.length = pushes (rs ++ [r]) := by
      rw [pushes_snoc, h.tracker _ hfind]
    rw [hpush, h.tracker _ hfind]
    generalize hstrm₁ : strm.setAckedTxOffset (pushes (rs ++ [r])) = strm₁
    have hid₁ : strm₁.streamId = id := by rw [← hstrm₁, ← hstrm]; rfl
    have htracker : strm₁.ackedTxOffset = pushes (rs ++ [r]) := by rw [← hstrm₁]; rfl
    rw [htracker]
    -- The first gap does not move back, so the difference does not wrap around.
    have hmono : gaptrFirstGapOffset (pushes rs) ≤ gaptrFirstGapOffset (pushes (rs ++ [r])) := by
      rw [pushes_snoc]
      exact (pushes_tracks rs).firstGap_mono r
    have hmax := (pushes_tracks (rs ++ [r])).firstGap_le_max
    have hlt : gaptrFirstGapOffset (pushes (rs ++ [r])) < 2 ^ 64 := by
      unfold uint64Max at hmax
      omega
    rw [subU64_of_le hmono hlt]
    generalize hlen : gaptrFirstGapOffset (pushes (rs ++ [r])) - gaptrFirstGapOffset (pushes rs) =
      len
    have hnext : gaptrFirstGapOffset (pushes (rs ++ [r])) =
      gaptrFirstGapOffset (pushes rs) + len := by
      omega
    split
    · next hzero =>
      have hsame : gaptrFirstGapOffset (pushes (rs ++ [r])) = gaptrFirstGapOffset (pushes rs) := by
        rw [hnext, hzero.1, Nat.add_zero]
      have hnil : ∀ c : Conn, c.tells [] = c := fun c => by simp [Conn.tells]
      have hset := h.setStrm hid₁ hfr htracker [] (by
        rw [List.append_nil, hsame]
        exact h.reports)
      rw [hnil] at hset
      exact ⟨_, _, hset⟩
    · generalize hev : Event.ackedStreamDataOffset strm₁.streamId (gaptrFirstGapOffset (pushes rs))
        len = ev
      have htold := h.setStrm hid₁ hfr htracker [ev] (by
        have hone : ackReports id [ev] = [(gaptrFirstGapOffset (pushes rs), len)] := by
          simp [← hev, ackReports, hid₁]
        rw [ackReports_append, hone, hnext]
        exact h.reports.snoc)
      have hrest : NoReport id ((conn.setStrm strm₁).tells [ev])
          ((connCall (conn.setStrm strm₁) ev).andThen fun _ conn =>
            (ngtcp2ConnCloseStreamIfShutRdwr conn strm₁ 0).andThen fun _ conn =>
              callAckedStreamOffset [] conn).2 := by
        refine .andThen (fun x conn₁ heq => ?_) fun _ conn₁ heq => ?_
        all_goals
          obtain rfl := connCall_tell heq
        · exact .of_same rfl rfl
        · exact closeAcked_noReport _ _
      obtain ⟨evs', h'⟩ := htold.noReport hrest
      rw [List.append_assoc] at h'
      exact ⟨_, _, h'⟩

/-- An acknowledged packet, frame by frame. -/
theorem Reported.packet (h : Reported id conn₀ frs conn rs evs)
    (hwrap : ∀ fr, .stream fr ∈ frc → fr.offset + fr.data.length < 2 ^ 64) :
    ∃ rs' evs', Reported id conn₀ (frs ++ frc) (callAckedStreamOffset frc conn).2 rs'
      (evs ++ evs') := by
  induction frc generalizing conn frs rs evs with
  | nil => exact ⟨rs, [], (h.mono (by simp)).events⟩
  | cons fr frc ih =>
    have hone : ∃ rs₁ evs₁, Reported id conn₀ (frs ++ [fr])
        (callAckedStreamOffset [fr] conn).2 rs₁ (evs ++ evs₁) := by
      cases hfr : streamRange id fr with
      | none =>
        obtain ⟨evs₁, h₁⟩ := h.noReport (callAckedStreamOffset_noReport hfr h.keyed)
        exact ⟨rs, evs₁, h₁.mono (List.sublist_append_left _ _)⟩
      | some pair =>
        cases fr with
        | stream fr =>
          have hid : fr.streamId = id := by
            by_contra hne
            simp [streamRange, hne] at hfr
          exact h.acked hid (hwrap fr List.mem_cons_self)
        | _ => simp [streamRange] at hfr
    obtain ⟨rs₁, evs₁, h₁⟩ := hone
    rw [callAckedStreamOffset_cons]
    generalize callAckedStreamOffset [fr] conn = first at h₁
    obtain ⟨x, conn₁⟩ := first
    cases x with
    | error e =>
      refine ⟨rs₁, evs₁, h₁.mono ?_⟩
      exact (List.Sublist.refl frs).append (by simp)
    | ok a =>
      obtain ⟨rs', evs', h'⟩ := ih h₁ fun fr' hfr' => hwrap fr' (List.mem_cons_of_mem _ hfr')
      rw [List.append_assoc evs] at h'
      rw [List.append_cons]
      exact ⟨rs', _, h'⟩

end

/-- The pushes are among the frames of the packets that were acknowledged. -/
def Accounted (id : Nat) (conn₀ conn : Conn) : Prop :=
  ∃ rs evs, Reported id conn₀ (ackedFrames evs) conn rs evs

theorem Accounted.noReport (h : Accounted id conn₀ conn) (hquiet : NoReport id conn conn') :
    Accounted id conn₀ conn' := by
  obtain ⟨rs, evs, hrep⟩ := h
  obtain ⟨evs', hrep'⟩ := hrep.noReport hquiet
  refine ⟨rs, evs ++ evs', hrep'.mono ?_⟩
  simp [ackedFrames]

theorem Accounted.andThen {α β : Type} {r : Result α} {f : α → Conn → Result β}
    (h : Accounted id conn₀ r.2)
    (hok : ∀ a conn₁, r = (.ok a, conn₁) → Accounted id conn₀ conn₁ →
    Accounted id conn₀ (f a conn₁).2) :
    Accounted id conn₀ (r.andThen f).2 := by
  obtain ⟨x, conn₁⟩ := r
  cases x with
  | error e => exact h
  | ok a => exact hok a conn₁ rfl h

/-- One acknowledged entry. -/
theorem Accounted.onAcked {ent : RtbEntry} (h : Accounted id conn₀ conn)
    (hwrap : ∀ fr, .stream fr ∈ ent.frc → fr.offset + fr.data.length < 2 ^ 64) :
    Accounted id conn₀ (rtbOnAcked conn ent).2 := by
  obtain ⟨rs, evs, hrep⟩ := h
  have htell : NoReport id conn (conn.tell (.pktAcked ent.hd.pktNum ent.frc)) := .tell rfl
  have hcalled : Accounted id conn₀
      (if (conn.tell (.pktAcked ent.hd.pktNum ent.frc)).callbacks.ackedStreamDataOffset then
        callAckedStreamOffset ent.frc (conn.tell (.pktAcked ent.hd.pktNum ent.frc))
      else (.ok (), conn.tell (.pktAcked ent.hd.pktNum ent.frc))).2 := by
    split
    · have htold := hrep.tell (.pktAcked ent.hd.pktNum ent.frc) rfl
      obtain ⟨rs', evs', hrep'⟩ := htold.packet hwrap
      refine ⟨rs', _, hrep'.mono ?_⟩
      simp [ackedFrames]
    · exact Accounted.noReport ⟨rs, evs, hrep⟩ htell
  refine hcalled.andThen fun _ conn₁ _ h₁ => ?_
  dsimp only
  split
  · exact h₁
  · exact h₁.noReport (.of_same rfl rfl)

/-- A range of an ACK frame leaves entries behind it. -/
def AccountedRest (id : Nat) (conn₀ : Conn) (r : Result (List RtbEntry)) : Prop :=
  Accounted id conn₀ r.2 ∧ ∀ ents, r.1 = .ok ents → NoWrap ents

theorem AccountedRest.onAcked {ent : RtbEntry} {f : Unit → Conn → Result (List RtbEntry)}
    (h : Accounted id conn₀ conn)
    (hwrap : ∀ fr, .stream fr ∈ ent.frc → fr.offset + fr.data.length < 2 ^ 64)
    (hrest : ∀ conn₁, Accounted id conn₀ conn₁ → AccountedRest id conn₀ (f () conn₁)) :
    AccountedRest id conn₀ ((rtbOnAcked conn ent).andThen f) := by
  have hacked := h.onAcked hwrap
  generalize rtbOnAcked conn ent = r at hacked
  obtain ⟨x, conn₁⟩ := r
  cases x with
  | error e => exact ⟨hacked, fun ents hents => by cases hents⟩
  | ok a => exact hrest conn₁ hacked

theorem AccountedRest.stop {ents : List RtbEntry} (h : Accounted id conn₀ conn)
    (hwrap : NoWrap ents) : AccountedRest id conn₀ (.ok ents, conn) := by
  refine ⟨h, fun ents' hents => ?_⟩
  obtain rfl := Except.ok.inj hents
  exact hwrap

theorem rtbRecvAckFirst_accounted {unprotected : Bool} {minAck largestAck : Nat}
    {ents : List RtbEntry} (h : Accounted id conn₀ conn) (hwrap : NoWrap ents) :
    AccountedRest id conn₀ (rtbRecvAckFirst unprotected minAck largestAck ents conn) := by
  induction ents generalizing conn with
  | nil => exact .stop h hwrap
  | cons ent ents ih =>
    have hrest : NoWrap ents := fun ent' hent' => hwrap ent' (List.mem_cons_of_mem _ hent')
    unfold rtbRecvAckFirst
    split
    · split
      · exact ih h hrest
      · exact .onAcked h (hwrap ent List.mem_cons_self) fun _ h₁ => ih h₁ hrest
    · exact .stop h hwrap

theorem rtbRecvAckBlk_accounted {unprotected : Bool} {minAck largestAck : Nat}
    {ents : List RtbEntry} (h : Accounted id conn₀ conn) (hwrap : NoWrap ents) :
    AccountedRest id conn₀ (rtbRecvAckBlk unprotected minAck largestAck ents conn) := by
  induction ents generalizing conn with
  | nil => exact .stop h hwrap
  | cons ent ents ih =>
    have hrest : NoWrap ents := fun ent' hent' => hwrap ent' (List.mem_cons_of_mem _ hent')
    unfold rtbRecvAckBlk
    split
    · exact ih h hrest
    split
    · exact .stop h hwrap
    split
    · exact ih h hrest
    · exact .onAcked h (hwrap ent List.mem_cons_self) fun _ h₁ => ih h₁ hrest

theorem AccountedRest.andThen {r : Result (List RtbEntry)}
    {f : List RtbEntry → Conn → Result Unit} (h : AccountedRest id conn₀ r)
    (hrest : ∀ ents conn₁, NoWrap ents → Accounted id conn₀ conn₁ →
      Accounted id conn₀ (f ents conn₁).2) : Accounted id conn₀ (r.andThen f).2 := by
  obtain ⟨hacked, hwrap⟩ := h
  exact hacked.andThen fun ents conn₁ heq h₁ => hrest ents conn₁ (hwrap ents (by rw [heq])) h₁

theorem Accounted.recvAckBlks {unprotected : Bool} {minAck : Nat} {blks : List AckBlk}
    {ents : List RtbEntry} (h : Accounted id conn₀ conn) (hwrap : NoWrap ents) :
    Accounted id conn₀ (rtbRecvAckBlks unprotected minAck blks ents conn).2 := by
  induction blks generalizing minAck ents conn with
  | nil => exact h
  | cons blk blks ih =>
    cases ents with
    | nil => exact h
    | cons ent ents =>
      unfold rtbRecvAckBlks
      exact (rtbRecvAckBlk_accounted h hwrap).andThen fun _ _ hwrap₁ h₁ => ih h₁ hwrap₁

/-- A whole ACK frame. -/
theorem Accounted.recvAck (h : Accounted id conn₀ conn) (hwrap : NoWrap conn.rtb.head)
    (fr : AckFrame) (unprotected : Bool) :
    Accounted id conn₀ (ngtcp2RtbRecvAck conn fr unprotected).2 := by
  unfold ngtcp2RtbRecvAck
  have hdrop : NoWrap (conn.rtb.head.dropWhile fun ent => fr.largestAck < ent.hd.pktNum) :=
    fun ent hent => hwrap ent ((List.dropWhile_sublist _).subset hent)
  exact (rtbRecvAckFirst_accounted h hdrop).andThen fun _ _ hwrap₁ h₁ => h₁.recvAckBlks hwrap₁

theorem AckRun.accounted (h : AckRun id conn₀ conn) (hstart : FreshStream id conn₀) :
    Accounted id conn₀ conn := by
  induction h with
  | start => exact ⟨[], [], hstart.reported⟩
  | recvAck before fr unprotected noWrap ih => exact ih.recvAck noWrap fr unprotected
  | other before quiet ih => exact ih.noReport quiet

end

/-- The tracker is exact after any pushes, and what the application is told of a stream follows
without a gap or an overlap from 0 to the first byte that is not acknowledged. -/
theorem ackedStreamDataOffset_contiguous :
    (∀ rs, TracksGaps rs (pushes rs)) ∧
      ∀ id conn₀ conn, FreshStream id conn₀ → AckRun id conn₀ conn →
        ∃ rs evs, conn.log = conn₀.log ++ evs ∧
          (rs.map AckedRange.pair).Sublist ((ackedFrames evs).filterMap (streamRange id)) ∧
          Contiguous 0 (ackReports id evs) (gaptrFirstGapOffset (pushes rs)) ∧
          ((ackReports id evs).map Prod.snd).sum = gaptrFirstGapOffset (pushes rs) ∧
          ∀ strm, conn.strms id = some strm → strm.ackedTxOffset = pushes rs := by
  refine ⟨pushes_tracks, fun id conn₀ conn hstart hrun => ?_⟩
  obtain ⟨rs, evs, h⟩ := hrun.accounted hstart
  have hsum := h.reports.sum
  rw [Nat.zero_add] at hsum
  exact ⟨rs, evs, h.log, h.frames, h.reports, hsum, h.tracker⟩

/-- A server with a packet in flight whose two frames are out of order. -/
def sentServer : Conn :=
  { pongServer with
    rtb := rtbAdd rtbInit (rtbEntryNew 0 pongServer.shortHd
      [.stream ⟨0, 2, [3], false⟩, .stream ⟨0, 0, [1, 2], false⟩] 0 10 30 false) }

theorem sentServer_noWrap : NoWrap sentServer.rtb.head := by
  intro ent hent fr hfr
  obtain rfl := List.mem_singleton.mp hent
  rcases List.mem_pair.mp hfr with heq | heq
  all_goals
    obtain rfl := Frame.stream.inj heq
    decide

/-- The frame that closes the gap reports both. -/
example : ackReports 0 (ngtcp2RtbRecvAck sentServer ⟨1, 0, 0, []⟩ false).2.log = [(0, 3)] := by
  decide

theorem ackedStreamDataOffset_contiguous_two :
    ∃ rs evs, (ngtcp2RtbRecvAck sentServer ⟨1, 0, 0, []⟩ false).2.log = sentServer.log ++ evs ∧
      (rs.map AckedRange.pair).Sublist ((ackedFrames evs).filterMap (streamRange 0)) ∧
      Contiguous 0 (ackReports 0 evs) (gaptrFirstGapOffset (pushes rs)) ∧
      ((ackReports 0 evs).map Prod.snd).sum = gaptrFirstGapOffset (pushes rs) ∧
      ∀ strm, (ngtcp2RtbRecvAck sentServer ⟨1, 0, 0, []⟩ false).2.strms 0 = some strm →
        strm.ackedTxOffset = pushes rs :=
  ackedStreamDataOffset_contiguous.2 0 sentServer _ ⟨pongServer_keyed, _, rfl, rfl⟩
    (.recvAck .start ⟨1, 0, 0, []⟩ false sentServer_noWrap)

end Ngtcp2
