import Polygon.Lib.Intrusive
import Polygon.StepChanges

/-!
# The list of streams that owe a MAX_STREAM_DATA frame

`conn->fc_strms` with the pointers inside the stream objects. The places of the source that
touch it keep it whole, but for the stream 0 that a Retry packet frees.
-/
namespace Ngtcp2

open Intrusive Intrusive.Links

/-! ## The pointers -/

/-- The stream objects that are alive, and their pointers. -/
structure FcMem where
  live : Nat → Bool
  links : Links Nat

def fcMemInit : FcMem := ⟨fun _ => false, .empty⟩

/-- The stream goes in before the first one, as in `conn_extend_max_stream_offset`. -/
def fcLink (l : Links Nat) (id : Nat) : Links Nat :=
  let l' := l.setPprev id (some .head)
  let l' := match l.head with
    | none => l'
    | some first => (l'.write (.next id) (some first)).setPprev first (some (.next id))
  l'.write .head (some id)

/-- The calls that touch the list. -/
inductive FcCall where
  | create (id : Nat)
  | extend (id : Nat)
  | unlink (id : Nat)
  | announce
  | close (id : Nat)
  | retry

/-- One call; `none` is the use of an object that was freed. -/
def FcCall.run (m : FcMem) : FcCall → Option FcMem
  -- `ngtcp2_strm_init`
  | create id => if m.live id then none else some ⟨fun i => i == id || m.live i, m.links.clear id⟩
  | extend id =>
    if m.live id then
      match m.links.pprev id with
      | none => some { m with links := fcLink m.links id }
      | some _ => some m
    else none
  -- the FIN of a stream and `conn_stop_sending`
  | unlink id =>
    if m.live id then
      match m.links.pprev id with
      | none => some m
      | some loc => some { m with links := (m.links.unlink id loc).clear id }
    else none
  -- one turn of the loop of `conn_write_pkt`
  | announce =>
    match m.links.head with
    | none => some m
    | some id => if m.live id then some { m with links := (m.links.unlink id .head).clear id } else none
  | close id =>
    if m.live id then
      let links := match m.links.pprev id with
        | none => m.links
        | some loc => m.links.unlink id loc
      some ⟨fun i => i != id && m.live i, links⟩
    else none
  -- The object of stream 0 is freed, and a new one takes its place.
  | retry => some ⟨fun i => i == 0 || m.live i, m.links.clear 0⟩

def FcStep (_ : List FcCall) (m : FcMem) (call : FcCall) (m' : FcMem) : Prop := call.run m = some m'

/-- The pointers agree with the connection: the list is linked both ways, and the streams on it
are the streams of the connection whose `fc_pprev` is set. -/
structure FcMem.Agrees (m : FcMem) (conn : Conn) : Prop where
  live : ∀ id, m.live id = (conn.strms id).isSome
  linked : m.links.Linked conn.fcStrms
  on : ∀ id ∈ conn.fcStrms, ∃ strm, conn.strms id = some strm ∧ strm.onFc = true
  off : ∀ id strm, conn.strms id = some strm → id ∉ conn.fcStrms →
    strm.onFc = false ∧ m.links.pprev id = none ∧ m.links.read (.next id) = none

/-- The memory that some calls left agrees with the connection. -/
def FcHeld (conn : Conn) : Prop := ∃ calls m, Runs.Run FcStep fcMemInit calls m ∧ m.Agrees conn

section
variable {m m' : FcMem} {conn conn' : Conn} {strm strm' : Strm} {id : Nat}

/-- Off the list `fc_next` is null, so it makes no difference that it is written only before
another stream. -/
theorem fcLink_eq {l : Links Nat} (hnext : l.next id = none) (hhead : l.head ≠ some id) :
    fcLink l id = l.pushFront id := by
  unfold fcLink Links.pushFront
  cases hl : l.head with
  | none =>
    have hwrite : l.write (.next id) none = l := by
      unfold Links.write
      have hsame : (fun b => if b = id then none else l.next b) = l.next := by
        funext b
        by_cases hb : b = id
        · rw [if_pos hb, hb, hnext]
        · rw [if_neg hb]
      dsimp only
      rw [hsame]
    dsimp only [Links.tellPprev]
    rw [hwrite, hl]
  | some first =>
    have hne : first ≠ id := fun he => hhead (he ▸ hl)
    have hswap : (fun b => if b = first then some (Loc.next id) else if b = id then some .head else l.pprev b) =
        fun b => if b = id then some .head else if b =
          first then some (Loc.next id) else l.pprev b := by
      funext b
      by_cases hb : b = id
      · rw [if_neg (fun he => hne (he.symm.trans hb)), if_pos hb, if_pos hb]
      · rw [if_neg hb, if_neg hb]
    dsimp only [Links.tellPprev, Links.write, Links.setPprev]
    rw [hl]
    dsimp only
    rw [hswap]

theorem FcMem.Agrees.pprev_isSome (h : m.Agrees conn) (hid : id ∈ conn.fcStrms) :
    ∃ pre suf, conn.fcStrms = pre ++ id :: suf ∧
    m.links.pprev id = some (endLoc .head pre) := by
  obtain ⟨pre, suf, heq⟩ := List.append_of_mem hid
  have hlinked := h.linked
  rw [heq] at hlinked
  exact ⟨pre, suf, heq, hlinked.pprev.1⟩

/-- A stream is on the list just when its `fc_pprev` is set. -/
theorem FcMem.Agrees.onFc_iff (h : m.Agrees conn) (find : conn.strms id = some strm) :
    strm.onFc = true ↔ id ∈ conn.fcStrms := by
  constructor
  · intro hon
    by_contra hid
    exact Bool.false_ne_true ((h.off id strm find hid).1.symm.trans hon)
  · intro hid
    obtain ⟨strm', find', hon⟩ := h.on id hid
    obtain rfl := Option.some.inj (find.symm.trans find')
    exact hon

theorem FcHeld.of_eq (h : FcHeld conn) (hfc : conn'.fcStrms = conn.fcStrms)
    (hstrms : conn'.strms = conn.strms) :
    FcHeld conn' := by
  obtain ⟨calls, m, hrun, h⟩ := h
  refine ⟨calls, m, hrun, ?_, ?_, ?_, ?_⟩
  · rw [hstrms]
    exact h.live
  · rw [hfc]
    exact h.linked
  · rw [hfc, hstrms]
    exact h.on
  · rw [hfc, hstrms]
    exact h.off

/-! ## Each place of the source -/

/-- The object of a stream is written back. -/
theorem FcMem.Agrees.setStrm (h : m.Agrees conn) (find : conn.strms strm.streamId = some strm)
    (hid : strm'.streamId = strm.streamId) (hon : strm'.onFc = strm.onFc) :
    m.Agrees (conn.setStrm strm') := by
  have hset : ∀ id, (conn.setStrm strm').strms id = if id =
    strm.streamId then some strm' else conn.strms id := by
    intro id
    rw [Conn.setStrm_strms, hid]
  refine ⟨fun id => ?_, h.linked, fun id hmem => ?_, fun id s hfind hnot => ?_⟩
  · rw [hset, h.live]
    by_cases hc : id = strm.streamId
    · rw [if_pos hc, hc, find]
      rfl
    · rw [if_neg hc]
  · rw [hset]
    obtain ⟨s, hs, hson⟩ := h.on id hmem
    by_cases hc : id = strm.streamId
    · rw [if_pos hc]
      rw [hc, find] at hs
      obtain rfl := Option.some.inj hs
      exact ⟨strm', rfl, hon.trans hson⟩
    · rw [if_neg hc]
      exact ⟨s, hs, hson⟩
  · rw [hset] at hfind
    by_cases hc : id = strm.streamId
    · rw [if_pos hc] at hfind
      obtain rfl := Option.some.inj hfind
      obtain ⟨hoff, hptrs⟩ := h.off id strm (hc ▸ find) hnot
      exact ⟨hon.trans hoff, hptrs⟩
    · rw [if_neg hc] at hfind
      exact h.off id s hfind hnot

theorem FcMem.Agrees.link (h : m.Agrees conn) (find : conn.strms strm.streamId = some strm)
    (off : strm.onFc = false)
    (hid : strm'.streamId = strm.streamId) (on : strm'.onFc = true) :
    ∃ m', (FcCall.extend strm.streamId).run m = some m' ∧
      m'.Agrees ((conn.setFcStrms (strm.streamId :: conn.fcStrms)).setStrm strm') := by
  have hnot : strm.streamId ∉ conn.fcStrms := fun hmem =>
    Bool.false_ne_true (off.symm.trans ((h.onFc_iff find).mpr hmem))
  obtain ⟨-, hpprev, hnext⟩ := h.off _ _ find hnot
  have hlive : m.live strm.streamId = true := by
    rw [h.live, find]
    rfl
  have hhead : m.links.head ≠ some strm.streamId := by
    intro he
    cases hfc : conn.fcStrms with
    | nil =>
      have hchain := h.linked.chain
      rw [hfc] at hchain
      cases he.symm.trans hchain
    | cons first rest =>
      have hchain := h.linked.chain
      rw [hfc] at hchain
      have hfirst := Option.some.inj (he.symm.trans hchain.1)
      exact hnot (by rw [hfc, hfirst]; exact List.mem_cons_self)
  have hset : ∀ id, ((conn.setFcStrms (strm.streamId :: conn.fcStrms)).setStrm strm').strms id =
      if id = strm.streamId then some strm' else conn.strms id := by
    intro id
    rw [Conn.setStrm_strms, hid]
    rfl
  refine ⟨{ m with links := fcLink m.links strm.streamId }, ?_, fun id => ?_, ?_, fun id hmem => ?_,
    fun id s hfind hnotin => ?_⟩
  · unfold FcCall.run
    dsimp only
    rw [if_pos hlive, hpprev]
  · rw [hset]
    show m.live id = _
    by_cases hc : id = strm.streamId
    · rw [if_pos hc, hc, hlive]
      rfl
    · rw [if_neg hc, h.live]
  · show (fcLink m.links strm.streamId).Linked (strm.streamId :: conn.fcStrms)
    rw [fcLink_eq hnext hhead]
    exact h.linked.pushFront hnot
  · rw [hset]
    by_cases hc : id = strm.streamId
    · rw [if_pos hc]
      exact ⟨strm', rfl, on⟩
    · rw [if_neg hc]
      exact h.on id (List.mem_of_ne_of_mem hc hmem)
  · obtain ⟨hne, hnotin⟩ := List.ne_and_not_mem_of_not_mem_cons hnotin
    rw [hset, if_neg hne] at hfind
    obtain ⟨hoff, hp, hn⟩ := h.off id s hfind hnotin
    obtain ⟨hp', hn'⟩ := h.linked.pushFront_other hnotin hne
    show s.onFc = false ∧ (fcLink m.links strm.streamId).pprev id = none ∧
      (fcLink m.links strm.streamId).read (.next id) = none
    rw [fcLink_eq hnext hhead, hp', hn']
    exact ⟨hoff, hp, hn⟩

/-- A stream leaves the list, wherever it stands. -/
theorem FcMem.Agrees.unlinked (h : m.Agrees conn) (find : conn.strms strm.streamId = some strm)
    {pre suf : List Nat} (heq : conn.fcStrms = pre ++ strm.streamId :: suf)
    (hid : strm'.streamId = strm.streamId) (off : strm'.onFc = false) :
    FcMem.Agrees { m with links := (m.links.unlink strm.streamId (endLoc .head pre)).clear strm.streamId }
      ((conn.setFcStrms (pre ++ suf)).setStrm strm') := by
  have hlinked := h.linked
  rw [heq] at hlinked
  obtain ⟨hpre, hsuf⟩ : strm.streamId ∉ pre ∧ strm.streamId ∉ suf := by
    have hnodup := List.nodup_middle.mp hlinked.nodup
    obtain ⟨hnot, -⟩ := List.nodup_cons.mp hnodup
    exact ⟨fun hc => hnot (List.mem_append_left _ hc), fun hc => hnot (List.mem_append_right _ hc)⟩
  have hout : strm.streamId ∉ pre ++ suf := fun hc => (List.mem_append.mp hc).elim hpre hsuf
  have hset : ∀ id, ((conn.setFcStrms (pre ++ suf)).setStrm strm').strms id =
      if id = strm.streamId then some strm' else conn.strms id := by
    intro id
    rw [Conn.setStrm_strms, hid]
    rfl
  refine ⟨fun id => ?_, hlinked.unlink.clear hout, fun id hmem => ?_, fun id s hfind hnotin => ?_⟩
  · rw [hset]
    show m.live id = _
    rw [h.live]
    by_cases hc : id = strm.streamId
    · rw [if_pos hc, hc, find]
      rfl
    · rw [if_neg hc]
  · have hmem : id ∈ pre ++ suf := hmem
    have hne : id ≠ strm.streamId := fun he => hout (he ▸ hmem)
    rw [hset, if_neg hne]
    apply h.on id
    rw [heq]
    rcases List.mem_append.mp hmem with hmem | hmem
    · exact List.mem_append_left _ hmem
    · exact List.mem_append_right _ (List.mem_cons_of_mem _ hmem)
  · have hnotin : id ∉ pre ++ suf := hnotin
    rw [hset] at hfind
    by_cases hc : id = strm.streamId
    · rw [if_pos hc] at hfind
      obtain rfl := Option.some.inj hfind
      rw [hc]
      exact ⟨off, pprev_clear_same _ _, next_clear_same _ _⟩
    · rw [if_neg hc] at hfind
      have hnot : id ∉ pre ++ strm.streamId :: suf := by
        intro hmem
        rcases List.mem_append.mp hmem with hmem | hmem
        · exact hnotin (List.mem_append_left _ hmem)
        · exact hnotin (List.mem_append_right _ (List.mem_of_ne_of_mem hc hmem))
      obtain ⟨hoff, hp, hn⟩ := h.off id s hfind (heq ▸ hnot)
      obtain ⟨hp', hn'⟩ := hlinked.unlink_other hnot
      obtain ⟨hp'', hn''⟩ := clear_other (m.links.unlink strm.streamId (endLoc .head pre)) hc
      exact ⟨hoff, hp''.trans (hp'.trans hp), hn''.trans (hn'.trans hn)⟩

/-- The middle of a list without repetitions is taken out. -/
theorem erase_middle {pre suf : List Nat} (hnodup : (pre ++ id :: suf).Nodup) :
    (pre ++ id :: suf).erase id = pre ++ suf := by
  have hpre : id ∉ pre := fun hc =>
    (List.nodup_cons.mp (List.nodup_middle.mp hnodup)).1 (List.mem_append_left _ hc)
  rw [List.erase_append_right _ hpre, List.erase_cons_head]

theorem FcMem.Agrees.unlink (h : m.Agrees conn) (find : conn.strms strm.streamId = some strm)
    (on : strm.onFc = true)
    (hid : strm'.streamId = strm.streamId) (off : strm'.onFc = false) :
    ∃ m', (FcCall.unlink strm.streamId).run m = some m' ∧
      m'.Agrees ((conn.setFcStrms (conn.fcStrms.erase strm.streamId)).setStrm strm') := by
  obtain ⟨pre, suf, heq, hpprev⟩ := h.pprev_isSome ((h.onFc_iff find).mp on)
  have hlive : m.live strm.streamId = true := by
    rw [h.live, find]
    rfl
  have herase : conn.fcStrms.erase strm.streamId = pre ++ suf := by
    have hnodup := h.linked.nodup
    rw [heq] at hnodup ⊢
    exact erase_middle hnodup
  refine ⟨_, ?_, herase ▸ h.unlinked find heq hid off⟩
  unfold FcCall.run
  dsimp only
  rw [if_pos hlive, hpprev]

theorem FcMem.Agrees.announce (h : m.Agrees conn) (find : conn.strms strm.streamId = some strm)
    {fcStrms : List Nat}
    (first : conn.fcStrms = strm.streamId :: fcStrms) (hid : strm'.streamId = strm.streamId)
    (off : strm'.onFc = false) :
    ∃ m', FcCall.announce.run m = some m' ∧
    m'.Agrees ((conn.setFcStrms fcStrms).setStrm strm') := by
  have hlive : m.live strm.streamId = true := by
    rw [h.live, find]
    rfl
  have hhead : m.links.head = some strm.streamId := by
    have hchain := h.linked.chain
    rw [first] at hchain
    exact hchain.1
  have heq : conn.fcStrms = [] ++ strm.streamId :: fcStrms := first
  refine ⟨_, ?_, h.unlinked find heq hid off⟩
  unfold FcCall.run
  dsimp only
  rw [hhead]
  dsimp only
  rw [if_pos hlive]
  rfl

/-- An object that is not on the list is created, also in the place of another one. -/
theorem FcMem.Agrees.fresh (h : m.Agrees conn) (hnot : id ∉ conn.fcStrms)
    (hfc : conn'.fcStrms = conn.fcStrms)
    (hstrms : ∀ i, conn'.strms i = if i = id then some strm' else conn.strms i)
    (off : strm'.onFc = false) :
    FcMem.Agrees ⟨fun i => i == id || m.live i, m.links.clear id⟩ conn' := by
  refine ⟨fun i => ?_, ?_, fun i hmem => ?_, fun i s hfind hnotin => ?_⟩
  · rw [hstrms]
    show (i == id || m.live i) = _
    by_cases hc : i = id
    · rw [if_pos hc, hc, beq_self_eq_true, Bool.true_or]
      rfl
    · rw [if_neg hc, beq_false_of_ne hc, Bool.false_or, h.live]
  · rw [hfc]
    exact h.linked.clear hnot
  · rw [hfc] at hmem
    have hne : i ≠ id := fun he => hnot (he ▸ hmem)
    rw [hstrms, if_neg hne]
    exact h.on i hmem
  · rw [hfc] at hnotin
    rw [hstrms] at hfind
    by_cases hc : i = id
    · rw [if_pos hc] at hfind
      obtain rfl := Option.some.inj hfind
      rw [hc]
      exact ⟨off, pprev_clear_same _ _, next_clear_same _ _⟩
    · rw [if_neg hc] at hfind
      obtain ⟨hoff, hp, hn⟩ := h.off i s hfind hnotin
      obtain ⟨hp', hn'⟩ := clear_other m.links hc
      exact ⟨hoff, hp'.trans hp, hn'.trans hn⟩

theorem FcMem.Agrees.create (h : m.Agrees conn) (none : conn.strms id = none)
    (hfc : conn'.fcStrms = conn.fcStrms)
    (hstrms : ∀ i, conn'.strms i = if i = id then some strm' else conn.strms i)
    (off : strm'.onFc = false) :
    ∃ m', (FcCall.create id).run m = some m' ∧ m'.Agrees conn' := by
  have hnot : id ∉ conn.fcStrms := by
    intro hmem
    obtain ⟨s, hs, -⟩ := h.on id hmem
    cases none.symm.trans hs
  have hdead : ¬m.live id = true := by
    rw [h.live, none]
    exact Bool.false_ne_true
  refine ⟨_, ?_, h.fresh hnot hfc hstrms off⟩
  unfold FcCall.run
  exact if_neg hdead

theorem FcMem.Agrees.retry (h : m.Agrees conn) (hnot : 0 ∉ conn.fcStrms)
    (hfc : conn'.fcStrms = conn.fcStrms)
    (hstrms : ∀ i, conn'.strms i = if i = 0 then some strm' else conn.strms i)
    (off : strm'.onFc = false) :
    ∃ m', FcCall.retry.run m = some m' ∧ m'.Agrees conn' := ⟨_, rfl, h.fresh hnot hfc hstrms off⟩

/-- The object of a stream is freed, off the list. -/
theorem FcMem.Agrees.close (h : m.Agrees conn) (find : conn.strms strm.streamId = some strm)
    (hfc : conn'.fcStrms = if strm.onFc then conn.fcStrms.erase strm.streamId else conn.fcStrms)
    (hstrms : ∀ i, conn'.strms i = if i = strm.streamId then none else conn.strms i) :
    ∃ m', (FcCall.close strm.streamId).run m = some m' ∧ m'.Agrees conn' := by
  have hlive : m.live strm.streamId = true := by
    rw [h.live, find]
    rfl
  -- Off the list, nothing but the object goes.
  have hgone : ∀ {links : Links Nat}, links.Linked conn'.fcStrms → strm.streamId ∉ conn'.fcStrms →
      (∀ i ∈ conn'.fcStrms, i ∈ conn.fcStrms) →
      (∀ i, i ≠ strm.streamId → i ∉ conn'.fcStrms → i ∉ conn.fcStrms ∧
        links.pprev i = m.links.pprev i ∧ links.read (.next i) = m.links.read (.next i)) →
      FcMem.Agrees ⟨fun i => i != strm.streamId && m.live i, links⟩ conn' := by
    intro links hlinked hout hsub hother
    refine ⟨fun i => ?_, hlinked, fun i hmem => ?_, fun i s hfind hnotin => ?_⟩
    · rw [hstrms]
      show (i != strm.streamId && m.live i) = _
      by_cases hc : i = strm.streamId
      · rw [if_pos hc, hc, bne_self_eq_false, Bool.false_and]
        rfl
      · rw [if_neg hc, bne_iff_ne.mpr hc, Bool.true_and, h.live]
    · have hne : i ≠ strm.streamId := fun he => hout (he ▸ hmem)
      rw [hstrms, if_neg hne]
      exact h.on i (hsub i hmem)
    · rw [hstrms] at hfind
      by_cases hc : i = strm.streamId
      · rw [if_pos hc] at hfind
        cases hfind
      · rw [if_neg hc] at hfind
        obtain ⟨hnot, hp, hn⟩ := hother i hc hnotin
        obtain ⟨hoff, hp', hn'⟩ := h.off i s hfind hnot
        exact ⟨hoff, hp.trans hp', hn.trans hn'⟩
  cases hon : strm.onFc with
  | false =>
    rw [hon, if_neg Bool.false_ne_true] at hfc
    have hnot : strm.streamId ∉ conn.fcStrms :=
      fun hmem => Bool.false_ne_true (hon.symm.trans ((h.onFc_iff find).mpr hmem))
    rw [hfc] at hgone
    refine ⟨_, ?_, hgone h.linked hnot (fun _ hi => hi) fun i _ hi => ⟨hi, rfl, rfl⟩⟩
    unfold FcCall.run
    dsimp only
    rw [if_pos hlive, (h.off _ _ find hnot).2.1]
  | true =>
    rw [hon, if_pos rfl] at hfc
    obtain ⟨pre, suf, heq, hpprev⟩ := h.pprev_isSome ((h.onFc_iff find).mp hon)
    have hlinked := h.linked
    rw [heq] at hlinked
    rw [heq, erase_middle hlinked.nodup] at hfc
    obtain ⟨hout, hnodup⟩ := List.nodup_cons.mp (List.nodup_middle.mp hlinked.nodup)
    rw [hfc, heq] at hgone
    have hsub : ∀ i ∈ pre ++ suf, i ∈ pre ++ strm.streamId :: suf := fun i hi =>
      (List.mem_append.mp hi).elim
      (List.mem_append_left _) fun hi => List.mem_append_right _ (List.mem_cons_of_mem _ hi)
    refine ⟨_, ?_, hgone hlinked.unlink hout hsub fun i hne hi => ?_⟩
    · unfold FcCall.run
      dsimp only
      rw [if_pos hlive, hpprev]
    · have hnot : i ∉ pre ++ strm.streamId :: suf := by
        intro hmem
        rcases List.mem_append.mp hmem with hmem | hmem
        · exact hi (List.mem_append_left _ hmem)
        · exact hi (List.mem_append_right _ (List.mem_of_ne_of_mem hne hmem))
      exact ⟨hnot, hlinked.unlink_other hnot⟩

/-- One more call. -/
theorem FcHeld.step (h : FcHeld conn)
    (hstep : ∀ m : FcMem, m.Agrees conn → ∃ call m',
    FcCall.run m call = some m' ∧ m'.Agrees conn') :
    FcHeld conn' := by
  obtain ⟨calls, m, hrun, hm⟩ := h
  obtain ⟨call, m', hcall, hm'⟩ := hstep m hm
  exact ⟨calls ++ [call], m', hrun.snoc hcall, hm'⟩

/-- A stream object is written back, and the stream may go on the list or leave it. -/
theorem FcHeld.move (h : FcHeld conn) (find : conn.strms strm.streamId = some strm)
    (hid : strm'.streamId = strm.streamId)
    {fcStrms : List Nat} (fc : FcMove conn.fcStrms strm strm' fcStrms) :
    FcHeld ((conn.setFcStrms fcStrms).setStrm strm') := by
  cases fc with
  | same onFc =>
    obtain ⟨calls, m, hrun, hm⟩ := h
    exact ⟨calls, m, hrun, hm.setStrm find hid onFc⟩
  | link off on => exact h.step fun m hm => ⟨_, hm.link find off hid on⟩
  | unlink on off => exact h.step fun m hm => ⟨_, hm.unlink find on hid off⟩

theorem FcHeld.setStrm (h : FcHeld conn) (find : conn.strms strm.streamId = some strm)
    (hid : strm'.streamId = strm.streamId)
    (onFc : strm'.onFc = strm.onFc) : FcHeld (conn.setStrm strm') := h.move find hid (.same onFc)

/-! ## Every change -/

theorem Change.fcHeld {H : List Frame} {k : Kind} (h : Change H k conn conn')
    (hk : k = .restart → 0 ∉ conn.fcStrms)
    (hfc : FcHeld conn) : FcHeld conn' := by
  cases h with
  | idle same => exact hfc.of_eq same.fcStrms same.strms
  | rx find tx zero rxOffset evs told fc =>
    have hmove := hfc.move find tx.streamId fc
    exact hmove.of_eq rfl rfl
  | window find tx rx unsent fc => exact hfc.move find tx.streamId fc
  | extend find tx rx fc => exact hfc.move find tx.streamId fc
  | @announceStrm _ strm find fcStrms first =>
    have hpush : FcHeld (conn.setFrq (.maxStreamData ⟨strm.streamId, strm.unsentMaxRxOffset⟩ :: conn.frq)) :=
      hfc.of_eq rfl rfl
    exact hpush.step fun m hm => ⟨.announce, hm.announce find first rfl rfl⟩
  | @openRemote _ streamId idtr none remote credit opens =>
    have hids : (Ngtcp2.openRemote conn streamId idtr).fcStrms = conn.fcStrms := by
      unfold Ngtcp2.openRemote Conn.setIds
      split <;> rfl
    have hstrms : ∀ i, (Ngtcp2.openRemote conn streamId idtr).strms i =
        if i = streamId then some (openedStrm conn streamId) else conn.strms i := by
      intro i
      show ((conn.setIds (bidiStream streamId)
        { conn.ids (bidiStream streamId) with remoteIdtr := idtr }).setStrm (openedStrm conn streamId)).strms i = _
      rw [Conn.setStrm_strms, Conn.setIds_strms, openedStrm_streamId]
    have hoff : (openedStrm conn streamId).onFc = false := by
      unfold openedStrm
      dsimp only
      split <;> rfl
    exact hfc.step fun m hm => ⟨_, hm.create none hids hstrms hoff⟩
  | @openLocal _ strm bidi credit none init =>
    have hid : strm.streamId = (conn.ids bidi).nextLocalStreamId := by
      rcases init with rfl | rfl <;> rfl
    have hids : (Ngtcp2.openLocal conn bidi strm).fcStrms = conn.fcStrms := by
      unfold Ngtcp2.openLocal Conn.setIds
      split <;> rfl
    have hstrms : ∀ i, (Ngtcp2.openLocal conn bidi strm).strms i = if i =
      strm.streamId then some strm else conn.strms i := by
      intro i
      unfold Ngtcp2.openLocal
      rw [Conn.setIds_strms]
      exact Conn.setStrm_strms conn strm i
    have hoff : strm.onFc = false := by
      rcases init with rfl | rfl <;> rfl
    rw [← hid] at none
    exact hfc.step fun m hm => ⟨_, hm.create none hids hstrms hoff⟩
  | @consume _ streamId nonzero none remote rxOffset =>
    refine hfc.of_eq ?_ (Conn.setIds_strms conn (bidiStream streamId) _)
    unfold consumeId Conn.setIds
    split <;> rfl
  | @close _ strm find shut code bidi unsent credit =>
    refine hfc.step fun m hm => ⟨_, hm.close find ?_ fun i => ?_⟩
    · unfold closeStrm Conn.setIds
      split <;> rfl
    · unfold closeStrm
      rw [Conn.setIds_strms]
      rfl
  | @raiseIds _ bidi maxStreamId =>
    refine hfc.of_eq ?_ (Conn.setIds_strms conn bidi _)
    unfold Conn.setIds
    split <;> rfl
  | raiseStrm find n => exact hfc.setStrm find rfl rfl
  | limits0 find id n =>
    rw [← id] at find
    exact hfc.setStrm find rfl rfl
  | @rst _ strm find code code' =>
    have hpush : FcHeld (connRstStream conn strm code) := hfc.of_eq rfl rfl
    exact hpush.setStrm find rfl rfl
  | acked find => exact hfc.setStrm find rfl rfl
  | @tx _ strm fr hd find id unshut offset strmCredit connCredit num form ts pktlen =>
    have htrack : (trackStreamPkt conn hd fr ts pktlen).fcStrms = conn.fcStrms ∧
        (trackStreamPkt conn hd fr ts pktlen).strms = conn.strms := by
      unfold trackStreamPkt
      split <;> exact ⟨rfl, rfl⟩
    have hcharge : ∀ strm' : Strm, strm'.streamId = strm.streamId → strm'.onFc = strm.onFc →
        FcHeld ((trackStreamPkt conn hd fr ts pktlen).setStrm strm') := by
      intro strm' hid hon
      rw [← htrack.2] at find
      exact (hfc.of_eq htrack.1 htrack.2).setStrm find hid hon
    have hstrm := hcharge (if fr.fin then (strm.setTxOffset (strm.txOffset + fr.data.length)).shutdownWr
      else strm.setTxOffset (strm.txOffset + fr.data.length)) (by split <;> rfl) (by split <;> rfl)
    exact hstrm.of_eq rfl rfl
  | refill find id payload =>
    rw [← id] at find
    exact hfc.setStrm find rfl rfl
  | advance find id n =>
    rw [← id] at find
    exact hfc.setStrm find rfl rfl
  | restart =>
    exact hfc.step fun m hm => ⟨.retry, hm.retry (hk rfl) rfl (fun _ => rfl) rfl⟩
  | _ => exact hfc.of_eq rfl rfl

end

/-! ## Runs -/

/-- A Retry packet is accepted only while stream 0 is off the list. -/
def Op.keepsFcStrms (conn : Conn) (op : Op) : Bool :=
    !(op.completesRetry conn && conn.fcStrms.contains 0)

section
variable {H : List Frame} {conn conn' : Conn}

theorem Changes.fcHeld {H : List Frame} {K : List Kind} (h : Changes H K conn conn')
    (hK : Kind.restart ∉ K) (hfc : FcHeld conn) :
    FcHeld conn' :=
  h.keeps FcHeld (fun _ hk _ _ hP hc => hc.fcHeld (fun he => absurd (he ▸ hk) hK) hP) hfc

/-- The steps at which a Retry packet frees no stream that is on the list. -/
def FcOkStep : List Op → Conn → Op → Conn → Prop :=
    Runs.Guarded Step fun _ conn op => op.keepsFcStrms conn = true

theorem Step.fcHeld {ops : List Op} {op : Op} (hwf : WellFormed conn)
    (hstep : FcOkStep ops conn op conn') (hfc : FcHeld conn) :
    FcHeld conn' := by
  obtain ⟨hstep, hok⟩ := hstep
  cases hretry : op.completesRetry conn with
  | false =>
    exact (Step.changes_noRetry hwf hstep hretry).fcHeld
      (fun hmem => bne_iff_ne.mp (List.mem_filter.mp hmem).2 rfl) hfc
  | true =>
    have hout : 0 ∉ conn.fcStrms := by
      unfold Op.keepsFcStrms at hok
      rw [hretry, Bool.true_and, Bool.not_eq_true'] at hok
      exact fun hmem => Bool.false_ne_true (hok.symm.trans (List.contains_iff_mem.mpr hmem))
    cases op with
    | recvHandshakePktEnd type failed pktNum requireAck ts =>
      obtain ⟨rv, hrun, hs⟩ := hstep
      have hch : Changes [] retryKinds conn conn' :=
        connRecvHandshakePktEnd_changes hrun (not_fatal_of_survives hs)
      have hkeep : FcHeld conn' ∧ 0 ∉ conn'.fcStrms := by
        refine hch.keeps (fun conn => FcHeld conn ∧ 0 ∉ conn.fcStrms)
          (fun k hk conn₁ conn₂ hP hc => ?_) ⟨hfc, hout⟩
        refine ⟨hc.fcHeld (fun _ => hP.2) hP.1, ?_⟩
        cases hc with
        | idle same =>
          rw [same.fcStrms]
          exact hP.2
        | timer => exact hP.2
        | state => exact hP.2
        | restart => exact hP.2
        | _ => exact absurd hk (by decide)
      exact hkeep.1
    | _ => cases hretry

theorem Initial.fcHeld (h : Initial conn) : FcHeld conn := by
  have hnew : ∃ strm0 : Strm, strm0.onFc = false ∧ conn.fcStrms = [] ∧
    conn.strms = fun id => if id = 0 then some strm0 else none := by
    cases h <;> exact ⟨_, rfl, rfl, rfl⟩
  obtain ⟨strm0, hoff, hfc, hstrms⟩ := hnew
  have hcall : FcCall.run fcMemInit (.create 0) =
    some ⟨fun i => i == 0 || false, Links.empty.clear 0⟩ := rfl
  refine ⟨[.create 0], _, Runs.Run.nil.snoc hcall, fun id => ?_, ?_, ?_, fun id strm find _ => ?_⟩
  · rw [hstrms]
    by_cases hid : id = 0
    · rw [hid]
      rfl
    · dsimp only
      rw [if_neg hid, beq_false_of_ne hid]
      rfl
  · rw [hfc]
    exact Linked.empty.clear List.not_mem_nil
  · rw [hfc]
    exact fun _ hmem => absurd hmem List.not_mem_nil
  · rw [hstrms] at find
    dsimp only at find
    by_cases hid : id = 0
    · rw [if_pos hid] at find
      obtain rfl := Option.some.inj find
      rw [hid]
      exact ⟨hoff, pprev_clear_same _ _, next_clear_same _ _⟩
    · rw [if_neg hid] at find
      cases find

/-- While no Retry packet frees a stream that is on it, the list of the streams that owe a MAX_STREAM_DATA frame is
linked both ways through objects that are alive, each once, and the other streams have no way back. -/
theorem fcStrms_intact {conn₀ : Conn} {ops : List Op} (hinit : Initial conn₀)
    (hrun : Runs.Run FcOkStep conn₀ ops conn) :
    ∃ calls m, Runs.Run FcStep fcMemInit calls m ∧ m.links.Linked conn.fcStrms ∧
    conn.fcStrms.Nodup ∧
      (∀ id, m.live id = (conn.strms id).isSome) ∧
      (∀ id ∈ conn.fcStrms, (conn.strms id).isSome = true) ∧
      ∀ id strm, conn.strms id = some strm →
        (strm.onFc = true ↔ id ∈ conn.fcStrms) ∧
        ((m.links.pprev id).isSome = true ↔ id ∈ conn.fcStrms) := by
  have hheld : WellFormed conn ∧ FcHeld conn := by
    refine hrun.invariant (fun _ conn => WellFormed conn ∧ FcHeld conn) ⟨hinit.wellFormed,
      hinit.fcHeld⟩ ?_
    intro ops conn₁ op conn₂ h hstep
    exact ⟨Step.wellFormed h.1 hstep.1, Step.fcHeld h.1 hstep h.2⟩
  obtain ⟨calls, m, hcalls, hm⟩ := hheld.2
  refine ⟨calls, m, hcalls, hm.linked, hm.linked.nodup, hm.live, fun id hmem => ?_,
    fun id strm find => ⟨hm.onFc_iff find, ?_⟩⟩
  · obtain ⟨strm, hstrm, -⟩ := hm.on id hmem
    rw [hstrm]
    rfl
  · constructor
    · intro hsome
      by_contra hnot
      rw [(hm.off id strm find hnot).2.1] at hsome
      cases hsome
    · intro hmem
      obtain ⟨pre, suf, -, hpprev⟩ := hm.pprev_isSome hmem
      rw [hpprev]
      rfl

end

/-- A client that gives a stream four bytes of credit, and has sent its first packet. -/
def retryClient : Conn :=
  runOps (ngtcp2ConnClientNew (fun _ => 0) 1 1 { quietCallbacks with sendClientInitial := fun _ => some (1, [21]) }
    ⟨4, 1000, 40, 40, 3⟩) [.setKeys .handshakeTx ⟨[1], [1]⟩, .writePkt 1300 1]

theorem retryClient_reachable : Reachable retryClient :=
    .runOps (Initial.client ..).reachable _ (by decide)

/-- A Retry packet with all its bytes in one frame. -/
def wholeRetryOps : List Op :=
  [.setKeys .handshakeTx ⟨[1], [1]⟩, .writePkt 1300 1,
    .recvHandshakeFrame .retry false (.stream ⟨0, 0, [6, 7, 8, 9], false⟩),
    .recvHandshakePktEnd .retry false 7 true 2]

theorem fcStrms_intact_wholeRetry :
    ∃ calls m, Runs.Run FcStep fcMemInit calls m ∧
      m.links.Linked (runOps (ngtcp2ConnClientNew (fun _ => 0) 1 1
        { quietCallbacks with sendClientInitial := fun _ => some (1, [21]) } ⟨4, 1000, 40, 40,
        3⟩) wholeRetryOps).fcStrms := by
  obtain ⟨calls, m, hcalls, hlinked, -⟩ :=
    fcStrms_intact (Initial.client ..) (run_allowed (ngtcp2ConnClientNew (fun _ => 0) 1 1
      { quietCallbacks with sendClientInitial := fun _ => some (1, [21]) } ⟨4, 1000, 40, 40,
        3⟩) wholeRetryOps (by decide))
  exact ⟨calls, m, hcalls, hlinked⟩

/-- A Retry packet with its bytes out of order: the bytes taken from the buffer link stream 0, and its object is freed
while it is on the list. -/
theorem fcStrms_freed : ¬∀ conn, Reachable conn →
    ∀ id ∈ conn.fcStrms, ∃ strm, conn.strms id = some strm ∧ strm.onFc = true := by
  intro h
  have hreach := retryClient_reachable.runOps [.recvHandshakeFrame .retry false (.stream ⟨0, 1, [7, 8, 9], false⟩),
    .recvHandshakeFrame .retry false (.stream ⟨0, 0, [6], false⟩),
      .recvHandshakePktEnd .retry false 7 true 2] (by decide)
  obtain ⟨strm, find, on⟩ := h _ hreach 0 (by decide)
  have hnew : ((runOps retryClient [.recvHandshakeFrame .retry false (.stream ⟨0, 1, [7, 8, 9], false⟩),
    .recvHandshakeFrame .retry false (.stream ⟨0, 0, [6], false⟩),
      .recvHandshakePktEnd .retry false 7 true 2]).strms 0).map
      (·.onFc) = some false := by decide
  rw [find, Option.map_some, on] at hnew
  cases hnew

end Ngtcp2
