import Mathlib.Data.List.Nodup

/-!
# Intrusive lists

Objects linked by `next` pointers inside them, with `pprev` pointing back at the pointer that
leads to the object. An object goes out of the list through that pointer.
-/
namespace Intrusive

variable {α : Type}

/-- A place that holds a pointer to an object. -/
inductive Loc (α : Type) where
  | head
  | next (a : α)
  deriving DecidableEq, Repr

/-- The pointers of all objects, and the head. -/
structure Links (α : Type) where
  head : Option α
  next : α → Option α
  pprev : α → Option (Loc α)

namespace Links

def empty : Links α := ⟨none, fun _ => none, fun _ => none⟩

def read (l : Links α) : Loc α → Option α
  | .head => l.head
  | .next a => l.next a

/-- From the pointer at `loc` on, the list holds these objects, each with its way back. -/
def Chain (l : Links α) : Loc α → List α → Prop
  | loc, [] => l.read loc = none
  | loc, a :: xs => l.read loc = some a ∧ l.pprev a = some loc ∧ l.Chain (.next a) xs

/-- The pointer behind the objects. -/
def endLoc : Loc α → List α → Loc α
  | loc, [] => loc
  | _, a :: xs => endLoc (.next a) xs

/-- The list holds these objects, each once. -/
structure Linked (l : Links α) (xs : List α) : Prop where
  chain : l.Chain .head xs
  nodup : xs.Nodup

section
variable {l l' : Links α} {loc : Loc α} {a : α} {xs pre suf : List α}

/-- A chain does not depend on other pointers. -/
theorem Chain.congr (h : l.Chain loc xs) (hloc : l'.read loc = l.read loc)
    (hnext : ∀ a ∈ xs, l'.read (.next a) = l.read (.next a))
    (hprev : ∀ a ∈ xs, l'.pprev a = l.pprev a) : l'.Chain loc xs := by
  induction xs generalizing loc with
  | nil => exact hloc.trans h
  | cons a xs ih =>
    obtain ⟨hread, hback, hrest⟩ := h
    refine ⟨hloc.trans hread, (hprev a List.mem_cons_self).trans hback, ?_⟩
    exact ih hrest (hnext a List.mem_cons_self) (fun b hb => hnext b (List.mem_cons_of_mem _ hb))
      fun b hb => hprev b (List.mem_cons_of_mem _ hb)

/-- The rest of a chain starts at the pointer behind the first part. -/
theorem Chain.suffix (h : l.Chain loc (pre ++ suf)) : l.Chain (endLoc loc pre) suf := by
  induction pre generalizing loc with
  | nil => exact h
  | cons a pre ih => exact ih h.2.2

theorem endLoc_concat (loc : Loc α) (xs : List α) (a : α) : endLoc loc (xs ++ [a]) = .next a := by
  induction xs generalizing loc with
  | nil => rfl
  | cons b xs ih => exact ih (.next b)

/-- The pointer behind some objects is the first one, or inside one of them. -/
theorem endLoc_cases (loc : Loc α) (xs : List α) :
    endLoc loc xs = loc ∨ ∃ a ∈ xs, endLoc loc xs = .next a := by
  induction xs generalizing loc with
  | nil => exact .inl rfl
  | cons a xs ih =>
    rcases ih (.next a) with he | ⟨b, hb, he⟩
    · exact .inr ⟨a, List.mem_cons_self, he⟩
    · exact .inr ⟨b, List.mem_cons_of_mem _ hb, he⟩

theorem endLoc_append (loc : Loc α) (xs ys : List α) :
    endLoc loc (xs ++ ys) = endLoc (endLoc loc xs) ys := by
  induction xs generalizing loc with
  | nil => rfl
  | cons a xs ih => exact ih (.next a)

theorem Linked.empty : (Links.empty : Links α).Linked [] := ⟨rfl, List.nodup_nil⟩

/-- The way back to the pointer that leads to an object. -/
theorem Linked.pprev (h : l.Linked (pre ++ a :: suf)) :
    l.pprev a = some (endLoc .head pre) ∧ l.read (endLoc .head pre) = some a :=
  ⟨h.chain.suffix.2.1, h.chain.suffix.1⟩

end

/-! ## Reading and writing pointers -/

variable [DecidableEq α]

def write (l : Links α) (loc : Loc α) (v : Option α) : Links α :=
  match loc with
  | .head => { l with head := v }
  | .next a => { l with next := fun b => if b = a then v else l.next b }

def setPprev (l : Links α) (a : α) (v : Option (Loc α)) : Links α :=
  { l with pprev := fun b => if b = a then v else l.pprev b }

/-- The object that a pointer leads to is told where the pointer is. -/
def tellPprev (l : Links α) (v : Option α) (loc : Loc α) : Links α :=
  match v with
  | none => l
  | some b => l.setPprev b (some loc)

/-- Links an object in before the first one. -/
def pushFront (l : Links α) (a : α) : Links α :=
  let l := l.write (.next a) l.head
  let l := l.tellPprev l.head (.next a)
  let l := l.setPprev a (some .head)
  l.write .head (some a)

/-- Links an object in at the pointer at `loc`. -/
def insertAt (l : Links α) (a : α) (loc : Loc α) : Links α :=
  let v := l.read loc
  let l := l.write (.next a) v
  let l := l.setPprev a (some loc)
  let l := l.tellPprev v (.next a)
  l.write loc (some a)

/-- Takes an object out, to which the pointer at `loc` leads. -/
def unlink (l : Links α) (a : α) (loc : Loc α) : Links α :=
    (l.write loc (l.next a)).tellPprev (l.next a) loc

/-- Takes the object out that the pointer at `loc` leads to. -/
def unlinkAt (l : Links α) (loc : Loc α) : Links α :=
  match l.read loc with
  | none => l
  | some a => l.unlink a loc

/-- Clears the pointers of an object. -/
def clear (l : Links α) (a : α) : Links α := (l.setPprev a none).write (.next a) none

section
variable {l l' : Links α} {loc loc' : Loc α} {a b : α} {v : Option α} {xs pre suf : List α}

@[simp] theorem read_write_same (l : Links α) (loc : Loc α) (v : Option α) :
    (l.write loc v).read loc = v := by
  cases loc with
  | head => rfl
  | next a => exact if_pos rfl

theorem read_write_other (l : Links α) (v : Option α) (h : loc' ≠ loc) :
    (l.write loc v).read loc' = l.read loc' := by
  cases loc with
  | head =>
    cases loc' with
    | head => exact absurd rfl h
    | next b => rfl
  | next a =>
    cases loc' with
    | head => rfl
    | next b => exact if_neg fun he => h (congrArg Loc.next he)

@[simp] theorem pprev_write (l : Links α) (loc : Loc α) (v : Option α) (a : α) :
    (l.write loc v).pprev a = l.pprev a := by
  cases loc <;> rfl

@[simp] theorem read_setPprev (l : Links α) (a : α) (v : Option (Loc α)) (loc : Loc α) :
    (l.setPprev a v).read loc = l.read loc := by
  cases loc <;> rfl

@[simp] theorem pprev_setPprev_same (l : Links α) (a : α) (v : Option (Loc α)) :
    (l.setPprev a v).pprev a = v := if_pos rfl

theorem pprev_setPprev_other (l : Links α) (v : Option (Loc α)) (h : b ≠ a) :
    (l.setPprev a v).pprev b = l.pprev b := if_neg h

@[simp] theorem read_tellPprev (l : Links α) (v : Option α) (loc loc' : Loc α) :
    (l.tellPprev v loc).read loc' = l.read loc' := by
  cases v with
  | none => rfl
  | some b => exact read_setPprev l b _ loc'

theorem pprev_tellPprev_other (l : Links α) (loc : Loc α) (h : v ≠ some a) :
    (l.tellPprev v loc).pprev a = l.pprev a := by
  cases v with
  | none => rfl
  | some b => exact pprev_setPprev_other l _ fun he => h (congrArg some he.symm)

/-! ## What happens to the list -/

theorem Linked.pushFront (h : l.Linked xs) (hnew : a ∉ xs) : (l.pushFront a).Linked (a :: xs) := by
  refine ⟨?_, List.nodup_cons.mpr ⟨hnew, h.nodup⟩⟩
  have hnext : ∀ b, b ≠ a → (l.pushFront a).read (.next b) = l.read (.next b) := by
    intro b hne
    unfold Links.pushFront
    rw [read_write_other _ _ (by simp), read_setPprev, read_tellPprev,
      read_write_other _ _ (by simpa using hne)]
  have hself : (l.pushFront a).read (.next a) = l.head := by
    unfold Links.pushFront
    rw [read_write_other _ _ (by simp), read_setPprev, read_tellPprev, read_write_same]
  refine ⟨rfl, by simp [Links.pushFront], ?_⟩
  cases xs with
  | nil => exact hself.trans h.chain
  | cons b xs =>
    obtain ⟨hhead, -, hrest⟩ := h.chain
    have hhead : l.head = some b := hhead
    obtain ⟨hba, hxs⟩ := List.ne_and_not_mem_of_not_mem_cons hnew
    obtain ⟨hb, -⟩ := List.nodup_cons.mp h.nodup
    have hprev : ∀ c, c ≠ a → (l.pushFront a).pprev c =
      (l.setPprev b (some (.next a))).pprev c := by
      intro c hc
      unfold Links.pushFront
      rw [pprev_write, pprev_setPprev_other _ _ hc]
      show ((l.write (.next a) l.head).tellPprev l.head (.next a)).pprev c = _
      rw [hhead]
      rfl
    refine ⟨hself.trans hhead, ?_, ?_⟩
    · rw [hprev b (Ne.symm hba), pprev_setPprev_same]
    · apply hrest.congr (hnext b (Ne.symm hba))
      · intro c hc
        exact hnext c fun he => hxs (he ▸ hc)
      · intro c hc
        have hca : c ≠ a := fun he => hxs (he ▸ hc)
        have hcb : c ≠ b := fun he => hb (he ▸ hc)
        rw [hprev c hca, pprev_setPprev_other _ _ hcb]

/-- The pointers of the objects before the place at `loc` stay. -/
theorem insertAt_other (l : Links α) (hloc' : loc' ≠ loc) (ha : loc' ≠ .next a) :
    (l.insertAt a loc).read loc' = l.read loc' := by
  unfold Links.insertAt
  rw [read_write_other _ _ hloc', read_tellPprev, read_setPprev, read_write_other _ _ ha]

theorem pprev_insertAt_other (l : Links α) (hb : b ≠ a) (hread : l.read loc ≠ some b) :
    (l.insertAt a loc).pprev b = l.pprev b := by
  unfold Links.insertAt
  rw [pprev_write, pprev_tellPprev_other _ _ hread, pprev_setPprev_other _ _ hb, pprev_write]

/-- An object goes into a chain behind the first part. -/
theorem Chain.insertAt (h : l.Chain loc (pre ++ suf)) (hnodup : (pre ++ suf).Nodup)
    (hnew : a ∉ pre ++ suf) (hloc : ∀ b ∈ a :: (pre ++ suf), loc ≠ .next b) :
    (l.insertAt a (endLoc loc pre)).Chain loc (pre ++ a :: suf) := by
  induction pre generalizing loc with
  | nil =>
    have h : l.Chain loc suf := h
    show (l.insertAt a loc).Chain loc (a :: suf)
    have hself : (l.insertAt a loc).read (.next a) = l.read loc := by
      unfold Links.insertAt
      rw [read_write_other _ _ (hloc a List.mem_cons_self).symm, read_tellPprev, read_setPprev,
        read_write_same]
    have hback : (l.insertAt a loc).pprev a = some loc := by
      have hread : l.read loc ≠ some a := by
        intro he
        cases suf with
        | nil => cases he.symm.trans h
        | cons b suf =>
          obtain rfl := Option.some.inj (he.symm.trans h.1)
          exact hnew List.mem_cons_self
      unfold Links.insertAt
      rw [pprev_write, pprev_tellPprev_other _ _ hread, pprev_setPprev_same]
    refine ⟨read_write_same _ _ _, hback, ?_⟩
    cases suf with
    | nil => exact hself.trans h
    | cons b suf =>
      obtain ⟨hread, -, hrest⟩ := h
      obtain ⟨hba, hsuf⟩ := List.ne_and_not_mem_of_not_mem_cons hnew
      obtain ⟨hb, -⟩ := List.nodup_cons.mp hnodup
      refine ⟨hself.trans hread, ?_, ?_⟩
      · unfold Links.insertAt
        rw [hread, pprev_write]
        exact pprev_setPprev_same _ _ _
      · have hne : ∀ c ∈ b :: suf, Loc.next c ≠ loc := fun c hc =>
          (hloc c (List.mem_cons_of_mem _ hc)).symm
        have hneA : ∀ c ∈ b :: suf, c ≠ a := fun c hc he => hnew (he ▸ hc)
        apply hrest.congr
        · exact insertAt_other l (hne b List.mem_cons_self)
            (by simpa using hneA b List.mem_cons_self)
        · intro c hc
          have hc' := List.mem_cons_of_mem b hc
          exact insertAt_other l (hne c hc') (by simpa using hneA c hc')
        · intro c hc
          refine pprev_insertAt_other l (hneA c (List.mem_cons_of_mem _ hc)) fun he => ?_
          exact hb (Option.some.inj (hread.symm.trans he) ▸ hc)
  | cons x pre ih =>
    obtain ⟨hread, hback, hrest⟩ := h
    obtain ⟨hx, hnodup⟩ := List.nodup_cons.mp hnodup
    obtain ⟨hxa, hnew⟩ := List.ne_and_not_mem_of_not_mem_cons hnew
    have hother : ∀ b ∈ a :: (pre ++ suf), Loc.next x ≠ .next b := by
      intro b hb he
      obtain rfl := Loc.next.inj he
      rcases List.mem_cons.mp hb with hb | hb
      · exact hxa hb.symm
      · exact hx hb
    have hend : loc ≠ endLoc (.next x) pre := by
      rcases endLoc_cases (.next x) pre with he | ⟨b, hb, he⟩
      · rw [he]
        exact hloc x (by simp)
      · rw [he]
        exact hloc b (by simp [hb])
    refine ⟨?_, ?_, ih hrest hnodup hnew hother⟩
    · exact (insertAt_other l hend (hloc a List.mem_cons_self)).trans hread
    · refine (pprev_insertAt_other l (Ne.symm hxa) fun he => ?_).trans hback
      have hsuf := hrest.suffix
      cases suf with
      | nil => cases he.symm.trans hsuf
      | cons b suf =>
        obtain rfl := Option.some.inj (he.symm.trans hsuf.1)
        exact hx (List.mem_append_right _ List.mem_cons_self)

/-- A new object goes into the list behind the first part. -/
theorem Linked.insertAt (h : l.Linked (pre ++ suf)) (hnew : a ∉ pre ++ suf) :
    (l.insertAt a (endLoc .head pre)).Linked (pre ++ a :: suf) := by
  refine ⟨h.chain.insertAt h.nodup hnew fun b _ => by simp, ?_⟩
  exact List.nodup_middle.mpr (List.nodup_cons.mpr ⟨hnew, h.nodup⟩)

/-- A chain is cut off behind its first part. -/
theorem Chain.cut (h : l.Chain loc (pre ++ suf)) (hnodup : pre.Nodup)
    (hloc : ∀ b ∈ pre, loc ≠ .next b) : (l.write (endLoc loc pre) none).Chain loc pre := by
  induction pre generalizing loc with
  | nil => exact read_write_same _ _ _
  | cons x pre ih =>
    obtain ⟨hread, hback, hrest⟩ := h
    obtain ⟨hx, hnodup⟩ := List.nodup_cons.mp hnodup
    have hend : loc ≠ endLoc (.next x) pre := by
      rcases endLoc_cases (.next x) pre with he | ⟨b, hb, he⟩
      · rw [he]
        exact hloc x List.mem_cons_self
      · rw [he]
        exact hloc b (List.mem_cons_of_mem _ hb)
    refine ⟨?_, ?_, ih hrest hnodup fun b hb he => hx (Loc.next.inj he ▸ hb)⟩
    · exact (read_write_other _ _ hend).trans hread
    · exact (pprev_write _ _ _ _).trans hback

/-- The objects behind the first part are out of the list. -/
theorem Linked.cut (h : l.Linked (pre ++ suf)) :
    (l.write (endLoc .head pre) none).Linked pre :=
  have hnodup := (List.nodup_append.mp h.nodup).1
  ⟨h.chain.cut hnodup fun b _ => by simp, hnodup⟩

/-- An object leaves the chain through the pointer that leads to it. -/
theorem Chain.unlinkAt (h : l.Chain loc (pre ++ a :: suf)) (hnodup : (pre ++ a :: suf).Nodup)
    (hloc : ∀ b ∈ pre ++ a :: suf, loc ≠ .next b) :
    (l.unlinkAt (endLoc loc pre)).Chain loc (pre ++ suf) := by
  induction pre generalizing loc with
  | nil =>
    obtain ⟨hread, -, hrest⟩ := h
    have hloc : ∀ b ∈ suf, Loc.next b ≠ loc := fun b hb => (hloc b (List.mem_cons_of_mem _ hb)).symm
    show (l.unlinkAt loc).Chain loc suf
    unfold Links.unlinkAt Links.unlink
    rw [hread]
    dsimp only
    cases suf with
    | nil =>
      have hnone : l.next a = none := hrest
      rw [hnone]
      exact read_write_same _ _ _
    | cons b suf =>
      obtain ⟨hnext, -, hrest⟩ := hrest
      have hnext : l.next a = some b := hnext
      obtain ⟨-, hb⟩ := List.nodup_cons.mp hnodup
      obtain ⟨hb, -⟩ := List.nodup_cons.mp hb
      rw [hnext]
      refine ⟨read_write_same _ _ _, pprev_setPprev_same _ _ _, ?_⟩
      apply hrest.congr
      · rw [read_tellPprev, read_write_other _ _ (hloc b List.mem_cons_self)]
      · intro c hc
        rw [read_tellPprev, read_write_other _ _ (hloc c (List.mem_cons_of_mem _ hc))]
      · intro c hc
        have hbc : some b ≠ some c := fun he => hb (Option.some.inj he ▸ hc)
        rw [pprev_tellPprev_other _ _ hbc, pprev_write]
  | cons x pre ih =>
    obtain ⟨hread, hback, hrest⟩ := h
    obtain ⟨hx, hnodup⟩ := List.nodup_cons.mp hnodup
    have hother : ∀ b ∈ pre ++ a :: suf, Loc.next x ≠ .next b :=
      fun b hb he => hx (Loc.next.inj he ▸ hb)
    have hend : endLoc (.next x) pre ≠ loc := by
      rcases endLoc_cases (.next x) pre with he | ⟨b, hb, he⟩
      · rw [he]
        exact (hloc x List.mem_cons_self).symm
      · rw [he]
        exact (hloc b (List.mem_cons_of_mem _ (List.mem_append_left _ hb))).symm
    refine ⟨?_, ?_, ih hrest hnodup hother⟩
    · show (l.unlinkAt (endLoc (.next x) pre)).read loc = some x
      rw [← hread]
      unfold Links.unlinkAt Links.unlink
      split
      · rfl
      · rw [read_tellPprev, read_write_other _ _ hend.symm]
    · show (l.unlinkAt (endLoc (.next x) pre)).pprev x = some loc
      rw [← hback]
      have hsuf := hrest.suffix
      unfold Links.unlinkAt Links.unlink
      rw [hsuf.1]
      dsimp only
      rw [pprev_tellPprev_other, pprev_write]
      intro he
      cases suf with
      | nil => cases he.symm.trans hsuf.2.2
      | cons b suf =>
        obtain rfl := Option.some.inj (he.symm.trans hsuf.2.2.1)
        exact hx (List.mem_append_right _ (List.mem_cons_of_mem _ List.mem_cons_self))

/-- An object leaves the list, and the others stay in order. -/
theorem Linked.unlinkAt (h : l.Linked (pre ++ a :: suf)) :
    (l.unlinkAt (endLoc .head pre)).Linked (pre ++ suf) := by
  refine ⟨h.chain.unlinkAt h.nodup (fun b _ => by simp), ?_⟩
  exact h.nodup.sublist ((List.sublist_cons_self a suf).append_left pre)

/-- The pointer inside the object leads to it. -/
theorem Linked.unlink (h : l.Linked (pre ++ a :: suf)) :
    (l.unlink a (endLoc .head pre)).Linked (pre ++ suf) := by
  have hat := h.unlinkAt
  unfold Links.unlinkAt at hat
  rwa [h.pprev.2] at hat

/-- The pointers of an object outside the list stay when another one goes in. -/
theorem Linked.pushFront_other (h : l.Linked xs) (hb : b ∉ xs) (hne : b ≠ a) :
    (l.pushFront a).pprev b = l.pprev b ∧ (l.pushFront a).read (.next b) = l.read (.next b) := by
  unfold Links.pushFront
  constructor
  · have hhead : l.head ≠ some b := by
      intro he
      cases xs with
      | nil => cases he.symm.trans h.chain
      | cons c xs =>
        obtain rfl := Option.some.inj (he.symm.trans h.chain.1)
        exact hb List.mem_cons_self
    rw [pprev_write, pprev_setPprev_other _ _ hne]
    exact (pprev_tellPprev_other _ _ hhead).trans (pprev_write _ _ _ _)
  · rw [read_write_other _ _ (by simp), read_setPprev, read_tellPprev,
      read_write_other _ _ (by simpa using hne)]

/-- The pointers of an object outside the list stay when another one goes out. -/
theorem Linked.unlink_other (h : l.Linked (pre ++ a :: suf)) (hb : b ∉ pre ++ a :: suf) :
    (l.unlink a (endLoc .head pre)).pprev b = l.pprev b ∧
      (l.unlink a (endLoc .head pre)).read (.next b) = l.read (.next b) := by
  unfold Links.unlink
  constructor
  · have hnext : l.next a ≠ some b := by
      intro he
      have hchain := h.chain.suffix.2.2
      cases suf with
      | nil => cases he.symm.trans hchain
      | cons c suf =>
        obtain rfl := Option.some.inj (he.symm.trans hchain.1)
        exact hb (List.mem_append_right _ (List.mem_cons_of_mem _ List.mem_cons_self))
    exact (pprev_tellPprev_other _ _ hnext).trans (pprev_write _ _ _ _)
  · have hloc : Loc.next b ≠ endLoc .head pre := by
      rcases endLoc_cases (.head : Loc α) pre with he | ⟨c, hc, he⟩ <;> rw [he]
      · exact fun hc => by cases hc
      · intro hbc
        obtain rfl := Loc.next.inj hbc
        exact hb (List.mem_append_left _ hc)
    rw [read_tellPprev, read_write_other _ _ hloc]

@[simp] theorem pprev_clear_same (l : Links α) (a : α) : (l.clear a).pprev a = none :=
  (pprev_write _ _ _ _).trans (pprev_setPprev_same _ _ _)

@[simp] theorem next_clear_same (l : Links α) (a : α) : (l.clear a).read (.next a) = none :=
    read_write_same _ _ _

theorem clear_other (l : Links α) (h : b ≠ a) :
    (l.clear a).pprev b = l.pprev b ∧ (l.clear a).read (.next b) = l.read (.next b) := by
  constructor
  · exact (pprev_write _ _ _ _).trans (pprev_setPprev_other _ _ h)
  · exact (read_write_other _ _ (by simpa using h)).trans (read_setPprev _ _ _ _)

/-- The pointers of an object outside the list do not matter. -/
theorem Linked.clear (h : l.Linked xs) (ha : a ∉ xs) : (l.clear a).Linked xs := by
  refine ⟨?_, h.nodup⟩
  have hne : ∀ b ∈ xs, b ≠ a := fun b hb he => ha (he ▸ hb)
  apply h.chain.congr
  · rfl
  · intro b hb
    exact (read_write_other _ _ (by simpa using hne b hb)).trans (read_setPprev _ _ _ _)
  · intro b hb
    exact (pprev_write _ _ _ _).trans (pprev_setPprev_other _ _ (hne b hb))

end

end Links

end Intrusive
