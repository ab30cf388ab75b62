import Mathlib.Data.List.Nodup

/-!
# Buckets of linked objects

Many lists in one memory: each starts at a head and goes on through the `next` pointers of its
objects. A walk along a list has a bound on its steps, and it gives nothing beyond it.
-/
namespace Buckets

variable {ι : Type}

/-- A place that holds a pointer to an object. -/
inductive Loc (ι : Type) where
  | head (i : Nat)
  | next (a : ι)
  deriving DecidableEq

/-- The pointers of all objects, and the heads. -/
structure Links (ι : Type) where
  head : Nat → Option ι
  next : ι → Option ι

def Links.read (l : Links ι) : Loc ι → Option ι
  | .head i => l.head i
  | .next a => l.next a

def Links.write [DecidableEq ι] (l : Links ι) (loc : Loc ι) (v : Option ι) : Links ι :=
  match loc with
  | .head i => { l with head := fun j => if j = i then v else l.head j }
  | .next a => { l with next := fun b => if b = a then v else l.next b }

/-- From the pointer on there are these objects. -/
def Chain (next : ι → Option ι) : Option ι → List ι → Prop
  | p, [] => p = none
  | p, a :: xs => p = some a ∧ Chain next (next a) xs

/-- The first object that passes the test, or none of them. -/
def find (next : ι → Option ι) (test : ι → Bool) : Nat → Option ι → Option (Option ι)
  | 0, _ => none
  | _ + 1, none => some none
  | fuel + 1, some a => if test a then some (some a) else find next test fuel (next a)

/-- Takes the first object out that passes the test, from the pointer at `loc` on. -/
def remove [DecidableEq ι] (test : ι → Bool) : Nat → Loc ι → Links ι → Option (Bool × Links ι)
  | 0, _, _ => none
  | fuel + 1, loc, l =>
    match l.read loc with
    | none => some (false, l)
    | some a => if test a then some (true, l.write loc (l.next a)) else remove test fuel (.next a) l

/-- The pointer behind the objects. -/
def endLoc : Loc ι → List ι → Loc ι
  | loc, [] => loc
  | _, a :: xs => endLoc (.next a) xs

section
variable {next next' : ι → Option ι} {p : Option ι} {xs : List ι} {test : ι → Bool}

theorem Chain.congr (h : Chain next p xs) (hnext : ∀ a ∈ xs, next' a = next a) :
    Chain next' p xs := by
  induction xs generalizing p with
  | nil => exact h
  | cons a xs ih =>
    refine ⟨h.1, ?_⟩
    rw [hnext a (.head _)]
    exact ih h.2 fun b hb => hnext b (.tail _ hb)

theorem Chain.find (h : Chain next p xs) {fuel : Nat} (hfuel : xs.length < fuel) :
    find next test fuel p = some (xs.find? test) := by
  induction xs generalizing p fuel with
  | nil =>
    obtain ⟨fuel, rfl⟩ := Nat.exists_eq_succ_of_ne_zero (Nat.ne_of_gt hfuel)
    obtain rfl : p = none := h
    rfl
  | cons a xs ih =>
    obtain ⟨fuel, rfl⟩ := Nat.exists_eq_succ_of_ne_zero (Nat.ne_of_gt (Nat.zero_lt_of_lt hfuel))
    obtain ⟨rfl, hrest⟩ := h
    rw [Buckets.find, List.find?_cons]
    cases test a with
    | true => rfl
    | false => exact ih hrest (Nat.lt_of_succ_lt_succ hfuel)

/-- The pointer behind some objects is the first one, or inside one of them. -/
theorem endLoc_cases (loc : Loc ι) (xs : List ι) :
    endLoc loc xs = loc ∨ ∃ a ∈ xs, endLoc loc xs = .next a := by
  induction xs generalizing loc with
  | nil => exact .inl rfl
  | cons a xs ih =>
    rcases ih (.next a) with he | ⟨b, hb, he⟩
    · exact .inr ⟨a, .head _, he⟩
    · exact .inr ⟨b, .tail _ hb, he⟩

end

/-! ## Writing pointers -/

section
variable [DecidableEq ι] {l : Links ι} {loc loc' : Loc ι} {v : Option ι} {a : ι}
  {pre suf xs : List ι} {test : ι → Bool}

@[simp] theorem read_write (l : Links ι) (loc : Loc ι) (v : Option ι) :
    (l.write loc v).read loc = v := by
  cases loc <;> exact if_pos rfl

theorem read_write_other (l : Links ι) (v : Option ι) (h : loc' ≠ loc) :
    (l.write loc v).read loc' = l.read loc' := by
  cases loc <;> cases loc' <;> simp_all [Links.write, Links.read]

/-- Writing what is there. -/
theorem write_same (l : Links ι) (loc : Loc ι) : l.write loc (l.read loc) = l := by
  cases loc with
  | head i =>
    have hhead : (fun j => if j = i then l.head i else l.head j) = l.head := by
      funext j
      split
      · next hj => rw [hj]
      · rfl
    exact congrArg (Links.mk · l.next) hhead
  | next a =>
    have hnext : (fun b => if b = a then l.next a else l.next b) = l.next := by
      funext b
      split
      · next hb => rw [hb]
      · rfl
    exact congrArg (Links.mk l.head) hnext

/-- A chain does not depend on a pointer that is not in it. -/
theorem Chain.write_other (h : Chain l.next (l.read loc') xs) (hloc : loc' ≠ loc)
    (hxs : ∀ b ∈ xs, Loc.next b ≠ loc) :
    Chain (l.write loc v).next ((l.write loc v).read loc') xs := by
  rw [read_write_other l v hloc]
  exact h.congr fun b hb => read_write_other l v (hxs b hb)

theorem remove_none (h : Chain l.next (l.read loc) xs) {fuel : Nat} (hfuel : xs.length < fuel)
    (hxs : ∀ b ∈ xs, test b = false) : remove test fuel loc l = some (false, l) := by
  induction xs generalizing loc fuel with
  | nil =>
    obtain ⟨fuel, rfl⟩ := Nat.exists_eq_succ_of_ne_zero (Nat.ne_of_gt hfuel)
    have hread : l.read loc = none := h
    rw [remove, hread]
  | cons a xs ih =>
    obtain ⟨fuel, rfl⟩ := Nat.exists_eq_succ_of_ne_zero (Nat.ne_of_gt (Nat.zero_lt_of_lt hfuel))
    have hread : l.read loc = some a := h.1
    have hrest : Chain l.next (l.read (.next a)) xs := h.2
    rw [remove, hread]
    dsimp only
    rw [hxs a (.head _)]
    exact ih hrest (Nat.lt_of_succ_lt_succ hfuel) fun b hb => hxs b (.tail _ hb)

theorem remove_some (h : Chain l.next (l.read loc) (pre ++ a :: suf)) {fuel : Nat}
    (hfuel : pre.length < fuel) (hpre : ∀ b ∈ pre, test b = false) (ha : test a = true) :
    remove test fuel loc l = some (true, l.write (endLoc loc pre) (l.next a)) := by
  induction pre generalizing loc fuel with
  | nil =>
    obtain ⟨fuel, rfl⟩ := Nat.exists_eq_succ_of_ne_zero (Nat.ne_of_gt hfuel)
    have hread : l.read loc = some a := h.1
    rw [remove, hread]
    exact if_pos ha
  | cons b pre ih =>
    obtain ⟨fuel, rfl⟩ := Nat.exists_eq_succ_of_ne_zero (Nat.ne_of_gt (Nat.zero_lt_of_lt hfuel))
    have hread : l.read loc = some b := h.1
    have hrest : Chain l.next (l.read (.next b)) (pre ++ a :: suf) := h.2
    rw [remove, hread]
    dsimp only
    rw [hpre b (.head _)]
    exact ih hrest (Nat.lt_of_succ_lt_succ hfuel) fun c hc => hpre c (.tail _ hc)

/-- The object is out of its chain once the pointer to it goes past it. -/
theorem Chain.unlink (h : Chain l.next (l.read loc) (pre ++ a :: suf))
    (hnodup : (pre ++ a :: suf).Nodup) (hloc : ∀ b ∈ pre ++ a :: suf, Loc.next b ≠ loc) :
    Chain (l.write (endLoc loc pre) (l.next a)).next
      ((l.write (endLoc loc pre) (l.next a)).read loc) (pre ++ suf) := by
  induction pre generalizing loc with
  | nil =>
    rw [endLoc, read_write]
    exact h.2.congr fun b hb => read_write_other l _ (hloc b (.tail _ hb))
  | cons b pre ih =>
    obtain ⟨hnew, hrest⟩ := List.nodup_cons.mp hnodup
    have hchain : Chain l.next (l.read (.next b)) (pre ++ a :: suf) := h.2
    have hnext := ih hchain hrest fun c hc hcb => by
      obtain rfl := Loc.next.inj hcb
      exact hnew hc
    have hother : loc ≠ endLoc (.next b) pre := by
      rcases endLoc_cases (.next b) pre with he | ⟨c, hc, he⟩
      · rw [he]
        exact (hloc b (.head _)).symm
      · rw [he]
        exact (hloc c (.tail _ (List.mem_append_left _ hc))).symm
    refine ⟨?_, hnext⟩
    rw [endLoc, read_write_other l _ hother]
    exact h.1

/-- The object goes in before the first one. -/
theorem Chain.pushFront {i : Nat} (h : Chain l.next (l.head i) xs) (ha : a ∉ xs) :
    Chain ((l.write (.next a) (l.head i)).write (.head i) (some a)).next
      (((l.write (.next a) (l.head i)).write (.head i) (some a)).head i) (a :: xs) := by
  refine ⟨if_pos rfl, ?_⟩
  have hnext : (if a = a then l.head i else l.next a) = l.head i := if_pos rfl
  show Chain _ (if a = a then l.head i else l.next a) xs
  rw [hnext]
  refine h.congr fun b hb => if_neg ?_
  rintro rfl
  exact ha hb

end

end Buckets
