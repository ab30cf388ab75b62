import Polygon.Frame
import Polygon.Lib.BigEndian
import Polygon.Lib.Buckets

/-!
# The map

`ngtcp2_map`, a hash table of linked entries. The entries belong to the callers; the map writes
their `next` pointers. A loop along a bucket has a bound on its steps.
-/
namespace Ngtcp2

open Buckets

variable {ι : Type}

/-- The table with the entries linked in it, and the keys in memory. -/
structure Map (ι : Type) where
  links : Links ι
  tablelen : UInt32
  size : Nat
  key : ι → UInt64

/-- `INITIAL_TABLE_LENGTH`. -/
def initialTableLength : UInt32 := 256

def mapInit (next : ι → Option ι) (key : ι → UInt64) : Map ι :=
  { links := ⟨fun _ => none, next⟩, tablelen := initialTableLength, size := 0, key }

/-- One byte of the FNV1a hash. -/
def hashByte (h : UInt32) (b : UInt8) : UInt32 := (h ^^^ b.toUInt32) * 0x01000193

/-- `hash`, over the bytes of the key in network byte order. -/
def mapHash (key : UInt64) (mod : UInt32) : UInt32 :=
  (BigEndian.put 8 key.toNat).foldl hashByte 0x811C9DC5 &&& (mod - 1)

/-- The bucket of a key. -/
def mapSlot (key : UInt64) (tablelen : UInt32) : Nat := (mapHash key tablelen).toNat

section
variable [DecidableEq ι]

def mapEntryInit (map : Map ι) (entry : ι) (key : UInt64) : Map ι :=
  { map with
    links := map.links.write (.next entry) none
    key := fun e => if e = entry then key else map.key e }

/-- `insert`. -/
def tableInsert (fuel : Nat) (key : ι → UInt64) (table : Links ι) (tablelen : UInt32) (entry : ι) :
    Option (Except Err Unit × Links ι) :=
  let h := mapSlot (key entry) tablelen
  match table.head h with
  | none => some (.ok (), table.write (.head h) (some entry))
  | some p =>
    match find table.next (fun p => key p == key entry) fuel (some p) with
    | none => none
    | some (some _) => some (.error .invalidArgument, table)
    | some none =>
      some (.ok (), (table.write (.next entry) (table.head h)).write (.head h) (some entry))

/-- The inner loop of `resize`: the entries from `entry` on go to the new table. -/
def relink (fuel : Nat) (key : ι → UInt64) (tablelen : UInt32) :
    Nat → Option ι → Links ι → Option (Links ι)
  | 0, _, _ => none
  | _ + 1, none, table => some table
  | steps + 1, some entry, table =>
    let next := table.next entry
    match tableInsert fuel key (table.write (.next entry) none) tablelen entry with
    | none => none
    | some (_, table) => relink fuel key tablelen steps next table

/-- The outer loop of `resize`, over the buckets of the old table. -/
def relinkAll (fuel : Nat) (key : ι → UInt64) (tablelen : UInt32) (old : Nat → Option ι) :
    List Nat → Links ι → Option (Links ι)
  | [], table => some table
  | i :: is, table =>
    match relink fuel key tablelen fuel (old i) table with
    | none => none
    | some table => relinkAll fuel key tablelen old is table

def mapResize (fuel : Nat) (map : Map ι) (newTablelen : UInt32) : Option (Map ι) :=
  (relinkAll fuel map.key newTablelen map.links.head (List.range map.tablelen.toNat)
    ⟨fun _ => none, map.links.next⟩).map fun links =>
      { map with links, tablelen := newTablelen }

def mapInsert (fuel : Nat) (map : Map ι) (newEntry : ι) : Option (Except Err Unit × Map ι) :=
  -- Load factor is 0.75
  let resized :=
    if (map.tablelen * 3).toNat < (map.size + 1) * 4 % 2 ^ 64 then
      mapResize fuel map (map.tablelen * 2)
    else some map
  match resized with
  | none => none
  | some map =>
    match tableInsert fuel map.key map.links map.tablelen newEntry with
    | none => none
    | some (.error e, links) => some (.error e, { map with links })
    | some (.ok _, links) => some (.ok (), { map with links, size := addU64 map.size 1 })

def mapFind (fuel : Nat) (map : Map ι) (key : UInt64) : Option (Option ι) :=
  find map.links.next (fun e => map.key e == key) fuel
    (map.links.head (mapSlot key map.tablelen))

def mapRemove (fuel : Nat) (map : Map ι) (key : UInt64) : Option (Except Err Unit × Map ι) :=
  match remove (fun e => map.key e == key) fuel (.head (mapSlot key map.tablelen)) map.links with
  | none => none
  | some (true, links) => some (.ok (), { map with links, size := subU64 map.size 1 })
  | some (false, links) => some (.error .invalidArgument, { map with links })

end

/-! ## The entries of a table -/

theorem mapSlot_lt (key : UInt64) {tablelen : UInt32} (h : 0 < tablelen.toNat) :
    mapSlot key tablelen < tablelen.toNat := by
  rw [mapSlot, mapHash, UInt32.toNat_and]
  have hsub : (tablelen - 1).toNat = tablelen.toNat - 1 := by
    rw [UInt32.toNat_sub_of_le]
    · rfl
    · exact UInt32.le_iff_toNat_le.mpr h
  have := @Nat.and_le_right ((BigEndian.put 8 key.toNat).foldl hashByte 0x811C9DC5).toNat
    (tablelen - 1).toNat
  omega

/-- The table has these entries, each in the bucket of its key, and no key twice. -/
structure TableHolds (key : ι → UInt64) (tablelen : UInt32) (table : Links ι) (es : List ι) :
    Prop where
  keys : (es.map key).Nodup
  bucket : ∀ i < tablelen.toNat, ∃ xs, Chain table.next (table.head i) xs ∧ xs.Nodup ∧
    ∀ e, e ∈ xs ↔ e ∈ es ∧ mapSlot (key e) tablelen = i

section
variable {key : ι → UInt64} {tablelen : UInt32} {table : Links ι} {es es' : List ι}

theorem eq_of_key (hkeys : (es.map key).Nodup) {a b : ι} (ha : a ∈ es) (hb : b ∈ es)
    (hab : key a = key b) : a = b :=
  List.inj_on_of_nodup_map hkeys ha hb hab

theorem TableHolds.nodup (h : TableHolds key tablelen table es) : es.Nodup :=
  List.Nodup.of_map key h.keys

theorem TableHolds.empty (next : ι → Option ι) :
    TableHolds key tablelen ⟨fun _ => none, next⟩ [] :=
  ⟨List.nodup_nil, fun _ _ => ⟨[], rfl, List.nodup_nil, fun e => by simp⟩⟩

/-- The table does not depend on the order of the list. -/
theorem TableHolds.of_mem (h : TableHolds key tablelen table es') (hkeys : (es.map key).Nodup)
    (hmem : ∀ e, e ∈ es' ↔ e ∈ es) : TableHolds key tablelen table es := by
  refine ⟨hkeys, fun i hi => ?_⟩
  obtain ⟨xs, hchain, hnodup, hxs⟩ := h.bucket i hi
  exact ⟨xs, hchain, hnodup, fun e => by rw [hxs, hmem]⟩

/-- The table does not depend on entries that are not in it. -/
theorem TableHolds.congr (h : TableHolds key tablelen table es) {table' : Links ι}
    {key' : ι → UInt64} (hhead : table'.head = table.head)
    (hnext : ∀ e ∈ es, table'.next e = table.next e) (hkey : ∀ e ∈ es, key' e = key e) :
    TableHolds key' tablelen table' es := by
  refine ⟨?_, fun i hi => ?_⟩
  · rw [List.map_congr_left hkey]
    exact h.keys
  · obtain ⟨xs, hchain, hnodup, hxs⟩ := h.bucket i hi
    refine ⟨xs, ?_, hnodup, fun e => ?_⟩
    · rw [hhead]
      exact hchain.congr fun e he => hnext e ((hxs e).mp he).1
    · rw [hxs]
      refine and_congr_right fun he => ?_
      rw [hkey e he]

theorem length_le_of_subset {xs : List ι} (hnodup : xs.Nodup) (hsub : ∀ e ∈ xs, e ∈ es) :
    xs.length ≤ es.length :=
  (List.subperm_of_subset hnodup hsub).length_le

/-- The entry with the key is what a walk along its bucket finds. -/
theorem TableHolds.find (h : TableHolds key tablelen table es) (hlen : 0 < tablelen.toNat)
    {fuel : Nat} (hfuel : es.length < fuel) (k : UInt64) :
    ∃ found, find table.next (fun e => key e == k) fuel (table.head (mapSlot k tablelen)) =
      some found ∧ ∀ e, found = some e ↔ e ∈ es ∧ key e = k := by
  obtain ⟨xs, hchain, hnodup, hxs⟩ := h.bucket _ (mapSlot_lt k hlen)
  have hlength : xs.length ≤ es.length :=
    length_le_of_subset hnodup fun e he => ((hxs e).mp he).1
  refine ⟨_, hchain.find (Nat.lt_of_le_of_lt hlength hfuel), fun e => ?_⟩
  constructor
  · intro hfound
    have htest := List.find?_some hfound
    exact ⟨((hxs e).mp (List.mem_of_find?_eq_some hfound)).1, by simpa using htest⟩
  · rintro ⟨he, rfl⟩
    have hmem : e ∈ xs := (hxs e).mpr ⟨he, rfl⟩
    cases hfound : xs.find? fun e' => key e' == key e with
    | none => exact absurd (beq_self_eq_true _) (List.find?_eq_none.mp hfound e hmem)
    | some e' =>
      have he' := ((hxs e').mp (List.mem_of_find?_eq_some hfound)).1
      have htest := List.find?_some hfound
      rw [eq_of_key h.keys he' he (by simpa using htest)]

variable [DecidableEq ι]

theorem tableInsert_duplicate (h : TableHolds key tablelen table es) (hlen : 0 < tablelen.toNat)
    {fuel : Nat} (hfuel : es.length < fuel) {e e' : ι} (he' : e' ∈ es) (hkey : key e' = key e) :
    tableInsert fuel key table tablelen e = some (.error .invalidArgument, table) := by
  obtain ⟨found, hfind, hiff⟩ := h.find hlen hfuel (key e)
  have hfound : found = some e' := (hiff e').mpr ⟨he', hkey⟩
  subst hfound
  unfold tableInsert
  dsimp only
  cases hhead : table.head (mapSlot (key e) tablelen) with
  | none =>
    obtain ⟨fuel, rfl⟩ := Nat.exists_eq_succ_of_ne_zero (Nat.ne_of_gt (Nat.zero_lt_of_lt hfuel))
    rw [hhead] at hfind
    cases hfind
  | some p =>
    dsimp only
    rw [← hhead, hfind]

/-- A new key goes to the front of its bucket. -/
theorem tableInsert_fresh (h : TableHolds key tablelen table es) (hlen : 0 < tablelen.toNat)
    {fuel : Nat} (hfuel : es.length < fuel) {e : ι} (hkey : key e ∉ es.map key)
    (hnext : table.next e = none) :
    ∃ table', tableInsert fuel key table tablelen e = some (.ok (), table') ∧
      TableHolds key tablelen table' (e :: es) ∧ ∀ a ≠ e, table'.next a = table.next a := by
  have hnew : e ∉ es := fun he => hkey (List.mem_map_of_mem he)
  have hkeys : ((e :: es).map key).Nodup := List.nodup_cons.mpr ⟨hkey, h.keys⟩
  obtain ⟨found, hfind, hiff⟩ := h.find hlen hfuel (key e)
  -- Both ways to insert amount to the second one.
  have hpush : tableInsert fuel key table tablelen e =
      some (.ok (), (table.write (.next e) (table.head (mapSlot (key e) tablelen))).write
        (.head (mapSlot (key e) tablelen)) (some e)) := by
    unfold tableInsert
    dsimp only
    cases hhead : table.head (mapSlot (key e) tablelen) with
    | none =>
      have hsame := write_same table (.next e)
      rw [Links.read, hnext] at hsame
      rw [hsame]
    | some p =>
      have hnone : found = none := by
        cases hfound : found with
        | none => rfl
        | some a =>
          obtain ⟨ha, hka⟩ := (hiff a).mp hfound
          exact absurd (hka ▸ List.mem_map_of_mem ha) hkey
      rw [hhead, hnone] at hfind
      dsimp only
      rw [hfind]
  refine ⟨_, hpush, ⟨hkeys, fun i hi => ?_⟩, fun a ha => if_neg ha⟩
  obtain ⟨xs, hchain, hnodup, hxs⟩ := h.bucket i hi
  have hnot : e ∉ xs := fun he => hnew ((hxs e).mp he).1
  by_cases hslot : mapSlot (key e) tablelen = i
  · subst hslot
    refine ⟨e :: xs, hchain.pushFront hnot, List.nodup_cons.mpr ⟨hnot, hnodup⟩, fun a => ?_⟩
    rw [List.mem_cons, List.mem_cons, hxs, or_and_right]
    refine or_congr_left ⟨fun ha => ⟨ha, ha ▸ rfl⟩, And.left⟩
  · refine ⟨xs, ?_, hnodup, fun a => ?_⟩
    · show Chain _ (if i = mapSlot (key e) tablelen then some e else table.head i) xs
      rw [if_neg (Ne.symm hslot)]
      refine hchain.congr fun b hb => if_neg ?_
      rintro rfl
      exact hnot hb
    · rw [List.mem_cons, hxs, or_and_right]
      constructor
      · exact .inr
      · rintro (⟨rfl, hs⟩ | ha)
        · exact absurd hs hslot
        · exact ha

/-- No entry of the bucket has the key. -/
theorem tableRemove_none (h : TableHolds key tablelen table es) (hlen : 0 < tablelen.toNat)
    {fuel : Nat} (hfuel : es.length < fuel) {k : UInt64} (hkey : k ∉ es.map key) :
    remove (fun e => key e == k) fuel (.head (mapSlot k tablelen)) table = some (false, table) := by
  obtain ⟨xs, hchain, hnodup, hxs⟩ := h.bucket _ (mapSlot_lt k hlen)
  have hlength := length_le_of_subset hnodup fun e he => ((hxs e).mp he).1
  have hread : Chain table.next (table.read (.head (mapSlot k tablelen))) xs := hchain
  refine remove_none hread (Nat.lt_of_le_of_lt hlength hfuel) fun e he => ?_
  have hne : key e ≠ k := fun hk => hkey (hk ▸ List.mem_map_of_mem ((hxs e).mp he).1)
  exact beq_eq_false_iff_ne.mpr hne

/-- The entry leaves its bucket, and the other buckets stay. -/
theorem tableRemove_some (h : TableHolds key tablelen table es) (hlen : 0 < tablelen.toNat)
    {fuel : Nat} (hfuel : es.length < fuel) {entry : ι} (he : entry ∈ es) :
    ∃ table', remove (fun e => key e == key entry) fuel (.head (mapSlot (key entry) tablelen))
        table = some (true, table') ∧ TableHolds key tablelen table' (es.erase entry) := by
  obtain ⟨xs, hchain, hnodup, hxs⟩ := h.bucket _ (mapSlot_lt (key entry) hlen)
  have hlength := length_le_of_subset hnodup fun e he => ((hxs e).mp he).1
  obtain ⟨pre, suf, rfl⟩ := List.append_of_mem ((hxs entry).mpr ⟨he, rfl⟩)
  have hmid : (pre ++ entry :: suf).Perm (entry :: (pre ++ suf)) := List.perm_middle
  have hnot : entry ∉ pre ++ suf := (List.nodup_cons.mp (hmid.nodup_iff.mp hnodup)).1
  have hpre : ∀ b ∈ pre, (key b == key entry) = false := by
    intro b hb
    refine beq_eq_false_iff_ne.mpr fun hk => ?_
    have hb' : b ∈ es := ((hxs b).mp (List.mem_append_left _ hb)).1
    obtain rfl := eq_of_key h.keys hb' he hk
    exact hnot (List.mem_append_left _ hb)
  have hsteps : pre.length < fuel := by
    rw [List.length_append] at hlength
    omega
  have hread : Chain table.next (table.read (.head (mapSlot (key entry) tablelen)))
      (pre ++ entry :: suf) := hchain
  refine ⟨_, remove_some hread hsteps hpre (beq_self_eq_true _),
    h.keys.sublist (List.erase_sublist.map _), fun i hi => ?_⟩
  by_cases hslot : i = mapSlot (key entry) tablelen
  · subst hslot
    refine ⟨pre ++ suf, hread.unlink hnodup fun b _ => nofun, hnodup.sublist (by simp),
      fun e => ?_⟩
    rw [h.nodup.mem_erase_iff, and_assoc, ← hxs e, hmid.mem_iff, List.mem_cons]
    constructor
    · intro hmem
      exact ⟨fun heq => hnot (heq ▸ hmem), .inr hmem⟩
    · rintro ⟨hne, heq | hmem⟩
      · exact absurd heq hne
      · exact hmem
  · obtain ⟨ys, hchain', hnodup', hys⟩ := h.bucket i hi
    have hreadi : Chain table.next (table.read (.head i)) ys := hchain'
    refine ⟨ys, hreadi.write_other ?_ fun b hb => ?_, hnodup', fun e => ?_⟩
    -- The pointer that changed is the other head or in an entry of the other bucket.
    · rcases endLoc_cases (.head (mapSlot (key entry) tablelen)) pre with hl | ⟨c, -, hl⟩
      · rw [hl]
        exact fun heq => hslot (Loc.head.inj heq)
      · rw [hl]
        exact nofun
    · rcases endLoc_cases (.head (mapSlot (key entry) tablelen)) pre with hl | ⟨c, hc, hl⟩
      · rw [hl]
        exact nofun
      · rw [hl]
        intro heq
        obtain rfl := Loc.next.inj heq
        have hother := ((hxs b).mp (List.mem_append_left _ hc)).2
        exact hslot (((hys b).mp hb).2.symm.trans hother)
    · rw [hys, h.nodup.mem_erase_iff, and_assoc]
      constructor
      · rintro ⟨hmem, hs⟩
        refine ⟨?_, hmem, hs⟩
        rintro rfl
        exact hslot hs.symm
      · exact And.right

/-! ## The resize -/

/-- The entries of a chain go to the table one after the other. -/
theorem relink_holds {rest : List ι} {p : Option ι} (hlen : 0 < tablelen.toNat)
    (h : TableHolds key tablelen table es) (hchain : Chain table.next p rest)
    (hkeys : ((rest ++ es).map key).Nodup) {fuel steps : Nat} (hsteps : rest.length < steps)
    (hfuel : (rest ++ es).length < fuel) :
    ∃ table', relink fuel key tablelen steps p table = some table' ∧
      TableHolds key tablelen table' (rest.reverse ++ es) ∧
      ∀ a, a ∉ rest → table'.next a = table.next a := by
  induction rest generalizing p table es steps with
  | nil =>
    obtain ⟨steps, rfl⟩ := Nat.exists_eq_succ_of_ne_zero (Nat.ne_of_gt hsteps)
    obtain rfl : p = none := hchain
    exact ⟨table, rfl, h, fun _ _ => rfl⟩
  | cons e rest ih =>
    obtain ⟨steps, rfl⟩ := Nat.exists_eq_succ_of_ne_zero (Nat.ne_of_gt (Nat.zero_lt_of_lt hsteps))
    obtain ⟨rfl, hrest⟩ := hchain
    rw [List.cons_append] at hkeys hfuel
    obtain ⟨hkey, -⟩ := List.nodup_cons.mp hkeys
    rw [List.map_append, List.mem_append, not_or] at hkey
    have hnotRest : e ∉ rest := fun he => hkey.1 (List.mem_map_of_mem he)
    have hnotEs : e ∉ es := fun he => hkey.2 (List.mem_map_of_mem he)
    have hcleared : TableHolds key tablelen (table.write (.next e) none) es := by
      refine h.congr rfl (fun b hb => if_neg ?_) fun _ _ => rfl
      rintro rfl
      exact hnotEs hb
    have hfuel' : es.length < fuel := by
      rw [List.length_cons, List.length_append] at hfuel
      omega
    obtain ⟨table₁, hinsert, hholds, hsame⟩ :=
      tableInsert_fresh hcleared hlen hfuel' hkey.2 (if_pos rfl)
    have hother : ∀ a, a ≠ e → table₁.next a = table.next a := fun a ha =>
      (hsame a ha).trans (if_neg ha)
    have hchain₁ : Chain table₁.next (table.next e) rest := by
      refine hrest.congr fun b hb => hother b ?_
      rintro rfl
      exact hnotRest hb
    have hperm : (rest ++ e :: es).Perm (e :: (rest ++ es)) := List.perm_middle
    obtain ⟨table₂, hrelink, hholds₂, hsame₂⟩ := ih hholds hchain₁
      (((hperm.map key).nodup_iff).mpr hkeys) (Nat.lt_of_succ_lt_succ hsteps)
      (hperm.length_eq.symm ▸ hfuel)
    refine ⟨table₂, ?_, ?_, fun a ha => ?_⟩
    · rw [relink, hinsert]
      exact hrelink
    · rw [List.reverse_cons, List.append_assoc]
      exact hholds₂
    · rw [List.mem_cons, not_or] at ha
      rw [hsame₂ a ha.2, hother a ha.1]

/-- The buckets of the old table are relinked in turn. `slot` is where the old table has an
entry. -/
theorem relinkAll_holds {is : List Nat} {slot : ι → Nat} {done : List ι} {old : Nat → Option ι}
    (hlen : 0 < tablelen.toNat) (his : is.Nodup) (hkeys : (es.map key).Nodup)
    (h : TableHolds key tablelen table done)
    (hold : ∀ i ∈ is, ∃ xs, Chain table.next (old i) xs ∧ xs.Nodup ∧
      ∀ e, e ∈ xs ↔ e ∈ es ∧ slot e = i)
    (hdone : ∀ e, e ∈ done ↔ e ∈ es ∧ slot e ∉ is) {fuel : Nat} (hfuel : es.length < fuel) :
    ∃ table', relinkAll fuel key tablelen old is table = some table' ∧
      TableHolds key tablelen table' es ∧ ∀ a, a ∉ es → table'.next a = table.next a := by
  induction is generalizing table done with
  | nil =>
    refine ⟨table, rfl, h.of_mem hkeys fun e => ?_, fun _ _ => rfl⟩
    rw [hdone, and_iff_left (List.not_mem_nil)]
  | cons i is ih =>
    obtain ⟨hi, his'⟩ := List.nodup_cons.mp his
    obtain ⟨xs, hchain, hnodup, hxs⟩ := hold i (.head _)
    have hsub : ∀ e ∈ xs ++ done, e ∈ es := by
      intro e he
      rcases List.mem_append.mp he with he | he
      · exact ((hxs e).mp he).1
      · exact ((hdone e).mp he).1
    have hapart : (xs ++ done).Nodup := by
      refine List.nodup_append'.mpr ⟨hnodup, h.nodup, fun e he hd => ?_⟩
      exact ((hdone e).mp hd).2 (((hxs e).mp he).2 ▸ .head _)
    have hkeys' : ((xs ++ done).map key).Nodup :=
      hapart.map_on fun a ha b hb => eq_of_key hkeys (hsub a ha) (hsub b hb)
    have hlength := length_le_of_subset hapart hsub
    have hsteps : xs.length < fuel := by
      rw [List.length_append] at hlength
      omega
    obtain ⟨table₁, hrelink, hholds, hsame⟩ := relink_holds hlen h hchain hkeys' hsteps
      (Nat.lt_of_le_of_lt hlength hfuel)
    have hdone₁ : ∀ e, e ∈ xs.reverse ++ done ↔ e ∈ es ∧ slot e ∉ is := by
      intro e
      rw [List.mem_append, List.mem_reverse, hxs, hdone, List.mem_cons, not_or]
      constructor
      · rintro (⟨he, rfl⟩ | ⟨he, -, hs⟩)
        · exact ⟨he, hi⟩
        · exact ⟨he, hs⟩
      · rintro ⟨he, hs⟩
        by_cases hei : slot e = i
        · exact .inl ⟨he, hei⟩
        · exact .inr ⟨he, hei, hs⟩
    have hold₁ : ∀ j ∈ is, ∃ ys, Chain table₁.next (old j) ys ∧ ys.Nodup ∧
        ∀ e, e ∈ ys ↔ e ∈ es ∧ slot e = j := by
      intro j hj
      obtain ⟨ys, hchain', hnodup', hys⟩ := hold j (.tail _ hj)
      refine ⟨ys, hchain'.congr fun b hb => hsame b fun hb' => ?_, hnodup', hys⟩
      have hbi := ((hxs b).mp hb').2
      have hbj := ((hys b).mp hb).2
      exact hi (hbi ▸ hbj ▸ hj)
    obtain ⟨table₂, hall, hholds₂, hsame₂⟩ := ih his' hholds hold₁ hdone₁
    refine ⟨table₂, ?_, hholds₂, fun a ha => ?_⟩
    · rw [relinkAll, hrelink]
      exact hall
    · rw [hsame₂ a ha, hsame a fun hxa => ha ((hxs a).mp hxa).1]

end

end Ngtcp2
