import Mathlib.Data.Finmap
import Polygon.Lib.Runs
import Polygon.Map

/-!
# Runs of the map

Whatever was called, the hash table is a finite map from keys to entries.
-/
namespace Ngtcp2

open Buckets

variable {ι : Type}

/-- The table has these entries, they are counted, and the load is within its bound. -/
structure MapHolds (map : Map ι) (es : List ι) : Prop where
  table : TableHolds map.key map.tablelen map.links es
  size : map.size = es.length
  wide : 256 ≤ map.tablelen.toNat
  load : map.size * 4 ≤ map.tablelen.toNat * 3

section
variable {map : Map ι} {es : List ι}

theorem MapHolds.init (next : ι → Option ι) (key : ι → UInt64) :
    MapHolds (mapInit next key) [] where
  table := .empty next
  size := rfl
  wide := Nat.le_refl _
  load := Nat.zero_le _

theorem MapHolds.pos (h : MapHolds map es) : 0 < map.tablelen.toNat :=
  Nat.lt_of_lt_of_le (by decide) h.wide

theorem MapHolds.find (h : MapHolds map es) {fuel : Nat} (hfuel : map.size < fuel) (k : UInt64) :
    ∃ found, mapFind fuel map k = some found ∧ ∀ e, found = some e ↔ e ∈ es ∧ map.key e = k :=
  h.table.find h.pos (h.size ▸ hfuel) k

variable [DecidableEq ι]

theorem MapHolds.entryInit (h : MapHolds map es) {entry : ι} (hnew : entry ∉ es) (key : UInt64) :
    MapHolds (mapEntryInit map entry key) es := by
  have hne : ∀ e ∈ es, e ≠ entry := by
    rintro e he rfl
    exact hnew he
  refine ⟨?_, h.size, h.wide, h.load⟩
  exact h.table.congr rfl (fun e he => if_neg (hne e he)) fun e he => if_neg (hne e he)

/-- A larger table has the same entries. -/
theorem mapResize_holds (h : MapHolds map es) {tablelen : UInt32} (hlen : 0 < tablelen.toNat)
    {fuel : Nat} (hfuel : map.size < fuel) :
    ∃ links, mapResize fuel map tablelen = some { map with links, tablelen } ∧
      TableHolds map.key tablelen links es ∧
      ∀ a, a ∉ es → links.next a = map.links.next a := by
  have hdone : ∀ e, e ∈ ([] : List ι) ↔
      e ∈ es ∧ mapSlot (map.key e) map.tablelen ∉ List.range map.tablelen.toNat := by
    intro e
    rw [List.mem_range]
    have := mapSlot_lt (map.key e) h.pos
    exact ⟨fun he => (by cases he), fun he => absurd this he.2⟩
  obtain ⟨links, hall, hholds, hsame⟩ := relinkAll_holds hlen List.nodup_range h.table.keys
    (TableHolds.empty map.links.next)
    (fun i hi => h.table.bucket i (List.mem_range.mp hi)) hdone (h.size ▸ hfuel)
  refine ⟨links, ?_, hholds, hsame⟩
  rw [mapResize, hall]
  rfl

/-- What `ngtcp2_map_insert` does about the load before it inserts. -/
theorem mapInsert_room (h : MapHolds map es) (hshort : map.tablelen.toNat < 2 ^ 31) {fuel : Nat}
    (hfuel : map.size < fuel) :
    ∃ map', (if (map.tablelen * 3).toNat < (map.size + 1) * 4 % 2 ^ 64 then
        mapResize fuel map (map.tablelen * 2) else some map) = some map' ∧
      MapHolds map' es ∧ (map'.size + 1) * 4 ≤ map'.tablelen.toNat * 3 ∧ map'.size = map.size ∧
      map'.key = map.key ∧ ∀ a, a ∉ es → map'.links.next a = map.links.next a := by
  have hload := h.load
  have hwide := h.wide
  have hsmall : (map.size + 1) * 4 % 2 ^ 64 = (map.size + 1) * 4 := Nat.mod_eq_of_lt (by omega)
  rw [hsmall]
  split
  · have hdouble : (map.tablelen * 2).toNat = map.tablelen.toNat * 2 := by
      rw [UInt32.toNat_mul]
      exact Nat.mod_eq_of_lt (by simp; omega)
    obtain ⟨links, hresize, hholds, hsame⟩ :=
      mapResize_holds h (hdouble.symm ▸ Nat.mul_pos h.pos Nat.two_pos) hfuel
    refine ⟨_, hresize, ⟨hholds, h.size, ?_, ?_⟩, ?_, rfl, rfl, hsame⟩
    all_goals
      dsimp only
      rw [hdouble]
      omega
  · next hroom =>
    refine ⟨map, rfl, h, ?_, rfl, rfl, fun _ _ => rfl⟩
    have hmul : (map.tablelen * 3).toNat ≤ map.tablelen.toNat * 3 := by
      rw [UInt32.toNat_mul]
      exact Nat.mod_le _ _
    omega

/-- An entry with a key of its own goes in. -/
theorem mapInsert_fresh (h : MapHolds map es) (hshort : map.tablelen.toNat < 2 ^ 31) {fuel : Nat}
    (hfuel : map.size < fuel) {entry : ι} (hkey : map.key entry ∉ es.map map.key)
    (hnext : map.links.next entry = none) :
    ∃ map', mapInsert fuel map entry = some (.ok (), map') ∧ MapHolds map' (entry :: es) ∧
      map'.key = map.key := by
  obtain ⟨map₁, hroom, hholds, hload, hsize, hkeys, hsame⟩ := mapInsert_room h hshort hfuel
  have hnew : entry ∉ es := fun he => hkey (List.mem_map_of_mem he)
  rw [← hkeys] at hkey
  obtain ⟨links, hinsert, htable, -⟩ := tableInsert_fresh hholds.table hholds.pos
    (hholds.size ▸ hsize.symm ▸ hfuel) hkey ((hsame entry hnew).trans hnext)
  have hlen : map₁.tablelen.toNat < 2 ^ 32 := map₁.tablelen.toNat_lt
  have hcount : addU64 map₁.size 1 = map₁.size + 1 := addU64_of_lt (by omega)
  refine ⟨{ map₁ with links, size := addU64 map₁.size 1 }, ?_, ⟨htable, ?_, hholds.wide, ?_⟩, hkeys⟩
  · rw [mapInsert, hroom]
    dsimp only
    rw [hinsert]
  · dsimp only
    rw [hcount, hholds.size, List.length_cons]
  · dsimp only
    rw [hcount]
    exact hload

/-- A key that is there keeps the map as it is. -/
theorem mapInsert_duplicate (h : MapHolds map es) (hshort : map.tablelen.toNat < 2 ^ 31)
    {fuel : Nat} (hfuel : map.size < fuel) {entry e : ι} (he : e ∈ es)
    (hkey : map.key e = map.key entry) :
    ∃ map', mapInsert fuel map entry = some (.error .invalidArgument, map') ∧ MapHolds map' es ∧
      map'.key = map.key := by
  obtain ⟨map₁, hroom, hholds, -, hsize, hkeys, -⟩ := mapInsert_room h hshort hfuel
  rw [← hkeys] at hkey
  have hinsert := tableInsert_duplicate hholds.table hholds.pos
    (hholds.size ▸ hsize.symm ▸ hfuel) he hkey
  refine ⟨map₁, ?_, hholds, hkeys⟩
  rw [mapInsert, hroom]
  dsimp only
  rw [hinsert]

theorem mapRemove_none (h : MapHolds map es) {fuel : Nat} (hfuel : map.size < fuel) {k : UInt64}
    (hkey : k ∉ es.map map.key) :
    mapRemove fuel map k = some (.error .invalidArgument, map) := by
  rw [mapRemove, tableRemove_none h.table h.pos (h.size ▸ hfuel) hkey]

theorem mapRemove_some (h : MapHolds map es) {fuel : Nat} (hfuel : map.size < fuel) {entry : ι}
    (he : entry ∈ es) :
    ∃ map', mapRemove fuel map (map.key entry) = some (.ok (), map') ∧
      MapHolds map' (es.erase entry) ∧ map'.key = map.key ∧ map'.tablelen = map.tablelen := by
  obtain ⟨links, hremove, htable⟩ := tableRemove_some h.table h.pos (h.size ▸ hfuel) he
  have hpos : 0 < map.size := h.size ▸ List.length_pos_of_mem he
  have hload := h.load
  have hlen : map.tablelen.toNat < 2 ^ 32 := map.tablelen.toNat_lt
  have hcount : subU64 map.size 1 = map.size - 1 := subU64_of_le hpos (by omega)
  refine ⟨{ map with links, size := subU64 map.size 1 }, ?_, ⟨htable, ?_, h.wide, ?_⟩, rfl, rfl⟩
  · rw [mapRemove, hremove]
  · dsimp only
    rw [hcount, h.size, List.length_erase_of_mem he]
  · dsimp only
    rw [hcount]
    omega

end

/-! ## The finite map -/

/-- A call, or a write of the callers to entries that are not in the map. -/
inductive MapCall (ι : Type) where
  | insert (key : UInt64) (entry : ι)
  | find (key : UInt64)
  | remove (key : UInt64)
  | write

/-- A finite map under a call: an entry whose key is there is not taken. -/
def contentsStep (c : Finmap fun _ : UInt64 => ι) : MapCall ι → Finmap fun _ : UInt64 => ι
  | .insert key entry =>
    match c.lookup key with
    | some _ => c
    | none => c.insert key entry
  | .find _ => c
  | .remove key => c.erase key
  | .write => c

def contents (calls : List (MapCall ι)) : Finmap fun _ : UInt64 => ι :=
  calls.foldl contentsStep ∅

theorem contents_snoc (calls : List (MapCall ι)) (call : MapCall ι) :
    contents (calls ++ [call]) = contentsStep (contents calls) call :=
  List.foldl_concat _ _ _ _

/-- The entries of the table are those of the finite map, under their keys. -/
structure MapIs (map : Map ι) (es : List ι) (c : Finmap fun _ : UInt64 => ι) : Prop where
  holds : MapHolds map es
  short : map.tablelen.toNat < 2 ^ 31
  lookup : ∀ k e, c.lookup k = some e ↔ e ∈ es ∧ map.key e = k

section
variable {map : Map ι} {es : List ι} {c : Finmap fun _ : UInt64 => ι}

theorem MapIs.mem_iff (h : MapIs map es c) (k : UInt64) : k ∈ c ↔ k ∈ es.map map.key := by
  rw [Finmap.mem_iff, List.mem_map]
  exact exists_congr fun e => h.lookup k e

theorem MapIs.not_mem (h : MapIs map es c) {entry : ι} (hnew : ∀ k, c.lookup k ≠ some entry) :
    entry ∉ es :=
  fun he => hnew _ ((h.lookup _ _).mpr ⟨he, rfl⟩)

theorem MapIs.size (h : MapIs map es c) : map.size = c.keys.card := by
  have hkeys : c.keys = (es.map map.key).toFinset := by
    ext k
    rw [Finmap.mem_keys, List.mem_toFinset, h.mem_iff]
  rw [hkeys, List.toFinset_card_of_nodup h.holds.table.keys, List.length_map, h.holds.size]

theorem MapIs.find (h : MapIs map es c) {fuel : Nat} (hfuel : map.size < fuel) (k : UInt64) :
    mapFind fuel map k = some (c.lookup k) := by
  obtain ⟨found, hfind, hiff⟩ := h.holds.find hfuel k
  rw [hfind]
  refine congrArg some (Option.ext fun e => ?_)
  rw [hiff, h.lookup]

theorem MapIs.write (h : MapIs map es c) {next : ι → Option ι} {key : ι → UInt64}
    (same : ∀ k e, c.lookup k = some e → next e = map.links.next e ∧ key e = map.key e) :
    MapIs { map with links := { map.links with next }, key } es c := by
  have hsame : ∀ e ∈ es, next e = map.links.next e ∧ key e = map.key e := fun e he =>
    same _ e ((h.lookup _ e).mpr ⟨he, rfl⟩)
  refine ⟨⟨?_, h.holds.size, h.holds.wide, h.holds.load⟩, h.short, fun k e => ?_⟩
  · exact h.holds.table.congr rfl (fun e he => (hsame e he).1) fun e he => (hsame e he).2
  · rw [h.lookup]
    refine and_congr_right fun he => ?_
    show map.key e = k ↔ key e = k
    rw [(hsame e he).2]

end

variable [DecidableEq ι]

/-- One call, with enough steps for the loops. An entry is initialised with its key while it is
not in the map; the table stays shorter than 2^31. -/
inductive MapStep : List (MapCall ι) → Map ι → MapCall ι → Map ι → Prop where
  | insert {calls : List (MapCall ι)} {map map' : Map ι} {fuel : Nat} {key : UInt64} {entry : ι}
    {rv : Except Err Unit} (new : ∀ k, (contents calls).lookup k ≠ some entry)
    (enough : map.size < fuel)
    (call : mapInsert fuel (mapEntryInit map entry key) entry = some (rv, map'))
    (short : map'.tablelen.toNat < 2 ^ 31) : MapStep calls map (.insert key entry) map'
  | find {calls : List (MapCall ι)} {map : Map ι} {key : UInt64} : MapStep calls map (.find key) map
  | remove {calls : List (MapCall ι)} {map map' : Map ι} {fuel : Nat} {key : UInt64}
    {rv : Except Err Unit} (enough : map.size < fuel)
    (call : mapRemove fuel map key = some (rv, map')) : MapStep calls map (.remove key) map'
  | write {calls : List (MapCall ι)} {map : Map ι} {next : ι → Option ι} {key : ι → UInt64}
    (same : ∀ k e, (contents calls).lookup k = some e →
      next e = map.links.next e ∧ key e = map.key e) :
    MapStep calls map .write { map with links := { map.links with next }, key }

/-- What the map is to its callers, when `c` are its contents. -/
structure MapTracks (map : Map ι) (c : Finmap fun _ : UInt64 => ι) : Prop where
  size : map.size = c.keys.card
  find : ∀ {fuel : Nat} (key : UInt64), map.size < fuel →
    mapFind fuel map key = some (c.lookup key)
  insert : ∀ {fuel : Nat} (key : UInt64) {entry : ι}, (∀ k, c.lookup k ≠ some entry) →
    map.size < fuel → ∃ map', mapInsert fuel (mapEntryInit map entry key) entry =
      some (if key ∈ c then .error .invalidArgument else .ok (), map')
  remove : ∀ {fuel : Nat} (key : UInt64), map.size < fuel → ∃ map', mapRemove fuel map key =
    some (if key ∈ c then .ok () else .error .invalidArgument, map')

section
variable {map : Map ι} {es : List ι} {c : Finmap fun _ : UInt64 => ι}

/-- An insertion, with what it returns and the contents after it. -/
theorem MapIs.insert (h : MapIs map es c) {fuel : Nat} (hfuel : map.size < fuel) (key : UInt64)
    {entry : ι} (hnew : ∀ k, c.lookup k ≠ some entry) :
    ∃ map', mapInsert fuel (mapEntryInit map entry key) entry =
        some (if key ∈ c then .error .invalidArgument else .ok (), map') ∧
      (map'.tablelen.toNat < 2 ^ 31 →
        ∃ es', MapIs map' es' (contentsStep c (.insert key entry))) := by
  have hentry := h.not_mem hnew
  have hinit := h.holds.entryInit hentry key
  have hkeyEntry : (mapEntryInit map entry key).key entry = key := if_pos rfl
  have hkeyOther : ∀ e ∈ es, (mapEntryInit map entry key).key e = map.key e := by
    intro e he
    refine if_neg ?_
    rintro rfl
    exact hentry he
  have hkeys : es.map (mapEntryInit map entry key).key = es.map map.key :=
    List.map_congr_left hkeyOther
  cases hlookup : c.lookup key with
  | some e =>
    obtain ⟨he, hkey⟩ := (h.lookup key e).mp hlookup
    obtain ⟨map', hcall, hholds, hkey'⟩ := mapInsert_duplicate hinit h.short hfuel he
      (((hkeyOther e he).trans hkey).trans hkeyEntry.symm)
    refine ⟨map', ?_, fun hshort => ⟨es, hholds, hshort, fun k a => ?_⟩⟩
    · rw [if_pos (Finmap.mem_of_lookup_eq_some hlookup)]
      exact hcall
    · rw [contentsStep, hlookup, h.lookup, hkey']
      refine and_congr_right fun ha => ?_
      rw [hkeyOther a ha]
  | none =>
    have hnone : key ∉ c := Finmap.lookup_eq_none.mp hlookup
    have hfresh : (mapEntryInit map entry key).key entry ∉
        es.map (mapEntryInit map entry key).key := by
      rw [hkeyEntry, hkeys, ← h.mem_iff]
      exact hnone
    obtain ⟨map', hcall, hholds, hkey'⟩ := mapInsert_fresh hinit h.short hfuel hfresh (if_pos rfl)
    refine ⟨map', ?_, fun hshort => ⟨entry :: es, hholds, hshort, fun k a => ?_⟩⟩
    · rw [if_neg hnone]
      exact hcall
    · rw [contentsStep, hlookup, hkey', List.mem_cons]
      dsimp only
      by_cases hk : k = key
      · subst hk
        rw [Finmap.lookup_insert, Option.some.injEq]
        constructor
        · rintro rfl
          exact ⟨.inl rfl, hkeyEntry⟩
        · rintro ⟨rfl | ha, hak⟩
          · rfl
          · rw [hkeyOther a ha] at hak
            exact absurd ((h.mem_iff k).mpr (hak ▸ List.mem_map_of_mem ha)) hnone
      · rw [Finmap.lookup_insert_of_ne _ hk, h.lookup]
        constructor
        · rintro ⟨ha, hak⟩
          exact ⟨.inr ha, (hkeyOther a ha).trans hak⟩
        · rintro ⟨rfl | ha, hak⟩
          · exact absurd (hak.symm.trans hkeyEntry) hk
          · exact ⟨ha, (hkeyOther a ha).symm.trans hak⟩

/-- A removal, with what it returns and the contents after it. -/
theorem MapIs.remove (h : MapIs map es c) {fuel : Nat} (hfuel : map.size < fuel) (key : UInt64) :
    ∃ map', mapRemove fuel map key =
        some (if key ∈ c then .ok () else .error .invalidArgument, map') ∧
      ∃ es', MapIs map' es' (c.erase key) := by
  by_cases hmem : key ∈ c
  · obtain ⟨entry, he, rfl⟩ := List.mem_map.mp ((h.mem_iff key).mp hmem)
    obtain ⟨map', hcall, hholds, hkey, hlen⟩ := mapRemove_some h.holds hfuel he
    refine ⟨map', ?_, es.erase entry, hholds, hlen ▸ h.short, fun k e => ?_⟩
    · rw [if_pos hmem]
      exact hcall
    rw [hkey, h.holds.table.nodup.mem_erase_iff]
    by_cases hk : k = map.key entry
    · subst hk
      rw [Finmap.lookup_erase]
      refine ⟨nofun, ?_⟩
      rintro ⟨⟨hne, he'⟩, hkey'⟩
      exact absurd (eq_of_key h.holds.table.keys he' he hkey') hne
    · rw [Finmap.lookup_erase_ne hk, h.lookup]
      constructor
      · rintro ⟨he', rfl⟩
        refine ⟨⟨?_, he'⟩, rfl⟩
        rintro rfl
        exact hk rfl
      · rintro ⟨⟨-, he'⟩, hkey'⟩
        exact ⟨he', hkey'⟩
  · have hnone : key ∉ es.map map.key := fun hk => hmem ((h.mem_iff key).mpr hk)
    refine ⟨map, ?_, es, h.holds, h.short, fun k e => ?_⟩
    · rw [if_neg hmem]
      exact mapRemove_none h.holds hfuel hnone
    by_cases hk : k = key
    · subst hk
      rw [Finmap.lookup_erase, ← h.lookup, Finmap.lookup_eq_none.mpr hmem]
    · rw [Finmap.lookup_erase_ne hk, h.lookup]

theorem MapIs.tracks (h : MapIs map es c) : MapTracks map c where
  size := h.size
  find key hfuel := h.find hfuel key
  insert key _ hnew hfuel := by
    obtain ⟨map', hcall, -⟩ := h.insert hfuel key hnew
    exact ⟨map', hcall⟩
  remove key hfuel := by
    obtain ⟨map', hcall, -⟩ := h.remove hfuel key
    exact ⟨map', hcall⟩

theorem MapStep.keeps {calls : List (MapCall ι)} {map' : Map ι} {call : MapCall ι}
    (h : MapIs map es (contents calls)) (hstep : MapStep calls map call map') :
    ∃ es', MapIs map' es' (contentsStep (contents calls) call) := by
  cases hstep with
  | @insert _ fuel key entry rv new enough call short =>
    obtain ⟨map₁, hcall, hnext⟩ := h.insert enough key new
    obtain ⟨-, rfl⟩ := Prod.mk.inj (Option.some.inj (hcall.symm.trans call))
    exact hnext short
  | find => exact ⟨es, h⟩
  | @remove _ fuel key rv enough call =>
    obtain ⟨map₁, hcall, hnext⟩ := h.remove enough key
    obtain ⟨-, rfl⟩ := Prod.mk.inj (Option.some.inj (hcall.symm.trans call))
    exact hnext
  | write same => exact ⟨es, h.write same⟩

end

/-- After any calls the map answers as the finite map does. -/
theorem map_tracks {next : ι → Option ι} {key : ι → UInt64} {calls : List (MapCall ι)}
    {map : Map ι} (hrun : Runs.Run MapStep (mapInit next key) calls map) :
    MapTracks map (contents calls) := by
  have his : ∃ es, MapIs map es (contents calls) := by
    refine hrun.invariant (fun calls map => ∃ es, MapIs map es (contents calls)) ?_ ?_
    · have hshort : initialTableLength.toNat < 2 ^ 31 := by decide
      exact ⟨[], .init next key, hshort, fun k e => by simp [contents]⟩
    · rintro calls map call map' ⟨es, h⟩ hstep
      rw [contents_snoc]
      exact hstep.keeps h
  obtain ⟨es, h⟩ := his
  exact h.tracks

/-- The first entry, under the key 7. -/
theorem map_tracks_one : ∃ map : Map Nat, map.size = 1 ∧
    MapTracks map (contents [.insert 7 0]) := by
  obtain ⟨map, hsize, hstep⟩ : ∃ map, map.size = 1 ∧
      MapStep [] (mapInit (fun _ => none) fun _ => 0) (.insert 7 0) map := by
    refine ⟨_, ?_, .insert (fun k => ?_) (Nat.lt_succ_self _) rfl ?_⟩
    · rfl
    · simp [contents]
    · decide
  exact ⟨map, hsize, map_tracks (Runs.Run.nil.snoc hstep)⟩

end Ngtcp2
