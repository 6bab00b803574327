import Mathlib.Data.List.Nodup
import Mathlib.Data.List.Perm.Basic
import XPath.Arena

/-! The table of texts as a finite map from handles: its free list names exactly the empty slots, so
a new text never lands on one that is still kept. -/
namespace XPath.Arena

/-- Slot `i` exists and holds no text. -/
def Vacant (a : Arena) (i : Nat) : Prop :=
  ∃ g, a.slots[i]? = some ⟨g, none⟩

/-- The free list and the count agree with the slots. -/
structure Sound (a : Arena) : Prop where
  size_le : a.slots.size ≤ UInt32.size
  nodup : a.free.Nodup
  mem_free (i : UInt32) : i ∈ a.free ↔ a.Vacant i.toNat
  live_add : a.live + a.free.length = a.slots.size

theorem sound_empty : ({} : Arena).Sound where
  size_le := Nat.zero_le _
  nodup := List.nodup_nil
  mem_free i := by simp [Vacant]
  live_add := rfl

theorem get?_eq_some {a : Arena} {h : Handle} {s : String} :
    a.get? h = some s ↔ a.slots[h.index.toNat]? = some ⟨h.generation, some s⟩ := by
  unfold get? slot?
  cases hs : a.slots[h.index.toNat]? with
  | none => simp
  | some slot =>
    obtain ⟨g, v⟩ := slot
    by_cases hg : g = h.generation <;> simp [hg]

private theorem toNat_ofNat {n : Nat} (h : n < UInt32.size) : (UInt32.ofNat n).toNat = n := by
  simp only [UInt32.toNat_ofNat']
  exact Nat.mod_eq_of_lt h

/-- Handles into one slot are told apart by their generations. -/
private theorem generation_ne {h k : Handle} (hi : k.index = h.index) (hk : k ≠ h) :
    h.generation ≠ k.generation := by
  intro hg
  have he : k = ⟨k.index, k.generation⟩ := rfl
  exact hk (by rw [he, hi, ← hg])

/-! Keeping a text. -/

/-- The slot for a new text is empty or does not exist yet. -/
theorem register_slot_free {a : Arena} (ha : a.Sound) (room : a.live < UInt32.size)
    (s : String) :
    (a.register s).1.index.toNat = a.slots.size ∧ a.free = [] ∧ (a.register s).1.generation = 0 ∨
      ∃ i rest, a.free = i :: rest ∧ (a.register s).1.index = i ∧
        a.slots[i.toNat]? = some ⟨(a.register s).1.generation, none⟩ := by
  cases hf : a.free with
  | nil =>
    have hsize : a.slots.size < UInt32.size := by
      have := ha.live_add
      rw [hf, List.length_nil] at this
      omega
    refine Or.inl ⟨?_, rfl, ?_⟩
    · simp [register, hf, fill, toNat_ofNat hsize]
    · simp [register, hf, fill, slot?, toNat_ofNat hsize]
  | cons i rest =>
    obtain ⟨g, hg⟩ := (ha.mem_free i).mp (by rw [hf]; exact List.mem_cons_self)
    refine Or.inr ⟨i, rest, rfl, ?_, ?_⟩
    · simp [register, hf, fill]
    · simp [register, hf, fill, slot?, hg]

/-- A new text fills that slot and leaves the others alone. -/
theorem register_slots {a : Arena} (ha : a.Sound) (room : a.live < UInt32.size)
    (s : String) (j : Nat) :
    (a.register s).2.slots[j]? =
      if j = (a.register s).1.index.toNat then some ⟨(a.register s).1.generation, some s⟩
      else a.slots[j]? := by
  rcases register_slot_free ha room s with ⟨hi, hf, hg⟩ | ⟨i, rest, hf, hi, hs⟩
  · have hslots : (a.register s).2.slots =
        (a.slots.push {}).modify (a.register s).1.index.toNat ({ · with value := some s }) := by
      simp [register, hf, fill]
    rw [hslots, hi, hg, Array.getElem?_modify, Array.getElem?_push]
    by_cases hj : j = a.slots.size
    · rw [if_pos hj.symm, if_pos hj, if_pos hj]
      rfl
    · rw [if_neg (Ne.symm hj), if_neg hj, if_neg hj]
  · have hslots : (a.register s).2.slots =
        a.slots.modify i.toNat ({ · with value := some s }) := by
      simp [register, hf, fill]
    rw [hslots, hi, Array.getElem?_modify]
    by_cases hj : j = i.toNat
    · rw [if_pos hj, if_pos hj.symm, hj, hs]
      rfl
    · rw [if_neg hj, if_neg (Ne.symm hj)]

/-- No handle into that slot was good before. -/
theorem get?_eq_none_of_index {a : Arena} (ha : a.Sound) (room : a.live < UInt32.size) (s : String)
    {h : Handle} (hi : h.index = (a.register s).1.index) : a.get? h = none := by
  rw [Option.eq_none_iff_forall_ne_some]
  intro v hv
  rw [get?_eq_some, hi] at hv
  rcases register_slot_free ha room s with ⟨hsize, -, -⟩ | ⟨i, rest, -, hindex, hs⟩
  · rw [hsize] at hv
    simp at hv
  · rw [hindex, hs] at hv
    simp at hv

theorem get?_register_fresh {a : Arena} (ha : a.Sound) (room : a.live < UInt32.size) (s : String) :
    a.get? (a.register s).1 = none :=
  get?_eq_none_of_index ha room s rfl

/-- As a map from handles, the table gains one entry. -/
theorem get?_register {a : Arena} (ha : a.Sound) (room : a.live < UInt32.size) (s : String)
    (h : Handle) :
    (a.register s).2.get? h = if h = (a.register s).1 then some s else a.get? h := by
  have hslots := register_slots ha room s h.index.toNat
  by_cases hi : h.index = (a.register s).1.index
  · rw [if_pos (congrArg UInt32.toNat hi)] at hslots
    rw [get?_eq_none_of_index ha room s hi]
    ext v
    rw [get?_eq_some, hslots]
    by_cases hh : h = (a.register s).1
    · simp [hh]
    · have hg := generation_ne hi hh
      simp [hh, hg]
  · rw [if_neg (fun he => hi (UInt32.toNat_inj.mp he))] at hslots
    rw [if_neg (fun hh => hi (by rw [hh]))]
    ext v
    rw [get?_eq_some, hslots, get?_eq_some]

theorem live_register (a : Arena) (s : String) : (a.register s).2.live = a.live + 1 := by
  unfold register
  split <;> rfl

/-- The table grows only when no slot is empty. -/
theorem size_register {a : Arena} (ha : a.Sound) (s : String) :
    (a.register s).2.slots.size = max a.slots.size (a.live + 1) := by
  have hcount := ha.live_add
  unfold register
  split
  · next i free hf =>
    rw [hf, List.length_cons] at hcount
    simp only [fill, Array.size_modify]
    omega
  · next hf =>
    rw [hf, List.length_nil] at hcount
    simp only [fill, Array.size_modify, Array.size_push]
    omega

theorem sound_register {a : Arena} (ha : a.Sound) (room : a.live < UInt32.size) (s : String) :
    (a.register s).2.Sound := by
  have hcount := ha.live_add
  have hslots := register_slots ha room s
  have hsize := size_register ha s
  have hlive := live_register a s
  have hle := ha.size_le
  have vacant (j : Nat) : (a.register s).2.Vacant j ↔
      j ≠ (a.register s).1.index.toNat ∧ a.Vacant j := by
    unfold Vacant
    rw [hslots]
    by_cases hj : j = (a.register s).1.index.toNat <;> simp [hj]
  rcases register_slot_free ha room s with ⟨hi, hf, -⟩ | ⟨i, rest, hf, hi, -⟩
  · have hfree : (a.register s).2.free = [] := by simp [register, hf, fill]
    rw [hf, List.length_nil] at hcount
    refine ⟨by omega, by rw [hfree]; exact List.nodup_nil, fun i => ?_, ?_⟩
    · rw [hfree, vacant, ← ha.mem_free, hf]
      simp
    · rw [hfree, List.length_nil]
      omega
  · have hfree : (a.register s).2.free = rest := by simp [register, hf, fill]
    have hnodup := ha.nodup
    rw [hf, List.nodup_cons] at hnodup
    rw [hf, List.length_cons] at hcount
    refine ⟨by omega, by rw [hfree]; exact hnodup.2, fun k => ?_, by rw [hfree]; omega⟩
    rw [hfree, vacant, hi, ← ha.mem_free, hf, List.mem_cons, Ne, UInt32.toNat_inj]
    constructor
    · intro hk
      exact ⟨fun he => hnodup.1 (he ▸ hk), Or.inr hk⟩
    · rintro ⟨hne, he | hk⟩
      · exact absurd he hne
      · exact hk

/-! Taking a text out. -/

/-- Different slots of a table number at most as many as it has. -/
private theorem length_le_size {a : Arena} {l : List UInt32} (hn : l.Nodup)
    (hl : ∀ i ∈ l, i.toNat < a.slots.size) : l.length ≤ a.slots.size := by
  have hnodup : (l.map UInt32.toNat).Nodup := hn.map fun _ _ => UInt32.toNat_inj.mp
  have hsub : l.map UInt32.toNat ⊆ List.range a.slots.size := by
    intro n hmem
    obtain ⟨i, hi, rfl⟩ := List.mem_map.mp hmem
    exact List.mem_range.mpr (hl i hi)
  have hle := (List.subperm_of_subset hnodup hsub).length_le
  rwa [List.length_map, List.length_range] at hle

theorem Vacant.lt_size {a : Arena} {i : Nat} (h : a.Vacant i) : i < a.slots.size := by
  obtain ⟨g, hg⟩ := h
  exact (Array.getElem?_eq_some_iff.mp hg).1

/-- A kept text has a slot that is not in the free list. -/
private theorem nodup_index_cons {a : Arena} (ha : a.Sound) {h : Handle} {s : String}
    (hs : a.get? h = some s) : (h.index :: a.free).Nodup := by
  refine List.nodup_cons.mpr ⟨fun hmem => ?_, ha.nodup⟩
  obtain ⟨g, hg⟩ := (ha.mem_free h.index).mp hmem
  rw [get?_eq_some.mp hs] at hg
  simp at hg

theorem live_pos {a : Arena} (ha : a.Sound) {h : Handle} {s : String} (hs : a.get? h = some s) :
    0 < a.live := by
  have hle := length_le_size (a := a) (nodup_index_cons ha hs) fun i hi => by
    rcases List.mem_cons.mp hi with rfl | hi
    · exact (Array.getElem?_eq_some_iff.mp (get?_eq_some.mp hs)).1
    · exact ((ha.mem_free i).mp hi).lt_size
  have hcount := ha.live_add
  rw [List.length_cons] at hle
  omega

theorem release?_eq_none {a : Arena} {h : Handle} (hs : a.get? h = none) : a.release? h = none := by
  unfold release?
  rw [hs]
  rfl

/-- The table after the text under a good handle has been taken out. -/
def without (a : Arena) (h : Handle) : Arena where
  slots := a.slots.modify h.index.toNat Slot.vacate
  free := h.index :: a.free
  live := a.live - 1

theorem release?_eq_some {a : Arena} {h : Handle} {s : String} (hs : a.get? h = some s) :
    a.release? h = some (s, a.without h) := by
  unfold release?
  rw [hs]
  rfl

theorem without_slots {a : Arena} {h : Handle} {s : String} (hs : a.get? h = some s)
    (j : Nat) : (a.without h).slots[j]? =
      if j = h.index.toNat then some ⟨h.generation + 1, none⟩ else a.slots[j]? := by
  have hslots : (a.without h).slots = a.slots.modify h.index.toNat Slot.vacate := rfl
  rw [hslots, Array.getElem?_modify]
  by_cases hj : j = h.index.toNat
  · rw [if_pos hj, if_pos hj.symm, hj, get?_eq_some.mp hs]
    rfl
  · rw [if_neg hj, if_neg (Ne.symm hj)]

/-- As a map from handles, the table loses one entry. -/
theorem get?_without {a : Arena} {h : Handle} {s : String} (hs : a.get? h = some s) (k : Handle) :
    (a.without h).get? k = if k = h then none else a.get? k := by
  have hslots := without_slots hs k.index.toNat
  ext v
  rw [get?_eq_some, hslots]
  by_cases hi : k.index = h.index
  · rw [if_pos (congrArg UInt32.toNat hi)]
    by_cases hk : k = h
    · simp [hk]
    · have hg := generation_ne hi hk
      rw [if_neg hk, get?_eq_some, hi, get?_eq_some.mp hs]
      simp [hg]
  · have hk : k ≠ h := fun hk => hi (by rw [hk])
    rw [if_neg (fun he => hi (UInt32.toNat_inj.mp he)), if_neg hk, get?_eq_some]

theorem live_without {a : Arena} (ha : a.Sound) {h : Handle} {s : String} (hs : a.get? h = some s) :
    (a.without h).live + 1 = a.live :=
  Nat.sub_add_cancel (live_pos ha hs)

theorem size_without (a : Arena) (h : Handle) : (a.without h).slots.size = a.slots.size :=
  Array.size_modify

theorem sound_without {a : Arena} (ha : a.Sound) {h : Handle} {s : String}
    (hs : a.get? h = some s) : (a.without h).Sound := by
  have hcount := ha.live_add
  have hlive := live_without ha hs
  have hfree : (a.without h).free = h.index :: a.free := rfl
  refine ⟨size_without a h ▸ ha.size_le, nodup_index_cons ha hs, fun i => ?_, ?_⟩
  · unfold Vacant
    rw [hfree, List.mem_cons, without_slots hs, ha.mem_free, Vacant]
    by_cases hi : i = h.index
    · simp [hi]
    · have hn : i.toNat ≠ h.index.toNat := fun hn => hi (UInt32.toNat_inj.mp hn)
      simp [hi, hn]
  · rw [hfree, List.length_cons, size_without]
    omega

/-! Taking out all texts. -/

private theorem mem_occupied {a : Arena} (ha : a.Sound) (i : UInt32) :
    i ∈ a.occupied ↔ i.toNat < a.slots.size ∧ i ∉ a.free := by
  have hle := ha.size_le
  unfold occupied
  simp only [List.mem_map, List.mem_filter, List.mem_range, ha.mem_free, Vacant]
  constructor
  · rintro ⟨n, ⟨hn, hv⟩, rfl⟩
    rw [toNat_ofNat (by omega)]
    refine ⟨hn, ?_⟩
    rintro ⟨g, hg⟩
    rw [hg] at hv
    simp at hv
  · rintro ⟨hi, hv⟩
    refine ⟨i.toNat, ⟨hi, ?_⟩, UInt32.ofNat_toNat⟩
    obtain ⟨slot, hslot⟩ : ∃ slot, a.slots[i.toNat]? = some slot :=
      ⟨_, Array.getElem?_eq_getElem hi⟩
    obtain ⟨g, v⟩ := slot
    cases v with
    | none => exact absurd ⟨g, hslot⟩ hv
    | some v => simp [hslot]

private theorem nodup_occupied {a : Arena} (ha : a.Sound) : a.occupied.Nodup := by
  have hle := ha.size_le
  unfold occupied
  refine List.Nodup.map_on ?_ (List.nodup_range.filter _)
  intro m hm n hn he
  have hm := List.mem_range.mp (List.mem_of_mem_filter hm)
  have hn := List.mem_range.mp (List.mem_of_mem_filter hn)
  have hmn := congrArg UInt32.toNat he
  rwa [toNat_ofNat (by omega), toNat_ofNat (by omega)] at hmn

private theorem nodup_releaseAll {a : Arena} (ha : a.Sound) :
    (a.occupied.reverse ++ a.free).Nodup := by
  refine List.nodup_append.mpr ⟨List.nodup_reverse.mpr (nodup_occupied ha), ha.nodup, ?_⟩
  rintro i hi j hj rfl
  exact ((mem_occupied ha i).mp (List.mem_reverse.mp hi)).2 hj

theorem mem_releaseAll_free {a : Arena} (ha : a.Sound) (i : UInt32) :
    i ∈ a.releaseAll.2.free ↔ i.toNat < a.slots.size := by
  have hfree : a.releaseAll.2.free = a.occupied.reverse ++ a.free := rfl
  rw [hfree, List.mem_append, List.mem_reverse, mem_occupied ha]
  constructor
  · rintro (⟨hi, -⟩ | hi)
    · exact hi
    · exact ((ha.mem_free i).mp hi).lt_size
  · intro hi
    by_cases hf : i ∈ a.free
    · exact Or.inr hf
    · exact Or.inl ⟨hi, hf⟩

theorem get?_releaseAll (a : Arena) (h : Handle) : a.releaseAll.2.get? h = none := by
  rw [Option.eq_none_iff_forall_ne_some]
  intro s hs
  have hslots : a.releaseAll.2.slots = a.slots.map Slot.vacate := rfl
  rw [get?_eq_some, hslots, Array.getElem?_map] at hs
  obtain ⟨⟨g, v⟩, -, hv⟩ := Option.map_eq_some_iff.mp hs
  cases v <;> simp [Slot.vacate] at hv

theorem size_releaseAll (a : Arena) : a.releaseAll.2.slots.size = a.slots.size :=
  Array.size_map

theorem sound_releaseAll {a : Arena} (ha : a.Sound) : a.releaseAll.2.Sound := by
  have hsize := size_releaseAll a
  have hle := ha.size_le
  refine ⟨by omega, nodup_releaseAll ha, fun i => ?_, ?_⟩
  · rw [mem_releaseAll_free ha]
    constructor
    · intro hi
      have hslots : a.releaseAll.2.slots = a.slots.map Slot.vacate := rfl
      unfold Vacant
      rw [hslots, Array.getElem?_map, Array.getElem?_eq_getElem hi]
      cases hv : a.slots[i.toNat] with
      | mk g v => cases v <;> simp [Slot.vacate]
    · intro hv
      exact hsize ▸ hv.lt_size
  · have hperm : (a.releaseAll.2.free.map UInt32.toNat).Perm (List.range a.slots.size) := by
      refine (List.perm_ext_iff_of_nodup ?_ List.nodup_range).mpr fun n => ?_
      · exact (nodup_releaseAll ha).map fun _ _ => UInt32.toNat_inj.mp
      · rw [List.mem_map, List.mem_range]
        constructor
        · rintro ⟨i, hi, rfl⟩
          exact (mem_releaseAll_free ha i).mp hi
        · intro hn
          have hto := toNat_ofNat (show n < UInt32.size by omega)
          exact ⟨.ofNat n, (mem_releaseAll_free ha _).mpr (by rwa [hto]), hto⟩
    have hlength := hperm.length_eq
    rw [List.length_map, List.length_range] at hlength
    have hlive : a.releaseAll.2.live = 0 := rfl
    omega

end XPath.Arena
