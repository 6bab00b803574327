import Mathlib.Data.List.Induction
import Mathlib.Order.Bounds.Basic
import XPath.Proofs.Arena.Calls

/-! The books of a table of texts. A journal is kept of its calls and their answers alone, and what
the table says of its slots is held against it. -/
namespace XPath

/-- The handles whose texts have not been taken out again, and those whose texts have. -/
structure Journal where
  kept : List Handle := []
  returned : List Handle := []

namespace Journal

def note (j : Journal) : Arena.Call → Arena.Answer → Journal
  | .register _, .handle h => { j with kept := h :: j.kept }
  | .release h, .text (some _) => ⟨j.kept.erase h, h :: j.returned⟩
  | .releaseAll, .count _ => ⟨[], j.kept ++ j.returned⟩
  | _, _ => j

/-- The journal goes on with calls to a table. -/
def along (j : Journal) (a : Arena) : List Arena.Call → Journal
  | [] => j
  | c :: cs => (j.note c (a.call c).1).along (a.call c).2 cs

/-- How often slot `i` has been emptied. -/
def releases (j : Journal) (i : Nat) : Nat :=
  j.returned.countP (·.index.toNat = i)

theorem along_append (j : Journal) (a : Arena) (cs ds : List Arena.Call) :
    j.along a (cs ++ ds) = (j.along a cs).along (a.after cs) ds := by
  induction cs generalizing j a with
  | nil => rfl
  | cons c cs ih => exact ih (j.note c (a.call c).1) (a.call c).2

end Journal

namespace Arena

/-- The journal of calls to a table that starts empty. -/
def journal (cs : List Call) : Journal :=
  ({} : Journal).along {} cs

theorem journal_concat (cs : List Call) (c : Call) :
    journal (cs ++ [c]) = (journal cs).note c ((({} : Arena).after cs).call c).1 :=
  Journal.along_append {} {} cs [c]

/-- How many texts there were at one time or another. -/
def counts (cs : List Call) : Set Nat :=
  {n | ∃ past, past <+: cs ∧ n = (journal past).kept.length}

theorem counts_nil : counts [] = {0} := by
  ext n
  constructor
  · rintro ⟨past, hpast, hn⟩
    rw [List.prefix_nil.mp hpast] at hn
    exact hn
  · intro hn
    exact ⟨[], List.prefix_rfl, hn⟩

theorem counts_concat (cs : List Call) (c : Call) :
    counts (cs ++ [c]) = insert (journal (cs ++ [c])).kept.length (counts cs) := by
  ext n
  constructor
  · rintro ⟨past, hpast, hn⟩
    rcases List.prefix_concat_iff.mp hpast with rfl | hpast
    · exact Or.inl hn
    · exact Or.inr ⟨past, hpast, hn⟩
  · rintro (hn | ⟨past, hpast, hn⟩)
    · exact ⟨_, List.prefix_rfl, hn⟩
    · exact ⟨past, List.prefix_concat_iff.mpr (Or.inr hpast), hn⟩

theorem length_kept_note (j : Journal) (c : Call) (r : Answer) :
    (j.note c r).kept.length ≤ j.kept.length + if c.isRegister then 1 else 0 := by
  unfold Journal.note
  split
  · exact Nat.le_refl _
  · exact Nat.le_add_right_of_le List.length_erase_le
  · exact Nat.zero_le _
  · exact Nat.le_add_right _ _

theorem le_of_mem_counts {cs : List Call} {n : Nat} (hn : n ∈ counts cs) :
    n ≤ registrations cs := by
  induction cs using List.reverseRecOn generalizing n with
  | nil =>
    rw [counts_nil] at hn
    exact Nat.le_of_eq hn
  | append_singleton cs c ih =>
    rw [registrations_append, registrations_cons]
    rw [counts_concat, journal_concat] at hn
    rcases hn with rfl | hn
    · have hnote := length_kept_note (journal cs) c ((({} : Arena).after cs).call c).1
      have hbefore := ih ⟨cs, List.prefix_rfl, rfl⟩
      omega
    · exact Nat.le_add_right_of_le (ih hn)

/-- The journal knows every text of the table, and how often each slot has been emptied. -/
structure Tallies (j : Journal) (a : Arena) : Prop where
  sound : a.Sound
  nodup : j.kept.Nodup
  mem_kept (h : Handle) : h ∈ j.kept ↔ ∃ s, a.get? h = some s
  live : a.live = j.kept.length
  generation {i : Nat} {slot : Slot} (hi : a.slots[i]? = some slot) :
    slot.generation = .ofNat (j.releases i)
  returned_lt : ∀ h ∈ j.returned, h.index.toNat < a.slots.size

theorem tallies_empty : Tallies {} {} where
  sound := sound_empty
  nodup := List.nodup_nil
  mem_kept h := by simp [get?, slot?]
  live := rfl
  generation hi := by simp at hi
  returned_lt := nofun

namespace Tallies
variable {j : Journal} {a : Arena}

theorem releases_eq_zero (h : Tallies j a) {i : Nat} (hi : a.slots.size ≤ i) :
    j.releases i = 0 := by
  refine List.countP_eq_zero.mpr fun g hg => ?_
  have hlt := h.returned_lt g hg
  have hne : g.index.toNat ≠ i := by omega
  simpa using hne

/-- A slot with a text has one handle that is good, and an empty one has none. -/
theorem countP_kept (h : Tallies j a) {i : Nat} {slot : Slot} (hi : a.slots[i]? = some slot) :
    j.kept.countP (·.index.toNat = i) = if slot.value.isSome then 1 else 0 := by
  obtain ⟨g, v⟩ := slot
  have hlt := (Array.getElem?_eq_some_iff.mp hi).1
  have hto : (UInt32.ofNat i).toNat = i :=
    UInt32.toNat_ofNat_of_lt' (Nat.lt_of_lt_of_le hlt h.sound.size_le)
  -- A good handle into this slot has the generation of the slot.
  have hslot (k : Handle) (hk : k ∈ j.kept) (hindex : k.index.toNat = i) :
      k.generation = g ∧ v.isSome := by
    obtain ⟨s, hs⟩ := (h.mem_kept k).mp hk
    rw [get?_eq_some, hindex, hi] at hs
    cases hs
    exact ⟨rfl, rfl⟩
  cases v with
  | none =>
    refine List.countP_eq_zero.mpr fun k hk => ?_
    rw [decide_eq_true_iff]
    intro hindex
    cases (hslot k hk hindex).2
  | some s =>
    have hmem : (⟨.ofNat i, g⟩ : Handle) ∈ j.kept := by
      rw [h.mem_kept]
      exact ⟨s, get?_eq_some.mpr (hto.symm ▸ hi)⟩
    have hcongr : j.kept.countP (·.index.toNat = i) = j.kept.count ⟨.ofNat i, g⟩ := by
      refine List.countP_congr fun k hk => ?_
      rw [decide_eq_true_iff, beq_iff_eq]
      constructor
      · intro hindex
        have hnat : k.index = .ofNat i := UInt32.toNat_inj.mp (hindex.trans hto.symm)
        rw [← hnat, ← (hslot k hk hindex).1]
      · intro hk
        rw [hk]
        exact hto
    rw [hcongr, List.count_eq_one_of_mem h.nodup hmem]
    rfl

theorem register (h : Tallies j a) (room : a.live < UInt32.size) (s : String) :
    Tallies { j with kept := (a.register s).1 :: j.kept } (a.register s).2 := by
  have hslots := register_slots h.sound room s
  have hget := get?_register h.sound room s
  have hsize := size_register h.sound s
  constructor
  · exact sound_register h.sound room s
  · refine List.nodup_cons.mpr ⟨fun hmem => ?_, h.nodup⟩
    obtain ⟨t, ht⟩ := (h.mem_kept _).mp hmem
    rw [get?_register_fresh h.sound room s] at ht
    cases ht
  · intro k
    rw [List.mem_cons, hget, h.mem_kept]
    by_cases hk : k = (a.register s).1 <;> simp [hk]
  · rw [live_register, h.live, List.length_cons]
  · intro i slot hi
    rw [hslots] at hi
    split at hi
    · next hindex =>
      obtain rfl := Option.some.inj hi
      show (a.register s).1.generation = .ofNat (j.releases i)
      rcases register_slot_free h.sound room s with ⟨hlast, -, hzero⟩ | ⟨f, rest, -, hf, hold⟩
      · rw [hzero, h.releases_eq_zero (by omega)]
        rfl
      · rw [hindex, hf]
        exact h.generation hold
    · exact h.generation hi
  · intro k hk
    have hlt := h.returned_lt k hk
    omega

theorem without (h : Tallies j a) {g : Handle} {s : String} (hs : a.get? g = some s) :
    Tallies ⟨j.kept.erase g, g :: j.returned⟩ (a.without g) := by
  have hmem : g ∈ j.kept := (h.mem_kept g).mpr ⟨s, hs⟩
  have hslots := without_slots hs
  have hlive := live_without h.sound hs
  have hgood := get?_eq_some.mp hs
  have hreleases (i : Nat) : (⟨j.kept.erase g, g :: j.returned⟩ : Journal).releases i =
      j.releases i + if g.index.toNat = i then 1 else 0 := by
    simp [Journal.releases, List.countP_cons]
  constructor
  · exact sound_without h.sound hs
  · exact h.nodup.erase g
  · intro k
    rw [h.nodup.mem_erase_iff, h.mem_kept, get?_without hs]
    by_cases hk : k = g <;> simp [hk]
  · have hcount := h.live
    have hpos := List.length_pos_of_mem hmem
    rw [List.length_erase_of_mem hmem]
    omega
  · intro i slot hi
    rw [hslots] at hi
    rw [hreleases]
    split at hi
    · next hindex =>
      obtain rfl := Option.some.inj hi
      rw [if_pos hindex.symm, hindex, UInt32.ofNat_add, ← h.generation hgood]
      rfl
    · next hindex =>
      rw [if_neg (Ne.symm hindex)]
      exact h.generation hi
  · intro k hk
    rw [size_without]
    rcases List.mem_cons.mp hk with rfl | hk
    · exact (Array.getElem?_eq_some_iff.mp hgood).1
    · exact h.returned_lt k hk

theorem releaseAll (h : Tallies j a) :
    Tallies ⟨[], j.kept ++ j.returned⟩ a.releaseAll.2 := by
  have hslots : a.releaseAll.2.slots = a.slots.map Slot.vacate := rfl
  constructor
  · exact sound_releaseAll h.sound
  · exact List.nodup_nil
  · intro k
    simp [get?_releaseAll]
  · rfl
  · intro i slot hi
    rw [hslots, Array.getElem?_map] at hi
    obtain ⟨old, hold, rfl⟩ := Option.map_eq_some_iff.mp hi
    have hreleases : (⟨[], j.kept ++ j.returned⟩ : Journal).releases i =
        (if old.value.isSome then 1 else 0) + j.releases i := by
      rw [← h.countP_kept hold]
      exact List.countP_append
    rw [hreleases, UInt32.ofNat_add, ← h.generation hold, UInt32.add_comm]
    unfold Slot.vacate
    split
    · rfl
    · exact (UInt32.add_zero _).symm
  · intro k hk
    rw [size_releaseAll]
    rcases List.mem_append.mp hk with hk | hk
    · obtain ⟨s, hs⟩ := (h.mem_kept k).mp hk
      exact (Array.getElem?_eq_some_iff.mp (get?_eq_some.mp hs)).1
    · exact h.returned_lt k hk

/-- One call keeps the books right, if there is an index for each text that is kept then. -/
theorem call (h : Tallies j a) (c : Call)
    (room : (j.note c (a.call c).1).kept.length ≤ UInt32.size) :
    Tallies (j.note c (a.call c).1) (a.call c).2 := by
  cases c with
  | register s =>
    have hlt : j.kept.length < UInt32.size := room
    exact h.register (h.live ▸ hlt) s
  | get g => exact h
  | release g =>
    cases hs : a.get? g with
    | none =>
      rw [call_release_none hs]
      exact h
    | some s =>
      rw [call_release_some hs]
      exact h.without hs
  | releaseAll => exact h.releaseAll

end Tallies

theorem countP_toList {α : Type} (p : α → Bool) (l : List α) :
    l.countP p = ((List.range l.length).filter fun i => l[i]?.any p).length := by
  induction l with
  | nil => rfl
  | cons x l ih =>
    rw [List.length_cons, List.range_succ_eq_map, List.filter_cons, List.filter_map,
      List.countP_cons, ih]
    cases hx : p x <;> simp [hx, Function.comp_def]

/-- A table has no more slots than it had, or than it holds texts. -/
theorem size_call {a : Arena} (ha : a.Sound) (c : Call) :
    (a.call c).2.slots.size = max (a.call c).2.live a.slots.size := by
  have hcount := ha.live_add
  cases c with
  | register s =>
    show (a.register s).2.slots.size = max (a.register s).2.live a.slots.size
    rw [size_register ha, live_register, Nat.max_comm]
  | get h =>
    show a.slots.size = max a.live a.slots.size
    omega
  | release h =>
    cases hs : a.get? h with
    | none =>
      rw [call_release_none hs]
      show a.slots.size = max a.live a.slots.size
      omega
    | some s =>
      have hlive := live_without ha hs
      rw [call_release_some hs]
      show (a.without h).slots.size = max (a.without h).live a.slots.size
      rw [size_without]
      omega
  | releaseAll => exact (size_releaseAll a).trans (Nat.zero_max _).symm

/-- As long as the texts never number more than the indices, the journal tallies, and the largest
number of texts so far is the number of slots. -/
theorem tallies_after (cs : List Call) (hroom : ∀ n ∈ counts cs, n ≤ UInt32.size) :
    Tallies (journal cs) (({} : Arena).after cs) ∧
      IsGreatest (counts cs) (({} : Arena).after cs).slots.size := by
  induction cs using List.reverseRecOn with
  | nil => exact ⟨tallies_empty, counts_nil ▸ isGreatest_singleton⟩
  | append_singleton cs c ih =>
    rw [counts_concat, journal_concat] at *
    obtain ⟨htallies, hpeak⟩ := ih fun n hn => hroom n (Or.inr hn)
    have hcall := htallies.call c (hroom _ (Or.inl rfl))
    have hsize := size_call htallies.sound c
    rw [hcall.live] at hsize
    rw [after_append, after_cons, after_nil, hsize]
    exact ⟨hcall, hpeak.insert _⟩

namespace Sound
variable {a : Arena}

/-- As numbers, the entries of the free list are the positions of the empty slots. -/
theorem exists_free (ha : a.Sound) (i : Nat) : (∃ j ∈ a.free, j.toNat = i) ↔ a.Vacant i := by
  constructor
  · rintro ⟨j, hj, rfl⟩
    exact (ha.mem_free j).mp hj
  · intro hi
    have hlt := Nat.lt_of_lt_of_le hi.lt_size ha.size_le
    have hto : (UInt32.ofNat i).toNat = i := UInt32.toNat_ofNat_of_lt' hlt
    exact ⟨.ofNat i, (ha.mem_free _).mpr (hto.symm ▸ hi), hto⟩

theorem length_free (ha : a.Sound) : a.free.length = a.slots.countP (¬·.value.isSome) := by
  have hperm : (a.free.map UInt32.toNat).Perm
      ((List.range a.slots.size).filter fun i => a.slots[i]?.any (¬·.value.isSome)) := by
    refine (List.perm_ext_iff_of_nodup (ha.nodup.map fun _ _ => UInt32.toNat_inj.mp)
      (List.nodup_range.filter _)).mpr fun i => ?_
    rw [List.mem_map, ha.exists_free, List.mem_filter, List.mem_range]
    constructor
    · intro hi
      have hlt := hi.lt_size
      obtain ⟨g, hg⟩ := hi
      exact ⟨hlt, by rw [hg]; rfl⟩
    · rintro ⟨hi, hnone⟩
      rw [Array.getElem?_eq_getElem hi] at hnone
      refine ⟨a.slots[i].generation, ?_⟩
      rw [Array.getElem?_eq_getElem hi]
      cases hslot : a.slots[i] with
      | mk g v => cases v <;> simp [hslot] at hnone ⊢
  have hcountP := countP_toList (¬·.value.isSome) a.slots.toList
  rw [Array.countP_toList] at hcountP
  simp only [Array.getElem?_toList, a.slots.length_toList] at hcountP
  have hlength := hperm.length_eq
  rwa [List.length_map, ← hcountP] at hlength

theorem live_eq_countP (ha : a.Sound) : a.live = a.slots.countP (·.value.isSome) := by
  have hcount := ha.live_add
  have hsplit : a.slots.size =
      a.slots.countP (·.value.isSome) + a.slots.countP (¬·.value.isSome) :=
    Array.size_eq_countP_add_countP
  have hfree := ha.length_free
  omega

end Sound

/-- The books are in order after the calls `past`. -/
structure Balanced (past : List Call) (a : Arena) : Prop where
  nodup : a.free.Nodup
  mem_free (i : Nat) : (∃ j ∈ a.free, j.toNat = i) ↔ a.Vacant i
  live : a.live = a.slots.countP (·.value.isSome)
  live_kept : a.live = (journal past).kept.length
  live_add : a.live + a.free.length = a.slots.size
  generation {i : Nat} {slot : Slot} (hi : a.slots[i]? = some slot) :
    slot.generation.toNat = (journal past).releases i % UInt32.size
  peak : IsGreatest (counts past) a.slots.size
  live_pos (h : Handle) (hh : (a.release? h).isSome = true) : 0 < a.live

/-- While there are never more texts than indices, the books are in order after every call: the free
list has each empty slot once, the count is that of the occupied ones, a slot's generation says how
often it has been emptied, and there are as many slots as there were ever texts at one time. -/
theorem balanced (cs : List Call) (hroom : ∀ n ∈ counts cs, n ≤ UInt32.size) (past : List Call)
    (hpast : past <+: cs) : Balanced past (({} : Arena).after past) := by
  have hearlier : ∀ n ∈ counts past, n ≤ UInt32.size := by
    rintro n ⟨earlier, hearlier, hn⟩
    exact hroom n ⟨earlier, hearlier.trans hpast, hn⟩
  obtain ⟨htallies, hpeak⟩ := tallies_after past hearlier
  constructor
  · exact htallies.sound.nodup
  · exact htallies.sound.exists_free
  · exact htallies.sound.live_eq_countP
  · exact htallies.live
  · exact htallies.sound.live_add
  · intro i slot hi
    rw [htallies.generation hi]
    exact UInt32.toNat_ofNat'
  · exact hpeak
  · intro h hh
    cases hs : (({} : Arena).after past).get? h with
    | none =>
      rw [release?_eq_none hs] at hh
      cases hh
    | some s => exact live_pos htallies.sound hs

/-- The first of two slots is emptied by itself and again along with the other one. -/
theorem balanced_two_slots :
    (∀ n ∈ counts [.register "a", .register "b", .release ⟨0, 0⟩, .register "c", .releaseAll],
      n ≤ UInt32.size) ∧
    IsGreatest (counts [.register "a", .register "b", .release ⟨0, 0⟩, .register "c", .releaseAll])
      2 ∧
    2 = (journal [.register "a", .register "b", .release ⟨0, 0⟩, .register "c",
      .releaseAll]).releases 0 % UInt32.size := by
  have hroom : ∀ n ∈ counts [.register "a", .register "b", .release ⟨0, 0⟩, .register "c",
      .releaseAll], n ≤ UInt32.size := fun n hn => Nat.le_trans (le_of_mem_counts hn) (by decide)
  have hslots : (({} : Arena).after [.register "a", .register "b", .release ⟨0, 0⟩, .register "c",
      .releaseAll]).slots = #[⟨2, none⟩, ⟨1, none⟩] := by decide +kernel
  have hslot : (({} : Arena).after [.register "a", .register "b", .release ⟨0, 0⟩, .register "c",
      .releaseAll]).slots[0]? = some ⟨2, none⟩ := by rw [hslots]; rfl
  have hbalanced := balanced _ hroom _ List.prefix_rfl
  have hpeak := hbalanced.peak
  rw [hslots] at hpeak
  exact ⟨hroom, hpeak, hbalanced.generation hslot⟩

end Arena
end XPath
