import Mathlib.Data.List.Nodup
import XPath.Proofs.Arena.Calls

/-! The table of texts against a plain map that never uses a handle again. The two cannot be told
apart until a slot's count of generations has gone around once. -/
namespace XPath

/-- A finite map from handles to texts that remembers every handle it has ever given out. -/
structure Ledger where
  issued : List Handle := []
  kept : List (Handle × String) := []

namespace Ledger

def text? (l : Ledger) (h : Handle) : Option String :=
  l.kept.lookup h

def without (l : Ledger) (h : Handle) : Ledger :=
  { l with kept := l.kept.filter (·.1 ≠ h) }

/-- One call of such a map. Any handle will do for a new text, if it is new as well. -/
inductive Step : Ledger → Arena.Call → Arena.Answer → Ledger → Prop
  | register {l : Ledger} {h : Handle} (s : String) (fresh : h ∉ l.issued) :
      Step l (.register s) (.handle h) ⟨h :: l.issued, (h, s) :: l.kept⟩
  | get (l : Ledger) (h : Handle) : Step l (.get h) (.text (l.text? h)) l
  | release {l : Ledger} {h : Handle} {s : String} (hs : l.text? h = some s) :
      Step l (.release h) (.text (some s)) (l.without h)
  | refuse {l : Ledger} {h : Handle} (hs : l.text? h = none) : Step l (.release h) (.text none) l
  | releaseAll (l : Ledger) : Step l .releaseAll (.count l.kept.length) { l with kept := [] }

inductive Run : Ledger → List Arena.Call → List Arena.Answer → Ledger → Prop
  | nil (l : Ledger) : Run l [] [] l
  | cons {l m n : Ledger} {c : Arena.Call} {r : Arena.Answer} {cs : List Arena.Call}
      {rs : List Arena.Answer} (h : Step l c r m) (hs : Run m cs rs n) : Run l (c :: cs) (r :: rs) n

/-- How many handles into slot `i` have been given out. -/
def times (l : Ledger) (i : Nat) : Nat :=
  l.issued.countP (·.index.toNat = i)

theorem times_le (l : Ledger) (i : Nat) : l.times i ≤ l.issued.length :=
  List.countP_le_length

theorem text?_cons (l : Ledger) (h k : Handle) (s : String) (issued : List Handle) :
    (⟨issued, (h, s) :: l.kept⟩ : Ledger).text? k = if k = h then some s else l.text? k := by
  unfold text?
  rw [List.lookup_cons]
  by_cases hk : k = h
  · rw [if_pos hk, hk, beq_self_eq_true]
  · rw [if_neg hk, beq_false_of_ne hk]

theorem text?_without (l : Ledger) (h k : Handle) :
    (l.without h).text? k = if k = h then none else l.text? k := by
  unfold text? without
  dsimp only
  induction l.kept with
  | nil => simp
  | cons p kept ih =>
    obtain ⟨g, s⟩ := p
    by_cases hg : g = h
    · rw [List.filter_cons_of_neg (by simpa using hg), ih, List.lookup_cons, hg]
      by_cases hk : k = h
      · rw [if_pos hk, if_pos hk]
      · rw [if_neg hk, if_neg hk, beq_false_of_ne hk]
    · rw [List.filter_cons_of_pos (by simpa using hg), List.lookup_cons, ih, List.lookup_cons]
      by_cases hk : k = g
      · simp [hk, hg]
      · rw [beq_false_of_ne hk]

theorem notMem_keys {l : Ledger} {h : Handle} (hs : l.text? h = none) :
    h ∉ l.kept.map Prod.fst := by
  intro hmem
  obtain ⟨p, hp, hk⟩ := List.mem_map.mp hmem
  have hne := List.lookup_eq_none_iff.mp hs p hp
  simp [hk] at hne

theorem mem_keys {l : Ledger} {h : Handle} {s : String} (hs : l.text? h = some s) :
    h ∈ l.kept.map Prod.fst := by
  by_contra hnot
  have hnone : l.text? h = none := by
    refine List.lookup_eq_none_iff.mpr fun p hp => ?_
    have hne : h ≠ p.1 := fun he => hnot (List.mem_map.mpr ⟨p, hp, he.symm⟩)
    simpa using hne
  rw [hnone] at hs
  cases hs

theorem text?_eq_some {l : Ledger} (hn : (l.kept.map Prod.fst).Nodup) {h : Handle} {s : String} :
    l.text? h = some s ↔ (h, s) ∈ l.kept := by
  constructor
  · intro hs
    obtain ⟨before, after, hkept, -⟩ := List.lookup_eq_some_iff.mp hs
    rw [hkept]
    exact List.mem_append_right before List.mem_cons_self
  · intro hmem
    obtain ⟨before, after, hkept⟩ := List.append_of_mem hmem
    refine List.lookup_eq_some_iff.mpr ⟨before, after, hkept, fun p hp => ?_⟩
    rw [hkept, List.map_append, List.map_cons] at hn
    have hdisjoint := (List.nodup_append.mp hn).2.2 p.1 (List.mem_map_of_mem hp) h
    have hne : p.1 ≠ h := hdisjoint List.mem_cons_self
    simpa using Ne.symm hne

theorem length_without {l : Ledger} {h : Handle} (hn : (l.kept.map Prod.fst).Nodup)
    (hk : h ∈ l.kept.map Prod.fst) : (l.without h).kept.length + 1 = l.kept.length := by
  have hsplit := List.length_eq_length_filter_add (l := l.kept) (fun p => decide (p.1 ≠ h))
  have hone : (l.kept.filter fun p => !decide (p.1 ≠ h)).length = 1 := by
    have hcount : (l.kept.map Prod.fst).count h = 1 := List.count_eq_one_of_mem hn hk
    rw [List.count, List.countP_map, List.countP_eq_length_filter] at hcount
    rw [← hcount]
    congr 1
    refine List.filter_congr fun p _ => ?_
    by_cases hp : p.1 = h <;> simp [hp]
  unfold without
  dsimp only
  omega

end Ledger

namespace Arena

/-- The number of texts that have come into a slot of that generation. -/
def Slot.Served (slot : Slot) (n : Nat) : Prop :=
  ∃ k, slot.generation = .ofNat k ∧ n = if slot.value.isSome then k + 1 else k

theorem Slot.Served.vacate {slot : Slot} {n : Nat} (h : slot.Served n) : slot.vacate.Served n := by
  obtain ⟨k, hg, hn⟩ := h
  unfold Slot.vacate
  cases hv : slot.value with
  | none => exact ⟨k, by simpa [hv] using hg, by simpa [hv] using hn⟩
  | some s =>
    refine ⟨k + 1, ?_, by simpa [hv] using hn⟩
    simp [hg, UInt32.ofNat_add]

/-- The table and the ledger hold the same texts, and the ledger knows how often each slot has been
used. -/
structure Tracks (l : Ledger) (a : Arena) : Prop where
  sound : a.Sound
  get (h : Handle) : a.get? h = l.text? h
  live : a.live = l.kept.length
  live_le : a.live ≤ l.issued.length
  nodup : (l.kept.map Prod.fst).Nodup
  served {i : Nat} {slot : Slot} (hi : a.slots[i]? = some slot) : slot.Served (l.times i)
  index_lt : ∀ h ∈ l.issued, h.index.toNat < a.slots.size
  issued : ∀ h ∈ l.issued, ∃ k < l.times h.index.toNat, h.generation = .ofNat k

theorem tracks_empty : Tracks {} {} where
  sound := sound_empty
  get _ := rfl
  live := rfl
  live_le := Nat.le_refl 0
  nodup := List.nodup_nil
  served hi := by simp at hi
  index_lt := by simp
  issued := by simp

namespace Tracks
variable {l : Ledger} {a : Arena}

theorem times_eq_zero (h : Tracks l a) {i : Nat} (hi : a.slots.size ≤ i) : l.times i = 0 := by
  refine List.countP_eq_zero.mpr fun g hg => ?_
  have hlt := h.index_lt g hg
  have hne : g.index.toNat ≠ i := by omega
  simpa using hne

/-- The generation of a new handle says how many handles into its slot there have been. -/
theorem generation_register (h : Tracks l a) (room : a.live < UInt32.size) (s : String) :
    (a.register s).1.generation = .ofNat (l.times (a.register s).1.index.toNat) := by
  rcases register_slot_free h.sound room s with ⟨hi, -, hg⟩ | ⟨i, rest, -, hi, hslot⟩
  · rw [hg, hi, h.times_eq_zero (Nat.le_refl _)]
    rfl
  · obtain ⟨k, hk, htimes⟩ := h.served hslot
    rw [hi, htimes]
    exact hk

/-- No slot has come to its generation before, as long as the count has not gone around. -/
theorem register_fresh (h : Tracks l a) (hl : l.issued.length < UInt32.size) (s : String) :
    (a.register s).1 ∉ l.issued := by
  intro hmem
  have room : a.live < UInt32.size := Nat.lt_of_le_of_lt h.live_le hl
  have hgeneration := h.generation_register room s
  obtain ⟨k, hk, hg⟩ := h.issued _ hmem
  have htimes := l.times_le (a.register s).1.index.toNat
  have hsame : UInt32.ofNat k = .ofNat (l.times (a.register s).1.index.toNat) := by
    rw [← hg, ← hgeneration]
  have heq := congrArg UInt32.toNat hsame
  rw [UInt32.toNat_ofNat_of_lt' (by omega), UInt32.toNat_ofNat_of_lt' (by omega)] at heq
  omega

theorem register (h : Tracks l a) (hl : l.issued.length < UInt32.size) (s : String) :
    Tracks ⟨(a.register s).1 :: l.issued, ((a.register s).1, s) :: l.kept⟩ (a.register s).2 := by
  have room : a.live < UInt32.size := Nat.lt_of_le_of_lt h.live_le hl
  have hslots := register_slots h.sound room s
  have hlive := live_register a s
  have hsize := size_register h.sound s
  have hgeneration := h.generation_register room s
  have hfresh := get?_register_fresh h.sound room s
  have hcount := h.live
  have hle := h.live_le
  have htimes (i : Nat) : (⟨(a.register s).1 :: l.issued, ((a.register s).1, s) :: l.kept⟩ :
      Ledger).times i = l.times i + if (a.register s).1.index.toNat = i then 1 else 0 := by
    simp [Ledger.times, List.countP_cons]
  have hindex : (a.register s).1.index.toNat < (a.register s).2.slots.size := by
    have hself := hslots (a.register s).1.index.toNat
    rw [if_pos rfl] at hself
    exact (Array.getElem?_eq_some_iff.mp hself).1
  constructor
  · exact sound_register h.sound room s
  · intro g
    rw [get?_register h.sound room s, Ledger.text?_cons, h.get]
  · rw [List.length_cons]
    omega
  · rw [List.length_cons]
    omega
  · rw [h.get] at hfresh
    exact List.nodup_cons.mpr ⟨Ledger.notMem_keys hfresh, h.nodup⟩
  · intro i slot hi
    rw [hslots] at hi
    rw [htimes]
    by_cases hj : i = (a.register s).1.index.toNat
    · rw [if_pos hj] at hi
      obtain rfl := Option.some.inj hi
      refine ⟨_, hgeneration, ?_⟩
      rw [if_pos hj.symm, hj]
      rfl
    · rw [if_neg hj] at hi
      rw [if_neg (Ne.symm hj)]
      exact h.served hi
  · intro g hg
    rcases List.mem_cons.mp hg with rfl | hg
    · exact hindex
    · have hlt := h.index_lt g hg
      omega
  · intro g hg
    rw [htimes]
    rcases List.mem_cons.mp hg with rfl | hg
    · rw [if_pos rfl]
      exact ⟨_, Nat.lt_succ_self _, hgeneration⟩
    · obtain ⟨k, hk, hgk⟩ := h.issued g hg
      exact ⟨k, Nat.lt_of_lt_of_le hk (Nat.le_add_right _ _), hgk⟩

theorem without (h : Tracks l a) {g : Handle} {s : String} (hs : a.get? g = some s) :
    Tracks (l.without g) (a.without g) := by
  have hslots := without_slots hs
  have hlive := live_without h.sound hs
  have hsize := size_without a g
  have hcount := h.live
  have hle := h.live_le
  have htext : l.text? g = some s := (h.get g).symm.trans hs
  have hlength := Ledger.length_without h.nodup (Ledger.mem_keys htext)
  constructor
  · exact sound_without h.sound hs
  · intro k
    rw [get?_without hs, Ledger.text?_without, h.get]
  · omega
  · have hissued : (l.without g).issued = l.issued := rfl
    rw [hissued]
    omega
  · exact h.nodup.sublist (List.filter_sublist.map Prod.fst)
  · intro i slot hi
    rw [hslots] at hi
    by_cases hj : i = g.index.toNat
    · rw [if_pos hj] at hi
      obtain rfl := Option.some.inj hi
      have hserved := (h.served (get?_eq_some.mp hs)).vacate
      rw [hj]
      exact hserved
    · rw [if_neg hj] at hi
      exact h.served hi
  · intro k hk
    rw [hsize]
    exact h.index_lt k hk
  · exact h.issued

theorem releaseAll (h : Tracks l a) : Tracks { l with kept := [] } a.releaseAll.2 := by
  have hslots : a.releaseAll.2.slots = a.slots.map Slot.vacate := rfl
  constructor
  · exact sound_releaseAll h.sound
  · intro k
    rw [get?_releaseAll]
    rfl
  · rfl
  · exact Nat.zero_le _
  · exact List.nodup_nil
  · intro i slot hi
    rw [hslots, Array.getElem?_map] at hi
    obtain ⟨old, hold, rfl⟩ := Option.map_eq_some_iff.mp hi
    exact (h.served hold).vacate
  · intro k hk
    rw [size_releaseAll]
    exact h.index_lt k hk
  · exact h.issued

/-- A call of the table is a call of the ledger with the same answer. -/
theorem call (h : Tracks l a) (c : Call)
    (hl : l.issued.length + (if c.isRegister then 1 else 0) ≤ UInt32.size) :
    ∃ m, l.Step c (a.call c).1 m ∧ Tracks m (a.call c).2 ∧
      m.issued.length = l.issued.length + if c.isRegister then 1 else 0 := by
  cases c with
  | register s =>
    have hlt : l.issued.length < UInt32.size := hl
    exact ⟨_, .register s (h.register_fresh hlt s), h.register hlt s, rfl⟩
  | get g =>
    refine ⟨l, ?_, h, rfl⟩
    have hstep := Ledger.Step.get l g
    rw [← h.get] at hstep
    exact hstep
  | release g =>
    cases hs : a.get? g with
    | none =>
      have htext : l.text? g = none := (h.get g).symm.trans hs
      rw [call_release_none hs]
      exact ⟨l, .refuse htext, h, rfl⟩
    | some s =>
      have htext : l.text? g = some s := (h.get g).symm.trans hs
      rw [call_release_some hs]
      exact ⟨l.without g, .release htext, h.without hs, rfl⟩
  | releaseAll =>
    refine ⟨{ l with kept := [] }, ?_, h.releaseAll, rfl⟩
    have hstep := Ledger.Step.releaseAll l
    rw [← h.live] at hstep
    exact hstep

/-- A course of calls of the table is one of the ledger with the same answers. -/
theorem run (h : Tracks l a) (cs : List Call)
    (hl : l.issued.length + registrations cs ≤ UInt32.size) :
    ∃ m, l.Run cs (a.answers cs) m ∧ Tracks m (a.after cs) := by
  induction cs generalizing l a with
  | nil => exact ⟨l, .nil l, h⟩
  | cons c cs ih =>
    rw [registrations_cons] at hl
    obtain ⟨m, hstep, hm, hlength⟩ := h.call c (by omega)
    obtain ⟨n, hrun, hn⟩ := ih hm (by omega)
    exact ⟨n, .cons hstep hrun, hn⟩

end Tracks

/-! One more text than there are generations. -/

/-- A table with a single slot, which is empty. -/
private def vacant (g : UInt32) : Arena :=
  ⟨#[⟨g, none⟩], [0], 0⟩

/-- Puts a text into the first slot and takes it out again, `n` times from generation `g` on. -/
private def rounds (g : UInt32) : Nat → List Call
  | 0 => []
  | n + 1 => .register "old" :: .release ⟨0, g⟩ :: rounds (g + 1) n

private theorem registrations_rounds (g : UInt32) (n : Nat) : registrations (rounds g n) = n := by
  induction n generalizing g with
  | zero => rfl
  | succ n ih =>
    unfold rounds
    rw [registrations_cons, registrations_cons, ih]
    rfl

private theorem get?_register_vacant (g : UInt32) (s : String) :
    ((vacant g).register s).2.get? ⟨0, g⟩ = some s :=
  get?_eq_some.mpr rfl

private theorem after_round (g : UInt32) :
    (((vacant g).call (.register "old")).2.call (.release ⟨0, g⟩)).2 = vacant (g + 1) := by
  have hget := get?_register_vacant g "old"
  have hregister : ((vacant g).call (.register "old")).2 = ((vacant g).register "old").2 := rfl
  rw [hregister, call_release_some hget]
  rfl

private theorem after_rounds (g : UInt32) (n : Nat) :
    (vacant g).after (rounds g n) = vacant (g + .ofNat n) := by
  induction n generalizing g with
  | zero => simp [rounds]
  | succ n ih =>
    have hsum : g + 1 + UInt32.ofNat n = g + UInt32.ofNat (n + 1) := by
      rw [UInt32.ofNat_add, UInt32.ofNat_one, UInt32.add_assoc, UInt32.add_comm 1]
    unfold rounds
    rw [after_cons, after_cons, after_round, ih, hsum]

/-- With as many texts as a slot has generations, its first handle is good again. -/
private theorem handle_reused : ∃ (past rest : List Call) (h : Handle) (s s' : String),
    registrations (past ++ .release h :: rest) = UInt32.size + 1 ∧ s ≠ s' ∧
      ((({} : Arena).after past).call (.release h)).1 = .text (some s) ∧
      ((({} : Arena).after (past ++ .release h :: rest)).call (.release h)).1 =
        .text (some s') := by
  obtain ⟨n, hn⟩ : ∃ n, n + 1 = UInt32.size := ⟨4294967295, rfl⟩
  have hwrap : (1 : UInt32) + .ofNat n = 0 := by
    obtain rfl : n = 4294967295 := Nat.succ.inj hn
    decide
  have hafter : ({} : Arena).after ([.register "old"] ++ .release ⟨0, 0⟩ ::
      (rounds 1 n ++ [.register "new"])) = ((vacant 0).register "new").2 := by
    have hfirst : ({} : Arena).after [.register "old", .release ⟨0, 0⟩] = vacant 1 := rfl
    have hsplit : [.register "old"] ++ .release ⟨0, 0⟩ :: (rounds 1 n ++ [.register "new"]) =
        [.register "old", .release ⟨0, 0⟩] ++ rounds 1 n ++ [.register "new"] := by simp
    rw [hsplit, after_append, after_append, hfirst, after_rounds, hwrap]
    rfl
  have hget := get?_register_vacant 0 "new"
  refine ⟨[.register "old"], rounds 1 n ++ [.register "new"], ⟨0, 0⟩, "old", "new", ?_, ?_, rfl, ?_⟩
  · have hcount := registrations_rounds 1 n
    simp only [registrations_append, registrations_cons, hcount, ← hn]
    change 0 + 1 + (n + (0 + 1) + 0) = n + 1 + 1
    omega
  · decide
  · rw [hafter, call_release_some hget]

/-- For as many texts as a slot has generations, whatever is done in between, the table answers as a
map that never gives out a handle twice, and ends with the same texts. With one text more, a handle
that had been given up can be good again, and for another text. -/
theorem refines_ledger :
    (∀ cs : List Call, registrations cs ≤ UInt32.size →
      ∃ l : Ledger, Ledger.Run {} cs (({} : Arena).answers cs) l ∧
        (∀ h, (({} : Arena).after cs).get? h = l.text? h) ∧
        (l.kept.map Prod.fst).Nodup ∧
        (({} : Arena).after cs).live = l.kept.length ∧
        ((({} : Arena).after cs).isEmpty = true ↔ l.kept = []) ∧
        ∀ h, l.text? h = none →
          (({} : Arena).after cs).call (.release h) = (.text none, ({} : Arena).after cs)) ∧
    ∃ (past rest : List Call) (h : Handle) (s s' : String),
      registrations (past ++ .release h :: rest) = UInt32.size + 1 ∧ s ≠ s' ∧
        ((({} : Arena).after past).call (.release h)).1 = .text (some s) ∧
        ((({} : Arena).after (past ++ .release h :: rest)).call (.release h)).1 =
          .text (some s') := by
  refine ⟨fun cs hcs => ?_, handle_reused⟩
  have hroom : ({} : Ledger).issued.length + registrations cs ≤ UInt32.size := by
    simpa using hcs
  obtain ⟨l, hrun, htracks⟩ := tracks_empty.run cs hroom
  refine ⟨l, hrun, htracks.get, htracks.nodup, htracks.live, ?_, fun h hnone => ?_⟩
  · rw [isEmpty, beq_iff_eq, htracks.live, List.length_eq_zero_iff]
  · exact call_release_none ((htracks.get h).trans hnone)

/-- The slot of a text that was taken out serves again, under another handle. -/
theorem refines_ledger_second_text :
    registrations [.register "a", .release ⟨0, 0⟩, .register "b", .get ⟨0, 0⟩] ≤ UInt32.size ∧
      ∃ l : Ledger, Ledger.Run {} [.register "a", .release ⟨0, 0⟩, .register "b", .get ⟨0, 0⟩]
        [.handle ⟨0, 0⟩, .text (some "a"), .handle ⟨0, 1⟩, .text none] l ∧
        l.text? ⟨0, 1⟩ = some "b" ∧ l.kept.length = 1 := by
  have hcs : registrations [.register "a", .release ⟨0, 0⟩, .register "b", .get ⟨0, 0⟩] ≤
      UInt32.size := by decide
  obtain ⟨l, hrun, hget, -, hlive, -⟩ := refines_ledger.1 _ hcs
  exact ⟨hcs, l, hrun, (hget ⟨0, 1⟩).symm, hlive.symm⟩

end Arena
end XPath
