import XPath.Proofs.Arena.Ledger
import XPath.Proofs.Deeds

/-! The texts a grammar has at its disposal: those of the tokens it has pulled, less those it has
taken. Nothing else can be in a table that was empty before, and no handle from before is good. -/
namespace XPath

/-- A take succeeds if and only if a token was pulled with that handle and its text has not been
taken since, and then with that text. -/
def Deed.Answered (ds : List Deed) : Prop :=
  ∀ earlier h answer later, ds = earlier ++ .took h answer :: later →
    ∀ s, answer = .ok s ↔ (h, s) ∈ registered earlier ∧ (h, s) ∉ released earlier

theorem Deed.Answered.snoc {ds : List Deed} {d : Deed} (h : Answered ds)
    (hd : ∀ g answer, d = .took g answer →
      ∀ s, answer = .ok s ↔ (g, s) ∈ registered ds ∧ (g, s) ∉ released ds) :
    Answered (ds ++ [d]) := by
  intro earlier g answer later hsplit
  rcases List.eq_nil_or_concat later with rfl | ⟨later, last, rfl⟩
  · obtain ⟨rfl, hlast⟩ := List.append_inj' hsplit rfl
    exact hd g answer (List.cons.inj hlast).1
  · have hassoc : ds ++ [d] = (earlier ++ .took g answer :: later) ++ [last] := by
      rw [hsplit, List.concat_eq_append, List.append_assoc, List.cons_append]
    exact h earlier g answer later (List.append_inj' hassoc rfl).1

/-- The table, as the ledger shows it, after deeds that began with an empty one. -/
structure Stock (l : Ledger) (a : Arena) (ds : List Deed) : Prop where
  tracks : Arena.Tracks l a
  mem_kept (p : Handle × String) :
    p ∈ l.kept ↔ p ∈ Deed.registered ds ∧ p ∉ Deed.released ds
  issued : ∀ p ∈ Deed.registered ds, p.1 ∈ l.issued
  released : ∀ p ∈ Deed.released ds, p ∈ Deed.registered ds
  length_eq : (Deed.registered ds).length = (Deed.released ds).length + l.kept.length
  answered : Deed.Answered ds

namespace Stock
variable {l : Ledger} {a : Arena} {ds : List Deed}

theorem empty (h : Arena.Tracks l a) : Stock { l with kept := [] } a.releaseAll.2 [] := by
  constructor
  · exact h.releaseAll
  · intro p
    exact ⟨fun hp => absurd hp List.not_mem_nil, fun hp => absurd hp.1 List.not_mem_nil⟩
  · exact fun p hp => absurd hp List.not_mem_nil
  · exact fun p hp => absurd hp List.not_mem_nil
  · rfl
  · intro earlier h answer later hsplit
    exact absurd hsplit.symm (List.append_ne_nil_of_right_ne_nil _ (List.cons_ne_nil _ _))

/-- A deed that changes nothing in the table. -/
theorem idle (h : Stock l a ds) {d : Deed} (hregistered : Deed.registered [d] = [])
    (hreleased : Deed.released [d] = [])
    (hd : ∀ g answer, d = .took g answer →
      ∀ s, answer = .ok s ↔ (g, s) ∈ Deed.registered ds ∧ (g, s) ∉ Deed.released ds) :
    Stock l a (ds ++ [d]) := by
  have hin : Deed.registered (ds ++ [d]) = Deed.registered ds := by
    rw [Deed.registered_append, hregistered, List.append_nil]
  have hout : Deed.released (ds ++ [d]) = Deed.released ds := by
    rw [Deed.released_append, hreleased, List.append_nil]
  constructor
  · exact h.tracks
  · rw [hin, hout]
    exact h.mem_kept
  · rw [hin]
    exact h.issued
  · rw [hin, hout]
    exact h.released
  · rw [hin, hout]
    exact h.length_eq
  · exact h.answered.snoc hd

/-- The text of a new token can be told from all that have been taken. -/
theorem pull (h : Stock l a ds) (hroom : l.issued.length < UInt32.size) (kind : TextKind)
    (s : String) :
    Stock ⟨(a.register s).1 :: l.issued, ((a.register s).1, s) :: l.kept⟩ (a.register s).2
      (ds ++ [.pulled (.text kind ((a.register s).1, s))]) := by
  have hfresh := h.tracks.register_fresh hroom s
  have hin : Deed.registered (ds ++ [.pulled (.text kind ((a.register s).1, s))]) =
      Deed.registered ds ++ [((a.register s).1, s)] := Deed.registered_append _ _
  have hout : Deed.released (ds ++ [.pulled (.text kind ((a.register s).1, s))]) =
      Deed.released ds := (Deed.released_append _ _).trans (List.append_nil _)
  have hnew : ((a.register s).1, s) ∉ Deed.released ds :=
    fun hp => hfresh (h.issued _ (h.released _ hp))
  constructor
  · exact h.tracks.register hroom s
  · intro p
    rw [hin, hout, List.mem_cons, h.mem_kept, List.mem_append, List.mem_singleton]
    constructor
    · rintro (rfl | ⟨hp, hnot⟩)
      · exact ⟨Or.inr rfl, hnew⟩
      · exact ⟨Or.inl hp, hnot⟩
    · rintro ⟨hp | rfl, hnot⟩
      · exact Or.inr ⟨hp, hnot⟩
      · exact Or.inl rfl
  · intro p hp
    rw [hin, List.mem_append, List.mem_singleton] at hp
    rcases hp with hp | rfl
    · exact List.mem_cons_of_mem _ (h.issued p hp)
    · exact List.mem_cons_self
  · intro p hp
    rw [hout] at hp
    rw [hin]
    exact List.mem_append_left _ (h.released p hp)
  · have hlength := h.length_eq
    rw [hin, hout, List.length_append, List.length_cons, List.length_cons, List.length_nil]
    omega
  · exact h.answered.snoc fun g answer he => by cases he

theorem text?_iff (h : Stock l a ds) (g : Handle) (s : String) :
    a.get? g = some s ↔ (g, s) ∈ Deed.registered ds ∧ (g, s) ∉ Deed.released ds := by
  rw [h.tracks.get, Ledger.text?_eq_some h.tracks.nodup, h.mem_kept]

theorem take (h : Stock l a ds) {g : Handle} {s : String} (hs : a.get? g = some s) :
    Stock (l.without g) (a.without g) (ds ++ [.took g (.ok s)]) := by
  have hmem := (h.text?_iff g s).mp hs
  have htext : l.text? g = some s := (h.tracks.get g).symm.trans hs
  have hin : Deed.registered (ds ++ [.took g (.ok s)]) = Deed.registered ds :=
    (Deed.registered_append _ _).trans (List.append_nil _)
  have hout : Deed.released (ds ++ [.took g (.ok s)]) = Deed.released ds ++ [(g, s)] :=
    Deed.released_append _ _
  have hkept (p : Handle × String) : p ∈ (l.without g).kept ↔ p ∈ l.kept ∧ p ≠ (g, s) := by
    unfold Ledger.without
    rw [List.mem_filter, decide_eq_true_iff]
    refine and_congr_right fun hp => not_congr ⟨fun hpg => ?_, fun hpg => by rw [hpg]⟩
    have hother : l.text? p.1 = some p.2 := (Ledger.text?_eq_some h.tracks.nodup).mpr hp
    rw [hpg, htext] at hother
    exact Prod.ext hpg (Option.some.inj hother).symm
  constructor
  · exact h.tracks.without hs
  · intro p
    rw [hin, hout, hkept, h.mem_kept, List.mem_append, List.mem_singleton, not_or, and_assoc]
  · rw [hin]
    exact h.issued
  · intro p hp
    rw [hout, List.mem_append, List.mem_singleton] at hp
    rw [hin]
    rcases hp with hp | rfl
    · exact h.released p hp
    · exact hmem.1
  · have hlength := h.length_eq
    have hless := Ledger.length_without h.tracks.nodup (Ledger.mem_keys htext)
    rw [hin, hout, List.length_append, List.length_singleton]
    omega
  · refine h.answered.snoc fun k answer he s' => ?_
    obtain ⟨rfl, rfl⟩ := Deed.took.inj he
    rw [← h.text?_iff, hs, Option.some.injEq, Except.ok.injEq]

theorem miss (h : Stock l a ds) {g : Handle} (hs : a.get? g = none) :
    Stock l a (ds ++ [.took g (.error (.unregistered g))]) := by
  refine h.idle rfl rfl fun k answer he s => ?_
  obtain ⟨rfl, rfl⟩ := Deed.took.inj he
  have hnot : (g, s) ∈ Deed.registered ds ∧ (g, s) ∉ Deed.released ds → False := by
    rw [← h.text?_iff, hs]
    exact nofun
  exact ⟨nofun, fun hp => (hnot hp).elim⟩

end Stock

/-- Whatever is done to a parse, the ledger shows what is in its table. -/
theorem Action.stock {α : Type} (s : Setting) (x : Action Handle α) {l : Ledger} {c : Context}
    {ds : List Deed} (h : Stock l c.arena ds)
    (hroom : l.issued.length + (Deed.registered (x.deeds s c)).length ≤ UInt32.size) :
    ∃ m, Stock m (x.run s c).2.arena (ds ++ x.deeds s c) ∧
      m.issued.length = l.issued.length + (Deed.registered (x.deeds s c)).length := by
  induction x generalizing l c ds with
  | pure a =>
    refine ⟨l, ?_, rfl⟩
    have hnil : ds ++ (Action.pure a : Action Handle _).deeds s c = ds := List.append_nil ds
    rw [hnil]
    exact h
  | bind x f hx hf =>
    have hdeeds : (Action.bind x f).deeds s c =
        x.deeds s c ++ (f (x.run s c).1).deeds s (x.run s c).2 := rfl
    rw [hdeeds, Deed.registered_append, List.length_append] at hroom ⊢
    obtain ⟨m, hm, hlength⟩ := hx h (by omega)
    obtain ⟨n, hn, hlength'⟩ := hf (x.run s c).1 hm (by omega)
    refine ⟨n, ?_, by omega⟩
    rw [← List.append_assoc]
    exact hn
  | next =>
    change l.issued.length + (Deed.registered [.pulled c.upcoming]).length ≤ _ at hroom
    change ∃ m, Stock m c.next.2.arena (ds ++ [.pulled c.upcoming]) ∧
      m.issued.length = l.issued.length + (Deed.registered [.pulled c.upcoming]).length
    unfold Context.next Context.upcoming at *
    generalize c.lexer.next = p at hroom ⊢
    obtain ⟨t, lexer⟩ := p
    cases t with
    | mark m => exact ⟨l, h.idle rfl rfl nofun, rfl⟩
    | text kind text => exact ⟨_, h.pull hroom kind text, rfl⟩
  | take g =>
    change ∃ m, Stock m (c.take g).2.arena (ds ++ [.took g (c.take g).1]) ∧
      m.issued.length = l.issued.length
    unfold Context.take
    cases hs : c.arena.get? g with
    | none =>
      rw [Arena.release?_eq_none hs]
      exact ⟨l, h.miss hs, rfl⟩
    | some text =>
      rw [Arena.release?_eq_some hs]
      exact ⟨_, h.take hs, rfl⟩
  | expand name =>
    refine ⟨l, ?_, rfl⟩
    change Stock l (c.expand s.resolver name).2.arena _
    have harena : (c.expand s.resolver name).2.arena = c.arena := by
      unfold Context.expand
      cases expandName s.resolver name <;> rfl
    rw [harena]
    exact h.idle rfl rfl nofun
  | flag => exact ⟨l, h.idle rfl rfl nofun, rfl⟩
  | check name count =>
    refine ⟨l, ?_, rfl⟩
    have hnil : ds ++ (Action.check name count).deeds s c = ds := List.append_nil ds
    rw [hnil]
    exact h
  | inspect =>
    refine ⟨l, ?_, rfl⟩
    have hnil : ds ++ Action.inspect.deeds s c = ds := List.append_nil ds
    rw [hnil]
    exact h

end XPath
