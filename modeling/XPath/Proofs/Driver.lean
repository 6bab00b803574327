import XPath.Parser
import XPath.Proofs.Stock

/-! What a parse is with any engine. The driver gives the engine an empty table and a fresh text,
and neither a text nor the memory of a failure outlasts the call. -/
namespace XPath

/-- One use of a parser. -/
inductive Use
  | parse (statement : String) (resolver : Option Resolver)
  | register (name : String) (arity : Arity)

namespace Parser
variable {σ : Type}

/-- How a parse begins. -/
def start (p : Parser σ) (statement : String) : Context :=
  { Context.begin statement p.arena.releaseAll.2 with log := [.parsing statement] }

def setting (p : Parser σ) (resolver : Option Resolver) : Setting :=
  ⟨resolver, p.functions, p.options⟩

section
variable {engine : Engine σ} {p : Parser σ} {statement : String} {resolver : Option Resolver}
  {memory : σ} {c : Context}

/-- Texts that an engine left over do no harm to its result. -/
theorem parseWith_ok {e : Expr}
    (h : (engine p.memory).run (p.setting resolver) (p.start statement) = ((.ok e, memory), c)) :
    p.parseWith engine statement resolver =
      ⟨.ok e,
        (if c.arena.isEmpty then c.log else .unconsumed c.arena.live statement :: c.log).reverse,
        { p with
          arena := if c.arena.isEmpty then c.arena else c.arena.releaseAll.2
          memory }⟩ := by
  unfold parseWith
  unfold setting start at h
  dsimp only
  rw [h]
  rfl

theorem parseWith_error {reason : Rejection}
    (h : (engine p.memory).run (p.setting resolver) (p.start statement) =
      ((.error reason, memory), c)) :
    p.parseWith engine statement resolver =
      ⟨.error ⟨if c.namespaceErrorSeen then .namespaces else .grammatical, statement, reason⟩,
        (.rejected statement reason c.arena.live :: c.log).reverse,
        { p with arena := c.arena.releaseAll.2, memory }⟩ := by
  unfold parseWith
  unfold setting start at h
  dsimp only
  rw [h]
  rfl

end

/-- What the engine does to a parse, in order. -/
def deedsOf (engine : Engine σ) (p : Parser σ) (statement : String) (resolver : Option Resolver) :
    List Deed :=
  (engine p.memory).deeds (p.setting resolver) (p.start statement)

end Parser

namespace Use
variable {σ : Type}

/-- The parser after a use, if it parses by `engine`. -/
def applyWith (engine : Engine σ) (p : Parser σ) : Use → Parser σ
  | parse statement resolver => (p.parseWith engine statement resolver).parser
  | register name arity => p.register name arity

def deeds (engine : Engine σ) (p : Parser σ) : Use → List Deed
  | parse statement resolver => p.deedsOf engine statement resolver
  | register .. => []

end Use

namespace Parser
variable {σ : Type}

/-- The parser after uses in order. -/
def afterWith (engine : Engine σ) (p : Parser σ) : List Use → Parser σ
  | [] => p
  | u :: uses => (u.applyWith engine p).afterWith engine uses

/-- All that the engine does in the course of some uses. -/
def deeds (engine : Engine σ) (p : Parser σ) : List Use → List Deed
  | [] => []
  | u :: uses => u.deeds engine p ++ (u.applyWith engine p).deeds engine uses

theorem deeds_append (engine : Engine σ) (p : Parser σ) (uses further : List Use) :
    p.deeds engine (uses ++ further) =
      p.deeds engine uses ++ (p.afterWith engine uses).deeds engine further := by
  induction uses generalizing p with
  | nil => rfl
  | cons u uses ih =>
    change u.deeds engine p ++ (u.applyWith engine p).deeds engine (uses ++ further) = _
    rw [ih, ← List.append_assoc]
    rfl

/-- The ledger of a parser: its table, and how many handles it has given out. -/
def Tracked (p : Parser σ) (n : Nat) : Prop :=
  ∃ l : Ledger, Arena.Tracks l p.arena ∧ l.issued.length = n

section
variable (engine : Engine σ) {p : Parser σ} {n : Nat}

/-- While it runs, the engine has the texts of this call at its disposal. -/
theorem Tracked.stock (h : p.Tracked n) (statement : String) (resolver : Option Resolver)
    (hroom : n + (Deed.registered (p.deedsOf engine statement resolver)).length ≤ UInt32.size) :
    ∃ l, Stock l ((engine p.memory).run (p.setting resolver) (p.start statement)).2.arena
        (p.deedsOf engine statement resolver) ∧
      l.issued.length = n + (Deed.registered (p.deedsOf engine statement resolver)).length := by
  obtain ⟨l, htracks, rfl⟩ := h
  have hstart : Stock { l with kept := [] } (p.start statement).arena [] := .empty htracks
  exact Action.stock (p.setting resolver) (engine p.memory) hstart hroom

/-- The table a parse leaves behind. -/
theorem parseWith_arena (p : Parser σ) (statement : String)
    (resolver : Option Resolver) :
    let left := ((engine p.memory).run (p.setting resolver) (p.start statement)).2.arena
    (p.parseWith engine statement resolver).parser.arena = left ∧ left.live = 0 ∨
      (p.parseWith engine statement resolver).parser.arena = left.releaseAll.2 := by
  generalize hrun : (engine p.memory).run (p.setting resolver) (p.start statement) = out
  obtain ⟨⟨result, memory⟩, c⟩ := out
  cases result with
  | error reason =>
    rw [parseWith_error hrun]
    exact Or.inr rfl
  | ok e =>
    rw [parseWith_ok hrun]
    dsimp only
    by_cases hempty : c.arena.isEmpty = true
    · rw [if_pos hempty]
      exact Or.inl ⟨rfl, beq_iff_eq.mp hempty⟩
    · rw [if_neg hempty]
      exact Or.inr rfl

theorem pending_parseWith (p : Parser σ) (statement : String)
    (resolver : Option Resolver) :
    (p.parseWith engine statement resolver).parser.pending = 0 := by
  unfold pending
  rcases parseWith_arena engine p statement resolver with ⟨harena, hlive⟩ | harena
  · rw [harena]
    exact hlive
  · rw [harena]
    rfl

theorem Tracked.apply (h : p.Tracked n) (u : Use)
    (hroom : n + (Deed.registered (u.deeds engine p)).length ≤ UInt32.size) :
    (u.applyWith engine p).Tracked (n + (Deed.registered (u.deeds engine p)).length) := by
  cases u with
  | register name arity => exact h
  | parse statement resolver =>
    obtain ⟨l, hstock, hlength⟩ := h.stock engine statement resolver hroom
    unfold Use.applyWith
    rcases parseWith_arena engine p statement resolver with ⟨harena, -⟩ | harena
    · refine ⟨l, ?_, hlength⟩
      rw [harena]
      exact hstock.tracks
    · refine ⟨{ l with kept := [] }, ?_, hlength⟩
      rw [harena]
      exact hstock.tracks.releaseAll

theorem Tracked.after (h : p.Tracked n) (uses : List Use)
    (hroom : n + (Deed.registered (p.deeds engine uses)).length ≤ UInt32.size) :
    (p.afterWith engine uses).Tracked (n + (Deed.registered (p.deeds engine uses)).length) := by
  induction uses generalizing p n with
  | nil => exact h
  | cons u uses ih =>
    have hdeeds : p.deeds engine (u :: uses) =
        u.deeds engine p ++ (u.applyWith engine p).deeds engine uses := rfl
    rw [hdeeds, Deed.registered_append, List.length_append, ← Nat.add_assoc] at hroom ⊢
    exact ih (h.apply engine u (Nat.le_of_add_right_le hroom)) hroom

end

/-- The driver with any engine, on a parser of any history, as long as there have not been more texts
than handles. The engine begins with an empty table and the whole text before it. Its result is that
of the parse: an expression even after a failure to resolve a name, and a rejection with its reason,
the class of which is decided by this call alone. It can take the text of each token it pulls once
and no other, and those it does not take are counted and gone when the call is over. -/
theorem parseWith_afterWith (engine : Engine σ) (options : Options) (functions : Registry)
    (memory : σ) (uses : List Use) (statement : String) (resolver : Option Resolver)
    (hroom : (Deed.registered (deeds engine { options, functions, memory }
      (uses ++ [.parse statement resolver]))).length ≤ UInt32.size) :
    let p := afterWith engine { options, functions, memory } uses
    let start := p.start statement
    let out := (engine p.memory).run (p.setting resolver) start
    let deeds := (engine p.memory).deeds (p.setting resolver) start
    let report := p.parseWith engine statement resolver
    (start.arena.live = 0 ∧ (∀ g, start.arena.get? g = none) ∧
      start.lexer.cursor = .ofString statement ∧ start.lexer.position = 0 ∧
      start.lexer.context = {} ∧ start.namespaceErrorSeen = false) ∧
    (∀ e, out.1.1 = .ok e → report.result = .ok e) ∧
    (∀ reason, out.1.1 = .error reason → report.result =
      .error ⟨if deeds.any Deed.failsName then .namespaces else .grammatical, statement,
        reason⟩) ∧
    report.parser.memory = out.1.2 ∧
    report.parser.pending = 0 ∧
    Deed.Answered deeds ∧
    ∃ left, (Deed.registered deeds).length = (Deed.released deeds).length + left ∧
      report.log = out.2.log.reverse ++
        match out.1.1 with
        | .ok _ => if left = 0 then [] else [.unconsumed left statement]
        | .error reason => [.rejected statement reason left] := by
  intro p start out deeds report
  have hdeeds : Parser.deeds engine { options, functions, memory }
      (uses ++ [.parse statement resolver]) =
        Parser.deeds engine { options, functions, memory } uses ++ deeds := by
    rw [deeds_append]
    exact congrArg _ (List.append_nil _)
  rw [hdeeds, Deed.registered_append, List.length_append] at hroom
  have hfirst : Tracked (σ := σ) { options, functions, memory } 0 := ⟨{}, Arena.tracks_empty, rfl⟩
  have htracked := hfirst.after engine uses (by omega)
  obtain ⟨l, hstock, -⟩ := htracked.stock engine statement resolver (by
    change _ + (Deed.registered deeds).length ≤ _
    omega)
  have hflag : out.2.namespaceErrorSeen = deeds.any Deed.failsName :=
    Action.namespaceErrorSeen_run (p.setting resolver) (engine p.memory) start
  have hlive : out.2.arena.live = l.kept.length := hstock.tracks.live
  have hcount : (Deed.registered deeds).length = (Deed.released deeds).length + out.2.arena.live :=
    hlive ▸ hstock.length_eq
  refine ⟨⟨rfl, Arena.get?_releaseAll _, rfl, rfl, rfl, rfl⟩, ?_, ?_, ?_,
    pending_parseWith engine p statement resolver, hstock.answered, out.2.arena.live, hcount, ?_⟩
  all_goals
    generalize hrun : out = x at *
    obtain ⟨⟨result, memory'⟩, c⟩ := x
  · rintro e rfl
    exact congrArg Report.result (parseWith_ok hrun)
  · rintro reason rfl
    rw [← hflag]
    exact congrArg Report.result (parseWith_error hrun)
  · cases result with
    | ok e => exact congrArg (·.parser.memory) (parseWith_ok hrun)
    | error reason => exact congrArg (·.parser.memory) (parseWith_error hrun)
  · cases result with
    | error reason =>
      have hlog : report.log = (.rejected statement reason c.arena.live :: c.log).reverse :=
        congrArg Report.log (parseWith_error hrun)
      rw [hlog, List.reverse_cons]
    | ok e =>
      have hlog := congrArg Report.log (parseWith_ok hrun)
      dsimp only at hlog ⊢
      by_cases hzero : c.arena.live = 0
      · have hempty : c.arena.isEmpty = true := beq_iff_eq.mpr hzero
        rw [if_pos hempty] at hlog
        rw [if_pos hzero, List.append_nil]
        exact hlog
      · have hempty : ¬ c.arena.isEmpty = true := fun h => hzero (beq_iff_eq.mp h)
        rw [if_neg hempty, List.reverse_cons] at hlog
        rw [if_neg hzero]
        exact hlog

/-- An engine that pulls one token of each text and rejects it. The first time, it complains of a
name. -/
def pickyEngine : Engine Nat := fun n => do
  let _ ← Action.next
  if n = 0 then Action.flag
  return (.error (.tooDeep n), n + 1)

/-- Neither the text nor the complaint of the first call is there in the second. -/
theorem parseWith_afterWith_picky :
    (Deed.registered (deeds pickyEngine { memory := 0 }
        ([.parse "a" none] ++ [.parse "b" none]))).length ≤ UInt32.size ∧
      let report := (afterWith pickyEngine { memory := 0 } [.parse "a" none]).parseWith
        pickyEngine "b" none
      report.result = .error ⟨.grammatical, "b", .tooDeep 1⟩ ∧ report.parser.pending = 0 := by
  have hroom : (Deed.registered (deeds pickyEngine { memory := 0 }
      ([.parse "a" none] ++ [.parse "b" none]))).length ≤ UInt32.size := by decide
  obtain ⟨-, -, herror, -, hpending, -⟩ :=
    parseWith_afterWith pickyEngine {} .core 0 [.parse "a" none] "b" none hroom
  exact ⟨hroom, herror (.tooDeep 1) rfl, hpending⟩

end Parser
end XPath
