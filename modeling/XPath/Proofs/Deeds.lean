import XPath.Proofs.Arena.Calls
import XPath.Proofs.Execution

/-! What a course of actions did to a parse, deed by deed, and what of it the table of texts and the
class of the error depend on. -/
namespace XPath

/-- What a token carries besides its kind. -/
def Token.payload? {η : Type} : Token η → Option η
  | .mark _ => none
  | .text _ p => some p

/-- A thing done to a parse. A token is recorded with its text and the handle given out for it. -/
inductive Deed
  | pulled (t : Token (Handle × String))
  | took (h : Handle) (answer : Except Rejection String)
  | expanded (name : String) (answer : Except Rejection ExpandedName)
  | flagged

namespace Deed

/-- What a deed asks of the table of texts. -/
def call? : Deed → Option Arena.Call
  | pulled (.text _ p) => some (.register p.2)
  | took h _ => some (.release h)
  | _ => none

def token? : Deed → Option (Token (Handle × String))
  | pulled t => some t
  | _ => none

def released? : Deed → Option (Handle × String)
  | took h (.ok s) => some (h, s)
  | _ => none

/-- Whether a deed is a failure to resolve a name. -/
def failsName : Deed → Bool
  | expanded _ (.error _) | flagged => true
  | _ => false

def calls (ds : List Deed) : List Arena.Call :=
  ds.filterMap call?

/-- The tokens pulled. -/
def tokens (ds : List Deed) : List (Token (Handle × String)) :=
  ds.filterMap token?

/-- The texts of the tokens pulled, with their handles. -/
def registered (ds : List Deed) : List (Handle × String) :=
  (tokens ds).filterMap Token.payload?

/-- The texts that were taken out of the table, with their handles. -/
def released (ds : List Deed) : List (Handle × String) :=
  ds.filterMap released?

/-! All of them go deed by deed. -/

@[simp] theorem calls_append (ds es : List Deed) : calls (ds ++ es) = calls ds ++ calls es :=
  List.filterMap_append

@[simp] theorem tokens_append (ds es : List Deed) : tokens (ds ++ es) = tokens ds ++ tokens es :=
  List.filterMap_append

@[simp] theorem registered_append (ds es : List Deed) :
    registered (ds ++ es) = registered ds ++ registered es := by
  unfold registered
  rw [tokens_append, List.filterMap_append]

@[simp] theorem released_append (ds es : List Deed) :
    released (ds ++ es) = released ds ++ released es :=
  List.filterMap_append

theorem registered_pulled (t : Token (Handle × String)) :
    registered [.pulled t] = t.payload?.toList := by
  cases t <;> rfl

end Deed

/-- The next token, as it will be recorded. -/
def Context.upcoming (c : Context) : Token (Handle × String) :=
  c.lexer.next.1.map fun s => ((c.arena.register s).1, s)

theorem Context.upcoming_fst (c : Context) : c.upcoming.map Prod.fst = c.next.1 := by
  unfold upcoming next
  cases c.lexer.next with
  | mk t lexer => cases t <;> rfl

theorem Context.upcoming_snd (c : Context) : c.upcoming.map Prod.snd = c.lexer.next.1 := by
  unfold upcoming
  cases c.lexer.next.1 <;> rfl

namespace Action
variable {α : Type}

/-- What a course of actions does to a parse, in order. -/
def deeds (s : Setting) : {α : Type} → Action Handle α → Context → List Deed
  | _, .pure _, _ => []
  | _, .bind x f, c => deeds s x c ++ deeds s (f (x.run s c).1) (x.run s c).2
  | _, .next, c => [.pulled c.upcoming]
  | _, .take h, c => [.took h (c.take h).1]
  | _, .expand name, c => [.expanded name (c.expand s.resolver name).1]
  | _, .check .., _ => []
  | _, .flag, _ => [.flagged]
  | _, .inspect, _ => []

/-- The table of texts is changed by nothing but these deeds. -/
theorem arena_run (s : Setting) (x : Action Handle α) (c : Context) :
    (x.run s c).2.arena = c.arena.after (Deed.calls (x.deeds s c)) := by
  induction x generalizing c with
  | bind x f hx hf =>
    change ((f (x.run s c).1).run s (x.run s c).2).2.arena =
      c.arena.after (Deed.calls (x.deeds s c ++ (f (x.run s c).1).deeds s (x.run s c).2))
    rw [hf, hx, Deed.calls_append, Arena.after_append]
  | next =>
    change c.next.2.arena = c.arena.after (Deed.calls [.pulled c.upcoming])
    unfold Context.next Context.upcoming
    cases c.lexer.next with
    | mk t lexer => cases t <;> rfl
  | take h =>
    change (c.take h).2.arena = (c.arena.call (.release h)).2
    unfold Context.take Arena.call
    dsimp only
    cases c.arena.release? h <;> rfl
  | expand name =>
    change (c.expand s.resolver name).2.arena = c.arena
    unfold Context.expand
    cases expandName s.resolver name <;> rfl
  | _ => rfl

/-- A failure to resolve a name is remembered, and only that. -/
theorem namespaceErrorSeen_run (s : Setting) (x : Action Handle α) (c : Context) :
    (x.run s c).2.namespaceErrorSeen =
      (c.namespaceErrorSeen || (x.deeds s c).any Deed.failsName) := by
  induction x generalizing c with
  | bind x f hx hf =>
    change ((f (x.run s c).1).run s (x.run s c).2).2.namespaceErrorSeen =
      (c.namespaceErrorSeen ||
        (x.deeds s c ++ (f (x.run s c).1).deeds s (x.run s c).2).any Deed.failsName)
    rw [hf, hx, List.any_append, Bool.or_assoc]
  | next =>
    change c.next.2.namespaceErrorSeen = (c.namespaceErrorSeen || false)
    unfold Context.next
    rw [Bool.or_false]
    cases c.lexer.next with
    | mk t lexer => cases t <;> rfl
  | take h =>
    change (c.take h).2.namespaceErrorSeen = (c.namespaceErrorSeen || false)
    unfold Context.take
    rw [Bool.or_false]
    cases c.arena.release? h <;> rfl
  | expand name =>
    change (c.expand s.resolver name).2.namespaceErrorSeen = (c.namespaceErrorSeen ||
      [Deed.expanded name (c.expand s.resolver name).1].any Deed.failsName)
    unfold Context.expand
    cases expandName s.resolver name with
    | ok n => exact (Bool.or_false _).symm
    | error short => exact (Bool.or_true _).symm
  | flag => exact (Bool.or_true _).symm
  | _ => exact (Bool.or_false _).symm

end Action

/-- Texts go into the table, and every deed is written down behind the earlier ones. -/
def Host.journal (s : Setting) : Host Handle (Context × List Deed) where
  next p := (p.1.next.1, p.1.next.2, p.2 ++ [.pulled p.1.upcoming])
  take h p := ((p.1.take h).1, (p.1.take h).2, p.2 ++ [.took h (p.1.take h).1])
  expand name p :=
    ((p.1.expand s.resolver name).1, (p.1.expand s.resolver name).2,
      p.2 ++ [.expanded name (p.1.expand s.resolver name).1])
  check := s.check
  flag p := (p.1.flag, p.2 ++ [.flagged])
  view p := p.1.view s.options

theorem Action.interpret_journal {α : Type} (s : Setting) (x : Action Handle α) (c : Context)
    (ds : List Deed) :
    x.interpret (.journal s) (c, ds) = ((x.run s c).1, (x.run s c).2, ds ++ x.deeds s c) := by
  induction x generalizing c ds with
  | bind x f hx hf => simp only [interpret, run, deeds, hx, hf, List.append_assoc]
  | pure => simp only [interpret, run, deeds, List.append_nil]
  | check => simp only [interpret, run, deeds, List.append_nil, Host.journal]
  | inspect => simp only [interpret, run, deeds, List.append_nil, Host.journal, Context.view]
  | _ => rfl

end XPath
