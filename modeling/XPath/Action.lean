import XPath.Context

/-! What a grammar may do with a parse. A grammar reaches the text and the table of token texts only
by these actions, so what they keep intact no grammar can break. -/
namespace XPath

/-- What a grammar may look at without changing anything. -/
structure View where
  position : Nat
  unread : Nat
  namespaceErrorSeen : Bool
  options : Options

/-- A finite course of actions with a result. Each action may depend on what the earlier ones
answered. Texts of tokens are known by handles `η`. -/
inductive Action (η : Type) : Type → Type 1
  | pure {α : Type} (a : α) : Action η α
  | bind {α β : Type} (x : Action η α) (f : α → Action η β) : Action η β
  | next : Action η (Token η)
  | take (h : η) : Action η (Except Rejection String)
  | expand (name : String) : Action η (Except Rejection ExpandedName)
  | check (name : String) (count : Nat) : Action η (Except Rejection Unit)
  | flag : Action η Unit
  | inspect : Action η View

namespace Action

instance {η : Type} : Monad (Action η) where
  pure := .pure
  bind := .bind

/-- The effect of a course of actions on a parse. -/
def run (s : Setting) : {α : Type} → Action Handle α → Context → α × Context
  | _, .pure a, c => (a, c)
  | _, .bind x f, c =>
    let (a, c) := run s x c
    run s (f a) c
  | _, .next, c => c.next
  | _, .take h, c => c.take h
  | _, .expand name, c => c.expand s.resolver name
  | _, .check name count, c => (s.check name count, c)
  | _, .flag, c => ((), c.flag)
  | _, .inspect, c =>
    (⟨c.lexer.position, c.lexer.unread, c.namespaceErrorSeen, s.options⟩, c)

@[simp] theorem run_pure {α : Type} (s : Setting) (a : α) (c : Context) :
    (Pure.pure a : Action Handle α).run s c = (a, c) := rfl

@[simp] theorem run_bind {α β : Type} (s : Setting) (x : Action Handle α)
    (f : α → Action Handle β) (c : Context) :
    (x >>= f).run s c = (f (x.run s c).1).run s (x.run s c).2 := rfl

end Action
end XPath
