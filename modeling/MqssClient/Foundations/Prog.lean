import Mathlib.Data.List.Basic

/-!
# Programs over calls

A program that talks to something outside itself is a tree of calls: `Prog Ans α` returns a value of `α`
or makes a call `op` and goes on with the answer, a value of `Ans op`. Nothing here says what is called.

* `Prog.bind`, `Prog.perform`, `Prog.map`: sequencing, one call, and a pure step at the end;
* `Env Ans`: an environment, which answers a call from the calls made before it;
* `Prog.exec env p tr`: the value of `p` and the calls made, when `tr` were made before;
* `Prog.exec_bind`: a run of a sequence is a run of its parts, one after the other.
-/

namespace Foundations

/-- A program that returns a value of `α` and makes calls `op`, each answered by a value of `Ans op`. -/
inductive Prog {Op : Type} (Ans : Op → Type) (α : Type) : Type where
  | pure (a : α)
  | call (op : Op) (k : Ans op → Prog Ans α)

namespace Prog

variable {Op : Type} {Ans : Op → Type} {α β γ : Type}

/-- Run `p`, then `f` on its value. -/
def bind : Prog Ans α → (α → Prog Ans β) → Prog Ans β
  | .pure a, f => f a
  | .call op k, f => .call op fun ans => bind (k ans) f

/-- One call, whose answer is the value. -/
def perform (op : Op) : Prog Ans (Ans op) := .call op .pure

/-- Apply a function to the value. -/
def map (f : α → β) (p : Prog Ans α) : Prog Ans β := p.bind fun a => .pure (f a)

@[simp] theorem pure_bind (a : α) (f : α → Prog Ans β) : (Prog.pure a).bind f = f a := rfl

@[simp] theorem call_bind (op : Op) (k : Ans op → Prog Ans α) (f : α → Prog Ans β) :
    (Prog.call op k).bind f = .call op fun ans => (k ans).bind f := rfl

@[simp] theorem perform_bind (op : Op) (f : Ans op → Prog Ans β) :
    (perform op).bind f = .call op f := rfl

end Prog

/-- An environment answers a call from the calls made before it. -/
abbrev Env {Op : Type} (Ans : Op → Type) := List Op → (op : Op) → Ans op

namespace Prog

variable {Op : Type} {Ans : Op → Type} {α β : Type}

/-- The value of a program and all calls made, when `tr` were made before it. -/
def exec (env : Env Ans) : Prog Ans α → List Op → α × List Op
  | .pure a, tr => (a, tr)
  | .call op k, tr => exec env (k (env tr op)) (tr ++ [op])

variable (env : Env Ans)

@[simp] theorem exec_pure (a : α) (tr : List Op) : (Prog.pure a : Prog Ans α).exec env tr = (a, tr) := rfl

@[simp] theorem exec_call (op : Op) (k : Ans op → Prog Ans α) (tr : List Op) :
    (Prog.call op k).exec env tr = (k (env tr op)).exec env (tr ++ [op]) := rfl

/-- A run of a sequence is a run of its first part followed by one of the second. -/
theorem exec_bind (p : Prog Ans α) (f : α → Prog Ans β) (tr : List Op) :
    (p.bind f).exec env tr = (f (p.exec env tr).1).exec env (p.exec env tr).2 := by
  induction p generalizing tr with
  | pure a => rfl
  | call op k ih => simp only [call_bind, exec_call, ih]

@[simp] theorem exec_map (f : α → β) (p : Prog Ans α) (tr : List Op) :
    (p.map f).exec env tr = (f (p.exec env tr).1, (p.exec env tr).2) := by
  rw [map, exec_bind]
  rfl

/-- The calls made before a run stay at the front of the calls made after it. -/
theorem prefix_exec (p : Prog Ans α) (tr : List Op) : tr <+: (p.exec env tr).2 := by
  induction p generalizing tr with
  | pure a => exact List.prefix_rfl
  | call op k ih => exact (List.prefix_append tr [op]).trans (ih _ _)

end Prog

end Foundations
