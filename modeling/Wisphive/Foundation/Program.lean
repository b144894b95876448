import Mathlib.Init

/-! Programs that ask their surroundings for one operation at a time. What an
operation does is left to whoever runs the program. -/

namespace Foundation

/-- A program is a value, or an operation and what follows each of its replies. -/
inductive Program (Op : Type) (Reply : Op → Type) (α : Type) where
  | pure (value : α)
  | request (op : Op) (next : Reply op → Program Op Reply α)

namespace Program
variable {Op : Type} {Reply : Op → Type} {α β : Type}

def bind (program : Program Op Reply α) (next : α → Program Op Reply β) : Program Op Reply β :=
  match program with
  | .pure value => next value
  | .request op rest => .request op fun reply => (rest reply).bind next

instance : Monad (Program Op Reply) where
  pure := .pure
  bind := bind

@[simp] theorem pure_bind (value : α) (next : α → Program Op Reply β) :
    (Pure.pure value : Program Op Reply α) >>= next = next value := rfl

@[simp] theorem request_bind (op : Op) (rest : Reply op → Program Op Reply α) (next : α → Program Op Reply β) :
    Program.request op rest >>= next = .request op fun reply => rest reply >>= next := rfl

/-- Every operation that the program can come to is allowed, as long as the replies
are possible ones, and so is what it returns. -/
def Uses (allowed : Op → Prop) (possible : (op : Op) → Reply op → Prop) (returns : α → Prop) :
    Program Op Reply α → Prop
  | .pure value => returns value
  | .request op next => allowed op ∧ ∀ reply, possible op reply → (next reply).Uses allowed possible returns

variable {allowed : Op → Prop} {possible : (op : Op) → Reply op → Prop} {returns : α → Prop}

theorem uses_request {op : Op} {next : Reply op → Program Op Reply α} (permitted : allowed op)
    (rest : ∀ reply, possible op reply → (next reply).Uses allowed possible returns) :
    (Program.request op next).Uses allowed possible returns :=
  ⟨permitted, rest⟩

/-- The same for a single operation that is bound. -/
theorem uses_ask {op : Op} {next : Reply op → Program Op Reply α} (permitted : allowed op)
    (rest : ∀ reply, possible op reply → (next reply).Uses allowed possible returns) :
    (Program.request op .pure >>= next).Uses allowed possible returns :=
  ⟨permitted, rest⟩

theorem uses_all (program : Program Op Reply α) : program.Uses (fun _ => True) possible fun _ => True := by
  induction program with
  | pure value => trivial
  | request op tail ih => exact ⟨trivial, fun reply _ => ih reply⟩

theorem uses_bind {final : β → Prop} {program : Program Op Reply α} {next : α → Program Op Reply β}
    (first : program.Uses allowed possible returns)
    (rest : ∀ value, returns value → (next value).Uses allowed possible final) :
    (program >>= next).Uses allowed possible final := by
  induction program with
  | pure value => exact rest value first
  | request op tail ih =>
    rw [request_bind]
    exact ⟨first.1, fun reply answered => ih reply (first.2 reply answered)⟩

theorem Uses.widen {more : Op → Prop} {program : Program Op Reply α} (uses : program.Uses allowed possible returns)
    (implies : ∀ op, allowed op → more op) : program.Uses more possible returns := by
  induction program with
  | pure value => exact uses
  | request op tail ih => exact ⟨implies op uses.1, fun reply answered => ih reply (uses.2 reply answered)⟩

end Program
end Foundation
