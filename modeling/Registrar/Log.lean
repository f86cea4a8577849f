/-
# Log lines

What a run says while it works, as values: every function that reports something returns its
lines next to its result, in the order in which they were said.
-/

namespace Registrar

/-- How important a line is, from the finest detail to a failure. -/
inductive Level where
  | trace
  | debug
  | info
  | warn
  | error
  deriving DecidableEq, Repr

namespace Level

/-- The place of a level in the order of importance. -/
def rank : Level → Nat
  | trace => 0
  | debug => 1
  | info => 2
  | warn => 3
  | error => 4

/-- The name of a level. -/
def label : Level → String
  | trace => "trace"
  | debug => "debug"
  | info => "info"
  | warn => "warn"
  | error => "error"

end Level

/-- One message at its level. -/
structure LogLine where
  level : Level
  message : String
  deriving DecidableEq, Repr

/-- Lines in the order in which they were said. -/
abbrev Log := List LogLine

/-- A result with the lines that were said on the way to it. -/
structure Logged (α : Type) where
  result : α
  log : Log := []

namespace Logged

instance : Monad Logged where
  pure a := ⟨a, []⟩
  bind x f := ⟨(f x.result).result, x.log ++ (f x.result).log⟩

instance : LawfulMonad Logged :=
  LawfulMonad.mk' Logged (fun x => by cases x; simp [Functor.map])
    (fun a f => by simp [Bind.bind, Pure.pure]) (fun x f g => by simp [Bind.bind])

/-- Says one line. -/
def say (level : Level) (message : String) : Logged Unit :=
  ⟨(), [⟨level, message⟩]⟩

@[simp] theorem result_pure {α : Type} (a : α) : (pure a : Logged α).result = a := rfl

@[simp] theorem log_pure {α : Type} (a : α) : (pure a : Logged α).log = [] := rfl

@[simp] theorem result_bind {α β : Type} (x : Logged α) (f : α → Logged β) :
    (x >>= f).result = (f x.result).result := rfl

@[simp] theorem log_bind {α β : Type} (x : Logged α) (f : α → Logged β) :
    (x >>= f).log = x.log ++ (f x.result).log := rfl

@[simp] theorem result_say (level : Level) (message : String) :
    (say level message).result = () := rfl

end Logged

end Registrar
