/-
# Steps of a run

What a step answers and what becomes of the file system, without the lines that it says.
-/
import Registrar.Proofs.FileSystem.Tree
import Registrar.Run.Producer

namespace Registrar.Step

variable {α β : Type}

/-- What a step answers, and the file system after it. -/
def on (x : Step α) (fs : FileSystem) : Except RunError α × FileSystem :=
  (x.run.run fs).result

@[simp] theorem on_pure (a : α) (fs : FileSystem) : on (pure a) fs = (.ok a, fs) := rfl

@[simp] theorem on_throw (e : RunError) (fs : FileSystem) :
    on (throw e : Step α) fs = (.error e, fs) := rfl

@[simp] theorem on_get (fs : FileSystem) : on get fs = (.ok fs, fs) := rfl

@[simp] theorem on_lift (x : StateT FileSystem Logged α) (fs : FileSystem) :
    on (ExceptT.lift x) fs = (.ok (x.run fs).result.1, (x.run fs).result.2) := rfl

/-- A failure ends a run, and what was done to the file system before it stays. -/
theorem on_bind (x : Step α) (f : α → Step β) (fs : FileSystem) :
    on (x >>= f) fs =
      match on x fs with
      | (.ok a, fs') => on (f a) fs'
      | (.error e, fs') => (.error e, fs') := by
  unfold on
  rw [ExceptT.run_bind, StateT.run_bind, Logged.result_bind]
  rcases (x.run.run fs).result with ⟨_ | a, fs'⟩ <;> rfl

/-- Two steps succeed exactly if the first one does, and the second one on what the first one
leaves. -/
theorem on_bind_eq_ok {x : Step α} {f : α → Step β} {fs fs' : FileSystem} {b : β} :
    on (x >>= f) fs = (.ok b, fs') ↔
      ∃ a fs₁, on x fs = (.ok a, fs₁) ∧ on (f a) fs₁ = (.ok b, fs') := by
  rw [on_bind]
  rcases on x fs with ⟨e | a, fs₁⟩ <;> simp

/-- A message is no change of the file system. -/
theorem on_say (level : Level) (message : String) (fs : FileSystem) :
    on (say level message) fs = (.ok (), fs) :=
  rfl

/-- What only logs gives its result and leaves the file system as it is. -/
theorem on_lift_logged (x : Logged α) (fs : FileSystem) :
    on (ExceptT.lift (StateT.lift x)) fs = (.ok x.result, fs) :=
  rfl

/-- What logs and may fail leaves the file system as it is. -/
theorem on_ofLogged {ε : Type} (wrap : ε → RunError) (x : ExceptT ε Logged α)
    (fs : FileSystem) : on (ofLogged wrap x) fs = (x.run.result.mapError wrap, fs) :=
  rfl

/-- A change takes place, or the step fails for its reason and nothing has changed. -/
theorem on_change (reason : RunError) (f : FileSystem → Except IoError FileSystem)
    (fs : FileSystem) :
    on (change reason f) fs =
      match f fs with
      | .ok fs' => (.ok (), fs')
      | .error _ => (.error reason, fs) := by
  unfold change
  rw [on_bind, on_get]
  show on (match f fs with | .ok fs' => set fs' | .error _ => throw reason) fs = _
  cases f fs with
  | ok fs' => rfl
  | error e => rfl

/-! ## What a step does to the file system -/

variable {r : FileSystem → FileSystem → Prop} {x : Step α}

/-- A step after which the file system is as `r` says, also if it fails. -/
def Keeps (r : FileSystem → FileSystem → Prop) (x : Step α) : Prop :=
  ∀ fs, r fs (x.on fs).2

/-- What is kept from each of two steps to the next is kept by one after the other. -/
theorem Keeps.bind (htrans : ∀ {fs₁ fs₂ fs₃}, r fs₁ fs₂ → r fs₂ fs₃ → r fs₁ fs₃)
    {f : α → Step β} (hx : Keeps r x) (hf : ∀ a, Keeps r (f a)) : Keeps r (x >>= f) := by
  intro fs
  rw [on_bind]
  have hfirst := hx fs
  rcases hon : x.on fs with ⟨e | a, fs'⟩ <;> rw [hon] at hfirst
  · exact hfirst
  · exact htrans hfirst (hf a fs')

/-- A step that does nothing to the file system. -/
abbrev IsQuiet (x : Step α) : Prop :=
  Keeps Eq x

/-- Two steps that change nothing change nothing together. -/
theorem IsQuiet.bind {f : α → Step β} (hx : IsQuiet x) (hf : ∀ a, IsQuiet (f a)) :
    IsQuiet (x >>= f) :=
  Keeps.bind (r := Eq) Eq.trans hx hf

/-- A step that changes nothing keeps all that a file system has in common with itself. -/
theorem IsQuiet.keeps (hrefl : ∀ fs, r fs fs) (hx : IsQuiet x) : Keeps r x := by
  intro fs
  rw [← hx fs]
  exact hrefl fs

/-- After a quiet step a run goes on from where it was. -/
theorem IsQuiet.on_bind {f : α → Step β} (hx : IsQuiet x) (fs : FileSystem) :
    on (x >>= f) fs =
      match (on x fs).1 with
      | .ok a => on (f a) fs
      | .error e => (.error e, fs) := by
  rw [Step.on_bind]
  have hsame := hx fs
  rcases hon : on x fs with ⟨e | a, fs'⟩ <;> rw [hon] at hsame <;> obtain rfl := hsame <;> rfl

/-- A quiet step leaves the file system as the step before it did. -/
theorem snd_on_bind {f : α → Step β} (hf : ∀ a, IsQuiet (f a)) (fs : FileSystem) :
    (on (x >>= f) fs).2 = (on x fs).2 := by
  rw [on_bind]
  rcases on x fs with ⟨e | a, fs'⟩
  · rfl
  · exact (hf a fs').symm

end Registrar.Step
