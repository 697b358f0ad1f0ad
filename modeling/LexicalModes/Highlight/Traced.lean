import LexicalModes.Highlight.Error

/-!
Results that remember which registered languages were compiled on the way.

A language is compiled the first time it is used, and can be asked whether it has been. `Traced`
keeps a result or error together with the registered languages that were used to reach it, also when
it is an error.
-/

namespace LexicalModes

/-- A result or error, and the registered languages used on the way, by their registered names. -/
structure Traced (α : Type) where
  value : Except HighlightError α
  used : List String := []

namespace Traced

variable {α β : Type}

/-- A result that used no language. -/
def pure (a : α) : Traced α := ⟨.ok a, []⟩

/-- An error. -/
def fail (e : HighlightError) : Traced α := ⟨.error e, []⟩

/-- A result or error that used no language. -/
def ofExcept (value : Except HighlightError α) : Traced α := ⟨value, []⟩

/-- Go on with a result; an error ends the computation. -/
def bind (x : Traced α) (f : α → Traced β) : Traced β :=
  match x.value with
  | .ok a =>
    let y := f a
    ⟨y.value, x.used ++ y.used⟩
  | .error e => ⟨.error e, x.used⟩

instance : Monad Traced where
  pure := Traced.pure
  bind := Traced.bind

/-- Note the use of registered languages. -/
def note (used : List String) : Traced Unit := ⟨.ok (), used⟩

end Traced

end LexicalModes
