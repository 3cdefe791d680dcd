import CompileFlags.Event
import CompileFlags.Fault

/-!
# Traced steps

A step that may fail and tells a log what happens on the way. What was told before a failure stays
told.
-/

namespace CompileFlags

/-- What a step comes to, and the events on the way. -/
structure Traced (α : Type) where
  events : List Event
  result : Except Fault α

namespace Traced

variable {α β : Type}

/-- A step after another, which is left out if the first one fails. -/
def andThen (t : Traced α) (next : α → Traced β) : Traced β :=
  match t.result with
  | .error f => ⟨t.events, .error f⟩
  | .ok a => ⟨t.events ++ (next a).events, (next a).result⟩

instance : Monad Traced where
  pure a := ⟨[], .ok a⟩
  bind := andThen

/-- A step that tells nothing. -/
def quiet (result : Except Fault α) : Traced α := ⟨[], result⟩

/-- Tells an event. -/
def tell (e : Event) : Traced Unit := ⟨[e], .ok ()⟩

@[simp]
theorem result_pure (a : α) : (pure a : Traced α).result = .ok a := rfl

@[simp]
theorem result_bind (t : Traced α) (next : α → Traced β) :
    (t >>= next).result = t.result.bind fun a => (next a).result := by
  show (t.andThen next).result = _
  unfold andThen
  cases t.result <;> rfl

end Traced

end CompileFlags
