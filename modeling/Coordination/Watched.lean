/-!
# Watched values

A value that others watch.  A watcher learns that the value was replaced since it last looked, also
when the new value equals the old one.
-/

namespace Coordination

/-- A value and whether it was replaced since someone last looked. -/
structure Watched (α : Type) where
  value : α
  changed : Bool := false
deriving DecidableEq, Repr

namespace Watched

variable {α : Type}

def replace (_ : Watched α) (a : α) : Watched α := ⟨a, true⟩

/-- Replaces the value by another, or leaves it alone. -/
def modify (w : Watched α) (f : α → Option α) : Watched α :=
  match f w.value with
  | some a => w.replace a
  | none => w

/-- A watcher looks. -/
def seen (w : Watched α) : Watched α := { w with changed := false }

end Watched

end Coordination
