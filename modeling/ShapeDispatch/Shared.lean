/-!
Shared resolvers. Readers see the resolver that was published last; a reader that took an earlier one
keeps it. A handle is one particular copy of a resolver: `serial` tells copies apart.
-/

namespace ShapeDispatch

/-- A copy of `α` with an identity of its own. -/
structure Handle (α : Type) where
  serial : Nat
  content : α

/-- A cell that holds what readers currently see. -/
structure Shared (α : Type) where
  current : Handle α

namespace Shared
variable {α : Type}

/-- What readers currently see. -/
def load (s : Shared α) : Handle α := s.current

/-- Puts a new copy in place, and hands out the one that was there. -/
def publish (s : Shared α) (next : Handle α) : Handle α × Shared α := (s.current, ⟨next⟩)

end Shared

end ShapeDispatch
