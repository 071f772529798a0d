import Logo.Primitive.Perform

/-!
# Commands of a host

A session has the primitives and perhaps commands of the program that it is part of, its host. The
host's commands are a type `H`, and an instance of `Host H` says what they do.
-/

namespace Logo

/-- A primitive or a command of the host. -/
inductive Command (H : Type) where
  /-- A primitive. -/
  | primitive (p : Primitive)
  /-- A command of the host. -/
  | host (h : H)

/-- The meaning of a host's commands. -/
class Host (H : Type) where
  /-- Performs a command of the host. -/
  perform : H → Workspace (Command H) → List Value → Workspace (Command H) × Action

/-- There may be no host. -/
instance : Host Empty := ⟨fun h => nomatch h⟩

instance {H : Type} [Host H] : Commands (Command H) where
  perform
    | .primitive p => p.perform
    | .host h => Host.perform h

end Logo
