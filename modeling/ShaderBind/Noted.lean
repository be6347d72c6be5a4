import ShaderBind.Error

/-!
# Work that notes warnings

A computation that may stop and that notes warnings on its way (`Noted`). The warnings are kept
also when it stops.
-/

namespace ShaderBind

/-- A computation that notes warnings and may stop. -/
abbrev Noted := ExceptT Stop (StateM (List String))

namespace Noted

variable {α : Type}

/-- Notes a warning. -/
def warn (text : String) : Noted Unit :=
  modifyGet fun texts => ((), texts ++ [text])

/-- Stops with a failure. -/
def fail (e : ShaderError) : Noted α :=
  throw (.failed e)

/-- A step without warnings. -/
def ofStop (r : Except Stop α) : Noted α :=
  ExceptT.mk (pure r)

/-- A step without warnings that can only fail. -/
def ofError (r : Except ShaderError α) : Noted α :=
  ofStop (Stop.ofError r)

/-- The result and the warnings. -/
def outcome (x : Noted α) : Except Stop α × List String :=
  x.run.run []

end Noted

end ShaderBind
