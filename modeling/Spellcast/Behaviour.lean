import Spellcast.Context
import Spellcast.Realm

/-!
# Behaviour

The meaning of the codes that instructions carry. An effect runs on a context, an observer is told of a
cancellation, a manipulator takes part in a fork. All of them may act on the realm.
-/

namespace Spellcast

/-- What to do after an instruction has run. -/
inductive Resolution where
  /-- Go on in the same context. -/
  | proceed
  /-- Go on in a child and cancel the context. -/
  | fork
deriving DecidableEq

/-- What codes mean. -/
structure Behaviour (κ : Type) where
  /-- The name of an effect. -/
  effectName : κ → String
  /-- Runs an effect. -/
  cast : κ → Context κ → Realm → Resolution × Context κ × Realm
  /-- Tells an observer that the context is canceled; it answers whether later observers are told as well. -/
  notify : κ → Context κ → Realm → Bool × Context κ × Realm
  /-- Asks a manipulator whether it wants to supply the child of a fork. -/
  wantsPush : κ → Context κ → Realm → Bool × Realm
  /-- Asks a manipulator for the child of a fork. -/
  propose : κ → Context κ → Realm → Option (Context κ) × Realm

namespace Behaviour

/-- Nothing happens, whatever the code. -/
def inert (κ : Type) : Behaviour κ where
  effectName _ := ""
  cast _ context realm := (.proceed, context, realm)
  notify _ context realm := (true, context, realm)
  wantsPush _ _ realm := (false, realm)
  propose _ _ realm := (none, realm)

end Behaviour

end Spellcast
