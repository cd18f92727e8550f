import Spellcast.Format
import Spellcast.Toml.Document

/-!
# Reading TOML

TOML as a `Format`. Records may be listed, and what is listed behind their members is not looked at. Nothing stands
for a missing value, and a date counts as a record without any known members.
-/

namespace Spellcast.Toml

namespace Value

def offer : Value → Offer Value
  | .table entries _ => .members (entries.map fun (key, value) => (.text key, value)) true
  | .moment => .members [] true
  | .list items => .items items true
  | .rows tables => .items (tables.map (.table · .heading)) true
  | _ => .other

def text? : Value → Option String
  | .text value => some value
  | _ => none

def natural? : Value → Option Nat
  | .int (.ofNat value) => some value
  | _ => none

/-- The notation of the values of a document. It gives no JSON values. -/
def format : Format (Except Unfit) Value where
  offer value := pure value.offer
  depthLimit := none
  listing := .leading
  text value := Format.require value.text?
  natural value := Format.require value.natural?
  present? value := pure (some value)
  skip _ := pure ()
  json _ _ := throw .malformed

end Value

def readText {α : Type} (read : Value → Except Unfit α) (input : String) : Except Unfit α :=
  match readDocument? input.toList with
  | some entries => read (.table entries .heading)
  | none => .error .malformed

end Spellcast.Toml
