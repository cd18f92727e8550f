import Spellcast.Identifier
import Spellcast.Json

/-!
# Reading records from a notation

A `Format` says how one notation shows its values: what it offers as a record, and what it takes for a text, a
natural number or a missing value. `Format.readRecord` then reads a record in any notation, by one set of rules:
unknown members are passed over, a repeated member is refused, and a notation may allow the members to be listed
in order. The members are met in the order of the text, so the first thing that is wrong decides. To look at a
value is a step in a monad that can fail with `Unfit`, so that a notation may also count such steps.
-/

namespace Spellcast

/-- Why a text does not fit what is wanted. Only an identifier that cannot be read has a wording of its
own. -/
inductive Unfit where
  | malformed
  | identifier (fault : Identifier.Fault)
deriving DecidableEq

/-- What a value offers to somebody who wants a record, a map or a list. -/
inductive Offer (ν : Type) where
  /-- Members, each a value that gives its name and the value under it, and whether the text goes on properly
  behind them. -/
  | members (entries : List (ν × ν)) (complete : Bool)
  /-- Values in order, and whether the text goes on properly behind them. -/
  | items (values : List ν) (complete : Bool)
  /-- Nothing is written at all. -/
  | blank
  /-- Something else. -/
  | other

/-- Whether the members of a record may be listed in order, without their names. -/
inductive Listing where
  | never
  /-- Nothing else may be listed behind them. -/
  | exact
  /-- What is listed behind them is not looked at. -/
  | leading
deriving DecidableEq

/-- How a notation shows its values. -/
structure Format (m : Type → Type) (ν : Type) where
  /-- What a value offers. -/
  offer : ν → m (Offer ν)
  /-- How many containers may be nested, if that is bounded. -/
  depthLimit : Option Nat
  /-- Whether records may be listed. -/
  listing : Listing
  /-- The value as a text. -/
  text : ν → m String
  /-- The value as a natural number. -/
  natural : ν → m Nat
  /-- The value unless it stands for a missing one. -/
  present? : ν → m (Option ν)
  /-- Passes over the value. -/
  skip : ν → m Unit
  /-- The value as JSON, at the given depth of nesting. -/
  json : Nat → ν → m Json

namespace Format

variable {m : Type → Type} {ν σ α : Type} [Monad m] [MonadExcept Unfit m]

/-- A part that must be there, or the text is malformed. -/
def require (part : Option α) : m α :=
  match part with
  | some value => pure value
  | none => throw .malformed

/-- Goes on only if what has been read so far is right. -/
def ensure (right : Bool) : m Unit :=
  if right then pure () else throw .malformed

def allows (format : Format m ν) (depth : Nat) : Bool :=
  match format.depthLimit with
  | none => true
  | some limit => depth < limit

def readNatural (format : Format m ν) (limit : Nat) (value : ν) : m Nat := do
  let number ← format.natural value
  ensure (decide (number ≤ limit))
  pure number

def readIdentifier (format : Format m ν) (value : ν) : m Identifier := do
  let input ← format.text value
  match Identifier.parse input with
  | .ok id => pure id
  | .error fault => throw (.identifier fault)

def readOptional (format : Format m ν) (read : ν → m α) (value : ν) : m (Option α) := do
  match ← format.present? value with
  | some value => some <$> read value
  | none => pure none

/-- Reads values in order and stops at the first that does not fit. -/
def readAll (read : ν → m α) : List ν → m (List α)
  | [] => pure []
  | value :: rest => do
    let first ← read value
    let others ← readAll read rest
    pure (first :: others)

def readList (format : Format m ν) (depth : Nat) (read : ν → m α) (value : ν) : m (List α) := do
  match ← format.offer value with
  | .items values complete =>
    ensure (format.allows depth)
    let results ← readAll read values
    ensure complete
    pure results
  | .blank => pure []
  | _ => throw .malformed

def readEntries (format : Format m ν) (depth : Nat) : Fields → List (ν × ν) → m Fields
  | fields, [] => pure fields
  | fields, (key, value) :: rest => do
    let key ← format.text key
    let value ← format.json depth value
    readEntries format depth (Fields.insert key value fields) rest

/-- A map from texts to JSON values. Of several values under one key the last one stays. -/
def readMap (format : Format m ν) (depth : Nat) (value : ν) : m Fields := do
  match ← format.offer value with
  | .members entries complete =>
    ensure (format.allows depth)
    let fields ← readEntries format (depth + 1) [] entries
    ensure complete
    pure fields
  | .blank => pure []
  | _ => throw .malformed

/-- A member of a record that is gathered in `σ`: its name, whether it may be missing at the end of a listed
record, whether it has been read already, and how it is read. -/
structure Member (m : Type → Type) (ν σ : Type) where
  name : String
  optional : Bool
  given : σ → Bool
  read : Nat → ν → σ → m σ

def readMembers (format : Format m ν) (depth : Nat) (plan : List (Member m ν σ)) : σ → List (ν × ν) → m σ
  | gathered, [] => pure gathered
  | gathered, (name, value) :: rest => do
    let name ← format.text name
    match plan.find? (·.name == name) with
    | some member =>
      ensure (!member.given gathered)
      let gathered ← member.read depth value gathered
      readMembers format depth plan gathered rest
    | none =>
      format.skip value
      readMembers format depth plan gathered rest

/-- Reads listed members: there may be fewer only if the missing ones are optional, and more only if what is
listed behind the members is not looked at. -/
def readListed (listing : Listing) (depth : Nat) : List (Member m ν σ) → σ → List ν → m σ
  | plan, gathered, [] => do
    ensure (plan.all (·.optional))
    pure gathered
  | [], gathered, _ :: _ => do
    ensure (decide (listing = .leading))
    pure gathered
  | member :: plan, gathered, value :: rest => do
    let gathered ← member.read depth value gathered
    readListed listing depth plan gathered rest

def readRecord (format : Format m ν) (depth : Nat) (plan : List (Member m ν σ)) (start : σ) (value : ν) : m σ := do
  match ← format.offer value with
  | .members entries complete =>
    ensure (format.allows depth)
    let gathered ← format.readMembers (depth + 1) plan start entries
    ensure complete
    pure gathered
  | .items values complete =>
    ensure (decide (format.listing ≠ .never) && format.allows depth)
    let gathered ← readListed format.listing (depth + 1) plan start values
    ensure complete
    pure gathered
  | .blank => pure start
  | .other => throw .malformed

end Format

end Spellcast
