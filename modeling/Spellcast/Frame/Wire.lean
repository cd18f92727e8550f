/-!
# Fields on the wire

A message on the wire is a row of fields, each a number with a value. Numbers and lengths are written seven bits
to a byte, the lowest bits first. `Wire.write` writes fields that a message can have, and `Wire.read?` also
passes over values that nobody asks for: those of fixed width, and groups, whose content is left out.
-/

namespace Spellcast.Wire

abbrev Bytes := List UInt8

/-- The bytes of a number: every byte but the last has its highest bit set. -/
def writeNumber (number : Nat) : Bytes :=
  if number < 128 then [UInt8.ofNat number]
  else UInt8.ofNat (number % 128 + 128) :: writeNumber (number / 128)
termination_by number

/-- Reads the bytes of a number, at most so many. -/
def readDigits? : Nat → Bytes → Option (Nat × Bytes)
  | 0, _ => none
  | _, [] => none
  | count + 1, byte :: rest =>
    if byte < 128 then some (byte.toNat, rest)
    else (readDigits? count rest).map fun (high, rest) => (byte.toNat % 128 + 128 * high, rest)

def longestNumber : Nat := 10

/-- Reads a number. It takes at most ten bytes and fits 64 bits. -/
def readNumber? (input : Bytes) : Option (Nat × Bytes) :=
  match readDigits? longestNumber input with
  | some (number, rest) => if number ≤ 0xFFFFFFFFFFFFFFFF then some (number, rest) else none
  | none => none

/-- How the value of a field is laid out. -/
inductive Kind where
  | number
  | eightBytes
  | content
  | groupStart
  | groupEnd
  | fourBytes
deriving DecidableEq

namespace Kind

def code : Kind → Nat
  | number => 0
  | eightBytes => 1
  | content => 2
  | groupStart => 3
  | groupEnd => 4
  | fourBytes => 5

def ofCode? : Nat → Option Kind
  | 0 => some number
  | 1 => some eightBytes
  | 2 => some content
  | 3 => some groupStart
  | 4 => some groupEnd
  | 5 => some fourBytes
  | _ => none

end Kind

/-- The number of a field and the kind of its value. -/
structure Key where
  field : Nat
  kind : Kind
deriving DecidableEq

def Key.write (key : Key) : Bytes := writeNumber (key.field * 8 + key.kind.code)

/-- Reads a key. It fits 32 bits, and fields are counted from one. -/
def Key.read? (input : Bytes) : Option (Key × Bytes) := do
  let (key, rest) ← readNumber? input
  if key ≤ 0xFFFFFFFF ∧ 8 ≤ key then
    let kind ← Kind.ofCode? (key % 8)
    some (⟨key / 8, kind⟩, rest)
  else none

/-- The bytes behind the first ones, as long as there are so many. -/
def drop? (count : Nat) (input : Bytes) : Option Bytes :=
  if count ≤ input.length then some (input.drop count) else none

def readContent? (input : Bytes) : Option (Bytes × Bytes) := do
  let (length, rest) ← readNumber? input
  if length ≤ rest.length then some (rest.take length, rest.drop length) else none

def writeContent (content : Bytes) : Bytes := writeNumber content.length ++ content

/-- Passes over the fields of a group and its end, which has the number of the group. Groups inside of it may
nest so many levels deep, and the fields of the innermost are one level deeper. The first argument bounds the
number of fields. -/
def skipGroup? : Nat → Nat → Nat → Bytes → Option Bytes
  | 0, _, _, _ => none
  | bound + 1, levels, field, input => do
    let (key, rest) ← Key.read? input
    if key.kind = .groupEnd then
      if key.field = field then some rest else none
    else if levels = 0 then none
    else
      let rest ← match key.kind with
        | .number => (readNumber? rest).map (·.2)
        | .eightBytes => drop? 8 rest
        | .content => (readContent? rest).map (·.2)
        | .fourBytes => drop? 4 rest
        | .groupStart => skipGroup? bound (levels - 1) key.field rest
        | .groupEnd => none
      skipGroup? bound levels field rest

inductive Value where
  | number (value : Nat)
  | content (bytes : Bytes)
  /-- A value that is only passed over. -/
  | skipped
deriving DecidableEq

structure Field where
  number : Nat
  value : Value
deriving DecidableEq

namespace Field

/-- The bytes of a field. A value that was passed over is not written again. -/
def write (field : Field) : Bytes :=
  match field.value with
  | .number value => (Key.mk field.number .number).write ++ writeNumber value
  | .content bytes => (Key.mk field.number .content).write ++ writeContent bytes
  | .skipped => []

/-- Reads a field. Groups in it nest so many levels deep. -/
def read? (levels : Nat) (input : Bytes) : Option (Field × Bytes) := do
  let (key, rest) ← Key.read? input
  match key.kind with
  | .number => do
    let (value, rest) ← readNumber? rest
    some (⟨key.field, .number value⟩, rest)
  | .content => do
    let (bytes, rest) ← readContent? rest
    some (⟨key.field, .content bytes⟩, rest)
  | .eightBytes => (drop? 8 rest).map (⟨key.field, .skipped⟩, ·)
  | .fourBytes => (drop? 4 rest).map (⟨key.field, .skipped⟩, ·)
  | .groupStart => (skipGroup? rest.length (levels - 1) key.field rest).map (⟨key.field, .skipped⟩, ·)
  | .groupEnd => none

end Field

def write (fields : List Field) : Bytes := fields.flatMap Field.write

/-- Reads fields up to the end of the message. The first argument bounds their number. -/
def readFields? (levels : Nat) : Nat → Bytes → Option (List Field)
  | _, [] => some []
  | 0, _ :: _ => none
  | bound + 1, input => do
    let (field, rest) ← Field.read? levels input
    let others ← readFields? levels bound rest
    some (field :: others)

/-- Reads a message as a row of fields. Every field takes at least one byte. -/
def read? (levels : Nat) (input : Bytes) : Option (List Field) := readFields? levels input.length input

end Spellcast.Wire
