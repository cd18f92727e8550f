import Spellcast.Frame.Wire

/-!
# Frames

The form in which a program travels: the names of its instructions as texts, and its look with the style as a
JSON text. Nothing about a frame is checked beyond that its texts are texts; `Frame.read?` reads back what
`Frame.write` writes, and a look that occurs several times is put together from all its occurrences.
-/

namespace Spellcast

open Wire (Bytes)

/-- The look in a frame. The channels are 32 bits wide. -/
structure FrameVisual where
  red : Nat
  green : Nat
  blue : Nat
  style : String
deriving DecidableEq

structure Frame where
  instructions : List String
  visual : Option FrameVisual
deriving DecidableEq

namespace Wire

def ofText (text : String) : Bytes := text.toUTF8.data.toList

/-- The text that bytes stand for, if they do. -/
def toText? (bytes : Bytes) : Option String := String.fromUTF8? ⟨bytes.toArray⟩

end Wire

namespace FrameVisual

def empty : FrameVisual := ⟨0, 0, 0, ""⟩

def levels : Nat := 99

/-- The field of a channel; zero is not written. -/
def channelField (number value : Nat) : List Wire.Field :=
  if value = 0 then [] else [⟨number, .number value⟩]

/-- The fields of a look; an empty style is not written. -/
def fields (visual : FrameVisual) : List Wire.Field :=
  channelField 1 visual.red ++ channelField 2 visual.green ++ channelField 3 visual.blue ++
    if visual.style.isEmpty then [] else [⟨4, .content (Wire.ofText visual.style)⟩]

/-- A channel keeps the lowest 32 bits of what is written. -/
def channel (value : Nat) : Nat := value % 0x100000000

/-- Adds a field to a look. A later channel or style replaces an earlier one, and unknown fields are passed
over. -/
def add? (visual : FrameVisual) (field : Wire.Field) : Option FrameVisual :=
  match field with
  | ⟨1, .number value⟩ => some { visual with red := channel value }
  | ⟨2, .number value⟩ => some { visual with green := channel value }
  | ⟨3, .number value⟩ => some { visual with blue := channel value }
  | ⟨4, .content bytes⟩ => (Wire.toText? bytes).map fun style => { visual with style }
  | ⟨number, _⟩ => if number ≤ 4 then none else some visual

def merge? (visual : FrameVisual) (bytes : Bytes) : Option FrameVisual :=
  match Wire.read? levels bytes with
  | some fields => fields.foldlM add? visual
  | none => none

end FrameVisual

namespace Frame

def empty : Frame := ⟨[], none⟩

def levels : Nat := 100

def fields (frame : Frame) : List Wire.Field :=
  frame.instructions.map (fun name => ⟨1, .content (Wire.ofText name)⟩) ++
    (frame.visual.map fun visual => (⟨2, .content (Wire.write visual.fields)⟩ : Wire.Field)).toList

def write (frame : Frame) : Bytes := Wire.write frame.fields

/-- Adds a field to a frame. Instructions are gathered, looks are merged, and unknown fields are passed
over. -/
def add? (frame : Frame) (field : Wire.Field) : Option Frame :=
  match field with
  | ⟨1, .content bytes⟩ =>
    (Wire.toText? bytes).map fun name => { frame with instructions := frame.instructions ++ [name] }
  | ⟨2, .content bytes⟩ =>
    ((frame.visual.getD .empty).merge? bytes).map fun visual => { frame with visual := some visual }
  | ⟨number, _⟩ => if number ≤ 2 then none else some frame

def read? (bytes : Bytes) : Option Frame :=
  match Wire.read? levels bytes with
  | some fields => fields.foldlM add? empty
  | none => none

end Frame

end Spellcast
