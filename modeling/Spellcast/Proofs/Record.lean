import Spellcast.Proofs.Identifier
import Spellcast.Proofs.Json.Value
import Spellcast.Record

/-!
# Records read back

The record of a program is read back from the text of its JSON form. Only its style can go wrong, since that is the only
part that holds arbitrary values: everything else in a record has a fixed depth, and its numbers are channels.
-/

namespace Spellcast

open Json (depthLimit toTree toTrees toMembers nestingOfFields rereadFields)

section Steps

variable {α β : Type} {value : α} {unfit : Unfit}

@[simp]
theorem pure_eq_ok : (pure value : Except Unfit α) = .ok value := rfl

@[simp]
theorem ok_bind (next : α → Except Unfit β) : (Except.ok value >>= next) = next value := rfl

@[simp]
theorem error_bind (next : α → Except Unfit β) : (Except.error unfit >>= next) = .error unfit := rfl

@[simp]
theorem Format.require_some : (Format.require (some value) : Except Unfit α) = .ok value := rfl

@[simp]
theorem Format.require_none : (Format.require none : Except Unfit α) = .error .malformed := rfl

@[simp]
theorem Format.ensure_true : (Format.ensure true : Except Unfit Unit) = .ok () := rfl

@[simp]
theorem Format.ensure_false : (Format.ensure false : Except Unfit Unit) = .error .malformed := rfl

end Steps

namespace Json

theorem readEntries_eq
    (depth : Nat)
    (gathered : Fields)
    (members : List (Option String × Tree)) :
    Tree.format.readEntries depth gathered (members.map fun (key, value) => (.text key, value)) =
      (Format.require (Tree.toFields? depth gathered members) : Except Unfit Fields) := by
  induction members generalizing gathered with
  | nil =>
      rfl
  | cons member rest inductionHypothesis =>
      obtain ⟨key, value⟩ := member
      cases key with
      | none =>
          rfl
      | some key =>
          cases read : Tree.toJson? depth value with
          | none =>
              simp [Format.readEntries, Tree.format, Tree.text?, Tree.toFields?, read]
          | some result =>
              have text : Tree.format.text (.text (some key)) = .ok key := rfl
              have json : Tree.format.json depth value = .ok result := by simp [Tree.format, read]
              rw [List.map_cons, Format.readEntries, text, ok_bind, json, ok_bind, inductionHypothesis]
              simp [Tree.toFields?, read]

theorem allows_eq (depth : Nat) : Tree.format.allows depth = decide (depth < depthLimit) := rfl

/-- A tree is read as a map exactly if it stands for an object; otherwise the text is malformed. -/
theorem readMap_eq
    (depth : Nat)
    (tree : Tree) :
    Tree.format.readMap depth tree =
      match Tree.toJson? depth tree with
      | some (.object fields) => .ok fields
      | _ => .error .malformed := by
  match tree with
  | .null => rfl
  | .bool _ => rfl
  | .number numeral =>
      rw [Tree.toJson?]
      cases stands : numeral.value? with
      | none => rfl
      | some value =>
          rcases value?_cases stands with ⟨number, rfl⟩ | ⟨number, rfl, -⟩
          · rfl
          · rfl
  | .text content => cases content <;> rfl
  | .list items closed =>
      rw [Tree.toJson?]
      by_cases allowed : depth < depthLimit ∧ closed = true
      · rw [if_pos allowed]
        cases Tree.toItems? (depth + 1) items <;> rfl
      · rw [if_neg allowed]
        rfl
  | .fault => rfl
  | .object members closed =>
      have offered : Tree.format.offer (.object members closed) =
          .ok (.members (members.map fun (key, value) => (.text key, value)) closed) := rfl
      rw [Format.readMap, offered, Tree.toJson?]
      simp only [ok_bind, allows_eq, readEntries_eq]
      by_cases deep : depth < depthLimit
      · cases read : Tree.toFields? (depth + 1) [] members with
        | none => cases closed <;> simp [deep]
        | some fields => cases closed <;> simp [deep]
      · simp [deep]

/-- What the map of an object is read as: its values are one level deeper than the map. -/
theorem readMap_toTree
    {style : Fields}
    (depth : Nat)
    (wellFormed : (object style).WellFormed) :
    Tree.format.readMap depth (toTree (.object style)) =
      if nestingOfFields style + 1 ≤ depthLimit - depth then Format.require (rereadFields style)
      else .error .malformed := by
  rw [readMap_eq, toJson?_toTree _ depth wellFormed, nesting, reread]
  by_cases nested : nestingOfFields style + 1 ≤ depthLimit - depth
  · rw [if_pos nested, if_pos nested]
    cases rereadFields style <;> rfl
  · rw [if_neg nested, if_neg nested]

end Json

theorem readIdentifier_text (id : Identifier) :
    Json.Tree.format.readIdentifier (.text (some id.text)) = .ok id := by
  have text : Json.Tree.format.text (.text (some id.text)) = .ok id.text := rfl
  simp [Format.readIdentifier, text, id.parse_text]

theorem readAll_names (ids : List Identifier) :
    Format.readAll Json.Tree.format.readIdentifier (toTrees (ids.map fun id => .text id.text)) = .ok ids := by
  induction ids with
  | nil =>
      rfl
  | cons id rest inductionHypothesis =>
      simp [toTrees, toTree, Format.readAll, readIdentifier_text, inductionHypothesis]

theorem readChannel_nat (value : UInt8) :
    Color.readChannel Json.Tree.format (toTree (.nat value.toNat)) = .ok value := by
  have small : value.toNat < 256 := value.toNat_lt
  have number : (Json.intNumeral value.toNat).value? = some (.int value.toNat) :=
    Json.value?_intNumeral (by omega) (by omega)
  have natural : Json.Tree.format.natural (toTree (.nat value.toNat)) = .ok value.toNat := by
    simp only [Json.nat, toTree, Json.Tree.format, Json.Tree.natural?, number]
    rfl
  have inRange : value.toNat ≤ 255 := by omega
  simp [Color.readChannel, Format.readNatural, natural, inRange]

/-- A colour is read back. -/
theorem Color.read_toTree
    (color : Color)
    {depth : Nat}
    (allowed : depth < depthLimit) :
    Color.read Json.Tree.format depth color.toJson.toTree = .ok color := by
  have text : ∀ content, Json.Tree.format.text (.text (some content)) = .ok content := fun _ => rfl
  have offered : Json.Tree.format.offer color.toJson.toTree =
      .ok (.members [(.text (some "red"), toTree (.nat color.red.toNat)),
        (.text (some "green"), toTree (.nat color.green.toNat)),
        (.text (some "blue"), toTree (.nat color.blue.toNat))] true) := rfl
  simp [Color.read, Format.readRecord, offered, Json.allows_eq, allowed, Format.readMembers, text, plan, readChannel_nat]

/-- A look is read back as far as its style is. -/
theorem Visual.read_toTree
    (visual : Visual)
    {depth : Nat}
    (allowed : depth + 1 < depthLimit) :
    Visual.read Json.Tree.format depth visual.toJson.toTree =
      (⟨visual.color, ·⟩) <$> Json.Tree.format.readMap (depth + 1) (toTree (.object visual.style)) := by
  have text : ∀ content, Json.Tree.format.text (.text (some content)) = .ok content := fun _ => rfl
  have offered : Json.Tree.format.offer visual.toJson.toTree =
      .ok (.members [(.text (some "color"), visual.color.toJson.toTree),
        (.text (some "style"), toTree (.object visual.style))] true) := rfl
  have outer : depth < depthLimit := Nat.lt_of_succ_lt allowed
  cases style : Json.Tree.format.readMap (depth + 1) (toTree (.object visual.style)) with
  | error unfit =>
      simp [Visual.read, Format.readRecord, offered, Json.allows_eq, outer, Format.readMembers, text, plan,
        Color.read_toTree visual.color allowed, style]
  | ok fields =>
      simp [Visual.read, Format.readRecord, offered, Json.allows_eq, outer, Format.readMembers, text, plan,
        Color.read_toTree visual.color allowed, style]

/-- A record is read back as far as the style in it is. -/
theorem Record.read_toTree (record : Record) :
    Record.read Json.Tree.format 0 record.toJson.toTree =
      (fun style => ⟨record.instructions, record.visual.color, style⟩) <$>
        Json.Tree.format.readMap 2 (toTree (.object record.visual.style)) := by
  have text : ∀ content, Json.Tree.format.text (.text (some content)) = .ok content := fun _ => rfl
  have listed : Json.Tree.format.offer (toTree (.list (record.instructions.map fun id => .text id.text))) =
      .ok (.items (toTrees (record.instructions.map fun id => .text id.text)) true) := rfl
  have names : Json.Tree.format.readList 1 Json.Tree.format.readIdentifier
      (toTree (.list (record.instructions.map fun id => .text id.text))) = .ok record.instructions := by
    simp [Format.readList, listed, Json.allows_eq, depthLimit, readAll_names]
  have offered : Json.Tree.format.offer record.toJson.toTree =
      .ok (.members [(.text (some "instructions"), toTree (.list (record.instructions.map fun id => .text id.text))),
        (.text (some "visual"), record.visual.toJson.toTree)] true) := rfl
  have look := Visual.read_toTree record.visual (show 1 + 1 < depthLimit by decide)
  cases style : Json.Tree.format.readMap 2 (toTree (.object record.visual.style)) with
  | error unfit =>
      rw [style] at look
      simp [Record.read, Format.readRecord, offered, Json.allows_eq, depthLimit, Format.readMembers, text, plan, names,
        look]
  | ok fields =>
      rw [style] at look
      simp [Record.read, Format.readRecord, offered, Json.allows_eq, depthLimit, Format.readMembers, text, plan, names,
        look]

end Spellcast
