import GateRules.Json.Skip

/-!
# Records in JSON

A record is written as an object, its fields in any order, or as a list, its fields in the order they are declared. What
is read so far is kept in a value of a type of its own, with a place for each field. A field that comes twice is refused
when its name is seen; a field that is missing is noticed at the end.
-/

namespace GateRules

/-- A field of a record, where `σ` holds what was read so far. -/
structure Json.Field (σ : Type) where
  name : String
  /-- Whether the field may be missing. -/
  isOptional : Bool
  /-- Whether the field was read. -/
  isRead : σ → Bool
  /-- The reader of the field's value, which puts it into its place. -/
  read : σ → Json.Decoder σ

/-- The shape of a record of type `α`, where `σ` holds what was read so far. -/
structure Json.Shape (σ α : Type) where
  name : String
  /-- Whether a member that is no field of the record is refused. -/
  isClosed : Bool
  fields : List (Field σ)
  /-- Nothing read so far. -/
  start : σ
  /-- The record, unless a field is missing. -/
  finish : σ → Except Misfit α

/-- The reader of the value of a member, given its key. -/
def Json.Shape.member (shape : Shape σ α) (s : σ) (key : String) : Json.Decoder σ :=
  match shape.fields.find? fun field => field.name = key with
  | some field =>
    if field.isRead s then Reader.refuse (.misfit (.duplicateField key))
    else (mark ':').andThen fun _ => field.read s
  | none =>
    if shape.isClosed then Reader.refuse (.misfit (.unknownField key (shape.fields.map Field.name)))
    else (mark ':').andThen fun _ => skip.map fun _ => s

/-- The fields of a record written as a list, after the opening bracket. `place` counts the fields before. The fields
after the last element must be ones that may be missing. -/
def Json.Shape.elementsFrom (shape : Shape σ α) (place : Nat) (fields : List (Field σ)) (s : σ) (cs : List Char) :
    Except Fault (σ × List Char) :=
  match fields with
  | [] => match (mark ']').run cs with
    | .error fault => .error fault
    | .ok (_, rest) => .ok (s, rest)
  | field :: more => match nextElement (place = 0) cs with
    | .error fault => .error fault
    | .ok (.close rest) => match (field :: more).findIdx? fun f => !f.isOptional with
      | some missing => .error (.misfit (.wrongLength (place + missing) shape.name shape.fields.length))
      | none => .ok (s, rest)
    | .ok (.item here) => match (field.read s).run here with
      | .error fault => .error fault
      | .ok (s, rest) => shape.elementsFrom (place + 1) more s rest

/-- The fields of a record written as a list take up some of the text, at least the closing bracket. -/
theorem Json.Shape.length_elementsFrom {shape : Shape σ α} {place : Nat} {fields : List (Field σ)} {s t : σ}
    {cs rest : List Char} (h : shape.elementsFrom place fields s cs = .ok (t, rest)) : rest.length < cs.length := by
  induction fields generalizing place s cs with
  | nil =>
    unfold elementsFrom at h
    split at h
    · cases h
    · rename_i hm
      cases h
      exact (mark ']').shortens hm
  | cons field more ih =>
    unfold elementsFrom at h
    split at h
    · cases h
    · rename_i hn
      split at h
      · cases h
      · cases h
        exact length_nextElement_close hn
    · rename_i hn
      have := length_nextElement_item hn
      split at h
      · cases h
      · rename_i hr
        have := (field.read s).shortens hr
        have := ih h
        omega

/-- The reader of a record. -/
def Json.record (shape : Shape σ α) : Json.Decoder α :=
  check
    (byFirst
      (fun c rest =>
        if c = '\x7b' then members shape.member true shape.start rest
        else if c = '[' then shape.elementsFrom 0 shape.fields shape.start rest
        else .error (mismatch (.record shape.name) c rest))
      fun {c cs a rest} h => by
        split at h
        · exact Nat.le_of_lt (length_members h)
        · split at h
          · exact Nat.le_of_lt (Shape.length_elementsFrom h)
          · cases h)
    shape.finish

/-- The value of a field that has to be there. -/
def Json.required (name : String) (value : Option α) : Except Misfit α :=
  match value with
  | some a => .ok a
  | none => .error (.missingField name)

end GateRules
