import Flowgraph.Text.Split
import Flowgraph.Traced

/-! Dotted paths into a JSON document: `a.b.0` is item `0` of member `b` of member `a`. -/

namespace Flowgraph.Path

open Json

/-- The segments of a path. -/
def segments (path : String) : List String := Text.split '.' path

/-- What a segment names in a value: a member of an object, or an item of a list by its number. -/
def child? (v : Value) (segment : String) : Option Value :=
  match v with
  | .obj members => Object.member? members segment
  | .arr items => match Numeral.natural uint64Max segment.toList with
    | .ok i => items[i]?
    | .error _ => none
  | _ => none

/-- What a row of segments leads to. -/
def walk? (v : Value) : List String → Option Value
  | [] => some v
  | s :: ss => (child? v s).bind (walk? · ss)

/-- What a path leads to; the empty path leads to the document. -/
def get? (doc : Value) (path : String) : Option Value :=
  if path = "" then some doc else walk? doc (segments path)

/-- Puts a value where the segments lead to. What stands in the way and is no object gives place to
    one. -/
def setAlong (v : Value) (doc : Value) : List String → Value
  | [] => v
  | s :: ss =>
    let members := match doc with
      | .obj members => members
      | _ => []
    let child := (Object.member? members s).getD (.obj [])
    .obj (Object.put s (setAlong v child ss) members)

/-- Puts a value where a path leads to. -/
def set (doc : Value) (path : String) (v : Value) : Value := setAlong v doc (segments path)

/-- A field is there and not `null`. -/
def isPresent (doc : Value) (field : String) : Bool :=
  match get? doc field with
  | some v => !v.isNull
  | none => false

/-- A field below a path; the empty path is that of the document. -/
def below (path field : String) : String := if path = "" then field else path ++ "." ++ field

/-- Whether all fields are present; the first that is not is reported. -/
def requireFields (doc : Value) (fields : List String) (path : String) : Traced Bool :=
  match fields.find? (fun f => !isPresent doc f) with
  | none => pure true
  | some f => do
    Traced.error .missingRequiredField (below path f) ("Required field '" ++ f ++ "' is missing")
      none
    pure false

end Flowgraph.Path
