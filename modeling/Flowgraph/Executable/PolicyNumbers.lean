import Flowgraph.Coercion
import Flowgraph.Workflow

/-! The numbers of policies and loops before a template is read. An answer comes in as text, so a number
    may be written as one; it is made a number here. One that cannot be is left out with a warning, and
    the next source of the policy applies. -/

namespace Flowgraph.PolicyNumbers

open Json

/-- The kinds of numbers that policies hold. -/
inductive NumericKind where
  | uint32
  | uint64
  | double
  deriving DecidableEq, Repr

/-- A whole number between zero and `max`. -/
def coerceNatural (max : Nat) (expected : String) (v : Value) : Except CoercionError Value :=
  match Coercion.coerce v .integer with
  | .ok (.num (.int n)) =>
    if 0 ≤ n ∧ n ≤ max then .ok (.num (.int n)) else .error ⟨expected, v⟩
  | .ok _ => .error ⟨expected, v⟩
  | .error e => .error e

def NumericKind.coerce (kind : NumericKind) (v : Value) : Except CoercionError Value :=
  match kind with
  | .double => Coercion.coerce v .number
  | .uint32 => coerceNatural uint32Max "unsigned 32-bit integer" v
  | .uint64 => coerceNatural uint64Max "unsigned integer" v

/-- A field and the kind of its number. -/
abbrev NumericField := String × NumericKind

def retryFields : List NumericField :=
  [("max_attempts", .uint32), ("backoff_multiplier", .double), ("initial_delay_ms", .uint64)]

def rateLimitFields : List NumericField := [("requests_per_minute", .uint32)]

def actionFields : List NumericField := [("timeout_ms", .uint64)]

def policiesFields : List NumericField := [("timeout_ms", .uint64), ("max_parallelism", .uint32)]

def loopFields : List NumericField := [("max_iterations", .uint32), ("max_concurrency", .uint32)]

def nextSourceHint : String := "The next policy source applies"

def loopDefaultHint : String := "The loop default applies"

/-- Reports a value that was left out. -/
def refuse (path hint : String) (e : CoercionError) : Traced Unit :=
  Traced.warning .paramCoercionFailed path e.message (some hint)

/-- Makes a field of an object a number. The second result tells whether it is one now, or there is
    nothing to be one. -/
def coerceField (path hint : String) (container : Value) (field : NumericField) :
    Traced (Value × Bool) :=
  match container.member? field.1 with
  | none => pure (container, true)
  | some v =>
    if v.isNull then pure (container, true)
    else match field.2.coerce v with
      | .ok w => pure (container.updateMember field.1 fun _ => w, true)
      | .error e => do
        refuse (path ++ "." ++ field.1) hint e
        pure (container, false)

/-- Makes a field a number or leaves it out. -/
def coerceOrDrop (path hint : String) (container : Value) (field : NumericField) :
    Traced Value := do
  let (container, valid) ← coerceField path hint container field
  pure (if valid then container else container.withoutMember field.1)

/-- Makes all fields of an object numbers, and tells whether that went well for all of them. -/
def coerceFields (path : String) (container : Value) (fields : List NumericField) :
    Traced (Value × Bool) :=
  fields.foldlM (fun (v, valid) field => do
    let (v, fine) ← coerceField path nextSourceHint v field
    pure (v, valid && fine)) (container, true)

/-- A policy that is an object: one with a field that is no number is left out as a whole. -/
def coerceObject (path : String) (container : Value) (name : String)
    (fields : List NumericField) : Traced Value :=
  let objectPath := path ++ "." ++ name
  match container.member? name with
  | none => pure container
  | some .null => pure container
  | some (.obj members) => do
    let (v, valid) ← coerceFields objectPath (.obj members) fields
    pure (if valid then container.updateMember name fun _ => v else container.withoutMember name)
  | some v => do
    refuse objectPath nextSourceHint ⟨"object", v⟩
    pure (container.withoutMember name)

/-- A set of policies: its plain numbers, then its retry policy and its rate limit. -/
def coercePolicySet (path : String) (fields : List NumericField) (container : Value) :
    Traced Value := do
  let v ← fields.foldlM (coerceOrDrop path nextSourceHint) container
  let v ← coerceObject path v "retry" retryFields
  coerceObject path v "rate_limit" rateLimitFields

/-- A loop block. -/
def coerceLoop (path : String) (block : Value) : Traced Value :=
  loopFields.foldlM (coerceOrDrop path loopDefaultHint) block

/-- Runs a step on the value under a key, if the key is there. -/
def onMember (key : String) (f : Value → Traced Value) (v : Value) : Traced Value :=
  match v.member? key with
  | some w => do
    let w ← f w
    pure (v.updateMember key fun _ => w)
  | none => pure v

/-- Runs a step on each item of a list, with its path. -/
def onItems (list : String) (f : String → Value → Traced Value) (v : Value) : Traced Value :=
  match v with
  | .arr items => do
    let items ← items.zipIdx.mapM fun (item, i) => f (indexed list i) item
    pure (.arr items)
  | v => pure v

/-- All policy and loop numbers of a template: of its actions, of the workflow, of its loops. -/
def coerce (template : Value) : Traced Value := do
  let v ← onMember "actions" (onItems "actions" (coercePolicySet · actionFields)) template
  let v ← onMember "policies" (coercePolicySet "policies" policiesFields) v
  onMember "flow_control" (onMember "loops" (onItems "flow_control.loops" coerceLoop)) v

end Flowgraph.PolicyNumbers
