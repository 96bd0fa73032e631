import Flowgraph.Executable.PolicyNumbers
import Flowgraph.Executable.Repair
import Flowgraph.Executable.Resolve
import Flowgraph.Path
import Flowgraph.Placeholder
import Flowgraph.Secret
import Flowgraph.Workflow.Codec

/-! From template to executable: answers are filled in, numbers straightened, triggers and actions resolved,
    secrets pointed out. A document comes out if in the end everything can be run. -/

namespace Flowgraph

open Json

/-- The fields every workflow document has to have. -/
def requiredFields : List String := ["workflow_id", "version", "triggers", "actions"]

/-- The lists of things to be resolved. -/
def entityLists : List String := ["triggers", "actions"]

/-- The items of a list in a document, with their paths. -/
def entitiesOf (doc : Value) (list : String) : List (String × Value) :=
  match doc.member? list with
  | some (.arr items) => items.zipIdx.map fun (item, i) => (indexed list i, item)
  | _ => []

/-- The triggers and actions of a document, with their paths. -/
def entities (doc : Value) : List (String × Value) := entityLists.flatMap (entitiesOf doc)

/-- How templates are compiled. -/
structure Materializer where
  repair : RepairStrategy
  scanner : SecretScanner

namespace Materializer

def standard : Materializer := ⟨.none, .standard⟩

/-- Whether a template has the fields of a workflow, and each trigger and action a local id. -/
def validate (template : Value) : Traced Bool := do
  let valid ← Path.requireFields template requiredFields ""
  (entities template).foldlM (fun valid (path, item) => do
    let fine ← Path.requireFields item ["local_id"] path
    pure (valid && fine)) valid

/-- The fields of a trigger or action that hold parameters. -/
def paramFields : List String := ["configuration", "required_inputs", "optional_inputs"]

mutual

/-- The placeholders left in a value at a path, each with the path of its text. -/
def openPlaceholders (path : String) : Value → List (String × String)
  | .str s => (Placeholder.keys s).map fun key => (key, path)
  | .arr items => openInItems path 0 items
  | .obj members => openInMembers path members
  | .null | .bool _ | .num _ => []

def openInItems (path : String) (i : Nat) : List Value → List (String × String)
  | [] => []
  | v :: vs => openPlaceholders (indexed path i) v ++ openInItems path (i + 1) vs

def openInMembers (path : String) : List (String × Value) → List (String × String)
  | [] => []
  | (k, v) :: ms => openPlaceholders (path ++ "." ++ k) v ++ openInMembers path ms

end

/-- The hints for the placeholders left in the parameters of triggers and actions. -/
def placeholderHints (working : Value) : List String :=
  (entities working).flatMap fun (path, item) =>
    paramFields.flatMap fun field => match item.member? field with
      | some params => (openPlaceholders (path ++ "." ++ field) params).map fun (key, place) =>
        "Unresolved placeholder '\x7b\x7b" ++ key ++ "\x7d\x7d' at " ++ place
      | none => []

/-- The template with answers and plain numbers, ready to be read. -/
def prepare (template : Value) (answers : Object) : Traced Value := do
  let working := Placeholder.apply answers template
  (placeholderHints working).forM Traced.hint
  PolicyNumbers.coerce working

/-- The errors for what has no exec block. -/
def missingExecErrors (w : Workflow) : List Diagnostic :=
  w.missingExec.map fun (path, localId) =>
    ⟨.missingExecBlock, path, "'" ++ localId ++ "' has no exec block",
      some "Resolve the errors reported for this entity"⟩

/-- Mends a resolved document and judges it. -/
def finish (m : Materializer) (w : Workflow) (log : Diagnostics) : Outcome Workflow :=
  let log := log ++ m.scanner.scan w.toValue
  let (w, repairs) := m.repair w log
  let log := { log with repairs := log.repairs ++ repairs }
  match missingExecErrors w with
  | [] => ⟨some w, log⟩
  | errors => ⟨none, { log with errors := log.errors ++ errors }⟩

/-- Compiles a template. There is no document if the template is no workflow, or if a trigger or action
    stays without an exec block. -/
def compile (m : Materializer) (template : Value) (c : Context) : Outcome Workflow :=
  let valid := validate template
  if !valid.value then ⟨none, valid.log⟩
  else
    let working := prepare template c.answers
    let log := valid.log ++ working.log
    match Workflow.ofValue working.value with
    | .error cause =>
      ⟨none, log.addError .internalError "" (MalformedDocument.message ⟨"template", cause⟩) none⟩
    | .ok w =>
      let resolved := c.resolve w
      m.finish resolved.value (log ++ resolved.log)

/-- Compiles a template that has been read already. -/
def compileDocument (m : Materializer) (template : Workflow) (c : Context) : Outcome Workflow :=
  m.compile template.toValue c

end Materializer

end Flowgraph
