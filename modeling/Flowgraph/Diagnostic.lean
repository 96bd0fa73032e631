import Flowgraph.Json.Codec

/-! Diagnostics: everything a compilation has to say besides its result. No stage stops at the first
    problem; each is recorded here, with the place of the document it concerns. -/

namespace Flowgraph

open Json Json.Record

/-- What a diagnostic is about. -/
inductive DiagnosticCode where
  | missingRequiredField
  | unknownTrigger
  | unknownAction
  | unsupportedDelivery
  | missingConnection
  | missingRequiredParam
  | missingExecBlock
  | missingSourceRef
  | missingTargetRef
  | internalError
  | paramCoercionFailed
  | potentialSecret
  | unresolvedRef
  | orphanNode
  | parallelBranchUnjoined
  deriving DecidableEq, Repr

namespace DiagnosticCode

/-- The name of a code in a report. -/
def name : DiagnosticCode → String
  | .missingRequiredField => "MISSING_REQUIRED_FIELD"
  | .unknownTrigger => "UNKNOWN_TRIGGER"
  | .unknownAction => "UNKNOWN_ACTION"
  | .unsupportedDelivery => "UNSUPPORTED_DELIVERY"
  | .missingConnection => "MISSING_CONNECTION"
  | .missingRequiredParam => "MISSING_REQUIRED_PARAM"
  | .missingExecBlock => "MISSING_EXEC_BLOCK"
  | .missingSourceRef => "MISSING_SOURCE_REF"
  | .missingTargetRef => "MISSING_TARGET_REF"
  | .internalError => "INTERNAL_ERROR"
  | .paramCoercionFailed => "PARAM_COERCION_FAILED"
  | .potentialSecret => "POTENTIAL_SECRET"
  | .unresolvedRef => "UNRESOLVED_REF"
  | .orphanNode => "ORPHAN_NODE"
  | .parallelBranchUnjoined => "PARALLEL_BRANCH_UNJOINED"

def all : List DiagnosticCode :=
  [.missingRequiredField, .unknownTrigger, .unknownAction, .unsupportedDelivery,
   .missingConnection, .missingRequiredParam, .missingExecBlock, .missingSourceRef,
   .missingTargetRef, .internalError, .paramCoercionFailed, .potentialSecret, .unresolvedRef,
   .orphanNode, .parallelBranchUnjoined]

def codec : Codec DiagnosticCode := .variant (all.map fun c => (c.name, c)) none name

end DiagnosticCode

/-- One error or warning, at a path into the input document. -/
structure Diagnostic where
  code : DiagnosticCode
  path : String
  message : String
  hint : Option String
  deriving DecidableEq, Repr

def Diagnostic.codec : Codec Diagnostic := Record.codec "DiagnosticEntry" <|
  Diagnostic.mk
    <$> field "code" Diagnostic.code DiagnosticCode.codec
    <*> field "path" Diagnostic.path .string
    <*> field "message" Diagnostic.message .string
    <*> maybe "hint" Diagnostic.hint .string

/-- The line of a report for an error or warning. -/
def Diagnostic.line (d : Diagnostic) : String :=
  "[" ++ d.code.name ++ "] " ++ d.path ++ ": " ++ d.message ++
    match d.hint with
    | some hint => " (hint: " ++ hint ++ ")"
    | none => ""

/-- A change made to a document to mend it. -/
structure Repair where
  path : String
  before : Value
  after : Value
  reason : String
  deriving DecidableEq

def Repair.codec : Codec Repair := Record.codec "Repair" <|
  Repair.mk
    <$> field "path" Repair.path .string
    <*> field "original" Repair.before .value
    <*> field "repaired" Repair.after .value
    <*> field "reason" Repair.reason .string

/-- The line of a report for a repair. -/
def Repair.line (r : Repair) : String :=
  r.path ++ ": " ++ r.before.compact ++ " -> " ++ r.after.compact ++ " (" ++ r.reason ++ ")"

/-- The report of a compilation. -/
structure Diagnostics where
  errors : List Diagnostic
  warnings : List Diagnostic
  repairs : List Repair
  artifactRefs : List String
  hints : List String
  deriving DecidableEq

namespace Diagnostics

/-- Nothing to report. -/
def empty : Diagnostics := ⟨[], [], [], [], []⟩

def codec : Codec Diagnostics := Record.codec "Diagnostics" <|
  Diagnostics.mk
    <$> field "errors" Diagnostics.errors (.list Diagnostic.codec)
    <*> field "warnings" Diagnostics.warnings (.list Diagnostic.codec)
    <*> field "repairs" Diagnostics.repairs (.list Repair.codec)
    <*> field "artifact_refs" Diagnostics.artifactRefs (.list .string)
    <*> field "hints" Diagnostics.hints (.list .string)

def addError (ds : Diagnostics) (code : DiagnosticCode) (path message : String)
    (hint : Option String) : Diagnostics :=
  { ds with errors := ds.errors ++ [⟨code, path, message, hint⟩] }

def addWarning (ds : Diagnostics) (code : DiagnosticCode) (path message : String)
    (hint : Option String) : Diagnostics :=
  { ds with warnings := ds.warnings ++ [⟨code, path, message, hint⟩] }

def addRepair (ds : Diagnostics) (r : Repair) : Diagnostics :=
  { ds with repairs := ds.repairs ++ [r] }

def addHint (ds : Diagnostics) (text : String) : Diagnostics :=
  { ds with hints := ds.hints ++ [text] }

def addArtifactRef (ds : Diagnostics) (ref : String) : Diagnostics :=
  { ds with artifactRefs := ds.artifactRefs ++ [ref] }

def hasErrors (ds : Diagnostics) : Bool := !ds.errors.isEmpty

def errorsWith (ds : Diagnostics) (code : DiagnosticCode) : List Diagnostic :=
  ds.errors.filter (·.code = code)

def warningsWith (ds : Diagnostics) (code : DiagnosticCode) : List Diagnostic :=
  ds.warnings.filter (·.code = code)

/-- One report behind the other. -/
def append (a b : Diagnostics) : Diagnostics where
  errors := a.errors ++ b.errors
  warnings := a.warnings ++ b.warnings
  repairs := a.repairs ++ b.repairs
  artifactRefs := a.artifactRefs ++ b.artifactRefs
  hints := a.hints ++ b.hints

instance : Append Diagnostics := ⟨append⟩

/-- The report as people read it: errors, warnings, repairs, hints, each on a line. -/
def report (ds : Diagnostics) : String :=
  let lines := ds.errors.map ("error " ++ ·.line) ++ ds.warnings.map ("warning " ++ ·.line) ++
    ds.repairs.map ("repair " ++ ·.line) ++ ds.hints.map ("hint " ++ ·)
  String.join (lines.map (· ++ "\n"))

end Diagnostics

/-- What a stage hands back: its document, absent after a failure, and the report. -/
structure Outcome (α : Type) where
  document : Option α
  diagnostics : Diagnostics
  deriving DecidableEq

/-- A document of another shape than its stage expects. -/
structure MalformedDocument where
  path : String
  cause : DecodeError
  deriving DecidableEq

def MalformedDocument.message (m : MalformedDocument) : String :=
  "Document at '" ++ m.path ++ "' does not match the expected shape: " ++ m.cause.message

end Flowgraph
