import Flowgraph.Policy
import Std.Data.TreeMap

/-! The catalog of triggers and actions that workflows may use: providers, their toolkits, and the
    entries of each toolkit. A reference names an entry by its id or its slug. -/

namespace Flowgraph

open Json Json.Record

/-- The type that a parameter is declared with. -/
inductive ParamType where
  | string
  | number
  | integer
  | boolean
  | array
  | object
  | any
  deriving DecidableEq, Repr

namespace ParamType

def name : ParamType → String
  | .string => "string"
  | .number => "number"
  | .integer => "integer"
  | .boolean => "boolean"
  | .array => "array"
  | .object => "object"
  | .any => "any"

/-- A name that is no type's leaves the parameter untyped. -/
def codec : Codec ParamType :=
  .variant ([.string, .number, .integer, .boolean, .array, .object].map fun t => (t.name, t))
    (some .any) name

end ParamType

structure ParamSpec where
  type : ParamType
  required : Bool
  default : Option Value
  description : Option String
  deriving DecidableEq

def ParamSpec.codec : Codec ParamSpec := Record.codec "ParamSpec" <|
  ParamSpec.mk
    <$> defaulted "type" ParamSpec.type ParamType.codec .any
    <*> defaulted "required" ParamSpec.required .boolean false
    <*> maybe "default" ParamSpec.default .value
    <*> maybe "description" ParamSpec.description .string

/-- A trigger or action that can be used. -/
structure CatalogEntry where
  id : String
  slug : String
  name : Option String
  icon : Option String
  params : Table ParamSpec
  policy : Policies
  supportedDelivery : List String
  deriving DecidableEq

namespace CatalogEntry

def codec : Codec CatalogEntry := Record.codec "CatalogEntry" <|
  CatalogEntry.mk
    <$> defaulted "id" CatalogEntry.id .string ""
    <*> defaulted "slug" CatalogEntry.slug .string ""
    <*> maybe "name" CatalogEntry.name .string
    <*> maybe "icon" CatalogEntry.icon .string
    <*> aliased "paramSpec" ["param_spec"] CatalogEntry.params (.table ParamSpec.codec) []
    <*> defaulted "policy" CatalogEntry.policy Policies.codec .none
    <*> defaulted "supported_delivery" CatalogEntry.supportedDelivery (.list .string) []

/-- The slug, or the id of an entry without one. -/
def displaySlug (e : CatalogEntry) : String := if e.slug = "" then e.id else e.slug

def supportsDelivery (e : CatalogEntry) (delivery : String) : Bool :=
  e.supportedDelivery.contains delivery

/-- Whether a reference names the entry. -/
def answersTo (e : CatalogEntry) (ref : String) : Bool := e.id == ref || e.slug == ref

end CatalogEntry

structure Toolkit where
  icon : Option String
  triggers : List CatalogEntry
  actions : List CatalogEntry
  deriving DecidableEq

def Toolkit.codec : Codec Toolkit := Record.codec "Toolkit" <|
  Toolkit.mk
    <$> maybe "icon" Toolkit.icon .string
    <*> defaulted "triggers" Toolkit.triggers (.list CatalogEntry.codec) []
    <*> defaulted "actions" Toolkit.actions (.list CatalogEntry.codec) []

structure Provider where
  toolkits : Table Toolkit
  deriving DecidableEq

def Provider.codec : Codec Provider := Record.codec "Provider" <|
  Provider.mk <$> defaulted "toolkits" Provider.toolkits (.table Toolkit.codec) []

structure Catalog where
  providers : Table Provider
  deriving DecidableEq

def Catalog.empty : Catalog := ⟨[]⟩

def Catalog.codec : Codec Catalog := Record.codec "Catalog" <|
  Catalog.mk <$> defaulted "providers" Catalog.providers (.table Provider.codec) []

/-- The two kinds of entries, each with references of its own. -/
inductive EntryKind where
  | trigger
  | action
  deriving DecidableEq, Repr

/-- An entry and where it was found. -/
structure CatalogHit where
  provider : String
  toolkitSlug : String
  toolkitIcon : Option String
  entry : CatalogEntry
  deriving DecidableEq

def Toolkit.entries (t : Toolkit) : EntryKind → List CatalogEntry
  | .trigger => t.triggers
  | .action => t.actions

/-- All entries of a kind with their places, in the order of the catalog. -/
def Catalog.placed (c : Catalog) (kind : EntryKind) : List CatalogHit :=
  c.providers.flatMap fun (provider, p) =>
    p.toolkits.flatMap fun (slug, t) =>
      (t.entries kind).map fun e => ⟨provider, slug, t.icon, e⟩

/-- The first entry of a kind, from front to back, that a reference names in a toolkit. -/
def Catalog.scan (c : Catalog) (kind : EntryKind) (toolkit ref : String) : Option CatalogHit :=
  if ref = "" then none
  else (c.placed kind).find? fun h => h.toolkitSlug == toolkit && h.entry.answersTo ref

/-- From toolkit and reference to the place of an entry among all hits. -/
abbrev SlotTable := Std.TreeMap String (Std.TreeMap String Nat)

namespace SlotTable

/-- The slot of a reference in a toolkit. -/
def slot? (t : SlotTable) (toolkit ref : String) : Option Nat := t[toolkit]?.bind (·[ref]?)

/-- Enters a slot under a reference, unless the reference is empty or has one. -/
def enter (t : SlotTable) (toolkit : String) (slot : Nat) (ref : String) : SlotTable :=
  if ref = "" then t
  else t.alter toolkit fun refs => some ((refs.getD ∅).insertIfNew ref slot)

end SlotTable

/-- The catalog prepared for finding entries: all of them in a row, and for each kind the slot of the
    first one that a reference names in a toolkit. -/
structure CatalogIndex where
  hits : Array CatalogHit
  triggers : SlotTable
  actions : SlotTable

namespace CatalogIndex

def empty : CatalogIndex := ⟨#[], ∅, ∅⟩

/-- Enters a slot under the references of an entry, except where an earlier entry has one. -/
def enter (table : SlotTable) (toolkit : String) (e : CatalogEntry) (slot : Nat) : SlotTable :=
  [e.id, e.slug].foldl (fun table ref => table.enter toolkit slot ref) table

/-- Adds an entry behind all others. -/
def add (kind : EntryKind) (ix : CatalogIndex) (h : CatalogHit) : CatalogIndex :=
  let slot := ix.hits.size
  match kind with
  | .trigger =>
    { ix with hits := ix.hits.push h, triggers := enter ix.triggers h.toolkitSlug h.entry slot }
  | .action =>
    { ix with hits := ix.hits.push h, actions := enter ix.actions h.toolkitSlug h.entry slot }

/-- Adds the entries of a toolkit, triggers first. -/
def addToolkit (provider slug : String) (ix : CatalogIndex) (t : Toolkit) : CatalogIndex :=
  let place (e : CatalogEntry) : CatalogHit := ⟨provider, slug, t.icon, e⟩
  let ix := (t.triggers.map place).foldl (add .trigger) ix
  (t.actions.map place).foldl (add .action) ix

def build (c : Catalog) : CatalogIndex :=
  c.providers.foldl (fun ix (provider, p) =>
    p.toolkits.foldl (fun ix (slug, t) => addToolkit provider slug ix t) ix) empty

def table (ix : CatalogIndex) : EntryKind → SlotTable
  | .trigger => ix.triggers
  | .action => ix.actions

/-- The entry of a kind that a reference names in a toolkit. -/
def find? (ix : CatalogIndex) (kind : EntryKind) (toolkit ref : String) : Option CatalogHit :=
  ((ix.table kind).slot? toolkit ref).bind fun slot => ix.hits[slot]?

end CatalogIndex

end Flowgraph
