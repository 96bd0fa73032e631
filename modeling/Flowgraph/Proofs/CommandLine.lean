import Flowgraph.CommandLine
import Flowgraph.Proofs.Json.Canonical
import Flowgraph.Proofs.Json.Tables
import Flowgraph.Proofs.Reports

/-! What a command leaves behind. A run ends in one of five ways, and only one of them is a success: all that is
    named loads, a document comes of it, and both the report and the document can be written. The report goes
    first, so it is there after a failure as well, and nothing else is; and who reads it gets what was reported. -/

namespace Flowgraph

open Json

/-! ### Files -/

namespace Files

/-- The path leads who writes to the file of this name. -/
def Names (f : Files) (path name : String) : Prop := f.locate .writing f.contents path = .ok name

/-- What the file of a name holds. -/
def bytes? (f : Files) (name : String) : Option ByteArray := Table.entry? f.contents name

/-- The files with one that holds the text, be it new or in place of an old one. -/
def put (f : Files) (name text : String) : Files :=
  { f with contents := Table.set name text.toUTF8 f.contents }

/-- The path leads to a file, and what it holds is read as a datum of some kind. -/
def Loads (f : Files) (d : Decoder α) (path : String) : Prop := ∃ a, f.load d path = .ok a

theorem bytes?_put (f : Files) (name text other : String) :
    (f.put name text).bytes? other = if other = name then some text.toUTF8 else f.bytes? other :=
  Table.entry?_set ..

theorem Names.unique {f : Files} {path name name' : String} (h : f.Names path name)
    (h' : f.Names path name') : name = name' := Except.ok.inj (h.symm.trans h')

/-- A path that is the name of a file and no more. -/
def isPlain (path : String) : Bool :=
  pathParts path = [path] ∧ startOf path = "" ∧ endsInSlash path = false ∧ path ≠ "" ∧ path ≠ "." ∧ path ≠ ".." ∧
    path.utf8ByteSize ≤ maxNameLength

/-- It leads to that file, whatever the directory holds. -/
theorem names_of_isPlain (contents : Table ByteArray) {path : String} (plain : isPlain path = true) :
    (flat contents).Names path path := by
  obtain ⟨parts, start, slash, some_there, here, up, short⟩ := of_decide_eq_true plain
  have path_fits : ¬maxPathLength < path.utf8ByteSize := by
    have : maxNameLength ≤ maxPathLength := by decide
    omega
  simp [Names, flat, locateFlat, parts, slash, start, follow, some_there, here, up, path_fits, Nat.not_lt.mpr short,
    bind, Except.bind, pure, Except.pure]

theorem writeText_eq_ok {f f' : Files} {path text : String} :
    f.writeText path text = .ok f' ↔ ∃ name, f.Names path name ∧ f.put name text = f' := by
  rw [writeText, bind_eq_ok]
  simp only [Names, put, pure, Except.pure, Except.ok.injEq]

/-- What is made of the datum does not matter to loading it. -/
theorem loads_map {f : Files} {d : Decoder α} {g : α → β} {path : String} :
    f.Loads (fun p t => (d p t).map g) path ↔ f.Loads d path := by
  have decoded (doc : Document) : Decoder.ofDocument (fun p t => (d p t).map g) doc
      = (Decoder.ofDocument d doc).map g := by
    rw [Decoder.ofDocument, Decoder.ofDocument]
    cases d ⟨.text, 0⟩ doc.tree with
    | error cause => rfl
    | ok a => cases doc.trailing <;> rfl
  simp only [Loads, load, bind_eq_ok, mapError_eq_ok, Decoder.ofText, decoded, map_eq_ok]
  constructor
  · rintro ⟨_, text, read, a, loaded, -⟩
    exact ⟨a, text, read, loaded⟩
  · rintro ⟨a, text, read, loaded⟩
    exact ⟨g a, text, read, a, loaded, rfl⟩

end Files

/-- The same outcome with another form of the document. -/
def Outcome.map (f : α → β) (o : Outcome α) : Outcome β := ⟨o.document.map f, o.diagnostics⟩

namespace CommandLine

/-! ### What a command reads and makes of it -/

/-- Where the document goes. -/
def Command.out : Command → String
  | .template a => a.out
  | .dag a => a.out

/-- Where the report goes, if it was asked for. -/
def Command.report : Command → Option String
  | .template a => a.diagnostics
  | .dag a => a.diagnostics

/-- All the files that the command names to read from load, each as what it is named for. -/
def Command.Loads (files : Files) : Command → Prop
  | .template a => files.Loads .value a.input ∧
      (∀ path ∈ a.catalog, files.Loads Catalog.codec.decode path) ∧
      (∀ path ∈ a.connections, files.Loads Connections.codec.decode path) ∧
      (∀ path ∈ a.answers, files.Loads Decoder.object path) ∧
      (∀ path ∈ a.defaults, files.Loads Policies.codec.decode path) ∧
      (∀ path ∈ a.user, files.Loads UserInfo.codec.decode path)
  | .dag a => files.Loads .value a.input ∧
      (∀ path ∈ a.catalog, files.Loads Catalog.codec.decode path) ∧
      (∀ path ∈ a.uiDefaults, files.Loads Decoder.object path)

/-- What the stage of the command makes of the files, with the document as it is written. -/
def Command.outcome (files : Files) : Command → Except LoadError (Outcome Value)
  | .template a => (loadTemplate files a).map fun x =>
      (Materializer.standard.compile x.1 x.2).map Workflow.codec.encode
  | .dag a => (loadDag files a).map fun x => (x.2.compile x.1).map Dag.codec.encode

theorem exists_bind_eq_ok {x : Except ε α} {f : α → Except ε β} :
    (∃ b, (x >>= f) = .ok b) ↔ ∃ a, x = .ok a ∧ ∃ b, f a = .ok b := by
  cases x <;> simp [bind, Except.bind]

theorem exists_loadOr {files : Files} {d : Decoder α} {absent : α} {path? : Option String} :
    (∃ a, loadOr files d absent path? = .ok a) ↔ ∀ path ∈ path?, files.Loads d path := by
  cases path? with
  | none => simp [loadOr]
  | some path => simp [loadOr, Files.Loads]

/-- There is an outcome just if all files load. -/
theorem exists_outcome {files : Files} {c : Command} :
    (∃ outcome, c.outcome files = .ok outcome) ↔ c.Loads files := by
  have made {α : Type} {x : Except LoadError α} {f : α → Outcome Value} :
      (∃ outcome, x.map f = .ok outcome) ↔ ∃ a, x = .ok a := by
    cases x <;> simp [Except.map]
  cases c with
  | template a =>
    rw [Command.outcome, made, Command.Loads, Files.Loads]
    simp only [loadTemplate, exists_bind_eq_ok, pure, Except.pure, Except.ok.injEq, exists_eq', and_true,
      exists_and_right, exists_loadOr, Files.loads_map]
  | dag a =>
    rw [Command.outcome, made, Command.Loads, Files.Loads]
    simp only [loadDag, exists_bind_eq_ok, pure, Except.pure, Except.ok.injEq, exists_eq', and_true,
      exists_and_right, exists_loadOr, Files.loads_map]

/-- Neither stage mends anything when it is run from the command line. -/
theorem repairs_outcome {files : Files} {c : Command} {outcome : Outcome Value}
    (made : c.outcome files = .ok outcome) : outcome.diagnostics.repairs = [] := by
  cases c with
  | template a =>
    obtain ⟨x, -, rfl⟩ := map_eq_ok.mp made
    exact Materializer.repairs_compile (fun _ _ => rfl) x.1 x.2
  | dag a =>
    obtain ⟨x, -, rfl⟩ := map_eq_ok.mp made
    exact (x.2.terse_compile x.1).repairs

/-! ### What a command writes -/

/-- The text of a report. -/
def reportText (ds : Diagnostics) : String := (Diagnostics.codec.encode ds).pretty

/-- Whoever reads the text as JSON, and what it says as a report, gets this report. -/
def Tells (text : String) (ds : Diagnostics) : Prop :=
  ∃ v, Decoder.ofText .value text = .ok v ∧ Decoder.ofValue Diagnostics.codec.decode v = .ok ds

/-- The files once the report was written to where it was asked for. -/
inductive Reported (files : Files) (ds : Diagnostics) : Option String → Files → Prop
  | unasked : Reported files ds none files
  | asked {path name : String} (leads : files.Names path name) :
      Reported files ds (some path) (files.put name (reportText ds))

theorem writeJson_eq_ok {files files' : Files} {path : String} {v : Value} :
    writeJson files path v = .ok files' ↔ ∃ name, files.Names path name ∧ files.put name v.pretty = files' := by
  rw [writeJson, mapError_eq_ok, Files.writeText_eq_ok]

theorem writeReport_eq_ok {files files' : Files} {path? : Option String} {ds : Diagnostics} :
    writeReport files path? ds = .ok files' ↔ Reported files ds path? files' := by
  cases path? with
  | none =>
    rw [writeReport, Except.ok.injEq]
    constructor
    · rintro rfl
      exact .unasked
    · rintro ⟨⟩
      rfl
  | some path =>
    rw [writeReport, writeJson_eq_ok]
    constructor
    · rintro ⟨name, leads, rfl⟩
      exact .asked leads
    · rintro (_ | ⟨leads⟩)
      exact ⟨_, leads, rfl⟩

theorem Reported.unique {files files' files'' : Files} {ds : Diagnostics} {path? : Option String}
    (h : Reported files ds path? files') (h' : Reported files ds path? files'') : files' = files'' :=
  Except.ok.inj ((writeReport_eq_ok.mpr h).symm.trans (writeReport_eq_ok.mpr h'))

/-- The report changes the file that it goes to. -/
theorem Reported.bytes? {files reported : Files} {ds : Diagnostics} {path? : Option String}
    (h : Reported files ds path? reported) {name : String} (other : ∀ path ∈ path?, ¬files.Names path name) :
    reported.bytes? name = files.bytes? name := by
  cases h with
  | unasked => rfl
  | @asked path target leads =>
    have elsewhere : name ≠ target := by
      rintro rfl
      exact other path rfl leads
    rw [Files.bytes?_put, if_neg elsewhere]

/-! ### How a run ends -/

/-- The ways in which a run ends, with the exit code and the files that it leaves. -/
inductive Ends (files : Files) (c : Command) : Nat → Files → Prop
  | unloaded (not_all : ¬c.Loads files) : Ends files c 1 files
  | unreported {outcome : Outcome Value} (made : c.outcome files = .ok outcome)
      (nowhere : ∀ reported, ¬Reported files outcome.diagnostics c.report reported) : Ends files c 1 files
  | withheld {outcome : Outcome Value} {reported : Files} (made : c.outcome files = .ok outcome)
      (wrote : Reported files outcome.diagnostics c.report reported) (absent : outcome.document = none) :
      Ends files c 1 reported
  | unwritten {outcome : Outcome Value} {reported : Files} (made : c.outcome files = .ok outcome)
      (wrote : Reported files outcome.diagnostics c.report reported)
      (nowhere : ∀ name, ¬reported.Names c.out name) : Ends files c 1 reported
  | written {outcome : Outcome Value} {reported : Files} {document : Value} {name : String}
      (made : c.outcome files = .ok outcome) (wrote : Reported files outcome.diagnostics c.report reported)
      (present : outcome.document = some document) (leads : reported.Names c.out name) :
      Ends files c 0 (reported.put name document.pretty)

/-- The form of the document matters only when it is written. -/
theorem finish_map (encode : α → Value) (files : Files) (o : Outcome α) (out : String)
    (report : Option String) :
    finish encode files o out report = finish id files (o.map encode) out report := by
  obtain ⟨document, ds⟩ := o
  cases document <;> rfl

/-- What becomes of an outcome, or of a file that does not load. -/
def conclude (files : Files) (c : Command) : Except LoadError (Outcome Value) → Result
  | .error e => fail files "" e.message
  | .ok outcome => finish id files outcome c.out c.report

theorem run_eq (files : Files) (c : Command) : run files c = conclude files c (c.outcome files) := by
  cases c with
  | template a =>
    rw [run, Command.outcome]
    cases loadTemplate files a with
    | error e => rfl
    | ok x => exact finish_map ..
  | dag a =>
    rw [run, Command.outcome]
    cases loadDag files a with
    | error e => rfl
    | ok x => exact finish_map ..

theorem ends_run (files : Files) (c : Command) : Ends files c (run files c).exit (run files c).files := by
  rw [run_eq]
  cases made : c.outcome files with
  | error e =>
    refine .unloaded fun all => ?_
    obtain ⟨outcome, made'⟩ := exists_outcome.mpr all
    cases made.symm.trans made'
  | ok outcome =>
    rw [conclude, finish]
    cases wrote : writeReport files c.report outcome.diagnostics with
    | error message =>
      refine .unreported made fun reported h => ?_
      cases (writeReport_eq_ok.mpr h).symm.trans wrote
    | ok reported =>
      have wrote := writeReport_eq_ok.mp wrote
      cases present : outcome.document with
      | none => exact .withheld made wrote present
      | some document =>
        dsimp only [id_eq]
        cases last : writeJson reported c.out document with
        | error message =>
          refine .unwritten made wrote fun name leads => ?_
          cases (writeJson_eq_ok.mpr ⟨name, leads, rfl⟩).symm.trans last
        | ok written =>
          obtain ⟨name, leads, rfl⟩ := writeJson_eq_ok.mp last
          exact .written made wrote present leads

/-! ### What can be relied on -/

/-- All that is named loads, there is a document, and the report and the document can be written, the report
    first. -/
structure Succeeds (files : Files) (c : Command) : Prop where
  loads : c.Loads files
  writes : ∃ outcome document reported name, c.outcome files = .ok outcome ∧
    outcome.document = some document ∧ Reported files outcome.diagnostics c.report reported ∧
    reported.Names c.out name

/-- What a run promises by its exit code, and what it does to the files. -/
structure KeepsToOutputs (files : Files) (c : Command) (r : Result) : Prop where
  exit : r.exit = 0 ∧ Succeeds files c ∨ r.exit = 1 ∧ ¬Succeeds files c
  /-- After a failure only the file that the report goes to may be another one. -/
  failed : r.exit = 1 → ∀ name, (∀ path ∈ c.report, ¬files.Names path name) →
    r.files.bytes? name = files.bytes? name
  /-- If there is no document, nothing is in its place but what was there. -/
  withheld : ∀ outcome, c.outcome files = .ok outcome → outcome.document = none →
    ∀ name, files.Names c.out name → (∀ path ∈ c.report, ¬files.Names path name) →
      r.files.bytes? name = files.bytes? name
  /-- The report is written, document or not, and stays if the document does not go to the same file. Its text
      tells all of it. -/
  reported : c.Loads files → ∃ outcome, c.outcome files = .ok outcome ∧
    Tells (reportText outcome.diagnostics) outcome.diagnostics ∧
    ∀ path ∈ c.report, ∀ name, files.Names path name →
      ¬(files.put name (reportText outcome.diagnostics)).Names c.out name →
      r.files.bytes? name = some (reportText outcome.diagnostics).toUTF8
  /-- After a success the document is in its place, and only this and the report's may be other files. Its text
      tells the document, if this is nested 127 levels deep at most and its numbers are told by their numerals. -/
  succeeded : r.exit = 0 → ∃ outcome document reported target, c.outcome files = .ok outcome ∧
    outcome.document = some document ∧ Reported files outcome.diagnostics c.report reported ∧
    reported.Names c.out target ∧ r.files.bytes? target = some document.pretty.toUTF8 ∧
    (document.Fits 127 → Decoder.ofText .value document.pretty = .ok document.canonical) ∧
    ∀ name, name ≠ target → (∀ path ∈ c.report, ¬files.Names path name) →
      r.files.bytes? name = files.bytes? name

namespace Ends

variable {files left : Files} {c : Command} {code : Nat}

theorem succeeds (h : Ends files c code left) :
    code = 0 ∧ Succeeds files c ∨ code = 1 ∧ ¬Succeeds files c := by
  cases h with
  | unloaded not_all => exact .inr ⟨rfl, fun well => not_all well.loads⟩
  | written made wrote present leads =>
    exact .inl ⟨rfl, exists_outcome.mp ⟨_, made⟩, _, _, _, _, made, present, wrote, leads⟩
  | unreported made nowhere =>
    refine .inr ⟨rfl, fun well => ?_⟩
    obtain ⟨outcome, document, reported, name, made', -, wrote, -⟩ := well.writes
    cases made.symm.trans made'
    exact nowhere reported wrote
  | withheld made wrote absent =>
    refine .inr ⟨rfl, fun well => ?_⟩
    obtain ⟨outcome, document, reported, name, made', present, -, -⟩ := well.writes
    cases made.symm.trans made'
    cases absent.symm.trans present
  | unwritten made wrote nowhere =>
    refine .inr ⟨rfl, fun well => ?_⟩
    obtain ⟨outcome, document, reported, name, made', -, wrote', leads⟩ := well.writes
    cases made.symm.trans made'
    cases wrote.unique wrote'
    exact nowhere name leads

theorem bytes?_of_failed (h : Ends files c 1 left) {name : String}
    (other : ∀ path ∈ c.report, ¬files.Names path name) : left.bytes? name = files.bytes? name := by
  cases h with
  | unloaded | unreported => rfl
  | withheld _ wrote _ | unwritten _ wrote _ => exact wrote.bytes? other

theorem bytes?_of_succeeded (h : Ends files c 0 left) :
    ∃ outcome document reported target, c.outcome files = .ok outcome ∧ outcome.document = some document ∧
      Reported files outcome.diagnostics c.report reported ∧ reported.Names c.out target ∧
      left.bytes? target = some document.pretty.toUTF8 ∧
      (document.Fits 127 → Decoder.ofText .value document.pretty = .ok document.canonical) ∧
      ∀ name, name ≠ target → (∀ path ∈ c.report, ¬files.Names path name) →
        left.bytes? name = files.bytes? name := by
  cases h with
  | @written outcome reported document target made wrote present leads =>
    refine ⟨outcome, document, reported, target, made, present, wrote, leads, ?_, Json.ofText_pretty,
      fun name away other => ?_⟩
    · rw [Files.bytes?_put, if_pos rfl]
    · rw [Files.bytes?_put, if_neg away, wrote.bytes? other]

/-- Where the report was written, it is there when the run ends, unless the document went there too. -/
theorem bytes?_report (h : Ends files c code left) {outcome : Outcome Value}
    (made : c.outcome files = .ok outcome) {path name : String} (asked : path ∈ c.report)
    (leads : files.Names path name)
    (apart : ¬(files.put name (reportText outcome.diagnostics)).Names c.out name) :
    left.bytes? name = some (reportText outcome.diagnostics).toUTF8 := by
  have wrote : Reported files outcome.diagnostics c.report
      (files.put name (reportText outcome.diagnostics)) := asked ▸ .asked leads
  have there : (files.put name (reportText outcome.diagnostics)).bytes? name
      = some (reportText outcome.diagnostics).toUTF8 := by rw [Files.bytes?_put, if_pos rfl]
  cases h with
  | unloaded not_all => exact absurd (exists_outcome.mp ⟨_, made⟩) not_all
  | unreported made' nowhere =>
    cases made.symm.trans made'
    exact absurd wrote (nowhere _)
  | withheld made' wrote' _ | unwritten made' wrote' _ =>
    cases made.symm.trans made'
    cases wrote.unique wrote'
    exact there
  | @written _ _ _ target made' wrote' _ leads' =>
    cases made.symm.trans made'
    cases wrote.unique wrote'
    have elsewhere : name ≠ target := by
      rintro rfl
      exact apart leads'
    rw [Files.bytes?_put, if_neg elsewhere, there]

end Ends

/-- A run ends with `0` just if all goes well and with `1` otherwise. Whatever happens, it changes no file but
    those that the report and the document go to, and the latter only if all goes well. -/
theorem run_keeps_to_outputs (files : Files) (c : Command) : KeepsToOutputs files c (run files c) := by
  have ends := ends_run files c
  have failed (bad : (run files c).exit = 1) (name : String)
      (other : ∀ path ∈ c.report, ¬files.Names path name) :
      (run files c).files.bytes? name = files.bytes? name := (bad ▸ ends).bytes?_of_failed other
  refine ⟨ends.succeeds, failed, ?_, ?_, ?_⟩
  · intro outcome made absent name _ other
    refine failed ?_ name other
    rcases ends.succeeds with ⟨-, well⟩ | ⟨bad, -⟩
    · obtain ⟨outcome', document, -, -, made', present, -⟩ := well.writes
      cases made.symm.trans made'
      cases absent.symm.trans present
    · exact bad
  · intro all
    obtain ⟨outcome, made⟩ := exists_outcome.mpr all
    refine ⟨outcome, made, Diagnostics.ofText_pretty (repairs_outcome made), ?_⟩
    exact fun path asked name leads apart => ends.bytes?_report made asked leads apart
  · exact fun good => (good ▸ ends).bytes?_of_succeeded

/-- An executable without a single field, and a graph from before in the place of the new one. -/
def bareFiles : Files := Files.flat [("bare.json", "{}".toUTF8), ("graph.json", "[]".toUTF8)]

def lowerBare : Command := .dag ⟨"bare.json", "graph.json", none, none, none, some "report.json"⟩

/-- The bare executable is refused, the graph from before is still there, and a report tells why. -/
theorem run_keeps_to_outputs_bare : (run bareFiles lowerBare).exit = 1 ∧
    (run bareFiles lowerBare).files.bytes? "graph.json" = bareFiles.bytes? "graph.json" ∧
    ∃ ds : Diagnostics, (run bareFiles lowerBare).files.bytes? "report.json" = some (reportText ds).toUTF8 ∧
      Tells (reportText ds) ds ∧ ds.errors.map (·.path) = ["workflow_id"] := by
  have bad : (run bareFiles lowerBare).exit = 1 := by decide +kernel
  have leads : bareFiles.Names "report.json" "report.json" := Files.names_of_isPlain _ (by decide +kernel)
  have named : (lowerBare.outcome bareFiles).toOption.map (·.diagnostics.errors.map (·.path))
      = some ["workflow_id"] := by decide +kernel
  have loads : lowerBare.Loads bareFiles := by
    refine exists_outcome.mp ?_
    cases made : lowerBare.outcome bareFiles with
    | error e => simp [made, Except.toOption] at named
    | ok outcome => exact ⟨outcome, rfl⟩
  have keeps := run_keeps_to_outputs bareFiles lowerBare
  obtain ⟨outcome, made, tells, stays⟩ := keeps.reported loads
  refine ⟨bad, keeps.failed bad "graph.json" ?_, outcome.diagnostics, ?_, tells, ?_⟩
  · rintro _ ⟨⟩ same
    exact absurd (leads.unique same) (by decide)
  · refine stays "report.json" rfl "report.json" leads fun same => ?_
    have graph := Files.names_of_isPlain (Table.set "report.json" (reportText outcome.diagnostics).toUTF8
      bareFiles.contents) (by decide +kernel : Files.isPlain "graph.json" = true)
    exact absurd (graph.unique same) (by decide)
  · simpa [made, Except.toOption] using named

end CommandLine

end Flowgraph
