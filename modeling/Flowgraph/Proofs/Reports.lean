import Flowgraph.Dag.Lower
import Flowgraph.Proofs.Json.ReadBack
import Flowgraph.Proofs.Refusals

/-! What reports are made of. Every step of a compilation reports errors and warnings alone, but for the hints on
    placeholders and for the repairs, which a strategy has to make. So the report on a document that nothing was
    mended in holds texts only, and whoever reads the text of it gets the report again. -/

namespace Flowgraph

open Json Json.Record

/-! ### Errors and warnings alone -/

/-- Errors and warnings are all there is in the report. -/
structure Diagnostics.Terse (ds : Diagnostics) : Prop where
  repairs : ds.repairs = []
  artifactRefs : ds.artifactRefs = []
  hints : ds.hints = []

theorem Diagnostics.Terse.append {a b : Diagnostics} (first : a.Terse) (next : b.Terse) : (a ++ b).Terse where
  repairs := List.append_eq_nil_iff.mpr ⟨first.repairs, next.repairs⟩
  artifactRefs := List.append_eq_nil_iff.mpr ⟨first.artifactRefs, next.artifactRefs⟩
  hints := List.append_eq_nil_iff.mpr ⟨first.hints, next.hints⟩

namespace Traced

/-- The step reports errors and warnings alone. -/
def Terse (x : Traced α) : Prop := x.log.Terse

namespace Terse

theorem pure (a : α) : (Pure.pure a : Traced α).Terse := ⟨rfl, rfl, rfl⟩

theorem error (code : DiagnosticCode) (path message : String) (hint : Option String) :
    (Traced.error code path message hint).Terse := ⟨rfl, rfl, rfl⟩

theorem warning (code : DiagnosticCode) (path message : String) (hint : Option String) :
    (Traced.warning code path message hint).Terse := ⟨rfl, rfl, rfl⟩

theorem bind {x : Traced α} {f : α → Traced β} (first : x.Terse) (next : ∀ a, (f a).Terse) :
    (x >>= f).Terse := by
  rw [Terse, log_bind]
  exact first.append (next x.value)

/-- Steps that are only taken on a condition. -/
theorem ite {p : Prop} [Decidable p] {x y : Traced α} (first : x.Terse) (other : y.Terse) :
    (if p then x else y).Terse := by
  split
  · exact first
  · exact other

theorem mapM {f : α → Traced β} (each : ∀ a, (f a).Terse) (xs : List α) : (xs.mapM f).Terse := by
  induction xs with
  | nil => exact pure []
  | cons x xs ih =>
    rw [List.mapM_cons]
    exact (each x).bind fun _ => ih.bind fun _ => pure _

theorem foldlM {f : β → α → Traced β} (each : ∀ b a, (f b a).Terse) (xs : List α) (b : β) :
    (xs.foldlM f b).Terse := by
  induction xs generalizing b with
  | nil => exact pure b
  | cons x xs ih =>
    rw [List.foldlM_cons]
    exact (each b x).bind fun _ => ih _

end Terse

end Traced

open Traced (Terse)

theorem Path.terse_requireFields (doc : Value) (fields : List String) (path : String) :
    (requireFields doc fields path).Terse := by
  rw [requireFields]
  split
  · exact .pure true
  · exact (Terse.error ..).bind fun _ => .pure false

/-! ### Templates -/

namespace Coercion

theorem terse_coerceParam (v : Value) (p : ParamSpec) (path : String) : (coerceParam v p path).Terse := by
  rw [coerceParam]
  split
  · exact .pure _
  · exact (Terse.warning ..).bind fun _ => .pure v

theorem terse_coerceDeclared (v : Value) (p? : Option ParamSpec) (path : String) :
    (coerceDeclared v p? path).Terse := by
  cases p? with
  | none => exact .pure v
  | some p => exact terse_coerceParam v p path

theorem terse_coerceParams (params : Object) (spec : Table ParamSpec) (path : String) :
    (coerceParams params spec path).Terse :=
  .mapM (fun _ => (terse_coerceDeclared ..).bind fun _ => .pure _) params

end Coercion

namespace Context

open Coercion

variable (c : Context)

theorem terse_connectionFor (hit : CatalogHit) (hint : Option String) (path : String) :
    (c.connectionFor hit hint path).Terse := by
  rw [connectionFor]
  exact .ite ((Terse.error ..).bind fun _ => .pure _) (.pure _)

theorem terse_splitInputs (a : Action) (spec : Table ParamSpec) (path : String) :
    (splitInputs a spec path).Terse := by
  have required (s : SplitInputs) (param : String × ParamSpec) :
      (splitRequired a.requiredInputs path s param).Terse := by
    simp only [splitRequired]
    split
    · exact (terse_coerceParam ..).bind fun _ => .pure _
    · exact (Terse.error ..).bind fun _ => .pure _
  have further (o : Object) (input : String × Value) : (splitFurther spec path o input).Terse :=
    .ite (.pure o) ((terse_coerceDeclared ..).bind fun _ => .pure _)
  exact (Terse.foldlM required ..).bind fun _ => (Terse.foldlM further ..).bind fun _ =>
    (terse_coerceParams ..).bind fun _ => .pure _

theorem terse_resolveTrigger (workflowId : String) (version : Version) (path : String) (t : Trigger) :
    (c.resolveTrigger workflowId version path t).Terse := by
  rw [resolveTrigger]
  split
  · exact (Terse.error ..).bind fun _ => .pure t
  · split
    · exact (Terse.error ..).bind fun _ => .pure t
    · refine (c.terse_connectionFor ..).bind fun found => ?_
      cases found with
      | none => exact .pure t
      | some connectionId => exact ((terse_coerceParams ..).bind fun _ => .pure _).bind fun _ => .pure _

theorem terse_resolveAction (path : String) (a : Action) : (c.resolveAction path a).Terse := by
  rw [resolveAction]
  split
  · exact (Terse.error ..).bind fun _ => .pure a
  · refine (c.terse_connectionFor ..).bind fun found => ?_
    cases found with
    | none => exact .pure a
    | some connectionId => exact ((terse_splitInputs ..).bind fun _ => .pure _).bind fun _ => .pure _

theorem terse_resolve (w : Workflow) : (c.resolve w).Terse :=
  (Terse.mapM (fun _ => c.terse_resolveTrigger ..) _).bind fun _ =>
    (Terse.mapM (fun _ => c.terse_resolveAction ..) _).bind fun _ => .pure _

end Context

namespace Materializer

theorem terse_validate (template : Value) : (validate template).Terse :=
  (Path.terse_requireFields ..).bind fun _ =>
    .foldlM (fun _ _ => (Path.terse_requireFields ..).bind fun _ => .pure _) _ _

theorem repairs_prepare (template : Value) (answers : Object) : (prepare template answers).log.repairs = [] := by
  rw [log_prepare]
  rfl

theorem repairs_finish (m : Materializer) (w : Workflow) (log : Diagnostics) :
    (m.finish w log).diagnostics.repairs
      = (log ++ m.scanner.scan w.toValue).repairs ++ (m.repair w (log ++ m.scanner.scan w.toValue)).2 := by
  simp only [finish]
  split <;> rfl

/-- Where the strategy never mends anything, no report has a repair in it. -/
theorem repairs_compile {m : Materializer} (idle : ∀ w log, (m.repair w log).2 = []) (template : Value)
    (c : Context) : (m.compile template c).diagnostics.repairs = [] := by
  have prepared : ((validate template).log ++ (prepare template c.answers).log).repairs = [] :=
    List.append_eq_nil_iff.mpr ⟨(terse_validate template).repairs, repairs_prepare template c.answers⟩
  simp only [compile]
  split
  · exact (terse_validate template).repairs
  · cases Workflow.ofValue (prepare template c.answers).value with
    | error cause => exact prepared
    | ok w =>
      dsimp only
      rw [repairs_finish, idle, List.append_nil]
      exact List.append_eq_nil_iff.mpr
        ⟨List.append_eq_nil_iff.mpr ⟨prepared, (c.terse_resolve w).repairs⟩, rfl⟩

end Materializer

/-! ### Graphs -/

namespace RefIndex

variable (ix : RefIndex)

theorem terse_resolve (ref path : String) : (ix.resolve ref path).Terse := by
  rw [resolve]
  exact .ite ((Terse.warning ..).bind fun _ => .pure _) (.pure _)

theorem terse_resolve? (ref : Option String) (path : String) : (ix.resolve? ref path).Terse := by
  cases ref with
  | none => exact .pure none
  | some ref => exact ix.terse_resolve ref path

end RefIndex

section
variable (ix : RefIndex)

theorem terse_conditionGraph (c : Conditional) (id path : String) : (conditionGraph ix c id path).Terse :=
  (Terse.mapM (fun _ => (ix.terse_resolve ..).bind fun _ => .pure _) _).bind fun _ =>
    (ix.terse_resolve? ..).bind fun _ => (ix.terse_resolve? ..).bind fun _ => .pure _

theorem terse_parallelGraph (b : ParallelBlock) (startId joinId path : String) :
    (parallelGraph ix b startId joinId path).Terse :=
  (Terse.mapM (fun _ => ix.terse_resolve ..) _).bind fun _ =>
    (ix.terse_resolve? ..).bind fun _ => (ix.terse_resolve? ..).bind fun _ => .pure _

theorem terse_loopGraph (l : LoopBlock) (id path : String) : (loopGraph ix l id path).Terse :=
  (ix.terse_resolve? ..).bind fun _ => (ix.terse_resolve? ..).bind fun _ => .pure _

theorem terse_routeLink (r : Route) (path : String) : (routeLink ix r path).Terse := by
  have terse_end (ref path what : String) (code : DiagnosticCode) : (routeEnd ix ref path what code).Terse :=
    (ix.terse_resolve ..).bind fun _ => .ite ((Terse.error ..).bind fun _ => .pure _) (.pure _)
  refine (terse_end ..).bind fun source => (terse_end ..).bind fun target => ?_
  cases source <;> cases target <;> exact .pure _

theorem terse_actionDependencies (links : List Link) (a : Action) (i : Nat) :
    (actionDependencies ix links a i).Terse := by
  rw [actionDependencies]
  split
  · exact .pure links
  · refine .foldlM (fun links ref => (ix.terse_resolve ..).bind fun source => ?_) _ _
    cases source <;> exact .pure _

end

theorem Workflow.terse_draw (w : Workflow) : w.draw.Terse :=
  ((Terse.mapM (fun _ => terse_conditionGraph ..) _).bind fun _ =>
    (Terse.mapM (fun _ => terse_parallelGraph ..) _).bind fun _ =>
      (Terse.mapM (fun _ => terse_loopGraph ..) _).bind fun _ => .pure _).bind fun _ =>
    (Terse.mapM (fun _ => terse_routeLink ..) _).bind fun _ =>
      (Terse.foldlM (fun _ _ => terse_actionDependencies ..) _ _).bind fun _ => .pure _

namespace Lowerer

theorem terse_validate (executable : Value) : (validate executable).Terse := by
  refine (Path.terse_requireFields ..).bind fun _ => .foldlM (fun _ _ => ?_) _ _
  refine (Path.terse_requireFields ..).bind fun _ => ?_
  exact .ite ((Terse.error ..).bind fun _ => .pure _) (.pure _)

theorem terse_graph (l : Lowerer) (w : Workflow) : (l.graph w).Terse :=
  w.terse_draw.bind fun _ => .ite (.pure _) (.pure _)

/-- The report on a graph consists of errors and warnings. -/
theorem terse_compile (l : Lowerer) (executable : Value) : (l.compile executable).diagnostics.Terse := by
  have valid := terse_validate executable
  simp only [compile]
  split
  · exact valid
  · cases Workflow.ofValue executable with
    | error cause => exact ⟨valid.repairs, valid.artifactRefs, valid.hints⟩
    | ok w =>
      have drawn := valid.append (l.terse_graph w)
      simp only [lower]
      split
      · exact drawn
      · split
        · exact ⟨drawn.repairs, drawn.artifactRefs, drawn.hints⟩
        · exact drawn.append ⟨rfl, rfl, rfl⟩

end Lowerer

/-! ### Printed reports -/

theorem DiagnosticCode.rereads (c : DiagnosticCode) : DiagnosticCode.codec.Rereads c true c :=
  Codec.rereads_variant (by cases c <;> rfl)

theorem Diagnostic.rereads (d : Diagnostic) : Diagnostic.codec.Rereads d true d :=
  Record.rereads_codec (by decide)
    (.seq (.seq (.seq (.map (.field (DiagnosticCode.rereads _))) rfl
      (.field (Codec.rereads_string _))) rfl
      (.field (Codec.rereads_string _))) rfl
      (.maybe_same (fun _ => nofun) Codec.rereads_string))
    rfl rfl

theorem Diagnostic.fits_encode (d : Diagnostic) : (Diagnostic.codec.encode d).Fits 1 := by
  have members : ∀ m ∈ ("code", Value.str d.code.name) :: ("path", .str d.path) :: ("message", .str d.message)
      :: (Record.maybe "hint" Diagnostic.hint .string).write d, m.2.Fits 0 := by
    simp only [List.forall_mem_cons]
    refine ⟨Value.fits_str .., Value.fits_str .., Value.fits_str .., fun m mem => ?_⟩
    cases given : d.hint with
    | none => simp [Record.maybe, given] at mem
    | some hint =>
      simp only [Record.maybe, given, List.mem_singleton] at mem
      rw [mem]
      exact Value.fits_str 0 hint
  exact Value.fits_obj members

theorem Repair.rereads (r : Repair) :
    Repair.codec.Rereads r true { r with before := r.before.canonical, after := r.after.canonical } :=
  Record.rereads_codec (by decide)
    (.seq (.seq (.seq (.map (.field (Codec.rereads_string _))) rfl
      (.field (Codec.rereads_value _))) rfl
      (.field (Codec.rereads_value _))) rfl
      (.field (Codec.rereads_string _)))
    rfl rfl

namespace Diagnostics

theorem rereads {ds : Diagnostics} (unmended : ds.repairs = []) : codec.Rereads ds true ds := by
  have none_left : ds.repairs.map (fun r => { r with before := r.before.canonical, after := r.after.canonical })
      = ds.repairs := by
    rw [unmended]
    rfl
  exact Record.rereads_codec (by decide)
    (.seq (.seq (.seq (.seq (.map (.field (Codec.rereads_list_same Diagnostic.rereads _))) rfl
      (.field (Codec.rereads_list_same Diagnostic.rereads _))) rfl
      (.field (Codec.rereads_list fun r _ => r.rereads))) rfl
      (.field (Codec.rereads_list_same Codec.rereads_string _))) rfl
      (.field (Codec.rereads_list_same Codec.rereads_string _)))
    (by simp) (by rw [none_left])

/-- A report without repairs is made of texts, three levels deep. -/
theorem fits_encode {ds : Diagnostics} (unmended : ds.repairs = []) : (codec.encode ds).Fits 3 := by
  have texts (n : Nat) (ss : List String) : ((Codec.list .string).encode ss).Fits (n + 1) :=
    Value.fits_arr fun v mem => by
      obtain ⟨s, -, rfl⟩ := List.mem_map.mp mem
      exact Value.fits_str n s
  have entries (es : List Diagnostic) : ((Codec.list Diagnostic.codec).encode es).Fits 2 :=
    Value.fits_arr fun v mem => by
      obtain ⟨e, -, rfl⟩ := List.mem_map.mp mem
      exact e.fits_encode
  have members : ∀ m ∈ [("errors", (Codec.list Diagnostic.codec).encode ds.errors),
      ("warnings", (Codec.list Diagnostic.codec).encode ds.warnings),
      ("repairs", (Codec.list Repair.codec).encode ds.repairs),
      ("artifact_refs", (Codec.list .string).encode ds.artifactRefs),
      ("hints", (Codec.list .string).encode ds.hints)], m.2.Fits 2 := by
    simp only [List.forall_mem_cons, unmended]
    exact ⟨entries _, entries _, Value.fits_arr nofun, texts 1 _, texts 1 _, nofun⟩
  exact Value.fits_obj members

/-- Whoever reads the printed text of a report as a value, and this as a report, gets the report again. -/
theorem ofText_pretty {ds : Diagnostics} (unmended : ds.repairs = []) :
    ∃ v, Decoder.ofText .value (codec.encode ds).pretty = .ok v ∧ Decoder.ofValue codec.decode v = .ok ds := by
  have fits := fits_encode unmended
  refine ⟨codec.toValue ds, Json.ofText_pretty ⟨fits.legible, Nat.le_trans fits.shallow (by decide)⟩, ?_⟩
  exact (rereads unmended ⟨.value, 0⟩ ds nofun).mpr ⟨rfl, rfl⟩

end Diagnostics

end Flowgraph
