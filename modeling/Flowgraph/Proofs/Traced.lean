import Flowgraph.Traced

/-! Laws of results with reports. Reports form a monoid, so chaining is lawful; a chain's value is that of
    the same steps without their reports, and its errors are those of the steps one behind the other. -/

namespace Flowgraph

theorem eq_ok_of_toOption {x : Except ε α} {a : α} (h : x.toOption = some a) : x = .ok a := by
  cases x with
  | error cause => cases h
  | ok b => exact congrArg Except.ok (Option.some.inj h)

namespace Diagnostics

@[simp] theorem errors_empty : empty.errors = [] := rfl

@[simp] theorem warnings_empty : empty.warnings = [] := rfl

@[simp] theorem hints_empty : empty.hints = [] := rfl

@[simp] theorem errors_append (a b : Diagnostics) : (a ++ b).errors = a.errors ++ b.errors := rfl

@[simp] theorem warnings_append (a b : Diagnostics) : (a ++ b).warnings = a.warnings ++ b.warnings :=
  rfl

@[simp] theorem hints_append (a b : Diagnostics) : (a ++ b).hints = a.hints ++ b.hints := rfl

@[simp] theorem errors_addError (ds : Diagnostics) (code : DiagnosticCode) (path message : String)
    (hint : Option String) :
    (ds.addError code path message hint).errors = ds.errors ++ [⟨code, path, message, hint⟩] := rfl

theorem append_def (a b : Diagnostics) : a ++ b = a.append b := rfl

theorem empty_append (a : Diagnostics) : empty ++ a = a := by
  cases a; simp [append_def, append, empty]

theorem append_empty (a : Diagnostics) : a ++ empty = a := by
  cases a; simp [append_def, append, empty]

theorem append_assoc (a b c : Diagnostics) : a ++ b ++ c = a ++ (b ++ c) := by
  simp [append_def, append]

/-- A report of warnings alone. -/
def warned (ds : List Diagnostic) : Diagnostics := { empty with warnings := ds }

@[simp] theorem warned_nil : warned [] = empty := rfl

@[simp] theorem warned_append (ds es : List Diagnostic) : warned ds ++ warned es = warned (ds ++ es) :=
  rfl

end Diagnostics

namespace Traced

@[simp] theorem value_pure (a : α) : (pure a : Traced α).value = a := rfl

@[simp] theorem log_pure (a : α) : (pure a : Traced α).log = .empty := rfl

-- These two are proved by cases and not by `rfl`: as definitional unfoldings they would leave it to the
-- kernel to compare whole chains of steps, texts included.
@[simp] theorem value_bind (x : Traced α) (f : α → Traced β) :
    (x >>= f).value = (f x.value).value := by
  cases x; rfl

@[simp] theorem log_bind (x : Traced α) (f : α → Traced β) :
    (x >>= f).log = x.log ++ (f x.value).log := by
  cases x; rfl

@[simp] theorem errors_error (code : DiagnosticCode) (path message : String)
    (hint : Option String) :
    (error code path message hint).log.errors = [⟨code, path, message, hint⟩] := rfl

@[simp] theorem errors_warning (code : DiagnosticCode) (path message : String)
    (hint : Option String) : (warning code path message hint).log.errors = [] := rfl

@[simp] theorem warnings_error (code : DiagnosticCode) (path message : String)
    (hint : Option String) : (error code path message hint).log.warnings = [] := rfl

@[simp] theorem warnings_warning (code : DiagnosticCode) (path message : String)
    (hint : Option String) :
    (warning code path message hint).log.warnings = [⟨code, path, message, hint⟩] := rfl

theorem id_map_eq (x : Traced α) : id <$> x = x := by
  change (⟨x.value, x.log ++ Diagnostics.empty⟩ : Traced α) = x
  rw [Diagnostics.append_empty]

theorem pure_bind_eq (a : α) (f : α → Traced β) : pure a >>= f = f a := by
  change (⟨(f a).value, Diagnostics.empty ++ (f a).log⟩ : Traced β) = f a
  rw [Diagnostics.empty_append]

theorem bind_bind_eq (x : Traced α) (f : α → Traced β) (g : β → Traced γ) :
    x >>= f >>= g = x >>= fun a => f a >>= g := by
  change (⟨(g (f x.value).value).value, (x.log ++ (f x.value).log) ++ (g (f x.value).value).log⟩
    : Traced γ) = ⟨_, x.log ++ ((f x.value).log ++ (g (f x.value).value).log)⟩
  rw [Diagnostics.append_assoc]
  rfl

instance : LawfulMonad Traced := LawfulMonad.mk' Traced id_map_eq pure_bind_eq bind_bind_eq

@[simp] theorem value_map (f : α → β) (x : Traced α) : (f <$> x).value = f x.value := rfl

@[simp] theorem log_map (f : α → β) (x : Traced α) : (f <$> x).log = x.log :=
  Diagnostics.append_empty x.log

/-- The value of a row of steps is the row of their values. -/
@[simp] theorem value_mapM (f : α → Traced β) (xs : List α) :
    (xs.mapM f).value = xs.map fun x => (f x).value := by
  induction xs with
  | nil => rfl
  | cons x xs ih => rw [List.mapM_cons]; simp [ih]

section
variable {part : Diagnostics → List γ} (void : part .empty = [])
  (both : ∀ a b, part (a ++ b) = part a ++ part b)
include void both

/-- What a row of steps reports in a part of the report is what each does, in order. -/
theorem part_mapM (f : α → Traced β) (xs : List α) :
    part (xs.mapM f).log = xs.flatMap fun x => part (f x).log := by
  induction xs with
  | nil => exact void
  | cons x xs ih => rw [List.mapM_cons]; simp [ih, both]

/-- What a fold reports is what each step does, where this does not depend on what came before. -/
theorem part_foldlM {f : β → α → Traced β} {g : α → List γ} (hf : ∀ b a, part (f b a).log = g a)
    (xs : List α) (b : β) : part (xs.foldlM f b).log = xs.flatMap g := by
  induction xs generalizing b with
  | nil => exact void
  | cons x xs ih => rw [List.foldlM_cons]; simp [ih, both, hf]

/-- What holds of all reports of each step holds of all reports of a fold. -/
theorem forall_part_foldlM {f : β → α → Traced β} {P : γ → Prop}
    (hf : ∀ b a, ∀ e ∈ part (f b a).log, P e) (xs : List α) (b : β) :
    ∀ e ∈ part (xs.foldlM f b).log, P e := by
  induction xs generalizing b with
  | nil =>
    intro e he
    rw [List.foldlM_nil, log_pure, void] at he
    cases he
  | cons x xs ih =>
    intro e he
    rw [List.foldlM_cons, log_bind, both] at he
    rcases List.mem_append.mp he with here | there
    · exact hf b x e here
    · exact ih _ e there

end

/-- The errors of a row of steps are those of each, in order. -/
@[simp] theorem errors_mapM (f : α → Traced β) (xs : List α) :
    (xs.mapM f).log.errors = xs.flatMap fun x => (f x).log.errors :=
  part_mapM rfl Diagnostics.errors_append f xs

@[simp] theorem warnings_mapM (f : α → Traced β) (xs : List α) :
    (xs.mapM f).log.warnings = xs.flatMap fun x => (f x).log.warnings :=
  part_mapM rfl Diagnostics.warnings_append f xs

/-- The value of a fold is the fold of the values. -/
@[simp] theorem value_foldlM (f : β → α → Traced β) (xs : List α) (b : β) :
    (xs.foldlM f b).value = xs.foldl (fun b a => (f b a).value) b := by
  induction xs generalizing b with
  | nil => rfl
  | cons x xs ih => rw [List.foldlM_cons]; simp [ih]

/-- The errors of a fold are those of each step, where these do not depend on what came before. -/
theorem errors_foldlM {f : β → α → Traced β} {g : α → List Diagnostic}
    (hf : ∀ b a, (f b a).log.errors = g a) (xs : List α) (b : β) :
    (xs.foldlM f b).log.errors = xs.flatMap g :=
  part_foldlM rfl Diagnostics.errors_append hf xs b

/-- What holds of the errors of each step holds of all errors of a fold. -/
theorem forall_errors_foldlM {f : β → α → Traced β} {P : Diagnostic → Prop}
    (hf : ∀ b a, ∀ e ∈ (f b a).log.errors, P e) (xs : List α) (b : β) :
    ∀ e ∈ (xs.foldlM f b).log.errors, P e :=
  forall_part_foldlM rfl Diagnostics.errors_append hf xs b

theorem forall_warnings_foldlM {f : β → α → Traced β} {P : Diagnostic → Prop}
    (hf : ∀ b a, ∀ d ∈ (f b a).log.warnings, P d) (xs : List α) (b : β) :
    ∀ d ∈ (xs.foldlM f b).log.warnings, P d :=
  forall_part_foldlM rfl Diagnostics.warnings_append hf xs b

/-- What each step keeps true of the result and of the warnings so far is true of a fold in the end. -/
theorem foldlM_keeps (f : β → α → Traced β) (Inv : β → List Diagnostic → Prop) (xs : List α)
    (step : ∀ b ds, ∀ x ∈ xs, Inv b ds → Inv (f b x).value (ds ++ (f b x).log.warnings)) {b : β}
    {ds : List Diagnostic} (start : Inv b ds) :
    Inv (xs.foldlM f b).value (ds ++ (xs.foldlM f b).log.warnings) := by
  induction xs generalizing b ds with
  | nil => simpa using start
  | cons x xs ih =>
    rw [List.foldlM_cons, value_bind, log_bind, Diagnostics.warnings_append, ← List.append_assoc]
    exact ih (fun b ds y hy => step b ds y (List.mem_cons_of_mem x hy))
      (step b ds x List.mem_cons_self start)

/-- A row of hints reports these and nothing else. -/
theorem log_forM_hint (texts : List String) : (forM texts hint).log = { Diagnostics.empty with hints := texts } := by
  induction texts with
  | nil => rfl
  | cons text texts ih =>
    rw [List.forM_cons, log_bind, ih]
    rfl

/-- A fold of steps without errors has none. -/
theorem errors_foldlM_eq_nil {f : β → α → Traced β} (hf : ∀ b a, (f b a).log.errors = [])
    (xs : List α) (b : β) : (xs.foldlM f b).log.errors = [] := by
  rw [errors_foldlM (g := fun _ => []) hf]
  simp

/-- Where each step of a row has but warnings, so has the row. -/
theorem log_mapM_of_warned {f : α → Traced β} {g : α → List Diagnostic} {xs : List α}
    (hf : ∀ x ∈ xs, (f x).log = .warned (g x)) : (xs.mapM f).log = .warned (xs.flatMap g) := by
  induction xs with
  | nil => rfl
  | cons x xs ih =>
    rw [List.mapM_cons]
    simp [hf x List.mem_cons_self, ih fun y hy => hf y (List.mem_cons_of_mem x hy)]

/-- A row of steps without errors has none. -/
theorem errors_mapM_eq_nil {f : α → Traced β} {xs : List α}
    (hf : ∀ x, (f x).log.errors = []) : (xs.mapM f).log.errors = [] := by
  rw [errors_mapM]
  exact List.flatMap_eq_nil_iff.mpr fun x _ => hf x

/-- Steps that report nothing make a row that reports nothing. -/
theorem mapM_eq_pure {f : α → Traced β} {g : α → β} {xs : List α}
    (h : ∀ x ∈ xs, f x = pure (g x)) : xs.mapM f = pure (xs.map g) := by
  induction xs with
  | nil => rfl
  | cons x xs ih =>
    rw [List.mapM_cons, h x List.mem_cons_self, pure_bind,
      ih fun y hy => h y (List.mem_cons_of_mem x hy), pure_bind, List.map_cons]

/-- A fold of steps that leave the state as it is and report nothing. -/
theorem foldlM_eq_pure {f : β → α → Traced β} {b : β} {xs : List α}
    (h : ∀ x ∈ xs, f b x = pure b) : xs.foldlM f b = pure b := by
  induction xs with
  | nil => rfl
  | cons x xs ih =>
    rw [List.foldlM_cons, h x List.mem_cons_self, pure_bind,
      ih fun y hy => h y (List.mem_cons_of_mem x hy)]

end Traced

end Flowgraph
