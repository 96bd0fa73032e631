import Flowgraph.Proofs.Dag.Rereading
import Flowgraph.Proofs.DottedPaths
import Flowgraph.Proofs.HandOver
import Flowgraph.Proofs.Json.Reworking
import Flowgraph.Proofs.Json.Trails

/-! Defaults for how a graph is shown. A default is for a path that leads to nothing, and to fill it in leaves
    all that is set in its place, unless the path runs on beyond a value that is no object: that value gives
    way to an object, be it built in or the default of an earlier key. -/

namespace Flowgraph

open Json

/-! ### Values that only grow -/

namespace Json.Value

/-- All that is inside of a value is found again in another one, an object perhaps with further members. -/
def KeptIn (old new : Value) : Prop :=
  ∀ trail w, old.at? trail = some w →
    ∃ w', new.at? trail = some w' ∧ (w' = w ∨ ∃ o o', w = .obj o ∧ w' = .obj o')

theorem KeptIn.refl (v : Value) : v.KeptIn v := fun _ w there => ⟨w, there, .inl rfl⟩

theorem KeptIn.trans {u v w : Value} (first : u.KeptIn v) (second : v.KeptIn w) : u.KeptIn w := by
  intro trail a there
  obtain ⟨b, there, grown⟩ := first trail a there
  obtain ⟨c, there, grown'⟩ := second trail b there
  refine ⟨c, there, ?_⟩
  rcases grown with rfl | ⟨o, o', rfl, rfl⟩
  · exact grown'
  · rcases grown' with rfl | ⟨-, o'', -, rfl⟩
    · exact .inr ⟨o, o', rfl, rfl⟩
    · exact .inr ⟨o, o'', rfl, rfl⟩

/-- Where a member is put, just what stood under its key may get lost. -/
theorem keptIn_put {o : Object} {key : String} {new : Value} :
    (obj o).KeptIn (obj (o.put key new)) ↔ ∀ old, o.member? key = some old → old.KeptIn new := by
  have put (k : String) (t : Trail) : (obj (o.put key new)).at? (.member k :: t)
      = if k = key then new.at? t else (obj o).at? (.member k :: t) := by
    simp only [at?, child?, member?, Object.member?_put]
    split <;> rfl
  constructor
  · intro kept old there trail w found
    have before : (obj o).at? (.member key :: trail) = some w := by
      simpa [at?, child?, member?, there] using found
    have after := kept _ w before
    rwa [put, if_pos rfl] at after
  · intro kept trail w found
    cases trail with
    | nil =>
      cases found
      exact ⟨_, rfl, .inr ⟨o, _, rfl, rfl⟩⟩
    | cons step trail =>
      cases step with
      | item i => cases found
      | member k =>
        rw [put]
        split
        · rename_i same
          subst same
          obtain ⟨old, there, found⟩ := Option.bind_eq_some_iff.mp found
          exact kept old there trail w found
        · exact ⟨w, found, .inl rfl⟩

end Json.Value

namespace Path

/-! ### Setting what a path leads to -/

/-- The segments lead on beyond a value that is no object. -/
def RunsBeyond (v : Value) (segs : List String) : Prop :=
  ∃ before behind w, segs = before ++ behind ∧ behind ≠ [] ∧ v.at? (before.map .member) = some w ∧
    ∀ o, w ≠ .obj o

theorem runsBeyond_of_ne_obj {v : Value} (other : ∀ o, v ≠ .obj o) (s : String) (ss : List String) :
    RunsBeyond v (s :: ss) :=
  ⟨[], s :: ss, v, rfl, List.cons_ne_nil _ _, rfl, other⟩

theorem runsBeyond_obj {o : Object} {s : String} {ss : List String} :
    RunsBeyond (.obj o) (s :: ss) ↔ ∃ c, o.member? s = some c ∧ RunsBeyond c ss := by
  constructor
  · rintro ⟨before, behind, w, cut, more, there, other⟩
    cases before with
    | nil =>
      cases there
      exact absurd rfl (other o)
    | cons k before =>
      obtain ⟨rfl, rfl⟩ := List.cons.inj cut
      obtain ⟨c, member, there⟩ := Option.bind_eq_some_iff.mp there
      exact ⟨c, member, before, behind, w, rfl, more, there, other⟩
  · rintro ⟨c, member, before, behind, w, rfl, more, there, other⟩
    exact ⟨s :: before, behind, w, rfl, more, Option.bind_eq_some_iff.mpr ⟨c, member, there⟩, other⟩

/-- What members lead to, segments lead to. -/
theorem walk?_of_at? {v w : Value} {segs : List String} (there : v.at? (segs.map .member) = some w) :
    walk? v segs = some w := by
  induction segs generalizing v with
  | nil => exact there
  | cons s ss ih =>
    obtain ⟨c, member, further⟩ := Option.bind_eq_some_iff.mp there
    cases v with
    | obj o =>
      rw [walk?, child?, show Object.member? o s = some c from member]
      exact ih further
    | null | bool _ | num _ | str _ | arr _ => cases member

/-- Setting what was not set keeps all there is, just if the segments run beyond no value that is no
    object. -/
theorem keptIn_setAlong {v doc : Value} {segs : List String} (unset : walk? doc segs = none) :
    doc.KeptIn (setAlong v doc segs) ↔ ¬RunsBeyond doc segs := by
  induction segs generalizing doc with
  | nil => cases unset
  | cons s ss ih =>
    by_cases object : ∃ o, doc = .obj o
    · obtain ⟨o, rfl⟩ := object
      rw [setAlong_obj, Value.keptIn_put, runsBeyond_obj]
      cases member : Object.member? o s with
      | none => simp
      | some c =>
        have unset : walk? c ss = none := by simpa [walk?, child?, member] using unset
        simpa using ih unset
    · have other : ∀ o, doc ≠ .obj o := fun o same => object ⟨o, same⟩
      refine iff_of_false (fun kept => ?_) (not_not_intro (runsBeyond_of_ne_obj other s ss))
      obtain ⟨o, -, new⟩ := exists_setAlong v doc s ss
      obtain ⟨w, there, grown⟩ := kept [] doc rfl
      cases there
      rcases grown with same | ⟨o, -, same, -⟩
      · exact other _ (same.symm.trans new)
      · exact other o same

/-- What is set along segments changes nothing where they do not pass and do not end on the way. -/
theorem at?_setAlong {v doc : Value} {segs keys : List String} (past : ¬keys <+: segs)
    (short : ¬segs <+: keys) :
    (setAlong v doc segs).at? (keys.map .member) = doc.at? (keys.map .member) := by
  induction segs generalizing doc keys with
  | nil => exact absurd List.nil_prefix short
  | cons s ss ih =>
    cases keys with
    | nil => exact absurd List.nil_prefix past
    | cons k keys =>
      obtain ⟨o, members, set⟩ := exists_setAlong v doc s ss
      rw [set, List.map_cons, Value.at?, Value.at?, Value.child?, Value.member?, Object.member?_put,
        members, Value.child?]
      by_cases same : k = s
      · subst same
        have past : ¬keys <+: ss := fun h => past (List.cons_prefix_cons.mpr ⟨rfl, h⟩)
        have short : ¬ss <+: keys := fun h => short (List.cons_prefix_cons.mpr ⟨rfl, h⟩)
        rw [if_pos rfl, Option.bind_some, ih past short]
        cases doc.member? k with
        | some c => rfl
        | none =>
          cases keys with
          | nil => exact absurd List.nil_prefix past
          | cons k' keys => rfl
      · rw [if_neg same]

/-- A path leads to nothing, and runs on beyond a value that is no object. -/
structure Blocked (doc : Value) (path : String) : Prop where
  unset : get? doc path = none
  beyond : RunsBeyond doc (segments path)

theorem walk?_of_get? {doc : Value} {path : String} (unset : get? doc path = none) :
    walk? doc (segments path) = none := by
  rw [get?] at unset
  split at unset
  · cases unset
  · exact unset

end Path

namespace Lowerer

/-! ### One default -/

/-- A default leaves all there is, just if its path is not blocked. -/
theorem keptIn_fillUi {ui : Value} {d : String × Value} :
    ui.KeptIn (fillUi ui d) ↔ ¬Path.Blocked ui d.1 := by
  rw [fillUi]
  cases there : Path.get? ui d.1 with
  | some w => exact iff_of_true (.refl ui) fun blocked => by simp [blocked.unset] at there
  | none =>
    refine (Path.keptIn_setAlong (Path.walk?_of_get? there)).trans (not_congr ?_)
    exact ⟨fun beyond => ⟨there, beyond⟩, Path.Blocked.beyond⟩

/-- A default is found under its path where nothing was. -/
theorem get?_fillUi {ui : Value} {d : String × Value} (unset : Path.get? ui d.1 = none) :
    Path.get? (fillUi ui d) d.1 = some d.2 := by
  have named : d.1 ≠ "" := fun empty => by simp [Path.get?, empty] at unset
  rw [fillUi, unset, Path.get?, if_neg named]
  exact Path.walk?_setAlong _ _ _

/-- A default leaves a value in its place if its path does not run on beyond it. -/
theorem at?_fillUi {ui w : Value} {d : String × Value} {keys : List String}
    (there : ui.at? (keys.map .member) = some w)
    (short : keys <+: Path.segments d.1 → keys = Path.segments d.1) :
    (fillUi ui d).at? (keys.map .member) = some w := by
  rw [fillUi]
  cases found : Path.get? ui d.1 with
  | some w => exact there
  | none =>
    have unset := Path.walk?_of_get? found
    have further : ¬Path.segments d.1 <+: keys := by
      rintro ⟨rest, rfl⟩
      rw [List.map_append, Value.at?_append, Option.bind_eq_some_iff] at there
      obtain ⟨w, there, -⟩ := there
      simp [Path.walk?_of_at? there] at unset
    have past : ¬keys <+: Path.segments d.1 := fun before =>
      further (short before ▸ List.prefix_rfl)
    exact (Path.at?_setAlong past further).trans there

/-! ### The built-in hints -/

/-- The values that the hints have before any default, with the keys that lead to them. -/
def builtIns (kind : LayoutKind) : List (List String × Value) :=
  [(["layout"], LayoutKind.codec.toValue kind),
    (["viewport", "x"], Codec.double.toValue Viewport.initial.x),
    (["viewport", "y"], Codec.double.toValue Viewport.initial.y),
    (["viewport", "zoom"], Codec.double.toValue Viewport.initial.zoom)]

/-- The built-in values are in their places, in objects in key order. -/
structure Intact (kind : LayoutKind) (ui : Value) : Prop where
  ordered : ∃ o view : Object, ui = .obj o ∧ o.Sorted ∧ o.member? "viewport" = some (.obj view) ∧
    view.Sorted
  values : ∀ b ∈ builtIns kind, ui.at? (b.1.map .member) = some b.2

theorem viewport_toValue_initial : Viewport.codec.toValue .initial
    = .obj [("x", Codec.double.toValue Viewport.initial.x), ("y", Codec.double.toValue Viewport.initial.y),
        ("zoom", Codec.double.toValue Viewport.initial.zoom)] := by
  decide +kernel

theorem finite_initial : Viewport.initial.isFinite = true := by decide +kernel

theorem hints_toValue_initial (kind : LayoutKind) : UiHints.codec.toValue ⟨kind, .initial, []⟩
    = .obj [("layout", LayoutKind.codec.toValue kind),
        ("viewport", Viewport.codec.toValue .initial)] := by
  cases kind <;> decide +kernel

theorem intact_initial (kind : LayoutKind) :
    Intact kind (UiHints.codec.toValue ⟨kind, .initial, []⟩) := by
  have canonical := Value.canonical_canonical (UiHints.codec.encode ⟨kind, .initial, []⟩)
  have viewCanonical := Value.canonical_canonical (Viewport.codec.encode .initial)
  rw [← Codec.toValue, hints_toValue_initial] at canonical
  rw [← Codec.toValue, viewport_toValue_initial] at viewCanonical
  rw [hints_toValue_initial]
  refine ⟨⟨_, _, rfl, Object.sorted_of_canonical canonical, ?_,
    Object.sorted_of_canonical viewCanonical⟩, ?_⟩
  · rw [← viewport_toValue_initial]
    rfl
  · simp [builtIns, Value.at?, Value.child?, Value.member?, Object.member?_cons,
      viewport_toValue_initial]

theorem Intact.fillUi {kind : LayoutKind} {ui : Value} (h : Intact kind ui) {d : String × Value}
    (short : ∀ b ∈ builtIns kind, b.1 <+: Path.segments d.1 → b.1 = Path.segments d.1) :
    Intact kind (fillUi ui d) := by
  refine ⟨?_, fun b mem => at?_fillUi (h.values b mem) (short b mem)⟩
  obtain ⟨o, view, rfl, sorted, there, viewSorted⟩ := h.ordered
  rw [Lowerer.fillUi]
  split
  · rename_i unset
    have unset := Path.walk?_of_get? (Option.isNone_iff_eq_none.mp unset)
    rw [Path.set]
    cases segs : Path.segments d.1 with
    | nil => simp [segs, Path.walk?] at unset
    | cons s ss =>
      rw [Path.setAlong_obj]
      by_cases same : s = "viewport"
      · subst same
        cases ss with
        | nil => simp [segs, Path.walk?, Path.child?, there] at unset
        | cons s' ss =>
          rw [there, Option.getD_some, Path.setAlong_obj]
          exact ⟨_, _, rfl, sorted.put _ _, by rw [Object.member?_put, if_pos rfl],
            viewSorted.put s' _⟩
      · refine ⟨_, view, rfl, sorted.put _ _, ?_, viewSorted⟩
        rw [Object.member?_put, if_neg (Ne.symm same), there]
  · exact ⟨o, view, rfl, sorted, there, viewSorted⟩

section
variable {kind : LayoutKind} {ui : Value} (h : Intact kind ui) {p : Place} (hp : p.origin ≠ .text)
include h hp

theorem Intact.decode_viewport {view : Object} (sorted : view.Sorted)
    (there : ui.member? "viewport" = some (.obj view)) :
    Viewport.codec.decode p (Value.obj view).toTree = .ok .initial := by
  have one (name : String) (get : Viewport → Double) (finite : (get .initial).isFinite = true)
      (mem : (["viewport", name], Codec.double.toValue (get .initial)) ∈ builtIns kind)
      {s : Scope} (place : s.place = p.inner) (o : Object) :
      (Record.field name get .double).Carries (s.on o) (s.on view) fun _ y => y = get .initial := by
    have found := h.values _ mem
    simp only [List.map_cons, List.map_nil, Value.at?, Value.child?, there, Option.bind_some,
      Option.bind_fun_some] at found
    refine .given_field (by rw [sorted.under, show view.member? name = _ from found]; rfl) ?_
    exact (Codec.rereads_double _ s.place _ (place ▸ hp)).mpr ⟨finite, rfl⟩
  have initial : Viewport.codec.decode p (Viewport.codec.toValue .initial).toTree = .ok .initial :=
    (Viewport.rereads .initial p .initial hp).mpr ⟨finite_initial, rfl⟩
  rw [viewport_toValue_initial] at initial
  simp only [Viewport.codec, Record.codec] at initial ⊢
  refine Record.decode_carried hp initial fun s place _ => ?_
  have x := one "x" Viewport.x (by decide +kernel) (by simp [builtIns]) place
  have y := one "y" Viewport.y (by decide +kernel) (by simp [builtIns]) place
  have zoom := one "zoom" Viewport.zoom (by decide +kernel) (by simp [builtIns]) place
  refine .seq (.seq (.map (x _) ?_) (y _)) (zoom _)
  rintro _ _ rfl _ _ rfl _ _ rfl -
  rfl

/-- Where the built-in values are in their places, the hints are read, with the layout and the viewport that
    they had at first. -/
theorem Intact.exists_decode :
    ∃ hints, UiHints.codec.decode p ui.toTree = .ok hints ∧ hints.layout = kind ∧
      hints.viewport = .initial := by
  obtain ⟨o, view, rfl, sorted, there, viewSorted⟩ := h.ordered
  have initial : UiHints.codec.decode p (UiHints.codec.toValue ⟨kind, .initial, []⟩).toTree
      = .ok ⟨kind, .initial, []⟩ :=
    (UiHints.rereads (u := ⟨kind, .initial, []⟩) nofun p _ hp).mpr ⟨finite_initial, rfl⟩
  rw [hints_toValue_initial] at initial
  have layout : o.member? "layout" = some (LayoutKind.codec.toValue kind) := by
    simpa [Value.at?, Value.child?, Value.member?] using h.values _ List.mem_cons_self
  simp only [UiHints.codec, Record.codec] at initial ⊢
  refine Record.exists_decode_of_carries
    (R := fun _ hints => hints.layout = kind ∧ hints.viewport = .initial) hp initial
    fun s place _ => ?_
  have name := (LayoutKind.rereads kind s.place kind (place ▸ hp)).mpr ⟨rfl, rfl⟩
  have shown := h.decode_viewport (p := s.place) (place ▸ hp) viewSorted there
  refine .seq (.seq (.map (.given_field (by rw [sorted.under, layout]; rfl) name) ?_)
    (.given_field (by rw [sorted.under, there]; rfl) shown)) (.taken_rest (place ▸ hp))
  rintro _ _ rfl _ _ rfl _ _ -
  exact ⟨rfl, rfl⟩

end

/-! ### All defaults -/

/-- The hints with some of the defaults filled in. -/
def filled (l : Lowerer) (defaults : Object) : Value :=
  defaults.foldl fillUi (UiHints.codec.toValue ⟨l.layout, .initial, []⟩)

theorem filled_concat (l : Lowerer) (defaults : Object) (d : String × Value) :
    l.filled (defaults ++ [d]) = fillUi (l.filled defaults) d := List.foldl_concat ..

/-- The same with no default at all. -/
def plain (l : Lowerer) : Lowerer := { l with uiDefaults := [] }

/-- Graphs are shown with the layout and the viewport that they would have without any default, and are
    otherwise as if there were none, in their reports as well. -/
structure ShowsPlainly (l : Lowerer) (ui : UiHints) : Prop where
  hints : l.uiHints = .ok ui
  layout : ui.layout = l.layout
  viewport : ui.viewport = .initial
  compiles : ∀ executable, l.compile executable
    = ⟨(l.plain.compile executable).document.map fun d => { d with ui := ui },
        (l.plain.compile executable).diagnostics⟩

/-- Lowering differs by the hints alone, if they can be read. -/
theorem compile_eq_plain {l : Lowerer} {ui : UiHints} (hints : l.uiHints = .ok ui) (executable : Value) :
    l.compile executable = ⟨(l.plain.compile executable).document.map fun d => { d with ui := ui },
      (l.plain.compile executable).diagnostics⟩ := by
  have plain : l.plain.uiHints = .ok ⟨l.layout, .initial, []⟩ := uiHints_of_plain rfl
  rw [compile, compile]
  split
  · rfl
  · cases read : Workflow.ofValue executable with
    | error cause => rfl
    | ok w =>
      have same : l.plain.graph w = l.graph w := rfl
      cases built : (l.graph w).value with
      | none => simp only [lower, same, built, Option.map_none]
      | some graph =>
        obtain ⟨nodes, edges⟩ := graph
        simp only [lower, same, built, hints, plain, finish, apply_ite (Option.map _), Option.map_some,
          Option.map_none]
        rfl

theorem Intact.exists_showsPlainly {l : Lowerer} (h : Intact l.layout (l.filled l.uiDefaults)) :
    ∃ ui, l.ShowsPlainly ui := by
  obtain ⟨ui, hints, layout, viewport⟩ := h.exists_decode (p := ⟨.value, 0⟩) (by decide)
  exact ⟨ui, hints, layout, viewport, compile_eq_plain hints⟩

/-- Nothing is inside of a built-in value. -/
theorem child?_builtIn {kind : LayoutKind} {b : List String × Value} (mem : b ∈ builtIns kind)
    (segment : String) : Path.child? b.2 segment = none ∧ ∀ o, b.2 ≠ .obj o := by
  simp only [builtIns, List.mem_cons, List.not_mem_nil, or_false] at mem
  have number (x : Double) : Path.child? (Codec.double.toValue x) segment = none ∧
      ∀ o, Codec.double.toValue x ≠ .obj o := by
    simp only [Codec.toValue, Codec.double, Value.float]
    split <;> exact ⟨rfl, by simp [Value.canonical]⟩
  rcases mem with rfl | rfl | rfl | rfl
  · exact ⟨rfl, by simp [Codec.toValue, LayoutKind.codec, Codec.variant, Value.canonical]⟩
  all_goals dsimp only
  · exact number _
  · exact number _
  · exact number _

/-- A path that runs on beyond a built-in value is blocked while the value is in its place. -/
theorem Intact.blocked {kind : LayoutKind} {ui : Value} (h : Intact kind ui) {b : List String × Value}
    (mem : b ∈ builtIns kind) {path : String} (past : b.1 <+: Path.segments path)
    (other : b.1 ≠ Path.segments path) : Path.Blocked ui path := by
  have named : path ≠ "" := by
    rintro rfl
    simp only [builtIns, List.mem_cons, List.not_mem_nil, or_false] at mem
    rcases mem with rfl | rfl | rfl | rfl <;> dsimp only at past <;> exact absurd past (by decide)
  obtain ⟨rest, cut⟩ := past
  cases rest with
  | nil => exact absurd (by simpa using cut) other
  | cons s ss =>
    obtain ⟨inside, scalar⟩ := child?_builtIn mem s
    refine ⟨?_, b.1, s :: ss, b.2, cut.symm, List.cons_ne_nil _ _, h.values b mem, scalar⟩
    rw [Path.get?, if_neg named, ← cut, Path.walk?_append, Path.walk?_of_at? (h.values b mem),
      Option.bind_some, Path.walk?, inside, Option.bind_none]

/-- A default is filled in where nothing was, and all that was set before it is kept. -/
structure Fills (before after : Value) (d : String × Value) : Prop where
  kept : before.KeptIn after
  filled : Path.get? before d.1 = none → Path.get? after d.1 = some d.2

/-- The defaults are harmless to all that is set when their turn comes, and it is still there in the end. -/
structure HonoursSettings (l : Lowerer) : Prop where
  shows : ∃ ui, l.ShowsPlainly ui
  fills : ∀ done d rest, l.uiDefaults = done ++ d :: rest →
    Fills (l.filled done) (l.filled (done ++ [d])) d
  lasting : ∀ done rest, l.uiDefaults = done ++ rest → (l.filled done).KeptIn (l.filled l.uiDefaults)

theorem keptIn_filled {l : Lowerer} {done rest : Object} (cut : l.uiDefaults = done ++ rest)
    (fills : ∀ done d rest, l.uiDefaults = done ++ d :: rest →
      Fills (l.filled done) (l.filled (done ++ [d])) d) :
    (l.filled done).KeptIn (l.filled l.uiDefaults) := by
  induction rest generalizing done with
  | nil =>
    rw [cut, List.append_nil]
    exact .refl _
  | cons d rest ih => exact (fills done d rest cut).kept.trans (ih (by rw [cut, List.append_cons]))

/-- What one default after the other keeps, all of them keep. -/
theorem intact_filled {l : Lowerer} {defaults : Object}
    (step : ∀ done d rest, defaults = done ++ d :: rest → Intact l.layout (l.filled done) →
      Intact l.layout (l.filled (done ++ [d]))) : Intact l.layout (l.filled defaults) := by
  induction defaults using List.reverseRecOn with
  | nil => exact intact_initial l.layout
  | append_singleton defaults d ih =>
    refine step defaults d [] rfl (ih fun done e rest cut => ?_)
    exact step done e (rest ++ [d]) (by rw [cut, List.append_assoc, List.cons_append])

/-- Defaults whose paths run on beyond no built-in value leave graphs shown as they were. With all that is
    set they deal as they should just if none of them is blocked when its turn comes. -/
theorem honoursSettings_iff (l : Lowerer) :
    ((∀ d ∈ l.uiDefaults, ∀ b ∈ builtIns l.layout,
        b.1 <+: Path.segments d.1 → b.1 = Path.segments d.1) → ∃ ui, l.ShowsPlainly ui) ∧
      (l.HonoursSettings ↔ ∀ done d rest, l.uiDefaults = done ++ d :: rest →
        ¬Path.Blocked (l.filled done) d.1) := by
  refine ⟨fun short => ?_, fun honours done d rest cut => ?_, fun free => ?_⟩
  · refine Intact.exists_showsPlainly (intact_filled fun done d rest cut h => ?_)
    rw [filled_concat]
    exact h.fillUi (short d (by simp [cut]))
  · have kept := (honours.fills done d rest cut).kept
    rw [filled_concat] at kept
    exact keptIn_fillUi.mp kept
  · have fills (done : Object) (d : String × Value) (rest : Object)
        (cut : l.uiDefaults = done ++ d :: rest) : Fills (l.filled done) (l.filled (done ++ [d])) d := by
      rw [filled_concat]
      exact ⟨keptIn_fillUi.mpr (free done d rest cut), get?_fillUi⟩
    refine ⟨Intact.exists_showsPlainly (intact_filled fun done d rest cut h => ?_), fills,
      fun done rest cut => keptIn_filled cut fills⟩
    rw [filled_concat]
    refine h.fillUi fun b mem past => ?_
    by_contra other
    exact free done d rest cut (h.blocked mem past other)

theorem honoursSettings_iff_fitting :
    (∀ d ∈ [("grid.size", Value.int 8), ("theme", .str "dark"), ("viewport.x", .int 3)],
        ∀ b ∈ builtIns .elk, b.1 <+: Path.segments d.1 → b.1 = Path.segments d.1) ∧
      ∃ ui, ShowsPlainly ⟨LayoutKind.elk, 10,
        [("grid.size", .int 8), ("theme", .str "dark"), ("viewport.x", .int 3)], none⟩ ui :=
  ⟨by decide +kernel, (honoursSettings_iff _).1 (by decide +kernel)⟩

/-- A default beyond the layout makes an object of it, which is not read as a layout, and a default beyond an
    earlier one removes that. -/
theorem defaults_beyond_values :
    Path.Blocked (standard.filled []) "layout.x" ∧
      (uiHints { standard with uiDefaults := [("layout.x", .int 1)] }).toOption = none ∧
      Path.get? (standard.filled [("grid", .int 1)]) "grid" = some (.int 1) ∧
      Path.get? (standard.filled [("grid", .int 1), ("grid.size", .int 2)]) "grid"
        = some (.obj [("size", .int 2)]) := by
  refine ⟨⟨?_, ["layout"], ["x"], .str "dagre", ?_, List.cons_ne_nil _ _, ?_, by simp⟩, ?_, ?_, ?_⟩
  all_goals decide +kernel

end Lowerer

end Flowgraph
