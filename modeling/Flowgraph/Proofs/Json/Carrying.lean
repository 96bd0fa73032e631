import Flowgraph.Proofs.Json.Canonical

/-! Reading a record a second time from something else. Where each part of a record reads from the one source
    and then also from the other, as something related, so does the whole record. -/

namespace Flowgraph.Json.Record

/-- Whatever a part of a record reads in one scope it reads in the other as something related. -/
def Carries (r : Record σ α) (s s' : Scope) (R : α → α → Prop) : Prop :=
  ∀ i a, r.read s i = .ok a → ∃ b, r.read s' i = .ok b ∧ R a b

namespace Carries

variable {s s' : Scope}

theorem map {f : α → β} {r : Record σ α} {S : α → α → Prop} {R : β → β → Prop}
    (hr : r.Carries s s' S) (h : ∀ a b, S a b → R (f a) (f b)) : (f <$> r).Carries s s' R := by
  intro i x read
  obtain ⟨a, here, rfl⟩ := map_eq_ok.mp (show (r.read s i).map f = .ok x from read)
  obtain ⟨b, there, related⟩ := hr i a here
  exact ⟨f b, map_eq_ok.mpr ⟨b, there, rfl⟩, h a b related⟩

/-- The whole is carried over as its parts are. -/
theorem seq {r : Record σ (α → β)} {q : Record σ α} {S : α → α → Prop} {R : β → β → Prop}
    (hr : r.Carries s s' fun f g => ∀ a b, S a b → R (f a) (g b)) (hq : q.Carries s s' S) :
    (r <*> q).Carries s s' R := by
  intro i x read
  obtain ⟨both, parts, rfl⟩ := map_eq_ok.mp (show (bothOrFirst (r.read s i)
    (q.read s (i + r.names.length))).map (fun fx => fx.1 fx.2) = .ok x from read)
  obtain ⟨left, right⟩ := Rereads.bothOrFirst_eq_ok.mp parts
  obtain ⟨g, left', related⟩ := hr i both.1 left
  obtain ⟨b, right', same⟩ := hq _ both.2 right
  refine ⟨g b, map_eq_ok.mpr ⟨(g, b), ?_, rfl⟩, related both.2 b same⟩
  exact Rereads.bothOrFirst_eq_ok.mpr ⟨left', right'⟩

end Carries

end Flowgraph.Json.Record
