import Mathlib.Data.List.Nodup
import ShowControl.Scene.Validation

/-!
# What a scene has that can be drawn

The checks of a scene go through its surfaces one by one and stop at the first fault. What they
establish has no order in it: `Scene.IsDrawable` says it of the surfaces and feeds as they are, and
`Scene.check_eq_ok_iff` that the checks pass for these scenes and no others.

Two changes keep a scene drawable: more feeds (`Scene.IsDrawable.mono`), and another feed for one of
its surfaces (`Scene.IsDrawable.rebind`).
-/

namespace ShowControl

/-- The surface has a name, and enough vertices, which are all finite. -/
structure Surface.IsDrawable (s : Surface) : Prop where
  named : s.id.text ≠ ""
  enough : minVertices ≤ s.vertices.length
  finite : ∀ v ∈ s.vertices, v.isFinite = true

theorem Surface.check_eq_ok_iff {s : Surface} : s.check = .ok () ↔ s.IsDrawable := by
  unfold Surface.check
  split
  · next empty =>
    have unnamed : s.id.text = "" := String.isEmpty_iff.1 empty
    exact ⟨nofun, fun drawable ↦ absurd unnamed drawable.named⟩
  · next nonempty =>
    have named : s.id.text ≠ "" := fun unnamed ↦ nonempty (String.isEmpty_iff.2 unnamed)
    split
    · next few => exact ⟨nofun, fun drawable ↦ absurd few (Nat.not_lt.2 drawable.enough)⟩
    · next enough =>
      have all_finite : (s.vertices.any fun v ↦ !v.isFinite) = false ↔
          ∀ v ∈ s.vertices, v.isFinite = true := by
        simp
      split
      · next infinite =>
        refine ⟨nofun, fun drawable ↦ ?_⟩
        rw [all_finite.2 drawable.finite] at infinite
        cases infinite
      · next finite =>
        rw [Bool.not_eq_true, all_finite] at finite
        exact ⟨fun _ ↦ ⟨named, Nat.not_lt.1 enough, finite⟩, fun _ ↦ rfl⟩

namespace Scene

/-- The scene can be drawn with these feeds. -/
structure IsDrawable (s : Scene) (feeds : List Feed) : Prop where
  surfaces : ∀ surface ∈ s.surfaces, surface.IsDrawable
  distinct : (s.surfaces.map Surface.id).Nodup
  fed : ∀ surface ∈ s.surfaces, ∃ feed ∈ feeds, feed.id = surface.feed

/-! ### The checks -/

/-- The surfaces pass behind others if each passes by itself and all names are distinct. -/
theorem checkSurfaces_eq_ok_iff {before surfaces : List Surface} :
    checkSurfaces before surfaces = .ok () ↔
      (∀ surface ∈ surfaces, surface.IsDrawable) ∧ (surfaces.map Surface.id).Nodup ∧
        ∀ surface ∈ surfaces, ∀ other ∈ before, other.id ≠ surface.id := by
  induction surfaces generalizing before with
  | nil => simp [checkSurfaces]
  | cons surface rest ih =>
    rw [checkSurfaces, List.map_cons, List.nodup_cons]
    simp only [List.forall_mem_cons]
    cases checked : surface.check with
    | error reason =>
      refine ⟨nofun, fun passes ↦ ?_⟩
      rw [Surface.check_eq_ok_iff.2 passes.1.1] at checked
      cases checked
    | ok _ =>
      have drawable : surface.IsDrawable := Surface.check_eq_ok_iff.1 checked
      show (if _ then _ else _) = _ ↔ _
      split
      · next taken =>
        obtain ⟨other, listed, same⟩ := List.any_eq_true.1 taken
        refine ⟨nofun, fun passes ↦ ?_⟩
        exact absurd (of_decide_eq_true same) (passes.2.2.1 other listed)
      · next free =>
        have fresh : ∀ other ∈ before, other.id ≠ surface.id := by simpa using free
        have unlisted : surface.id ∉ rest.map Surface.id ↔
            ∀ other ∈ rest, surface.id ≠ other.id := by
          simp [eq_comm]
        rw [ih, unlisted]
        simp only [List.forall_mem_cons]
        -- the names that come before the rest are those before, and that of the surface
        exact ⟨fun ⟨each, nodup, apart⟩ ↦
            ⟨⟨drawable, each⟩, ⟨fun other listed ↦ (apart other listed).1, nodup⟩, fresh,
              fun other listed ↦ (apart other listed).2⟩,
          fun ⟨each, nodup, apart⟩ ↦
            ⟨each.2, nodup.2, fun other listed ↦ ⟨nodup.1 other listed, apart.2 other listed⟩⟩⟩

theorem checkFeeds_eq_ok_iff {s : Scene} {feeds : List Feed} :
    s.checkFeeds feeds = .ok () ↔
      ∀ surface ∈ s.surfaces, ∃ feed ∈ feeds, feed.id = surface.feed := by
  unfold checkFeeds
  split
  · next surface dangling =>
    refine ⟨nofun, fun fed ↦ ?_⟩
    have missing := List.find?_some dangling
    obtain ⟨feed, listed, same⟩ := fed surface (List.mem_of_find?_eq_some dangling)
    simp only [Bool.not_eq_true', List.any_eq_false, decide_eq_true_eq] at missing
    exact absurd same (missing feed listed)
  · next none =>
    refine ⟨fun _ surface listed ↦ ?_, fun _ ↦ rfl⟩
    simpa using List.find?_eq_none.1 none surface listed

/-- The checks pass exactly for the scenes that can be drawn. -/
theorem check_eq_ok_iff {s : Scene} {feeds : List Feed} :
    s.check feeds = .ok () ↔ s.IsDrawable feeds := by
  have both : s.check feeds = .ok () ↔
      checkSurfaces [] s.surfaces = .ok () ∧ s.checkFeeds feeds = .ok () := by
    rw [check]
    cases checkSurfaces [] s.surfaces with
    | error reason => exact ⟨nofun, nofun⟩
    | ok _ => exact ⟨fun passes ↦ ⟨rfl, passes⟩, And.right⟩
  rw [both, checkSurfaces_eq_ok_iff, checkFeeds_eq_ok_iff]
  constructor
  · rintro ⟨⟨surfaces, distinct, -⟩, fed⟩
    exact ⟨surfaces, distinct, fed⟩
  · rintro ⟨surfaces, distinct, fed⟩
    exact ⟨⟨surfaces, distinct, fun _ _ _ ↦ nofun⟩, fed⟩

/-! ### Changes -/

/-- More feeds do no harm, and a feed may be replaced by another with its name. -/
theorem IsDrawable.mono {s : Scene} {feeds feeds' : List Feed} (h : s.IsDrawable feeds)
    (more : ∀ feed ∈ feeds, ∃ feed' ∈ feeds', feed'.id = feed.id) : s.IsDrawable feeds' where
  surfaces := h.surfaces
  distinct := h.distinct
  fed surface listed := by
    obtain ⟨feed, known, shown⟩ := h.fed surface listed
    obtain ⟨feed', known', same⟩ := more feed known
    exact ⟨feed', known', same.trans shown⟩

/-- What is among the items of which one has been changed was among them before, or is the item that
has been changed. -/
theorem mem_modifyFirst {test : Surface → Bool} {change : Surface → Surface} {surface : Surface}
    {surfaces : List Surface} (h : surface ∈ modifyFirst test change surfaces) :
    surface ∈ surfaces ∨ ∃ other ∈ surfaces, surface = change other := by
  induction surfaces with
  | nil => cases h
  | cons first rest ih =>
    rw [modifyFirst] at h
    split at h
    · rcases List.mem_cons.1 h with rfl | later
      · exact .inr ⟨first, List.mem_cons_self, rfl⟩
      · exact .inl (List.mem_cons_of_mem _ later)
    · rcases List.mem_cons.1 h with rfl | later
      · exact .inl List.mem_cons_self
      · rcases ih later with listed | ⟨other, listed, changed⟩
        · exact .inl (List.mem_cons_of_mem _ listed)
        · exact .inr ⟨other, List.mem_cons_of_mem _ listed, changed⟩

/-- What a change does not touch stays the same for all surfaces, in their order. -/
theorem map_modifyFirst {α : Type} {f : Surface → α} {change : Surface → Surface}
    (keeps : ∀ surface, f (change surface) = f surface) (test : Surface → Bool)
    (surfaces : List Surface) :
    (modifyFirst test change surfaces).map f = surfaces.map f := by
  induction surfaces with
  | nil => rfl
  | cons first rest ih =>
    rw [modifyFirst]
    split
    · rw [List.map_cons, List.map_cons, keeps]
    · rw [List.map_cons, List.map_cons, ih]

/-- A surface may show any other feed that is there. -/
theorem IsDrawable.rebind {s : Scene} {feeds : List Feed} (h : s.IsDrawable feeds) {feed : FeedId}
    (known : ∃ other ∈ feeds, other.id = feed) (surface : SurfaceId) :
    (s.modify surface fun shown ↦ { shown with feed }).IsDrawable feeds where
  surfaces shown listed := by
    rcases mem_modifyFirst listed with before | ⟨other, before, rfl⟩
    · exact h.surfaces shown before
    · obtain ⟨named, enough, finite⟩ := h.surfaces other before
      exact ⟨named, enough, finite⟩
  distinct := by
    show ((modifyFirst _ _ s.surfaces).map Surface.id).Nodup
    rw [map_modifyFirst]
    · exact h.distinct
    · exact fun _ ↦ rfl
  fed shown listed := by
    rcases mem_modifyFirst listed with before | ⟨other, -, rfl⟩
    · exact h.fed shown before
    · exact known

end Scene

end ShowControl
