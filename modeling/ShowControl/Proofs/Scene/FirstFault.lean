import ShowControl.Proofs.Scene.Validation

/-!
# The fault that is reported

A scene may have many faults, and one of them is reported. Which one is said here without the
checks: `Surface.Fault` ranks what can be wrong with a surface that comes behind others, and
`Scene.FirstFault` puts the surfaces in their order and the feeds behind all of them.
`Scene.check_verdict` says that the checks report this fault and no other, and none only of a scene
that can be drawn.

A surface is judged by those in front of it, so the induction is on the surfaces with those in front
as a parameter (`Scene.checkSurfaces_eq_error_iff`). Their order does not matter to the judgement
(`Surface.Fault.congr`); the checks keep them last first.
-/

namespace ShowControl

namespace Surface

/-- The fault of a surface that comes behind others. Each is a fault only where the ones in front of
it in this list are not. -/
inductive Fault (before : List Surface) (s : Surface) : ValidationError → Prop where
  | unnamed (unnamed : s.id.text = "") : Fault before s .emptySurfaceId
  | few (named : s.id.text ≠ "") (few : s.vertices.length < minVertices) :
    Fault before s (.tooFewVertices s.id)
  | infinite (named : s.id.text ≠ "") (enough : minVertices ≤ s.vertices.length)
    (infinite : ∃ v ∈ s.vertices, v.x.isFinite = false ∨ v.y.isFinite = false) :
    Fault before s (.nonFiniteVertex s.id)
  | duplicate (drawable : s.IsDrawable) (taken : ∃ other ∈ before, other.id = s.id) :
    Fault before s (.duplicateSurface s.id)

variable {s : Surface} {before : List Surface} {reason : ValidationError}

theorem Fault.congr {before' : List Surface} (h : s.Fault before reason)
    (same : ∀ other ∈ before, other ∈ before') : s.Fault before' reason := by
  cases h with
  | unnamed unnamed => exact .unnamed unnamed
  | few named few => exact .few named few
  | infinite named enough infinite => exact .infinite named enough infinite
  | duplicate drawable taken =>
    obtain ⟨other, listed, eq⟩ := taken
    exact .duplicate drawable ⟨other, same other listed, eq⟩

/-- What is said of a surface that comes behind others. -/
def checkBehind (before : List Surface) (s : Surface) : Except ValidationError Unit := do
  s.check
  if before.any fun other ↦ other.id = s.id then .error (.duplicateSurface s.id) else .ok ()

/-- A surface by itself fails for one of the first three reasons. -/
theorem fault_of_check_eq_error (h : s.check = .error reason) : s.Fault before reason := by
  unfold check at h
  split at h
  · next empty =>
    obtain rfl := Except.error.inj h
    exact .unnamed (String.isEmpty_iff.1 empty)
  · next nonempty =>
    have named : s.id.text ≠ "" := fun unnamed ↦ nonempty (String.isEmpty_iff.2 unnamed)
    split at h
    · next few =>
      obtain rfl := Except.error.inj h
      exact .few named few
    · next enough =>
      split at h
      · next infinite =>
        obtain rfl := Except.error.inj h
        obtain ⟨v, listed, bad⟩ := List.any_eq_true.1 infinite
        refine .infinite named (Nat.not_lt.1 enough) ⟨v, listed, ?_⟩
        rwa [Vertex.isFinite, Bool.not_eq_true', Bool.and_eq_false_iff] at bad
      · cases h

theorem checkBehind_of_check_eq_error (h : s.check = .error reason) :
    s.checkBehind before = .error reason := by
  rw [checkBehind, h]
  rfl

/-- A surface that comes behind others fails for its fault. -/
theorem checkBehind_eq_error_iff :
    s.checkBehind before = .error reason ↔ s.Fault before reason := by
  constructor
  · intro h
    rcases checked : s.check with reason' | ⟨⟩
    · rw [checkBehind_of_check_eq_error checked] at h
      obtain rfl := Except.error.inj h
      exact fault_of_check_eq_error checked
    · rw [checkBehind, checked] at h
      have last : (if before.any fun other ↦ other.id = s.id then
          .error (.duplicateSurface s.id) else .ok ()) = Except.error reason := h
      split at last
      · next taken =>
        obtain rfl := Except.error.inj last
        obtain ⟨other, listed, same⟩ := List.any_eq_true.1 taken
        exact .duplicate (check_eq_ok_iff.1 checked) ⟨other, listed, of_decide_eq_true same⟩
      · cases last
  · intro h
    have nonempty (named : s.id.text ≠ "") : ¬s.id.isEmpty = true := fun empty ↦
      named (String.isEmpty_iff.1 empty)
    cases h with
    | unnamed unnamed =>
      refine checkBehind_of_check_eq_error ?_
      rw [check, if_pos (show s.id.isEmpty = true from String.isEmpty_iff.2 unnamed)]
    | few named few =>
      refine checkBehind_of_check_eq_error ?_
      rw [check, if_neg (nonempty named), if_pos few]
    | infinite named enough infinite =>
      obtain ⟨v, listed, bad⟩ := infinite
      have found : (s.vertices.any fun v ↦ !v.isFinite) = true := by
        refine List.any_eq_true.2 ⟨v, listed, ?_⟩
        rwa [Vertex.isFinite, Bool.not_eq_true', Bool.and_eq_false_iff]
      refine checkBehind_of_check_eq_error ?_
      rw [check, if_neg (nonempty named), if_neg (Nat.not_lt.2 enough), if_pos found]
    | duplicate drawable taken =>
      obtain ⟨other, listed, same⟩ := taken
      rw [checkBehind, check_eq_ok_iff.2 drawable]
      exact if_pos (List.any_eq_true.2 ⟨other, listed, decide_eq_true same⟩)

end Surface

namespace Scene

/-- The fault of a scene that comes first: the surfaces are gone through in their order, and the
feeds only where no surface has a fault. -/
inductive FirstFault (s : Scene) (feeds : List Feed) : ValidationError → Prop where
  | surface {front after : List Surface} {surface : Surface} {reason : ValidationError}
    (place : s.surfaces = front ++ surface :: after)
    (sound : ∀ other ∈ front, other.IsDrawable) (distinct : (front.map Surface.id).Nodup)
    (fault : surface.Fault front reason) : FirstFault s feeds reason
  | feed {front after : List Surface} {surface : Surface}
    (sound : ∀ other ∈ s.surfaces, other.IsDrawable)
    (distinct : (s.surfaces.map Surface.id).Nodup)
    (place : s.surfaces = front ++ surface :: after)
    (fed : ∀ other ∈ front, ∃ feed ∈ feeds, feed.id = other.feed)
    (dangling : ∀ feed ∈ feeds, feed.id ≠ surface.feed) :
    FirstFault s feeds (.unknownFeed surface.id surface.feed)

variable {s : Scene} {feeds : List Feed} {reason : ValidationError}

theorem checkSurfaces_cons (before : List Surface) (surface : Surface) (rest : List Surface) :
    checkSurfaces before (surface :: rest) =
      (surface.checkBehind before).bind fun _ ↦ checkSurfaces (surface :: before) rest := by
  rw [checkSurfaces, Surface.checkBehind]
  rcases surface.check with reason | -
  · rfl
  · show (if _ then _ else _) = Except.bind (if _ then _ else _) _
    split <;> rfl

/-- Surfaces fail behind others for the fault of one of them, in front of which all pass. -/
theorem checkSurfaces_eq_error_iff {before surfaces : List Surface} :
    checkSurfaces before surfaces = .error reason ↔
      ∃ front surface after, surfaces = front ++ surface :: after ∧
        checkSurfaces before front = .ok () ∧ surface.Fault (front ++ before) reason := by
  -- With the first surface judged, the others come behind it as well.
  induction surfaces generalizing before with
  | nil =>
    refine ⟨nofun, ?_⟩
    rintro ⟨front, surface, after, place, -⟩
    cases front <;> cases place
  | cons first rest ih =>
    rw [checkSurfaces_cons]
    rcases judged : first.checkBehind before with reason' | ⟨⟩
    · show Except.error reason' = .error reason ↔ _
      constructor
      · intro h
        obtain rfl := Except.error.inj h
        exact ⟨[], first, rest, rfl, rfl, Surface.checkBehind_eq_error_iff.1 judged⟩
      · rintro ⟨_ | ⟨_, front⟩, surface, after, place, passes, fault⟩
        · cases place
          rw [← judged]
          exact Surface.checkBehind_eq_error_iff.2 fault
        · cases place
          rw [checkSurfaces_cons, judged] at passes
          cases passes
    · show checkSurfaces (first :: before) rest = _ ↔ _
      rw [ih]
      constructor
      · rintro ⟨front, surface, after, rfl, passes, fault⟩
        refine ⟨first :: front, surface, after, rfl, ?_, fault.congr ?_⟩
        · rw [checkSurfaces_cons, judged]
          exact passes
        · exact fun other ↦ List.perm_middle.mem_iff.1
      · rintro ⟨_ | ⟨_, front⟩, surface, after, place, passes, fault⟩
        · cases place
          rw [← Surface.checkBehind_eq_error_iff, List.nil_append, judged] at fault
          cases fault
        · cases place
          rw [checkSurfaces_cons, judged] at passes
          exact ⟨front, surface, after, rfl, passes,
            fault.congr fun other ↦ List.perm_middle.mem_iff.2⟩

/-- The feeds fail for the first surface that shows none of them. -/
theorem checkFeeds_eq_error_iff :
    s.checkFeeds feeds = .error reason ↔
      ∃ front surface after, s.surfaces = front ++ surface :: after ∧
        (∀ other ∈ front, ∃ feed ∈ feeds, feed.id = other.feed) ∧
        (∀ feed ∈ feeds, feed.id ≠ surface.feed) ∧
        reason = .unknownFeed surface.id surface.feed := by
  have dangles (surface : Surface) : (!feeds.any fun feed ↦ feed.id = surface.feed) = true ↔
      ∀ feed ∈ feeds, feed.id ≠ surface.feed := by
    simp
  have shows (surface : Surface) : (!feeds.any fun feed ↦ feed.id = surface.feed) ≠ true ↔
      ∃ feed ∈ feeds, feed.id = surface.feed := by
    simp
  rw [checkFeeds]
  constructor
  · intro h
    split at h
    · next surface found =>
      obtain ⟨dangling, front, after, place, before⟩ := List.find?_eq_some_iff_append.1 found
      refine ⟨front, surface, after, place, fun other listed ↦ ?_, (dangles surface).1 dangling,
        (Except.error.inj h).symm⟩
      exact (shows other).1 (by simpa using before other listed)
    · cases h
  · rintro ⟨front, surface, after, place, fed, dangling, rfl⟩
    have found : (s.surfaces.find? fun surface ↦ !feeds.any fun feed ↦ feed.id = surface.feed) =
        some surface := by
      refine List.find?_eq_some_iff_append.2 ⟨(dangles surface).2 dangling, front, after, place, ?_⟩
      intro other listed
      simpa using (shows other).2 (fed other listed)
    rw [found]

/-- The checks pass exactly for the scenes that can be drawn, and fail for the first fault. -/
theorem check_verdict (s : Scene) (feeds : List Feed) :
    (s.check feeds = .ok () ↔ s.IsDrawable feeds) ∧
      ∀ reason, s.check feeds = .error reason ↔ s.FirstFault feeds reason := by
  refine ⟨check_eq_ok_iff, fun reason ↦ ?_⟩
  have pass {before front : List Surface} (passes : checkSurfaces before front = .ok ()) :
      (∀ other ∈ front, other.IsDrawable) ∧ (front.map Surface.id).Nodup := by
    obtain ⟨sound, distinct, -⟩ := checkSurfaces_eq_ok_iff.1 passes
    exact ⟨sound, distinct⟩
  have pass_of {front : List Surface} (sound : ∀ other ∈ front, other.IsDrawable)
      (distinct : (front.map Surface.id).Nodup) : checkSurfaces [] front = .ok () :=
    checkSurfaces_eq_ok_iff.2 ⟨sound, distinct, fun _ _ _ ↦ nofun⟩
  rw [check]
  constructor
  · intro h
    rcases judged : checkSurfaces [] s.surfaces with reason' | ⟨⟩
    · rw [judged] at h
      obtain rfl := Except.error.inj h
      obtain ⟨front, surface, after, place, passes, fault⟩ := checkSurfaces_eq_error_iff.1 judged
      rw [List.append_nil] at fault
      exact .surface place (pass passes).1 (pass passes).2 fault
    · rw [judged] at h
      obtain ⟨front, surface, after, place, fed, dangling, rfl⟩ := checkFeeds_eq_error_iff.1 h
      exact .feed (pass judged).1 (pass judged).2 place fed dangling
  · intro h
    cases h with
    | surface place sound distinct fault =>
      have fails : checkSurfaces [] s.surfaces = .error reason :=
        checkSurfaces_eq_error_iff.2
          ⟨_, _, _, place, pass_of sound distinct, by rwa [List.append_nil]⟩
      rw [fails]
      rfl
    | feed sound distinct place fed dangling =>
      rw [pass_of sound distinct]
      exact checkFeeds_eq_error_iff.2 ⟨_, _, _, place, fed, dangling, rfl⟩

end Scene

end ShowControl
