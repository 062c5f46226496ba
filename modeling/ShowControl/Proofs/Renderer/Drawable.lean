import Mathlib.Data.List.Forall2
import ShowControl.Proofs.Renderer.Commands
import ShowControl.Proofs.Scene.Validation

/-!
# Whatever a renderer stores can be drawn

A definition is checked against its own feeds, once, when it comes in. Later definitions replace
feeds that its scene shows, and commands let its surfaces show feeds that came with others. That the
scene can still be drawn, with the feeds that are stored by then, is an invariant (`Stage.Sound`):
feeds are replaced and never taken out, and no surface is given a feed that is not there.

`Stage.run_consistent` says it of a renderer that has been sent any messages, together with what it
means for the scene that is shown and for the account that is given of it.
-/

namespace ShowControl

namespace Stage

/-- What holds of a stage whatever it is sent. -/
structure Sound (s : Stage) : Prop where
  scene_id : ∀ key scene, s.scenes.find? key = some scene → scene.id.text = key
  feed_id : ∀ key feed, s.feeds.find? key = some feed → feed.id.text = key
  dark : s.active = none → s.scenes = ∅
  shown : ∀ id, s.active = some id → s.scenes.find? id.text ≠ none
  drawable : ∀ key scene, s.scenes.find? key = some scene → scene.IsDrawable s.feeds.values

variable {s s' : Stage}

theorem sound_empty : ({} : Stage).Sound where
  scene_id _ _ := nofun
  feed_id _ _ := nofun
  dark _ := rfl
  shown _ := nofun
  drawable _ _ := nofun

/-- Where feeds are stored under their names, one is found by its name if it is stored at all. -/
theorem exists_feed_iff (named : ∀ key feed, s.feeds.find? key = some feed → feed.id.text = key)
    {id : FeedId} : (∃ feed ∈ s.feeds.values, feed.id = id) ↔ s.feed? id ≠ none := by
  simp only [Catalog.mem_values_iff]
  constructor
  · rintro ⟨feed, ⟨key, found⟩, rfl⟩
    rw [feed?, named key feed found, found]
    exact Option.some_ne_none feed
  · intro known
    obtain ⟨feed, found⟩ := Option.ne_none_iff_exists'.1 known
    exact ⟨feed, ⟨id.text, found⟩, congrArg Identifier.mk (named id.text feed found)⟩

/-! ### What commands preserve -/

theorem feed?_loaded_ne_none {d : Definition} {id : FeedId} :
    (s.loaded d).feed? id ≠ none ↔ (∃ feed ∈ d.feeds, feed.id = id) ∨ s.feed? id ≠ none := by
  rw [feed?_loaded, Ne, Option.or_eq_none_iff, not_and_or, List.getLast?_eq_none_iff,
    List.filter_eq_nil_iff]
  simp

/-- A definition that has been checked may come in. -/
theorem Sound.loaded (sound : s.Sound) {d : Definition} (checked : d.check = .ok ()) :
    (s.loaded d).Sound := by
  have named : ∀ key feed, (s.loaded d).feeds.find? key = some feed → feed.id.text = key := by
    intro key feed found
    change (s.loaded d).feed? ⟨key⟩ = some feed at found
    rw [feed?_loaded, Option.or_eq_some_iff] at found
    rcases found with last | ⟨-, before⟩
    · have listed := List.mem_filter.1 (List.mem_of_getLast? last)
      rw [of_decide_eq_true listed.2]
    · exact sound.feed_id key feed before
  have drawable : d.scene.IsDrawable d.feeds := Scene.check_eq_ok_iff.1 checked
  refine ⟨fun key scene found ↦ ?_, named, nofun, fun id active ↦ ?_, fun key scene found ↦ ?_⟩
  · change (s.scenes.insert d.scene.id.text d.scene).find? key = some scene at found
    rw [Catalog.find?_insert] at found
    split at found
    · next eq =>
      cases found
      exact eq
    · exact sound.scene_id key scene found
  · cases active
    show (s.scenes.insert d.scene.id.text d.scene).find? d.scene.id.text ≠ none
    rw [Catalog.find?_insert_self]
    exact Option.some_ne_none _
  · change (s.scenes.insert d.scene.id.text d.scene).find? key = some scene at found
    rw [Catalog.find?_insert] at found
    split at found
    · cases found
      refine drawable.mono fun feed listed ↦ ?_
      exact (exists_feed_iff named).2 (feed?_loaded_ne_none.2 (.inl ⟨feed, listed, rfl⟩))
    · refine (sound.drawable key scene found).mono fun feed listed ↦ ?_
      have known := (exists_feed_iff sound.feed_id).1 ⟨feed, listed, rfl⟩
      exact (exists_feed_iff named).2 (feed?_loaded_ne_none.2 (.inr known))

/-- A surface may show any feed that is stored. -/
theorem Sound.rebound (sound : s.Sound) {id : SceneId} {scene : Scene} {feed : FeedId}
    (known : s.feed? feed ≠ none) (active : s.active = some id)
    (stored : s.scenes.find? id.text = some scene) (surface : SurfaceId) :
    (s.rebound id scene surface feed).Sound := by
  have found {key : String} {scene' : Scene}
      (h : (s.rebound id scene surface feed).scenes.find? key = some scene') :
      (id.text = key ∧ scene.modify surface (fun shown ↦ { shown with feed }) = scene') ∨
        s.scenes.find? key = some scene' := by
    change (s.scenes.insert id.text _).find? key = some scene' at h
    rw [Catalog.find?_insert] at h
    split at h
    · next eq => exact .inl ⟨eq, Option.some.inj h⟩
    · exact .inr h
  refine ⟨fun key scene' h ↦ ?_, sound.feed_id, fun dark ↦ ?_, fun id' h ↦ ?_,
    fun key scene' h ↦ ?_⟩
  · rcases found h with ⟨rfl, rfl⟩ | before
    · exact sound.scene_id id.text scene stored
    · exact sound.scene_id key scene' before
  · exact absurd (active.symm.trans dark) (Option.some_ne_none id)
  · show (s.scenes.insert id.text _).find? id'.text ≠ none
    rw [Catalog.find?_insert]
    split
    · exact Option.some_ne_none _
    · exact sound.shown id' h
  · rcases found h with ⟨rfl, rfl⟩ | before
    · exact (sound.drawable id.text scene stored).rebind
        ((exists_feed_iff sound.feed_id).2 known) surface
    · exact sound.drawable key scene' before

theorem Sound.accepts (sound : s.Sound) {payload : Payload} (accepts : s.Accepts payload s') :
    s'.Sound := by
  cases accepts with
  | hello hello => exact sound
  | load checked => exact sound.loaded checked
  | activate stored =>
    refine { sound with dark := nofun, shown := fun id active ↦ ?_ }
    cases active
    rw [stored]
    exact Option.some_ne_none _
  | rebind known active stored present => exact sound.rebound known active stored _
  | play cue => exact { sound with }

theorem Sound.dispatch (sound : s.Sound) (m : Message) :
    (Handler.stage.dispatch s m).1.Sound := by
  have outcome := s.dispatch_cases m
  generalize Handler.stage.dispatch s m = result at outcome ⊢
  cases outcome with
  | accepted accepts => exact sound.accepts accepts
  | refused refuses => exact sound
  | silent reply => exact sound

/-! ### What it comes to -/

/-- The surface shows a feed that is stored, and this is it. -/
structure Shows (s : Stage) (surface : Surface) (feed : Feed) : Prop where
  stored : s.feed? surface.feed = some feed
  id : feed.id = surface.feed

/-- What a stage is that has been sent messages. -/
structure Consistent (s : Stage) : Prop where
  /-- Scenes are stored under their names, -/
  scene_id : ∀ key scene, s.scenes.find? key = some scene → scene.id = ⟨key⟩
  /-- and so are feeds. -/
  feed_id : ∀ key feed, s.feeds.find? key = some feed → feed.id = ⟨key⟩
  dark : s.active = none ↔ s.scenes.size = 0
  shown : ∀ id, s.active = some id →
    ∃ scene, s.scenes.find? id.text = some scene ∧ s.activeScene = some scene
  /-- Every scene passes the checks with the feeds that are stored, -/
  checked : ∀ key scene, s.scenes.find? key = some scene → scene.check s.feeds.values = .ok ()
  /-- and this is what the checks look for. -/
  drawable : ∀ key scene, s.scenes.find? key = some scene →
    (scene.surfaces.map Surface.id).Nodup ∧
      ∀ surface ∈ scene.surfaces, surface.id.text ≠ "" ∧ 3 ≤ surface.vertices.length ∧
        (∀ v ∈ surface.vertices, v.isFinite = true) ∧ ∃ feed, s.Shows surface feed
  /-- The account of the scene that is shown tells of each surface which stored feed it shows. -/
  described : ∀ scene, s.activeScene = some scene →
    ∃ feeds, List.Forall₂ s.Shows scene.surfaces feeds ∧
      s.describe = "scene " ++ scene.id.text ++ " of " ++ toString s.scenes.size
        ++ " loaded, last cue " ++ s.lastCue.elim "none" Identifier.text ++ ", surfaces ["
        ++ ", ".intercalate (List.zipWith
          (fun surface feed ↦ surface.id.text ++ "=" ++ feed.id.text ++ " (" ++ feed.name ++ ")")
          scene.surfaces feeds) ++ "]"

theorem Sound.exists_shows (sound : s.Sound) {key : String} {scene : Scene}
    (stored : s.scenes.find? key = some scene) {surface : Surface}
    (listed : surface ∈ scene.surfaces) : ∃ feed, s.Shows surface feed := by
  have fed := (sound.drawable key scene stored).fed surface listed
  have known := (exists_feed_iff sound.feed_id).1 fed
  obtain ⟨feed, found⟩ := Option.ne_none_iff_exists'.1 known
  exact ⟨feed, found, congrArg Identifier.mk (sound.feed_id _ feed found)⟩

theorem exists_forall₂_shows {surfaces : List Surface}
    (each : ∀ surface ∈ surfaces, ∃ feed, s.Shows surface feed) :
    ∃ feeds, List.Forall₂ s.Shows surfaces feeds := by
  induction surfaces with
  | nil => exact ⟨[], .nil⟩
  | cons surface rest ih =>
    obtain ⟨⟨feed, first⟩, others⟩ := List.forall_mem_cons.1 each
    obtain ⟨feeds, shows⟩ := ih others
    exact ⟨feed :: feeds, .cons first shows⟩

/-- If every surface shows a feed that is stored, each is told with it. -/
theorem map_surfaceText {surfaces : List Surface} {feeds : List Feed}
    (shows : List.Forall₂ s.Shows surfaces feeds) :
    surfaces.map s.surfaceText = List.zipWith
      (fun surface feed ↦ surface.id.text ++ "=" ++ feed.id.text ++ " (" ++ feed.name ++ ")")
      surfaces feeds := by
  induction shows with
  | nil => rfl
  | cons shown _ ih => rw [List.map_cons, List.zipWith_cons_cons, ih, surfaceText, shown.stored]

theorem Sound.consistent (sound : s.Sound) : s.Consistent where
  scene_id key scene found := congrArg Identifier.mk (sound.scene_id key scene found)
  feed_id key feed found := congrArg Identifier.mk (sound.feed_id key feed found)
  dark := by
    refine ⟨fun dark ↦ by rw [sound.dark dark]; rfl, fun empty ↦ ?_⟩
    have none_stored (key : String) : s.scenes.find? key = none := by
      rw [Catalog.find?, List.length_eq_zero_iff.1 empty]
      rfl
    cases active : s.active with
    | none => rfl
    | some id => exact absurd (none_stored id.text) (sound.shown id active)
  shown id active := by
    obtain ⟨scene, stored⟩ := Option.ne_none_iff_exists'.1 (sound.shown id active)
    exact ⟨scene, stored, activeScene_eq_some_iff.2 ⟨id, active, stored⟩⟩
  checked key scene stored := Scene.check_eq_ok_iff.2 (sound.drawable key scene stored)
  drawable key scene stored := by
    obtain ⟨surfaces, distinct, -⟩ := sound.drawable key scene stored
    refine ⟨distinct, fun surface listed ↦ ?_⟩
    obtain ⟨named, enough, finite⟩ := surfaces surface listed
    exact ⟨named, enough, finite, sound.exists_shows stored listed⟩
  described scene shown := by
    obtain ⟨id, -, stored⟩ := activeScene_eq_some_iff.1 shown
    obtain ⟨feeds, shows⟩ :=
      exists_forall₂_shows fun surface listed ↦ sound.exists_shows stored listed
    refine ⟨feeds, shows, ?_⟩
    rw [describe, shown, ← map_surfaceText shows]
    cases s.lastCue <;> rfl

/-- A renderer that starts with nothing stays consistent, whatever messages it is sent. -/
theorem run_consistent (messages : List Message) :
    (Handler.stage.run {} messages).1.Consistent :=
  (Handler.run_preserves _ (fun _ m sound ↦ sound.dispatch m) sound_empty messages).consistent

end Stage

end ShowControl
