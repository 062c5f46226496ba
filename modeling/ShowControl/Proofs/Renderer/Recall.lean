import ShowControl.Proofs.Renderer.Drawable
import ShowControl.Proofs.Renderer.Refusals

/-!
# What a stage recalls

All that a stage keeps can be read off the messages that it has acknowledged, its history. The last
cue is that of the last message that plays one, the scene that is shown is that of the last message
that shows one, and a feed is the last that a definition has brought under its name. A scene is that
of the last definition with its name; but what its surfaces show may have been changed since, by the
messages that have come while the scene was shown (`during`).

`Stage.Recalls` says this of a stage and a history, and holds after every message that is accepted
(`Stage.Recalls.accepts`). What a message does to each part is said first, by the little that it
tells of this part (`Message.cue?`, `Message.scene?`, ...). A rebinding changes the first surface
with a name: it is the only one, as a stage keeps no scene with two surfaces of one name
(`Stage.Sound`).
-/

namespace ShowControl

/-- The answer is an acknowledgment. -/
def isAcknowledgment (answer : Option Message) : Bool := answer.any fun reply ↦ reply.type = .ack

/-! ### What messages tell -/

namespace Message

variable (m : Message)

/-- The cue that the message plays. -/
def cue? : Option CueId :=
  match m.payload with
  | .playCue cue => some cue
  | _ => none

/-- The definition that the message brings. -/
def definition? : Option Definition :=
  match m.payload with
  | .loadSceneDefinition d => some d
  | _ => none

/-- The scene that the message shows. -/
def scene? : Option SceneId :=
  match m.payload with
  | .loadScene id => some id
  | .loadSceneDefinition d => some d.scene.id
  | _ => none

/-- The feed that the message has a surface show. -/
def feedFor? (surface : SurfaceId) : Option FeedId :=
  match m.payload with
  | .setFeedForSurface about feed => if about = surface then some feed else none
  | _ => none

end Message

/-- The scene that is shown at the end of a history. -/
def shown (history : List Message) : Option SceneId := (history.filterMap Message.scene?).getLast?

/-- The messages of `later` that come while a scene is shown, where `before` has come before. -/
def during (scene : SceneId) (before : List Message) : List Message → List Message
  | [] => []
  | m :: later =>
    if shown before = some scene then m :: during scene (before ++ [m]) later
    else during scene (before ++ [m]) later

/-- The feed that a surface of a scene has been made to show in the messages of `later`. -/
def given? (scene : SceneId) (before later : List Message) (surface : SurfaceId) : Option FeedId :=
  ((during scene before later).filterMap (·.feedFor? surface)).getLast?

/-- The scene where some surfaces show other feeds, and nothing else is changed. -/
def Scene.refeed (s : Scene) (feed? : SurfaceId → Option FeedId) : Scene :=
  { s with
    surfaces := s.surfaces.map fun surface ↦
      { surface with feed := (feed? surface.id).getD surface.feed } }

/-- What a stage keeps is what its history tells. -/
structure Stage.Recalls (s : Stage) (history : List Message) : Prop where
  lastCue : s.lastCue = (history.filterMap Message.cue?).getLast?
  active : s.active = shown history
  feed? : ∀ id, s.feed? id = (((history.filterMap Message.definition?).flatMap
    Definition.feeds).filter fun feed ↦ feed.id = id).getLast?
  keys : ∀ key, key ∈ s.scenes.keys ↔
    ∃ d ∈ history.filterMap Message.definition?, d.scene.id.text = key
  /-- A scene is as the last definition with its name has brought it, but for the feeds that its
  surfaces have been made to show since then while it was shown. -/
  scenes : ∀ before m later d, history = before ++ m :: later → m.definition? = some d →
    (∀ d' ∈ later.filterMap Message.definition?, d'.scene.id ≠ d.scene.id) →
      s.scenes.find? d.scene.id.text =
        some (d.scene.refeed (given? d.scene.id (before ++ [m]) later))

namespace Handler

variable {σ : Type} (h : Handler σ) (s : σ)

/-- The messages that are acknowledged. -/
def acknowledged (messages : List Message) : List Message :=
  ((h.exchanges s messages).filter fun exchange ↦ isAcknowledgment exchange.2).map Prod.fst

@[simp]
theorem acknowledged_nil : h.acknowledged s [] = [] := rfl

theorem acknowledged_cons (m : Message) (messages : List Message) :
    h.acknowledged s (m :: messages) =
      (if isAcknowledgment (h.dispatch s m).2 then [m] else []) ++
        h.acknowledged (h.dispatch s m).1 messages := by
  rw [acknowledged, exchanges_cons, List.filter_cons]
  split <;> rfl

end Handler

/-! ### Histories that grow -/

section Growth

variable {α β : Type} (f : α → Option β) (l : List α) (a : α)

theorem filterMap_append_singleton : (l ++ [a]).filterMap f = l.filterMap f ++ (f a).toList := by
  rw [List.filterMap_append, List.filterMap_cons]
  cases f a <;> rfl

theorem getLast?_filterMap_append_singleton :
    ((l ++ [a]).filterMap f).getLast? = (f a).or (l.filterMap f).getLast? := by
  rw [filterMap_append_singleton, List.getLast?_append]
  cases f a <;> rfl

end Growth

section Growth

variable (scene : SceneId) (before later : List Message) (m : Message)

theorem during_append_singleton :
    during scene before (later ++ [m]) =
      during scene before later ++ if shown (before ++ later) = some scene then [m] else [] := by
  induction later generalizing before with
  | nil => rw [List.nil_append, List.append_nil, during, during, during, List.nil_append]
  | cons first later ih =>
    rw [List.cons_append, during, during, ih, List.append_assoc]
    split <;> rfl

/-- A message counts for the surfaces of the scene that is shown, and overrides those before. -/
theorem given?_append_singleton (surface : SurfaceId) :
    given? scene before (later ++ [m]) surface =
      if shown (before ++ later) = some scene then
        (m.feedFor? surface).or (given? scene before later surface)
      else given? scene before later surface := by
  rw [given?, during_append_singleton]
  split
  · exact getLast?_filterMap_append_singleton ..
  · rw [List.append_nil, given?]

end Growth

/-! ### Scenes with other feeds -/

namespace Scene

theorem refeed_none (s : Scene) : s.refeed (fun _ ↦ none) = s := by
  rw [refeed]
  exact congrArg (fun surfaces ↦ { s with surfaces }) (List.map_id s.surfaces)

theorem refeed_refeed (s : Scene) (first second : SurfaceId → Option FeedId) :
    (s.refeed first).refeed second = s.refeed fun id ↦ (second id).or (first id) := by
  rw [refeed, refeed, refeed]
  refine congrArg (fun surfaces ↦ { s with surfaces }) ?_
  rw [List.map_map]
  refine List.map_congr_left fun surface _ ↦ ?_
  dsimp only [Function.comp]
  cases second surface.id <;> rfl

/-- Where names are distinct, the first surface with a name is each that has it. -/
theorem modifyFirst_eq_map {surfaces : List Surface} (distinct : (surfaces.map Surface.id).Nodup)
    (id : SurfaceId) (change : Surface → Surface) :
    modifyFirst (fun surface ↦ surface.id = id) change surfaces =
      surfaces.map fun surface ↦ if surface.id = id then change surface else surface := by
  induction surfaces with
  | nil => rfl
  | cons first rest ih =>
    obtain ⟨fresh, distinct⟩ := List.nodup_cons.1 distinct
    rw [modifyFirst, List.map_cons]
    by_cases same : first.id = id
    · subst same
      have others : rest.map (fun surface ↦
          if surface.id = first.id then change surface else surface) = rest := by
        refine (List.map_congr_left fun surface listed ↦ if_neg fun eq ↦ ?_).trans (List.map_id _)
        rw [← eq] at fresh
        exact fresh (List.mem_map_of_mem listed)
      rw [if_pos (decide_eq_true rfl), if_pos rfl, others]
    · rw [if_neg (by simpa using same), if_neg same, ih distinct]

theorem modify_eq_refeed {s : Scene} (distinct : (s.surfaces.map Surface.id).Nodup)
    (id : SurfaceId) (feed : FeedId) :
    s.modify id (fun shown ↦ { shown with feed }) =
      s.refeed fun other ↦ if id = other then some feed else none := by
  rw [modify, refeed, modifyFirst_eq_map distinct]
  refine congrArg (fun surfaces ↦ { s with surfaces }) (List.map_congr_left fun surface _ ↦ ?_)
  by_cases same : surface.id = id
  · rw [if_pos same, if_pos same.symm]
    rfl
  · rw [if_neg same, if_neg (Ne.symm same)]
    rfl

end Scene

/-! ### What a message does to each part -/

namespace Stage

variable {s s' : Stage} {m : Message} {history : List Message}

namespace Accepts

variable (accepts : s.Accepts m.payload s')
include accepts

theorem lastCue_eq : s'.lastCue = m.cue?.or s.lastCue := by
  obtain ⟨commandId, payload⟩ := m
  cases accepts <;> rfl

theorem active_eq : s'.active = m.scene?.or s.active := by
  obtain ⟨commandId, payload⟩ := m
  cases accepts <;> rfl

theorem feed?_eq (id : FeedId) :
    s'.feed? id = ((m.definition?.toList.flatMap Definition.feeds).filter fun feed ↦
      feed.id = id).getLast?.or (s.feed? id) := by
  obtain ⟨commandId, payload⟩ := m
  cases accepts with
  | load drawable =>
    rw [feed?_loaded]
    show _ = Option.or (((List.flatMap _ [_]).filter _).getLast?) _
    rw [List.flatMap_singleton]
  | _ => rfl

theorem mem_keys_scenes_iff (key : String) :
    key ∈ s'.scenes.keys ↔
      key ∈ s.scenes.keys ∨ ∃ d ∈ m.definition?, d.scene.id.text = key := by
  have insert (name : String) (scene : Scene) :
      key ∈ (s.scenes.insert name scene).keys ↔ key ∈ s.scenes.keys ∨ name = key := by
    rw [Catalog.mem_keys_iff, Catalog.mem_keys_iff, Catalog.find?_insert]
    split <;> simp [*]
  obtain ⟨commandId, payload⟩ := m
  cases accepts with
  | load drawable =>
    refine (insert _ _).trans (or_congr_right ?_)
    simp [Message.definition?]
  | rebind known active stored present =>
    rw [rebound, insert]
    have listed := s.scenes.mem_keys_iff.2 (Option.isSome_iff_exists.2 ⟨_, stored⟩)
    simp only [Message.definition?, Option.mem_def, reduceCtorEq, false_and, exists_false, or_false]
    refine or_iff_left_of_imp ?_
    rintro rfl
    exact listed
  | _ => simp [Message.definition?]

theorem find?_of_definition {d : Definition} (brings : m.definition? = some d) :
    s'.scenes.find? d.scene.id.text = some d.scene := by
  obtain ⟨commandId, payload⟩ := m
  cases accepts with
  | load drawable =>
    cases brings
    exact Catalog.find?_insert_self ..
  | _ => cases brings

/-- A scene that no definition replaces stays, and what its surfaces show may change while it is
shown. -/
theorem find?_of_kept (sound : s.Sound) {id : SceneId}
    (kept : ∀ d, m.definition? = some d → d.scene.id ≠ id) :
    s'.scenes.find? id.text = (s.scenes.find? id.text).map fun scene ↦
      if s.active = some id then scene.refeed m.feedFor? else scene := by
  obtain ⟨commandId, payload⟩ := m
  have same {found : Option Scene} (unfed : Message.feedFor? ⟨commandId, payload⟩ = fun _ ↦ none) :
      found = found.map fun scene ↦
        if s.active = some id then scene.refeed (Message.feedFor? ⟨commandId, payload⟩)
        else scene := by
    simp [unfed, Scene.refeed_none]
  cases accepts with
  | load drawable =>
    have apart := kept _ rfl
    refine Eq.trans ?_ (same rfl)
    exact Catalog.find?_insert_of_ne _ _ fun eq ↦ apart (congrArg Identifier.mk eq)
  | @rebind shown scene surface feed known active stored present =>
    show (s.scenes.insert shown.text _).find? id.text = _
    have distinct := (sound.drawable _ _ stored).distinct
    rw [Catalog.find?_insert, active, Scene.modify_eq_refeed distinct]
    by_cases here : shown = id
    · subst here
      rw [if_pos rfl, stored, Option.map_some, if_pos rfl]
      rfl
    · have apart : shown.text ≠ id.text := fun eq ↦ here (congrArg Identifier.mk eq)
      rw [if_neg apart]
      simp [here]
  | _ => exact same rfl

end Accepts

/-- To show another scene changes none. -/
theorem scenes_dispatch_of_loadScene (switches : m.type = .loadScene) :
    (Handler.stage.dispatch s m).1.scenes = s.scenes := by
  have outcome := s.dispatch_cases m
  generalize Handler.stage.dispatch s m = result at outcome ⊢
  cases outcome with
  | accepted accepts =>
    obtain ⟨commandId, payload⟩ := m
    cases accepts with
    | load drawable => cases switches
    | rebind known active stored present => cases switches
    | _ => rfl
  | refused refuses => rfl
  | silent reply => rfl

/-! ### Runs -/

theorem recalls_empty : ({} : Stage).Recalls [] where
  lastCue := rfl
  active := rfl
  feed? _ := rfl
  keys _ := iff_of_false List.not_mem_nil fun ⟨_, listed, _⟩ ↦ List.not_mem_nil listed
  scenes before m later d split := by simp at split

/-- What is recalled grows with every message that is accepted. -/
theorem Recalls.accepts (recalls : s.Recalls history) (sound : s.Sound)
    (accepts : s.Accepts m.payload s') : s'.Recalls (history ++ [m]) where
  lastCue := by
    rw [accepts.lastCue_eq, recalls.lastCue, getLast?_filterMap_append_singleton]
  active := by
    rw [accepts.active_eq, recalls.active, shown, shown, getLast?_filterMap_append_singleton]
  feed? id := by
    rw [accepts.feed?_eq, recalls.feed?, filterMap_append_singleton, List.flatMap_append,
      List.filter_append, List.getLast?_append]
  keys key := by
    rw [accepts.mem_keys_scenes_iff, recalls.keys, filterMap_append_singleton]
    simp only [List.mem_append, Option.mem_toList, Option.mem_def, or_and_right, exists_or]
  scenes before m' later d split brings last := by
    rcases List.eq_nil_or_concat' later with rfl | ⟨later, final, rfl⟩
    · -- the last message brings the definition
      obtain ⟨rfl, singleton⟩ := List.append_inj' split rfl
      cases singleton
      rw [accepts.find?_of_definition brings]
      exact congrArg some (Scene.refeed_none d.scene).symm
    · -- the definition has come before the last message
      rw [← List.cons_append, ← List.append_assoc] at split
      obtain ⟨earlier, singleton⟩ := List.append_inj' split rfl
      cases singleton
      rw [filterMap_append_singleton, List.forall_mem_append] at last
      have stored := recalls.scenes before m' later d earlier brings last.1
      have kept : ∀ d', m.definition? = some d' → d'.scene.id ≠ d.scene.id :=
        fun d' brings' ↦ last.2 d' (Option.mem_toList.2 brings')
      rw [accepts.find?_of_kept sound kept, stored, Option.map_some, recalls.active, earlier,
        List.append_cons before m' later,
        funext (given?_append_singleton d.scene.id (before ++ [m']) later m)]
      split
      · rw [Scene.refeed_refeed]
      · rfl

/-- What holds of a stage and its history holds after any messages. -/
theorem Recalls.run (recalls : s.Recalls history) (sound : s.Sound) (messages : List Message) :
    (Handler.stage.run s messages).1.Recalls
      (history ++ Handler.stage.acknowledged s messages) := by
  induction messages generalizing s history with
  | nil => rwa [Handler.acknowledged_nil, List.append_nil]
  | cons m messages ih =>
    have outcome := s.dispatch_cases m
    have later := sound.dispatch m
    rw [Handler.run_cons, Handler.acknowledged_cons]
    generalize Handler.stage.dispatch s m = result at outcome later ⊢
    cases outcome with
    | accepted accepts =>
      have grown := ih (recalls.accepts sound accepts) later
      rwa [List.append_assoc] at grown
    | refused refuses => exact ih recalls later
    | silent reply => exact ih recalls later

/-- All that a renderer keeps is told by the messages that it has acknowledged, and a message that
only switches to another scene changes none. -/
theorem run_recalls (messages : List Message) :
    (Handler.stage.run {} messages).1.Recalls (Handler.stage.acknowledged {} messages) ∧
      ∀ before m later, messages = before ++ m :: later → m.type = .loadScene →
        (Handler.stage.run {} (before ++ [m])).1.scenes =
          (Handler.stage.run {} before).1.scenes := by
  refine ⟨recalls_empty.run sound_empty messages, fun before m later _ switches ↦ ?_⟩
  rw [Handler.run_append]
  exact scenes_dispatch_of_loadScene switches

end Stage

end ShowControl
