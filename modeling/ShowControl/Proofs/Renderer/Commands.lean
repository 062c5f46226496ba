import ShowControl.Proofs.Renderer.Exchange

/-!
# What commands do to a stage

A command is accepted by a stage, and then it settles the stage that follows (`Stage.Accepts`), or
it is refused for a reason (`Stage.Refuses`). Dispatching a message comes to one of the two or, for
a reply, to nothing (`Stage.dispatch_cases`); nothing else needs to look into the handler.
-/

namespace ShowControl

namespace Handler

variable {σ : Type} (h : Handler σ)

/-- Messages are dispatched one after the other: the state after them, and how each is answered. -/
def run (s : σ) (messages : List Message) : σ × List (Option Message) :=
  Transducer.run (fun s m ↦ ((h.dispatch s m).1, [(h.dispatch s m).2])) s messages

@[simp]
theorem run_nil (s : σ) : h.run s [] = (s, []) := rfl

theorem run_cons (s : σ) (m : Message) (messages : List Message) :
    h.run s (m :: messages) =
      ((h.run (h.dispatch s m).1 messages).1,
        (h.dispatch s m).2 :: (h.run (h.dispatch s m).1 messages).2) :=
  Transducer.run_cons _ s m messages

theorem run_append (s : σ) (before after : List Message) :
    h.run s (before ++ after) =
      ((h.run (h.run s before).1 after).1,
        (h.run s before).2 ++ (h.run (h.run s before).1 after).2) :=
  Transducer.run_append _ s before after

/-- What every dispatch preserves holds after any messages. -/
theorem run_preserves {P : σ → Prop} (preserves : ∀ s m, P s → P (h.dispatch s m).1) {s : σ}
    (start : P s) (messages : List Message) : P (h.run s messages).1 := by
  induction messages generalizing s with
  | nil => exact start
  | cons m messages ih =>
    rw [run_cons]
    exact ih (preserves s m start)

end Handler

namespace Stage

/-- The stage that has taken in a definition. -/
def loaded (s : Stage) (d : Definition) : Stage :=
  { s with
    feeds := d.feeds.foldl (fun feeds feed ↦ feeds.insert feed.id.text feed) s.feeds
    scenes := s.scenes.insert d.scene.id.text d.scene
    active := some d.scene.id }

/-- The stage where a surface of a scene, which is stored under this name, shows another feed. -/
def rebound (s : Stage) (id : SceneId) (scene : Scene) (surface : SurfaceId) (feed : FeedId) :
    Stage :=
  { s with
    scenes := s.scenes.insert id.text (scene.modify surface fun shown ↦ { shown with feed }) }

/-- A message with this payload is accepted, and the stage that follows. -/
inductive Accepts (s : Stage) : Payload → Stage → Prop where
  | hello (hello : Hello) : Accepts s (.hello hello) s
  | load {d : Definition} (drawable : d.check = .ok ()) :
      Accepts s (.loadSceneDefinition d) (s.loaded d)
  | activate {id : SceneId} {scene : Scene} (stored : s.scenes.find? id.text = some scene) :
      Accepts s (.loadScene id) { s with active := some id }
  | rebind {id : SceneId} {scene : Scene} {surface : SurfaceId} {feed : FeedId}
      (known : s.feed? feed ≠ none) (active : s.active = some id)
      (stored : s.scenes.find? id.text = some scene) (present : scene.find? surface ≠ none) :
      Accepts s (.setFeedForSurface surface feed) (s.rebound id scene surface feed)
  | play (cue : CueId) : Accepts s (.playCue cue) { s with lastCue := some cue }

/-- A message with this payload is refused, and why. -/
inductive Refuses (s : Stage) : Payload → CommandError → Prop where
  | invalid {d : Definition} {reason : ValidationError} (fault : d.check = .error reason) :
      Refuses s (.loadSceneDefinition d) (.invalid reason)
  | unknownScene {id : SceneId} (absent : s.scenes.find? id.text = none) :
      Refuses s (.loadScene id) (.unknownScene id)
  | unknownFeed {feed : FeedId} (surface : SurfaceId) (absent : s.feed? feed = none) :
      Refuses s (.setFeedForSurface surface feed) (.unknownFeed feed)
  | noScene {feed : FeedId} (surface : SurfaceId) (known : s.feed? feed ≠ none)
      (dark : s.activeScene = none) : Refuses s (.setFeedForSurface surface feed) .noScene
  | unknownSurface {scene : Scene} {surface : SurfaceId} {feed : FeedId}
      (known : s.feed? feed ≠ none) (shown : s.activeScene = some scene)
      (absent : scene.find? surface = none) :
      Refuses s (.setFeedForSurface surface feed) (.unknownSurface surface)

/-- What the dispatch of a message comes to. -/
inductive Outcome (s : Stage) (m : Message) : Stage × Option Message → Prop where
  | accepted {s' : Stage} (accepts : s.Accepts m.payload s') : Outcome s m (s', some m.ackFor)
  | refused {reason : CommandError} (refuses : s.Refuses m.payload reason) :
      Outcome s m (s, some (m.errorFor reason.message))
  | silent (reply : m.type = .ack ∨ m.type = .error) : Outcome s m (s, none)

section Commands

variable {s s' : Stage} {payload : Payload} {reason : CommandError} {m : Message}

theorem activeScene_eq_some_iff {scene : Scene} :
    s.activeScene = some scene ↔
      ∃ id, s.active = some id ∧ s.scenes.find? id.text = some scene :=
  Option.bind_eq_some_iff

theorem apply_of_accepts (accepts : s.Accepts payload s') :
    Handler.stage.apply s payload = some (.ok s') := by
  cases accepts with
  | hello hello => rfl
  | load drawable => simp [Handler.apply, Handler.stage, load, loaded, drawable]
  | activate stored => simp [Handler.apply, Handler.stage, activate, Catalog.contains, stored]
  | rebind known active stored present =>
    have shown := activeScene_eq_some_iff.2 ⟨_, active, stored⟩
    simp [Handler.apply, Handler.stage, setFeed, rebound, known, active, shown, present]
  | play cue => rfl

theorem apply_of_refuses (refuses : s.Refuses payload reason) :
    Handler.stage.apply s payload = some (.error reason) := by
  cases refuses with
  | invalid fault => simp [Handler.apply, Handler.stage, load, fault]
  | unknownScene absent => simp [Handler.apply, Handler.stage, activate, Catalog.contains, absent]
  | unknownFeed surface absent => simp [Handler.apply, Handler.stage, setFeed, absent]
  | noScene surface known dark => simp [Handler.apply, Handler.stage, setFeed, known, dark]
  | unknownSurface known shown absent =>
    obtain ⟨id, active, -⟩ := activeScene_eq_some_iff.1 shown
    simp [Handler.apply, Handler.stage, setFeed, known, active, shown, absent]

/-- A payload that is accepted is acknowledged. -/
theorem dispatch_of_accepts (accepts : s.Accepts m.payload s') :
    Handler.stage.dispatch s m = (s', some m.ackFor) := by
  rw [Handler.dispatch, apply_of_accepts accepts]

/-- A payload that is refused is answered by an error that tells why. -/
theorem dispatch_of_refuses (refuses : s.Refuses m.payload reason) :
    Handler.stage.dispatch s m = (s, some (m.errorFor reason.message)) := by
  rw [Handler.dispatch, apply_of_refuses refuses]

/-- Every payload is accepted or refused, if it is no reply. -/
theorem accepts_or_refuses (s : Stage) (payload : Payload) :
    (∃ s', s.Accepts payload s') ∨ (∃ reason, s.Refuses payload reason) ∨
      payload.type = .ack ∨ payload.type = .error := by
  cases payload with
  | hello hello => exact .inl ⟨_, .hello hello⟩
  | ack id => exact .inr (.inr (.inl rfl))
  | error id text => exact .inr (.inr (.inr rfl))
  | loadScene id =>
    cases stored : s.scenes.find? id.text with
    | none => exact .inr (.inl ⟨_, .unknownScene stored⟩)
    | some scene => exact .inl ⟨_, .activate stored⟩
  | loadSceneDefinition d =>
    cases checked : d.check with
    | error reason => exact .inr (.inl ⟨_, .invalid checked⟩)
    | ok _ => exact .inl ⟨_, .load checked⟩
  | setFeedForSurface surface feed =>
    by_cases known : s.feed? feed = none
    · exact .inr (.inl ⟨_, .unknownFeed surface known⟩)
    · cases shown : s.activeScene with
      | none => exact .inr (.inl ⟨_, .noScene surface known shown⟩)
      | some scene =>
        by_cases present : scene.find? surface = none
        · exact .inr (.inl ⟨_, .unknownSurface known shown present⟩)
        · obtain ⟨id, active, stored⟩ := activeScene_eq_some_iff.1 shown
          exact .inl ⟨_, .rebind known active stored present⟩
  | playCue cue => exact .inl ⟨_, .play cue⟩

/-- What the dispatch of any message comes to. -/
theorem dispatch_cases (s : Stage) (m : Message) : s.Outcome m (Handler.stage.dispatch s m) := by
  rcases s.accepts_or_refuses m.payload with ⟨s', accepts⟩ | ⟨reason, refuses⟩ | reply
  · rw [dispatch_of_accepts accepts]
    exact .accepted accepts
  · rw [dispatch_of_refuses refuses]
    exact .refused refuses
  · rw [Handler.dispatch_of_silent (Reading.asksReply_eq_false_iff.2 reply)]
    exact .silent reply

/-! ### What is stored after a definition has come in -/

/-- Of the feeds of a definition with one name the last is found; others stay as they are. -/
theorem feed?_loaded (s : Stage) (d : Definition) (id : FeedId) :
    (s.loaded d).feed? id =
      ((d.feeds.filter fun feed ↦ feed.id = id).getLast?).or (s.feed? id) := by
  show (d.feeds.foldl _ s.feeds).find? id.text = _
  -- the last feed is the one that is stored last
  induction d.feeds using List.reverseRecOn with
  | nil => rfl
  | append_singleton feeds feed ih =>
    rw [List.foldl_append, List.foldl_cons, List.foldl_nil, Catalog.find?_insert, ih,
      List.filter_append, List.filter_singleton]
    by_cases same : feed.id = id
    · rw [if_pos (congrArg Identifier.text same), decide_eq_true same]
      simp
    · have apart : feed.id.text ≠ id.text := fun eq ↦ same (congrArg Identifier.mk eq)
      rw [if_neg apart, decide_eq_false same]
      simp

theorem activeScene_loaded (s : Stage) (d : Definition) :
    (s.loaded d).activeScene = some d.scene :=
  activeScene_eq_some_iff.2 ⟨d.scene.id, rfl, Catalog.find?_insert_self ..⟩

end Commands

end Stage

end ShowControl
