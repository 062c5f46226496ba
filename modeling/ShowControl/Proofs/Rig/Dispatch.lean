import Mathlib.Data.List.Forall2
import ShowControl.Proofs.Rig.Linked

/-!
# One message and its replies

A message arrives at a renderer, which dispatches it (`Rig.Linked.receive_line`); the reply arrives
at the registry, which reports it (`Rig.Linked.receive_reply`). In between, any other line or reply
may arrive, since what a message has done so far is a matter of the renderers that it has reached
(`Rig.Reached`), and each of these steps reaches one more or none.

Where one exchange is over before the next begins, as in `Rig.settleAll`, this comes to
`Rig.Sends.settleAll`. What it means for the renderers, by their names, is `Rig.Delivers`.
-/

namespace ShowControl

namespace Registry

variable {r : Registry} {s t : Session String}

/-- A session is settled by its peer as well as by its name. -/
theorem Coherent.session_eq (h : r.Coherent) (hs : s ∈ r.table.sessions)
    (ht : t ∈ r.table.sessions) (same : s.id = t.id ∨ s.name = t.name) : s = t := by
  obtain ⟨peer, name⟩ := s
  obtain ⟨peer', name'⟩ := t
  have found := r.table.mem_sessions_iff.1 hs
  have found' := r.table.mem_sessions_iff.1 ht
  dsimp only at found found' same
  rcases same with rfl | rfl
  · rw [((h.owned _ _).1 found).name_unique ((h.owned _ _).1 found')]
  · rw [found, Option.some_inj] at found'
    rw [found']

end Registry

namespace Rig

variable {σ : Type} {h : Handler σ} {m : Message} {rig rig' rig'' : Rig σ} {peer name : String}

/-- A message has reached the renderers at some addresses: their states are those that its dispatch
leaves, and all else is as it was. -/
structure Reached (h : Handler σ) (m : Message) (peers : List String) (rig rig' : Rig σ) :
    Prop where
  linked : rig'.Linked
  table : rig'.registry.table = rig.registry.table
  state? : ∀ peer, rig'.state? peer =
    if peer ∈ peers then (rig.state? peer).map fun s ↦ (h.dispatch s m).1 else rig.state? peer
  elsewhere : ∀ peer, peer ∉ peers → rig'.links.find? peer = rig.links.find? peer

theorem Reached.nobody (linked : rig.Linked) : Reached h m [] rig rig :=
  ⟨linked, rfl, fun _ ↦ rfl, fun _ _ ↦ rfl⟩

theorem Reached.congr {peers peers' : List String} (reached : Reached h m peers rig rig')
    (same : ∀ peer, peer ∈ peers ↔ peer ∈ peers') : Reached h m peers' rig rig' :=
  ⟨reached.linked, reached.table, by simpa only [same] using reached.state?,
    by simpa only [same] using reached.elsewhere⟩

theorem Reached.trans {peers peers' : List String} (first : Reached h m peers rig rig')
    (apart : ∀ peer ∈ peers', peer ∉ peers) (second : Reached h m peers' rig' rig'') :
    Reached h m (peers ++ peers') rig rig'' where
  linked := second.linked
  table := second.table.trans first.table
  state? peer := by
    rw [second.state?, first.state?]
    by_cases later : peer ∈ peers'
    · rw [if_pos later, if_neg (apart peer later), if_pos (List.mem_append_right _ later)]
    · rw [if_neg later]
      simp [later]
  elsewhere peer away := by
    rw [List.mem_append, not_or] at away
    rw [second.elsewhere peer away.2, first.elsewhere peer away.1]

/-- What a registry reports of the reply of a renderer. -/
def told (h : Handler σ) (m : Message) (renderer : String × σ) : Option RegistryEvent :=
  (h.dispatch renderer.2 m).2.bind (RegistryEvent.ofMessage? renderer.1)

/-- What the renderer answers to a message can be sent. -/
def Answerable (h : Handler σ) (m : Message) (renderer : String × σ) : Prop :=
  ∀ reply ∈ (h.dispatch renderer.2 m).2, reply.Fits

/-- A message that arrives at a renderer is dispatched by it. -/
theorem Linked.receive_line (linked : rig.Linked) (registered : rig.registry.IsRegistered peer name)
    (finite : ∀ coordinate ∈ m.coordinates, coordinate.2.isFinite = true) (small : m.Fits) {s : σ}
    (here : rig.state? peer = some s) (answerable : Answerable h m (name, s)) :
    ∃ l l', rig.links.find? peer = some l ∧
      l.receive h (frames [m.encode]) = (l', (h.dispatch s m).2.toList.map Message.encode) ∧
      l'.service.isOpen = true ∧ Reached h m [peer] rig (rig.relink peer l') := by
  obtain ⟨l, found, named, serves⟩ := linked.served peer name registered
  have state : l.service.state = s := by
    rwa [state?, found, Option.map_some, Option.some_inj] at here
  subst state
  obtain ⟨i, holds, received⟩ := serves.receive finite small answerable
  refine ⟨l, _, found, received, rfl,
    linked.relink registered named ⟨serves.registered, rfl, holds⟩, rfl, fun other ↦ ?_,
    fun other away ↦ Catalog.find?_insert_of_ne _ _ fun same ↦ away (by simp [same])⟩
  rw [state?_relink]
  by_cases same : peer = other
  · rw [if_pos same, if_pos (List.mem_singleton.2 same.symm), ← same, here]
    rfl
  · rw [if_neg same, if_neg fun mem ↦ same (List.mem_singleton.1 mem).symm]

/-- A reply that arrives at the registry is reported. -/
theorem Linked.receive_reply (linked : rig.Linked)
    (registered : rig.registry.IsRegistered peer name) {s : σ}
    (answerable : Answerable h m (name, s)) :
    ∃ registry, rig.registry.receive peer (frames ((h.dispatch s m).2.toList.map Message.encode)) =
        (registry, (told h m (name, s)).toList.map .event) ∧
      Reached h m [] rig { rig with registry } := by
  obtain ⟨i, empty, connected⟩ := linked.drained peer name registered
  have readable : ∀ reply ∈ (h.dispatch s m).2.toList,
      ∀ coordinate ∈ reply.coordinates, coordinate.2.isFinite = true := by
    intro reply listed
    rw [Handler.coordinates_of_dispatch (Option.mem_toList.1 listed)]
    exact fun _ mem ↦ absurd mem List.not_mem_nil
  obtain ⟨i', holds, received⟩ := Registry.receive_frames connected empty readable
    fun reply listed ↦ answerable reply (Option.mem_toList.1 listed)
  refine ⟨rig.registry.keep peer name i', ?_,
    linked.keep connected holds, rfl, fun _ ↦ rfl, fun _ _ ↦ rfl⟩
  rw [received, told]
  cases (h.dispatch s m).2 with
  | none => rfl
  | some reply =>
    rw [Option.toList_some, List.filterMap_cons, Option.bind_some]
    cases RegistryEvent.ofMessage? name reply <;> rfl

/-- A message that is written to a renderer is dispatched by it, and its reply is reported. -/
theorem Linked.settle (linked : rig.Linked) (registered : rig.registry.IsRegistered peer name)
    (finite : ∀ coordinate ∈ m.coordinates, coordinate.2.isFinite = true) (small : m.Fits) {s : σ}
    (here : rig.state? peer = some s) (answerable : Answerable h m (name, s)) :
    ∃ rig', rig.settle h (.line peer m.encode) = (rig', (told h m (name, s)).toList) ∧
      Reached h m [peer] rig rig' := by
  obtain ⟨l, l', found, received, still, reached⟩ :=
    linked.receive_line registered finite small here answerable
  obtain ⟨registry, reported, reached'⟩ := reached.linked.receive_reply registered answerable
  refine ⟨_, ?_, reached.trans (fun _ ↦ nofun) reached'⟩
  rw [settle_line found received still reported, Registry.events_map_event]

/-! ### Several renderers -/

/-- A message may be sent to the renderers that have these sessions: it can be sent and read, and so
can their answers. -/
structure Sends (h : Handler σ) (m : Message) (rig : Rig σ) (sessions : List (Session String)) :
    Prop where
  linked : rig.Linked
  finite : ∀ coordinate ∈ m.coordinates, coordinate.2.isFinite = true
  small : m.Fits
  nodup : (sessions.map Session.id).Nodup
  listed : ∀ s ∈ sessions, s ∈ rig.registry.table.sessions
  answerable : ∀ renderer ∈ sessions.filterMap rig.renderer?, Answerable h m renderer

section Sessions

variable {s : Session String} {sessions : List (Session String)}

/-- A renderer is as it was if the message has reached others. -/
theorem Reached.renderer?_of_not_mem {peers : List String} (reached : Reached h m peers rig rig')
    (away : s.id ∉ peers) : rig'.renderer? s = rig.renderer? s := by
  rw [renderer?, reached.state?, if_neg away, renderer?]

/-- A renderer stays registered when the message has reached others. -/
theorem Reached.isRegistered {peers : List String}
    (reached : Reached h m peers rig rig') (listed : s ∈ rig.registry.table.sessions) :
    rig'.registry.IsRegistered s.id s.name :=
  reached.linked.isRegistered (by rwa [reached.table])

/-- Who has one of these sessions can answer. -/
theorem Sends.exists_renderer (sends : Sends h m rig sessions) (mem : s ∈ sessions) :
    ∃ state, rig.state? s.id = some state ∧ rig.renderer? s = some (s.name, state) ∧
      Answerable h m (s.name, state) := by
  obtain ⟨state, here, renderer⟩ := sends.linked.exists_renderer (sends.listed s mem)
  exact ⟨state, here, renderer, sends.answerable _ (List.mem_filterMap.2 ⟨s, mem, renderer⟩)⟩

theorem Sends.perm {sessions' : List (Session String)} (sends : Sends h m rig sessions)
    (perm : sessions'.Perm sessions) : Sends h m rig sessions' :=
  { sends with
    nodup := (perm.map _).nodup_iff.2 sends.nodup
    listed := fun s mem ↦ sends.listed s (perm.mem_iff.1 mem)
    answerable := fun renderer mem ↦
      sends.answerable renderer ((perm.filterMap _).mem_iff.1 mem) }

/-- What is still to be sent when the message has reached the first renderer. -/
theorem Sends.tail (sends : Sends h m rig (s :: sessions)) (reached : Reached h m [s.id] rig rig') :
    Sends h m rig' sessions ∧
      sessions.filterMap rig'.renderer? = sessions.filterMap rig.renderer? := by
  obtain ⟨fresh, nodup⟩ := List.nodup_cons.1 sends.nodup
  have same : sessions.filterMap rig'.renderer? = sessions.filterMap rig.renderer? := by
    refine List.filterMap_congr fun t mem ↦ reached.renderer?_of_not_mem fun same ↦ fresh ?_
    exact List.mem_singleton.1 same ▸ List.mem_map_of_mem mem
  refine ⟨⟨reached.linked, sends.finite, sends.small, nodup, fun t mem ↦ ?_, fun renderer mem ↦ ?_⟩,
    same⟩
  · rw [reached.table]
    exact sends.listed t (List.mem_cons_of_mem _ mem)
  · rw [same] at mem
    exact sends.answerable renderer ((List.sublist_cons_self s sessions).filterMap _ |>.subset mem)

/-- Where one exchange is over before the next begins, the replies are reported in the order of the
renderers. -/
theorem Sends.settleAll (sends : Sends h m rig sessions) :
    ∃ rig', rig.settleAll h (sessions.map fun s ↦ .line s.id m.encode) =
        (rig', (sessions.filterMap rig.renderer?).filterMap (told h m)) ∧
      Reached h m (sessions.map Session.id) rig rig' := by
  induction sessions generalizing rig with
  | nil => exact ⟨rig, rfl, .nobody sends.linked⟩
  | cons s sessions ih =>
    obtain ⟨state, here, renderer, answerable⟩ := sends.exists_renderer List.mem_cons_self
    have registered := sends.linked.isRegistered (sends.listed s List.mem_cons_self)
    obtain ⟨rig₁, settled, reached⟩ :=
      sends.linked.settle registered sends.finite sends.small here answerable
    obtain ⟨sends', same⟩ := sends.tail reached
    obtain ⟨rig₂, settledAll, reachedAll⟩ := ih sends'
    have apart : ∀ peer ∈ sessions.map Session.id, peer ∉ [s.id] := fun peer there same ↦
      (List.nodup_cons.1 sends.nodup).1 (List.mem_singleton.1 same ▸ there)
    refine ⟨rig₂, ?_, reached.trans apart reachedAll⟩
    rw [Rig.settleAll, List.map_cons, Transducer.run_cons, settled]
    dsimp only
    rw [Rig.settleAll] at settledAll
    rw [settledAll, same, List.filterMap_cons, renderer, List.filterMap_cons]
    cases told h m (s.name, state) <;> rfl

end Sessions

/-! ### By name -/

/-- How a renderer answers a message is reported by this event. -/
inductive Hears (h : Handler σ) (m : Message) : String × σ → RegistryEvent → Prop where
  | acknowledged {name : String} {s : σ} (accepted : (h.dispatch s m).2 = some (.ack m.commandId)) :
      Hears h m (name, s) (.acknowledged name m.commandId)
  | commandFailed {name text : String} {s : σ}
      (refused : (h.dispatch s m).2 = some (.error m.commandId text)) :
      Hears h m (name, s) (.commandFailed name m.commandId text)

/-- The answer of a renderer settles what is reported of it. -/
theorem rightUnique_hears : Relator.RightUnique (Hears h m) := by
  intro renderer e e' hears hears'
  cases hears with
  | acknowledged accepted =>
    cases hears' with
    | acknowledged _ => rfl
    | commandFailed refused => cases accepted.symm.trans refused
  | commandFailed refused =>
    cases hears' with
    | acknowledged accepted => cases accepted.symm.trans refused
    | commandFailed refused' => cases refused.symm.trans refused'; rfl

/-- A message is dispatched by some of the renderers of a rig, in this order, and what each of them
answers is reported. -/
structure Delivers (h : Handler σ) (m : Message) (order : List (String × σ)) (rig rig' : Rig σ)
    (events : List RegistryEvent) : Prop where
  linked : rig'.Linked
  registered : ∀ peer name,
    rig'.registry.IsRegistered peer name ↔ rig.registry.IsRegistered peer name
  states : rig'.renderers = rig.renderers.map fun renderer ↦
    (renderer.1,
      if renderer.1 ∈ order.map Prod.fst then (h.dispatch renderer.2 m).1 else renderer.2)
  reported : m.type ≠ .ack → m.type ≠ .error → List.Forall₂ (Hears h m) order events
  silent : m.type = .ack ∨ m.type = .error → rig'.renderers = rig.renderers ∧ events = []
  /-- The links of all other renderers stay as they are. -/
  elsewhere : ∀ peer name, rig.registry.IsRegistered peer name → name ∉ order.map Prod.fst →
    rig'.links.find? peer = rig.links.find? peer

theorem exists_hears (asks : Reading.asksReply (.ok m) = true) (renderer : String × σ) :
    ∃ e, told h m renderer = some e ∧ Hears h m renderer e := by
  obtain ⟨name, s⟩ := renderer
  obtain ⟨reply, answered, answers⟩ :=
    Handler.exists_reply_of_asksReply (h := h) (s := s) asks
  rw [told, answered]
  cases answers with
  | acknowledged => exact ⟨_, rfl, .acknowledged answered⟩
  | refused _ text => exact ⟨_, rfl, .commandFailed answered⟩

/-- The renderers that are told of a message that asks for a reply are heard of one by one. -/
theorem forall₂_hears (asks : Reading.asksReply (.ok m) = true) (order : List (String × σ)) :
    List.Forall₂ (Hears h m) order (order.filterMap (told h m)) := by
  induction order with
  | nil => exact .nil
  | cons renderer order ih =>
    obtain ⟨e, heard, hears⟩ := exists_hears asks renderer
    rw [List.filterMap_cons, heard]
    exact .cons hears ih

/-- Nothing is heard of a message that asks for no reply. -/
theorem told_of_silent (silent : Reading.asksReply (.ok m) = false) (renderer : String × σ) :
    told h m renderer = none := by
  rw [told, Handler.dispatch_of_silent silent]
  rfl

section Sessions

variable {sessions : List (Session String)}

/-- The states after a message has reached some renderers. -/
theorem Reached.renderers_eq (linked : rig.Linked)
    (reached : Reached h m (sessions.map Session.id) rig rig')
    (listed : ∀ s ∈ sessions, s ∈ rig.registry.table.sessions) :
    rig'.renderers = rig.renderers.map fun renderer ↦
      (renderer.1,
        if renderer.1 ∈ sessions.map Session.name then (h.dispatch renderer.2 m).1
        else renderer.2) := by
  rw [renderers, renderers, reached.table, List.map_filterMap]
  refine List.filterMap_congr fun s known ↦ ?_
  obtain ⟨state, here, renderer⟩ := linked.exists_renderer known
  rw [renderer, renderer?, reached.state?, here, Option.map_some]
  by_cases mem : s ∈ sessions
  · have named : s.name ∈ sessions.map Session.name := List.mem_map_of_mem mem
    rw [if_pos (List.mem_map_of_mem mem), Option.map_some, Option.map_some, if_pos named]
  · -- a session that is not among these shares neither peer nor name with one that is
    have apart {t : Session String} (among : t ∈ sessions) (same : t.id = s.id ∨ t.name = s.name) :
        False :=
      mem (linked.coherent.session_eq (listed t among) known same ▸ among)
    have address : s.id ∉ sessions.map Session.id := fun there ↦ by
      obtain ⟨t, among, same⟩ := List.mem_map.1 there
      exact apart among (.inl same)
    have unnamed : s.name ∉ sessions.map Session.name := fun there ↦ by
      obtain ⟨t, among, same⟩ := List.mem_map.1 there
      exact apart among (.inr same)
    rw [if_neg address, Option.map_some, Option.map_some, if_neg unnamed]

/-- What becomes of the renderers that a message has reached, and of all others. -/
theorem Reached.delivers (linked : rig.Linked)
    (reached : Reached h m (sessions.map Session.id) rig rig')
    (listed : ∀ s ∈ sessions, s ∈ rig.registry.table.sessions) :
    Delivers h m (sessions.filterMap rig.renderer?) rig rig'
      ((sessions.filterMap rig.renderer?).filterMap (told h m)) := by
  have states := reached.renderers_eq linked listed
  refine ⟨reached.linked, fun peer name ↦ linked.isRegistered_congr reached.linked reached.table,
    by rw [states, linked.map_fst_filterMap listed], fun no_ack no_error ↦ ?_, fun reply ↦ ?_,
    fun peer name registered away ↦ reached.elsewhere peer fun there ↦ ?_⟩
  · refine forall₂_hears ?_ _
    rw [← Bool.not_eq_false, Reading.asksReply_eq_false_iff, not_or]
    exact ⟨no_ack, no_error⟩
  · have silent := Reading.asksReply_eq_false_iff.2 reply
    refine ⟨?_, List.filterMap_eq_nil_iff.2 fun renderer _ ↦ told_of_silent silent renderer⟩
    rw [states]
    simp [Handler.dispatch_of_silent silent]
  · obtain ⟨s, mem, rfl⟩ := List.mem_map.1 there
    refine away ?_
    rw [linked.map_fst_filterMap listed,
      registered.name_unique (linked.isRegistered (listed s mem))]
    exact List.mem_map_of_mem mem

end Sessions

end Rig

end ShowControl
