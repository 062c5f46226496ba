import ShowControl.Proofs.Registry.Greeting
import ShowControl.Proofs.Renderer.Link
import ShowControl.Rig

/-!
# Registries with their renderers

A rig is linked when every registered renderer serves a link, and both ends of it have taken all
that has arrived (`Rig.Linked`). Then there is a renderer for every name that is registered
(`Rig.Linked.map_fst_renderers`). A rig stays linked where one end takes what has arrived, be it a
renderer (`Rig.Linked.relink`) or the registry (`Rig.Linked.keep`).
-/

namespace ShowControl

open RegistryOutput

namespace Registry

variable {r : Registry} {peer name : String} {i : Inbox}

/-- The registry with another inbox of a registered connection. -/
def keep (r : Registry) (peer name : String) (i : Inbox) : Registry :=
  { r with
    connections := r.connections.insert peer { standing := .registered name, inbox := i } }

/-- The messages of a registered peer are reported. -/
theorem receive_frames
    (found : r.connections.find? peer = some { standing := .registered name, inbox := i })
    (empty : i.Holds []) {messages : List Message}
    (finite : ∀ m ∈ messages, ∀ coordinate ∈ m.coordinates, coordinate.2.isFinite = true)
    (small : ∀ m ∈ messages, m.Fits) :
    ∃ i' : Inbox, i'.Holds [] ∧ r.receive peer (frames (messages.map Message.encode)) =
      (r.keep peer name i', (messages.filterMap (RegistryEvent.ofMessage? name)).map .event) := by
  obtain ⟨i', holds, drained⟩ := Message.drain_frames small empty
  have read : (messages.map fun m ↦ m.encode.toUTF8).filterMap (RegistryEvent.ofLine? name) =
      messages.filterMap (RegistryEvent.ofMessage? name) := by
    rw [List.filterMap_map]
    refine List.filterMap_congr fun m listed ↦ ?_
    rw [Function.comp_apply, RegistryEvent.ofLine?, Message.decodeBytes_toUTF8 (finite m listed)]
  refine ⟨i', holds, ?_⟩
  rw [receive, found]
  dsimp only
  rw [drained]
  dsimp only
  rw [run_takeLine_registered (Catalog.find?_insert_self ..) rfl, read]
  rfl

theorem Coherent.keep (h : r.Coherent)
    (found : r.connections.find? peer = some { standing := .registered name, inbox := i })
    (i' : Inbox) :
    (r.keep peer name i').Coherent := by
  refine h.insert (h.port_ne_none found) fun name' ↦ ?_
  rw [isRegistered_iff found]

end Registry

namespace Rig

variable {σ : Type} {rig rig' : Rig σ} {peer name : String} {i i' : Inbox} {l : Link σ}
variable {s : Session String} {sessions : List (Session String)}

/-- The state of the renderer at an address. -/
def state? (rig : Rig σ) (peer : String) : Option σ :=
  (rig.links.find? peer).map fun l ↦ l.service.state

/-- The renderer that has a session, by its name, with its state. -/
def renderer? (rig : Rig σ) (s : Session String) : Option (String × σ) :=
  (rig.state? s.id).map fun state ↦ (s.name, state)

/-- The renderers that are registered, by their names, with their states. -/
def renderers (rig : Rig σ) : List (String × σ) :=
  rig.registry.table.sessions.filterMap rig.renderer?

/-- Every renderer that is registered serves a link under its name. The registry can write to it and
has taken all that has come from it. -/
structure Linked (rig : Rig σ) : Prop where
  coherent : rig.registry.Coherent
  served : ∀ peer name, rig.registry.IsRegistered peer name →
    ∃ l, rig.links.find? peer = some l ∧ l.name = name ∧ l.Serves
  drained : ∀ peer name, rig.registry.IsRegistered peer name → ∃ i : Inbox, i.Holds [] ∧
    rig.registry.connections.find? peer = some { standing := .registered name, inbox := i }

/-- What is registered is settled by the table. -/
theorem Linked.isRegistered_congr (linked : rig.Linked) (linked' : rig'.Linked)
    (table : rig'.registry.table = rig.registry.table) :
    rig'.registry.IsRegistered peer name ↔ rig.registry.IsRegistered peer name := by
  rw [← linked.coherent.owned, ← linked'.coherent.owned, table]

theorem Linked.isRegistered (linked : rig.Linked) (listed : s ∈ rig.registry.table.sessions) :
    rig.registry.IsRegistered s.id s.name :=
  (linked.coherent.owned s.name s.id).1 (rig.registry.table.mem_sessions_iff.1 listed)

/-- What fits a frame can be written to every renderer. -/
theorem Linked.canWrite {m : Message} (linked : rig.Linked) (small : m.Fits)
    (listed : s ∈ rig.registry.table.sessions) : rig.registry.CanWrite s.id m := by
  obtain ⟨i, -, connected⟩ := linked.drained s.id s.name (linked.isRegistered listed)
  exact ⟨small, Registry.fault?_of_find? connected⟩

/-- There is a renderer for every session. -/
theorem Linked.exists_renderer (linked : rig.Linked) (listed : s ∈ rig.registry.table.sessions) :
    ∃ state, rig.state? s.id = some state ∧ rig.renderer? s = some (s.name, state) := by
  obtain ⟨l, found, -, -⟩ := linked.served s.id s.name (linked.isRegistered listed)
  have here : rig.state? s.id = some l.service.state := by
    rw [state?, found]
    rfl
  exact ⟨l.service.state, here, by rw [renderer?, here]; rfl⟩

theorem Linked.map_fst_filterMap (linked : rig.Linked)
    (listed : ∀ s ∈ sessions, s ∈ rig.registry.table.sessions) :
    (sessions.filterMap rig.renderer?).map Prod.fst = sessions.map Session.name := by
  induction sessions with
  | nil => rfl
  | cons s sessions ih =>
    obtain ⟨first, others⟩ := List.forall_mem_cons.1 listed
    obtain ⟨state, -, renderer⟩ := linked.exists_renderer first
    rw [List.filterMap_cons, renderer, List.map_cons, ih others, List.map_cons]

/-- There is a renderer for every name. -/
theorem Linked.map_fst_renderers (linked : rig.Linked) :
    rig.renderers.map Prod.fst = rig.registry.names :=
  (linked.map_fst_filterMap fun _ ↦ id).trans rig.registry.map_name_sessions

/-- The renderers are in the order of their names, so that it is enough to know which there are. -/
theorem Linked.renderers_eq (linked : rig.Linked) {renderers : List (String × σ)}
    (perm : rig.renderers.Perm renderers)
    (sorted : (renderers.map Prod.fst).Pairwise (· < ·)) : rig.renderers = renderers := by
  have sorted' : (rig.renderers.map Prod.fst).Pairwise (· < ·) := by
    rw [linked.map_fst_renderers]
    exact rig.registry.table.names_sorted
  refine perm.eq_of_pairwise (fun a b _ _ before after ↦ ?_) (List.pairwise_map.1 sorted')
    (List.pairwise_map.1 sorted)
  exact absurd after (String.lt_asymm before)

/-! ### One end takes what has arrived -/

/-- The rig with another link at the address of a renderer. -/
def relink (rig : Rig σ) (peer : String) (l : Link σ) : Rig σ :=
  { rig with links := rig.links.insert peer l }

/-- The rig whose registry has another inbox for a renderer. -/
def keep (rig : Rig σ) (peer name : String) (i : Inbox) : Rig σ :=
  { rig with registry := rig.registry.keep peer name i }

theorem Linked.relink (linked : rig.Linked) (registered : rig.registry.IsRegistered peer name)
    (named : l.name = name) (serves : l.Serves) : (rig.relink peer l).Linked where
  coherent := linked.coherent
  served other name' registered' := by
    show ∃ l', (rig.links.insert peer l).find? other = some l' ∧ _
    rw [Catalog.find?_insert]
    split
    · next same =>
      subst same
      exact ⟨l, rfl, named.trans (registered.name_unique registered'), serves⟩
    · exact linked.served other name' registered'
  drained := linked.drained

theorem Linked.keep (linked : rig.Linked)
    (connected : rig.registry.connections.find? peer =
      some { standing := .registered name, inbox := i })
    (holds : i'.Holds []) : (rig.keep peer name i').Linked where
  coherent := linked.coherent.keep connected i'
  served other name' registered := by
    rw [Rig.keep, Registry.keep, Registry.isRegistered_insert] at registered
    split at registered
    · next same =>
      cases registered
      exact linked.served other name ⟨_, same ▸ connected, rfl⟩
    · exact linked.served other name' registered
  drained other name' registered := by
    rw [Rig.keep, Registry.keep, Registry.isRegistered_insert] at registered
    show ∃ i'', _ ∧ (rig.registry.connections.insert peer _).find? other = _
    rw [Catalog.find?_insert]
    split at registered
    · next same =>
      cases registered
      exact ⟨i', holds, if_pos same⟩
    · next ne =>
      rw [if_neg ne]
      exact linked.drained other name' registered

/-- A line that is written to a renderer is read by it, and what it answers by the registry. -/
theorem settle_line {h : Handler σ} {text : String} {replies : List String} {registry : Registry}
    {outputs : List RegistryOutput} {l' : Link σ} (found : rig.links.find? peer = some l)
    (answers : l.receive h (frames [text]) = (l', replies)) (still : l'.service.isOpen = true)
    (reports : rig.registry.receive peer (frames replies) = (registry, outputs)) :
    rig.settle h (.line peer text) =
      ({ rig.relink peer l' with registry }, events outputs) := by
  rw [settle, found]
  dsimp only
  rw [answers]
  dsimp only
  rw [reports]
  dsimp only
  rw [if_pos still, List.append_nil]
  rfl

theorem state?_relink (other : String) :
    (rig.relink peer l).state? other =
      if peer = other then some l.service.state else rig.state? other := by
  show ((rig.links.insert peer l).find? other).map _ = _
  rw [Catalog.find?_insert]
  split <;> rfl

end Rig

end ShowControl
