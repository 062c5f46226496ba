import ShowControl.Proofs.Rig.Linked

/-!
# Renderers join

A registry that has just been started is linked, with no renderers (`Rig.linked_started`). A
renderer with a free name that introduces itself is registered, and its link serves
(`Rig.Linked.join`). So rigs with any number of renderers, in whatever states, are linked
(`Rig.Linked.joinAll`).
-/

namespace ShowControl

namespace Registry

variable {r : Registry} {peer name : String}

theorem keep_welcome (r : Registry) (peer name : String) (i i' : Inbox) :
    (r.welcome peer name i).keep peer name i' = r.welcome peer name i' := by
  rw [keep, welcome, Catalog.insert_insert_self]
  rfl

end Registry

namespace Rig

variable {σ : Type} {h : Handler σ} {rig : Rig σ} {peer name helloId : String} {state : σ}
variable {i : Inbox} {l : Link σ}

/-- The registry lets renderers in, and knows no addresses but those that have been dialled from. -/
structure Ready (rig : Rig σ) : Prop where
  running : rig.registry.isRunning = true
  open_table : rig.registry.table.isClosed = false
  unused : ∀ n, rig.dialled ≤ n → rig.registry.connections.find? (toString n) = none

/-- A registry that has just been started. -/
def started (σ : Type) (port : Nat) : Rig σ where
  registry := (({} : Registry).start (some port)).1

theorem ready_started (port : Nat) : (started σ port).Ready :=
  ⟨rfl, rfl, fun _ _ ↦ rfl⟩

theorem linked_started (port : Nat) : (started σ port).Linked where
  coherent := Registry.coherent_empty.step (.start (some port))
  served _ _ := nofun
  drained _ _ := nofun

/-! ### The rig with one more renderer -/

/-- Links that are dialled one after the other have different addresses. -/
theorem toString_injective {a b : Nat} (same : toString a = toString b) : a = b := by
  have digits : Nat.toDigits 10 a = Nat.toDigits 10 b := String.ofList_injective same
  calc
    a = Nat.ofDigitChars 10 (Nat.toDigits 10 a) 0 := Nat.ofDigitChars_ten_toDigits.symm
    _ = Nat.ofDigitChars 10 (Nat.toDigits 10 b) 0 := by rw [digits]
    _ = b := Nat.ofDigitChars_ten_toDigits

/-- The rig with a renderer that has joined. -/
def joined (rig : Rig σ) (i : Inbox) (l : Link σ) : Rig σ where
  registry := rig.registry.welcome (toString rig.dialled) l.name i
  links := rig.links.insert (toString rig.dialled) l
  dialled := rig.dialled + 1

theorem Ready.joined (ready : rig.Ready) : (rig.joined i l).Ready where
  running := ready.running
  open_table := ready.open_table
  unused n dialled := by
    have apart : toString rig.dialled ≠ toString n := fun same ↦
      Nat.ne_of_lt dialled (toString_injective same)
    exact (Catalog.find?_insert_of_ne _ _ apart).trans (ready.unused n (Nat.le_of_succ_le dialled))

theorem Linked.joined (linked : rig.Linked) (ready : rig.Ready)
    (free : l.name ∉ rig.registry.names) (holds : i.Holds []) (serves : l.Serves) :
    (rig.joined i l).Linked where
  coherent := by
    have accepted := (Registry.spares_accept linked.coherent (toString rig.dialled)).coherent
    rw [Registry.accept_of_running ready.running (ready.unused _ le_rfl)] at accepted
    have inserted := accepted.insert_insert (Catalog.find?_insert_self ..) rfl
      (SessionTable.insert_of_not_mem rig.registry.table ready.open_table free)
      (rfl : ({ standing := .registered l.name, inbox := i } : RegistryConnection).standing = _)
    rwa [Catalog.insert_insert_self] at inserted
  served other name registered := by
    show ∃ l', (rig.links.insert (toString rig.dialled) l).find? other = some l' ∧ _
    rw [Rig.joined, Registry.welcome, Registry.isRegistered_insert] at registered
    rw [Catalog.find?_insert]
    split at registered
    · next same =>
      exact ⟨l, if_pos same, Standing.registered.inj registered, serves⟩
    · next ne =>
      rw [if_neg ne]
      exact linked.served other name registered
  drained other name registered := by
    show ∃ i', _ ∧
      (rig.registry.connections.insert (toString rig.dialled) _).find? other = _
    rw [Rig.joined, Registry.welcome, Registry.isRegistered_insert] at registered
    rw [Catalog.find?_insert]
    split at registered
    · next same =>
      cases registered
      exact ⟨i, holds, if_pos same⟩
    · next ne =>
      rw [if_neg ne]
      exact linked.drained other name registered

theorem state?_joined (other : String) :
    (rig.joined i l).state? other =
      if toString rig.dialled = other then some l.service.state else rig.state? other := by
  show ((rig.links.insert (toString rig.dialled) l).find? other).map _ = _
  rw [Catalog.find?_insert]
  split <;> rfl

/-- The renderers that were there before stay as they are. -/
theorem Linked.perm_renderers_joined (linked : rig.Linked) (ready : rig.Ready)
    (free : l.name ∉ rig.registry.names) :
    (rig.joined i l).renderers.Perm ((l.name, l.service.state) :: rig.renderers) := by
  have sessions : (rig.joined i l).registry.table.sessions.Perm
      (⟨toString rig.dialled, l.name⟩ :: rig.registry.table.sessions) :=
    (Entries.perm_insert free).map _
  have before : rig.registry.table.sessions.filterMap (rig.joined i l).renderer? =
      rig.renderers := by
    refine List.filterMap_congr fun s listed ↦ ?_
    have apart : toString rig.dialled ≠ s.id := fun same ↦ by
      obtain ⟨c, found, -⟩ := linked.isRegistered listed
      rw [← same, ready.unused _ le_rfl] at found
      cases found
    rw [renderer?, state?_joined, if_neg apart, renderer?]
  refine (sessions.filterMap _).trans ?_
  rw [List.filterMap_cons, renderer?, state?_joined, if_pos rfl, before]
  exact .refl _

/-! ### Introductions -/

/-- The rig whose registry has acknowledged the hello of a renderer, which does not know it yet. -/
def greeted (rig : Rig σ) (name helloId : String) (state : σ) (i : Inbox) : Rig σ :=
  rig.joined i { name, helloId, service := { state } }

/-- A renderer has joined once it knows that its hello has been acknowledged. -/
theorem settle_greeted (h : Handler σ) (rig : Rig σ) (name : String) (state : σ)
    (empty : i.Holds []) (small : (Message.ack helloId).Fits) :
    ∃ k l, k.Holds [] ∧ l.Serves ∧ l.name = name ∧ l.service.state = state ∧
      (rig.greeted name helloId state i).settle h
          (.line (toString rig.dialled) (Message.ack helloId).encode) = (rig.joined k l, []) := by
  obtain ⟨l, serves, rfl, rfl, served⟩ := Link.receive_ack h name state small
  obtain ⟨k, holds, silent⟩ := Registry.receive_frames
    (Registry.find?_welcome rig.registry (toString rig.dialled) l.name i) empty
    (List.forall_mem_nil _ : ∀ m ∈ [], _) (List.forall_mem_nil _)
  rw [List.map_nil] at silent
  refine ⟨k, l, holds, serves, rfl, rfl, ?_⟩
  rw [settle_line (Catalog.find?_insert_self ..) served serves.isOpen silent, Registry.keep_welcome]
  show ((⟨_, (rig.links.insert _ _).insert _ l, _⟩ : Rig σ), _) = _
  rw [Catalog.insert_insert_self]
  rfl

/-- A renderer with a free name joins, if its hello and the acknowledgment of it can be sent. -/
theorem Linked.join (linked : rig.Linked) (ready : rig.Ready) (named : name ≠ "")
    (free : name ∉ rig.registry.names) (small : (Link.introduction helloId name).Fits)
    (answerable : (Message.ack helloId).Fits) (state : σ) :
    ∃ rig', rig.join h name helloId state = (rig', [.registered name], .ok ()) ∧
      rig'.Linked ∧ rig'.Ready ∧ rig'.renderers.Perm ((name, state) :: rig.renderers) := by
  let peer := toString rig.dialled
  let connected : Registry :=
    { rig.registry with connections := rig.registry.connections.insert peer {} }
  have accepts : rig.registry.accept peer = (connected, true) :=
    Registry.accept_of_running ready.running (ready.unused _ le_rfl)
  obtain ⟨i, holds, received⟩ := Registry.receive_hello (r := connected)
    (Catalog.find?_insert_self ..) ready.open_table named free small answerable
  have welcomed : connected.welcome peer name i = rig.registry.welcome peer name i := by
    rw [Registry.welcome, Catalog.insert_insert_self, Registry.welcome]
  obtain ⟨k, l, holds', serves, rfl, rfl, settled⟩ :=
    settle_greeted h rig name state holds answerable
  have settledAll : (rig.greeted l.name helloId l.service.state i).settleAll h
      [.line peer (Message.ack helloId).encode, .event (.registered l.name)] =
      (rig.joined k l, [.registered l.name]) := by
    rw [settleAll, Transducer.run_cons, settled]
    rfl
  rw [greeted, Rig.joined] at settledAll
  have status : ((rig.joined k l).links.find? peer).map Link.status = some .registered := by
    rw [Rig.joined, Catalog.find?_insert_self, Option.map_some, serves.registered]
  refine ⟨rig.joined k l, ?_, linked.joined ready free holds' serves, ready.joined,
    linked.perm_renderers_joined ready free⟩
  rw [Rig.join, Link.start, Message.line?_of_fits small]
  dsimp only
  rw [accepts]
  dsimp only
  rw [Link.introduction, received, welcomed]
  dsimp only
  rw [settledAll]
  dsimp only
  rw [status]

/-- Renderers join, one after the other. -/
def joinAll (rig : Rig σ) (h : Handler σ) (helloId : String) (renderers : List (String × σ)) :
    Rig σ :=
  renderers.foldl (fun rig renderer ↦ (rig.join h renderer.1 helloId renderer.2).1) rig

/-- Any number of renderers may join, if their names are free and differ from each other. -/
theorem Linked.joinAll {renderers : List (String × σ)} (linked : rig.Linked) (ready : rig.Ready)
    (free : (renderers.map Prod.fst ++ rig.registry.names).Nodup)
    (small : ∀ renderer ∈ renderers,
      renderer.1 ≠ "" ∧ (Link.introduction helloId renderer.1).Fits)
    (answerable : (Message.ack helloId).Fits) :
    (rig.joinAll h helloId renderers).Linked ∧
      (rig.joinAll h helloId renderers).renderers.Perm (renderers ++ rig.renderers) := by
  induction renderers generalizing rig with
  | nil => exact ⟨linked, .refl _⟩
  | cons renderer renderers ih =>
    obtain ⟨name, state⟩ := renderer
    obtain ⟨⟨named, introduces⟩, others⟩ := List.forall_mem_cons.1 small
    rw [List.map_cons, List.cons_append] at free
    have fresh : name ∉ rig.registry.names := fun taken ↦
      (List.nodup_cons.1 free).1 (List.mem_append_right _ taken)
    obtain ⟨rig', joins, linked', ready', perm⟩ :=
      linked.join (h := h) ready named fresh introduces answerable state
    have names : rig'.registry.names.Perm (name :: rig.registry.names) := by
      rw [← linked'.map_fst_renderers, ← linked.map_fst_renderers]
      exact perm.map Prod.fst
    have free' : (renderers.map Prod.fst ++ rig'.registry.names).Nodup :=
      ((names.append_left _).trans List.perm_middle).nodup_iff.2 free
    obtain ⟨linkedAll, permAll⟩ := ih linked' ready' free' others
    have same : rig.joinAll h helloId ((name, state) :: renderers) =
        rig'.joinAll h helloId renderers := by
      rw [Rig.joinAll, List.foldl_cons, joins, Rig.joinAll]
    rw [same]
    exact ⟨linkedAll, permAll.trans ((perm.append_left _).trans List.perm_middle)⟩

end Rig

end ShowControl
