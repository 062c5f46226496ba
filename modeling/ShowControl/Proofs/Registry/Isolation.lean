import ShowControl.Proofs.Registry.Delivery
import ShowControl.Proofs.Registry.Rivals

/-!
# One peer cannot disturb the others

Whatever a peer does, and whenever, the others are written and reported what they would be had it
stayed away: take its steps out of a run, and what happens to them is the same (`Undisturbed`). Each
step is looked at by itself. A step of the peer leaves the registry without the peer as it is; a
step of another peer overlooks it (`Coherent.overlooks_step`); and a step of the owner reaches the
same peers, and the one more.

There is one way to disturb others, which is to take their names. So it is assumed that the peer
asks for none that another asks for (`run_isolated`). The assumption is needed only where a first
line is taken: nobody else asks for the name that the peer has (`RegistryMoment.Unrivalled`).
-/

namespace ShowControl

open RegistryOutput RegistryEvent

/-- The events of a step that do not come from the connection of a peer. -/
def RegistryMoment.toldOfOthers (moment : RegistryMoment) (absent : String) : List RegistryEvent :=
  moment.told.filter (· ∉ moment.contributed absent)

/-- Another peer that asks for a name does not ask for the one that this peer has. -/
def RegistryMoment.Unrivalled (moment : RegistryMoment) (absent : String) : Prop :=
  ∀ peer bytes name, moment.step = .receive peer bytes → absent ≠ peer →
    moment.before.Claims peer bytes name → ¬moment.before.IsRegistered absent name

/-- The steps of a run that are not about a peer. -/
def others (absent : String) (steps : List RegistryStep) : List RegistryStep :=
  steps.filter fun step ↦ step.peer? ≠ some absent

theorem others_append (absent : String) (before after : List RegistryStep) :
    others absent (before ++ after) = others absent before ++ others absent after :=
  List.filter_append ..

theorem others_of_eq {absent : String} {step : RegistryStep} (about : step.peer? = some absent) :
    others absent [step] = [] :=
  List.filter_eq_nil_iff.2 fun _ mem ↦ by simp [List.mem_singleton.1 mem, about]

theorem others_of_ne {absent : String} {step : RegistryStep} (about : step.peer? ≠ some absent) :
    others absent [step] = [step] :=
  List.filter_eq_self.2 fun _ mem ↦ by simp [List.mem_singleton.1 mem, about]

namespace Registry

variable {r : Registry} {absent peer name : String} {before steps : List RegistryStep}
variable {step : RegistryStep}

theorem told_append (r : Registry) (before after : List RegistryStep) :
    r.told (before ++ after) = r.told before ++ (r.run before).1.told after := by
  rw [told, outputs_append, events_append]
  rfl

theorem outputs_singleton (r : Registry) (step : RegistryStep) :
    r.outputs [step] = (r.step step).2.outputs := by
  rw [outputs_cons]
  exact List.append_nil _

/-! ### Single steps -/

/-- Without the steps of a peer a run comes to the same for all others. -/
structure Undisturbed (r : Registry) (absent : String) (steps : List RegistryStep) : Prop where
  state : ((r.excluding absent).run (others absent steps)).1 = (r.run steps).1.excluding absent
  lines : ∀ other, other ≠ absent →
    linesTo other ((r.excluding absent).outputs (others absent steps)) =
      linesTo other (r.outputs steps)
  told : (r.excluding absent).told (others absent steps) =
    (r.moments steps).flatMap (·.toldOfOthers absent)

theorem undisturbed_nil (r : Registry) (absent : String) : Undisturbed r absent [] where
  state := rfl
  lines _ _ := rfl
  told := rfl

theorem Undisturbed.append {first second : List RegistryStep} (here : Undisturbed r absent first)
    (later : Undisturbed (r.run first).1 absent second) :
    Undisturbed r absent (first ++ second) where
  state := by rw [others_append, run_append, run_append, here.state, later.state]
  lines other ne := by
    rw [others_append, outputs_append, outputs_append, linesTo_append, linesTo_append, here.state,
      here.lines other ne, later.lines other ne]
  told := by
    rw [others_append, told_append, moments_append, List.flatMap_append, here.state, here.told,
      later.told]

/-- A step that is not about the peer is taken without it, too. -/
theorem undisturbed_of_step (kept : step.peer? ≠ some absent)
    (state : ((r.excluding absent).step step).1 = (r.step step).1.excluding absent)
    (lines : ∀ other, other ≠ absent →
      linesTo other ((r.excluding absent).step step).2.outputs =
        linesTo other (r.step step).2.outputs)
    (told : events ((r.excluding absent).step step).2.outputs =
      RegistryMoment.toldOfOthers ⟨r, step⟩ absent) : Undisturbed r absent [step] where
  state := by
    rw [others_of_ne kept]
    exact state
  lines other ne := by
    rw [others_of_ne kept, outputs_singleton, outputs_singleton]
    exact lines other ne
  told := by
    rw [others_of_ne kept, Registry.told, outputs_singleton, told]
    exact (List.append_nil _).symm

theorem undisturbed_of_overlooks (kept : step.peer? ≠ some absent)
    (overlooks : Overlooks absent (·.step step) r)
    (told : RegistryMoment.toldOfOthers ⟨r, step⟩ absent = RegistryMoment.told ⟨r, step⟩) :
    Undisturbed r absent [step] := by
  rw [Overlooks] at overlooks
  refine undisturbed_of_step kept ?_ ?_ ?_
  · rw [overlooks]
  · intro other _
    rw [overlooks]
  · rw [overlooks, told]
    rfl

variable (h : r.Coherent)
include h

/-- Where no step of its is left, the peer has done nothing to the others. -/
theorem Coherent.undisturbed_of_own (about : step.peer? = some absent) :
    Undisturbed r absent [step] where
  state := by
    rw [others_of_eq about]
    show r.excluding absent = (r.step step).1.excluding absent
    refine (h.step step).eq_excluding (h.excluding absent) ?_ fun other ↦ ?_
    · rw [door_excluding, door_step_of_peer about]
    · rw [find?_excluding]
      split
      · rfl
      · next ne => exact (find?_step_of_ne about ne).symm
  lines other ne := by
    rw [others_of_eq about, outputs_singleton, linesTo_step_of_ne about (Ne.symm ne)]
    rfl
  told := by
    have all : RegistryMoment.toldOfOthers ⟨r, step⟩ absent = [] := by
      rw [RegistryMoment.toldOfOthers, RegistryMoment.contributed_of_peer about, if_pos rfl]
      exact List.filter_eq_nil_iff.2 fun e mem ↦ by simpa using mem
    rw [others_of_eq about]
    exact (List.append_eq_nil_iff.2 ⟨all, rfl⟩).symm

theorem Coherent.undisturbed_of_other (about : step.peer? = some peer) (ne : absent ≠ peer)
    (unrivalled : RegistryMoment.Unrivalled ⟨r, step⟩ absent) : Undisturbed r absent [step] := by
  refine undisturbed_of_overlooks ?_ (h.overlooks_step about ne ?_) ?_
  · rw [about, ne_eq, Option.some_inj]
    exact Ne.symm ne
  · exact fun bytes name arrives ↦ unrivalled peer bytes name arrives ne
  · rw [RegistryMoment.toldOfOthers, RegistryMoment.contributed_of_peer about, if_neg (Ne.symm ne)]
    exact List.filter_eq_self.2 fun e _ ↦ by simp

/-! ### Steps of the owner -/

/-- Where names are disconnected, the others are told of those that the peer does not have. -/
theorem Coherent.toldOfOthers_of_owner (owner : step.peer? = none) {ended : List String}
    (told : RegistryMoment.told ⟨r, step⟩ = ended.map .disconnected) :
    RegistryMoment.toldOfOthers ⟨r, step⟩ absent =
      (ended.filter fun name ↦ r.table.find? name ≠ some absent).map .disconnected := by
  rw [RegistryMoment.toldOfOthers, told, List.filter_map]
  refine congrArg (List.map _) (List.filter_congr fun name mem ↦ ?_)
  have gone : .disconnected name ∈ RegistryMoment.told ⟨r, step⟩ := by
    rw [told]
    exact List.mem_map_of_mem mem
  rw [Bool.eq_iff_iff, Function.comp, decide_eq_true_iff, decide_eq_true_iff, not_iff_not,
    RegistryMoment.mem_contributed_of_owner owner gone]
  exact (h.owned name absent).symm

theorem Coherent.undisturbed_of_start (bound : Option Nat) :
    Undisturbed r absent [.start bound] :=
  undisturbed_of_overlooks nofun
    ((h.overlooks_start bound).map fun port ↦ RegistryOutcome.mk (.port port) []) rfl

/-- What a step of the owner reports without the peer is what it reports of the others. -/
theorem Coherent.told_excluding (owner : step.peer? = none) :
    events ((r.excluding absent).step step).2.outputs =
      RegistryMoment.toldOfOthers ⟨r, step⟩ absent := by
  rw [h.toldOfOthers_of_owner owner (h.ends_step owner).told, ← h.severed_excluding]
  exact ((h.excluding absent).ends_step owner).told

theorem Coherent.undisturbed_of_stop : Undisturbed r absent [.stop] := by
  refine undisturbed_of_step nofun (stop_excluding r absent) (fun other _ ↦ ?_)
    (h.told_excluding rfl)
  exact (linesTo_stop _ other).trans (linesTo_stop r other).symm

theorem Coherent.undisturbed_of_send (name : String) (m : Message) :
    Undisturbed r absent [.send name m] := by
  refine undisturbed_of_step nofun ?_ (fun other ne ↦ ?_) (h.told_excluding rfl)
  · show ((r.excluding absent).send name m).1 = (r.send name m).1.excluding absent
    by_cases mine : r.IsRegistered absent name
    · rw [send_of_unknown (h.not_mem_names_excluding mine), send, (h.owned name absent).2 mine]
      dsimp only
      split
      · rfl
      · dsimp only
        rw [h.dismiss_registered (s := ⟨absent, name⟩) mine]
        exact (excluding_drop r absent).symm
    · exact congrArg Prod.fst (h.overlooks_send mine m)
  · show linesTo other ((r.excluding absent).send name m).2.1 = linesTo other (r.send name m).2.1
    rw [linesTo_send, linesTo_send]
    refine if_congr (and_congr ?_ (canWrite_excluding_of_ne (Ne.symm ne) r m)) rfl rfl
    rw [(h.excluding absent).owned, isRegistered_excluding, and_iff_right (Ne.symm ne), h.owned]

theorem Coherent.undisturbed_of_broadcast (m : Message) :
    Undisturbed r absent [.broadcast m] := by
  refine undisturbed_of_step nofun (h.broadcast_excluding absent m) (fun other ne ↦ ?_)
    (h.told_excluding rfl)
  show linesTo other ((r.excluding absent).broadcast m).2.1 = linesTo other (r.broadcast m).2.1
  rw [h.linesTo_broadcast, (h.excluding absent).linesTo_broadcast]
  refine if_congr (and_congr ?_ (canWrite_excluding_of_ne (Ne.symm ne) r m)) rfl rfl
  rw [h.peers_excluding, List.mem_filter, and_iff_left (decide_eq_true ne)]

/-! ### Answers -/

/-- Whoever takes a step is told the same, but for a broadcast and a message to the peer. -/
theorem Coherent.answer_excluding (unrivalled : RegistryMoment.Unrivalled ⟨r, step⟩ absent)
    (kept : step.peer? ≠ some absent)
    (free : ∀ name m, step = .send name m → ¬r.IsRegistered absent name)
    (single : ∀ m, step ≠ .broadcast m) :
    ((r.excluding absent).step step).2.answer = (r.step step).2.answer := by
  have same (overlooks : Overlooks absent (·.step step) r) :
      ((r.excluding absent).step step).2.answer = (r.step step).2.answer :=
    congrArg (fun result ↦ result.2.answer) overlooks
  cases about : step.peer? with
  | some peer =>
    have ne : absent ≠ peer := by
      rintro rfl
      exact kept about
    refine same (h.overlooks_step about ne ?_)
    exact fun bytes name arrives ↦ unrivalled peer bytes name arrives ne
  | none =>
    cases RegistryStep.isOwners about with
    | start bound =>
      have started : Overlooks absent (start · bound) r := h.overlooks_start bound
      exact congrArg (fun result ↦ RegistryAnswer.port result.2) started
    | stop =>
      refine congrArg RegistryAnswer.port ?_
      show (r.excluding absent).stop.1.port = r.stop.1.port
      rw [port_stop, port_stop]
    | send name m =>
      have sent := h.overlooks_send (free name m rfl) m
      exact congrArg (fun result ↦ RegistryAnswer.sent result.2.2) sent
    | broadcast m => exact absurd rfl (single m)

/-! ### Runs -/

theorem Coherent.undisturbed_step (unrivalled : RegistryMoment.Unrivalled ⟨r, step⟩ absent) :
    Undisturbed r absent [step] := by
  cases about : step.peer? with
  | some peer =>
    by_cases own : peer = absent
    · exact h.undisturbed_of_own (own ▸ about)
    · exact h.undisturbed_of_other about (Ne.symm own) unrivalled
  | none =>
    cases RegistryStep.isOwners about with
    | start bound => exact h.undisturbed_of_start bound
    | stop => exact h.undisturbed_of_stop
    | send name m => exact h.undisturbed_of_send name m
    | broadcast m => exact h.undisturbed_of_broadcast m

/-- Without a peer whose names nobody else asks for, a run comes to the same for all others. -/
theorem Coherent.undisturbed_run
    (unrivalled : ∀ moment ∈ r.moments steps, moment.Unrivalled absent) :
    Undisturbed r absent steps := by
  induction steps generalizing r with
  | nil => exact undisturbed_nil r absent
  | cons step steps ih =>
    obtain ⟨first, later⟩ := List.forall_mem_cons.1 unrivalled
    exact (h.undisturbed_step first).append (ih (h.step step) later)

omit h

section Apart

variable (apart : ∀ name other, Hails steps absent name → Hails steps other name → other = absent)
include apart

theorem unrivalled_of_apart (begun : before ++ [step] <+: steps) :
    RegistryMoment.Unrivalled ⟨(run {} before).1, step⟩ absent := by
  rintro peer bytes name rfl ne claims registered
  have mine := hails_of_isRegistered ((List.prefix_append _ _).trans begun) registered
  exact ne (apart name peer mine (hails_of_claims begun claims)).symm

theorem undisturbed_of_apart (begun : before <+: steps) : Undisturbed {} absent before := by
  refine coherent_empty.undisturbed_run fun moment mem ↦ ?_
  obtain ⟨sofar, reaches, state⟩ := exists_before_of_mem_moments mem
  obtain ⟨r, step⟩ := moment
  obtain rfl : r = (run {} sofar).1 := state
  exact unrivalled_of_apart apart (reaches.trans begun)

theorem run_others (begun : before <+: steps) :
    (run {} (others absent before)).1 = (run {} before).1.excluding absent :=
  (undisturbed_of_apart apart begun).state

/-- The events that come from the connection of a peer are its rejections, and all events about
names that it asks for. -/
theorem mem_contributed_iff {moment : RegistryMoment} (mem : moment ∈ moments {} steps)
    {e : RegistryEvent} (told : e ∈ moment.told) :
    e ∈ moment.contributed absent ↔
      (moment.step.peer? = some absent ∧ e.name? = none) ∨
        ∃ name, e.name? = some name ∧ Hails steps absent name := by
  obtain ⟨before, begun, state⟩ := exists_before_of_mem_moments mem
  have coherent := coherent_empty.moments steps moment mem
  obtain ⟨r, step⟩ := moment
  obtain rfl : r = (run {} before).1 := state
  constructor
  · intro mine
    cases named : e.name? with
    | some name => exact .inr ⟨name, rfl, hails_of_contributed begun mine named⟩
    | none =>
      left
      rcases about : step.peer? with _ | peer
      · rw [RegistryMoment.contributed_of_owner about] at mine
        dsimp only at mine
        split at mine
        · obtain ⟨-, eq⟩ := List.mem_filter.1 mine
          rw [named] at eq
          cases eq
        · cases mine
      · rw [RegistryMoment.contributed_of_peer about] at mine
        split at mine
        · next same => exact ⟨congrArg some same, rfl⟩
        · cases mine
  · rintro (⟨about, -⟩ | ⟨name, named, asked⟩)
    · rw [RegistryMoment.contributed_of_peer about, if_pos rfl]
      exact told
    · obtain ⟨peer, theirs, -⟩ := RegistryMoment.exists_contributed coherent told
      rwa [apart name peer asked (hails_of_contributed begun theirs named)] at theirs

end Apart

/-- A run is for all others what it would be without a peer. -/
structure Isolated (absent : String) (steps : List RegistryStep) : Prop where
  lines : ∀ other, other ≠ absent →
    linesTo other (outputs {} (others absent steps)) = linesTo other (outputs {} steps)
  connections : ∀ other, other ≠ absent →
    (run {} (others absent steps)).1.connections.find? other =
      (run {} steps).1.connections.find? other
  /-- Of the names the one that the peer has is missing, and the peer has asked for it. -/
  names : (run {} (others absent steps)).1.names =
    (run {} steps).1.names.filter fun name ↦ (run {} steps).1.table.find? name ≠ some absent
  asked : ∀ name, (run {} steps).1.table.find? name = some absent → Hails steps absent name
  /-- Of the events those that come from the connection of the peer are missing. -/
  told : told {} (others absent steps) = (moments {} steps).flatMap (·.toldOfOthers absent)
  /-- These are its rejections, and all that is reported about names that it has asked for. -/
  caused : ∀ moment ∈ moments {} steps, ∀ e ∈ moment.told, e ∈ moment.contributed absent ↔
    (moment.step.peer? = some absent ∧ ∃ rejection, e = .rejected rejection) ∨
      ∃ name, e.name? = some name ∧ Hails steps absent name
  /-- All steps are answered alike, but for broadcasts and what is sent to a name of the peer. -/
  answered : ∀ before step, before ++ [step] <+: steps → step.peer? ≠ some absent →
    (∀ name m, step = .send name m → ¬(run {} before).1.IsRegistered absent name) →
    (∀ m, step ≠ .broadcast m) →
      ((run {} (others absent before)).1.step step).2.answer =
        ((run {} before).1.step step).2.answer
  /-- A broadcast reaches one peer less if it would have reached this one. -/
  reached : ∀ before m, before ++ [.broadcast m] <+: steps →
    (∃ name, (run {} before).1.IsRegistered absent name) →
    (conversation before absent).Carries m →
      ((run {} before).1.broadcast m).2.2 =
        ((run {} (others absent before)).1.broadcast m).2.2 + 1
  unreached : ∀ before m, before ++ [.broadcast m] <+: steps →
    ¬((∃ name, (run {} before).1.IsRegistered absent name) ∧
      (conversation before absent).Carries m) →
      ((run {} before).1.broadcast m).2.2 =
        ((run {} (others absent before)).1.broadcast m).2.2

/-- If nobody else asks for a name that a peer asks for, it makes no difference to the others what
the peer does. -/
theorem run_isolated
    (apart : ∀ name other, Hails steps absent name → Hails steps other name → other = absent) :
    Isolated absent steps where
  lines := (undisturbed_of_apart apart List.prefix_rfl).lines
  connections other ne := by
    rw [run_others apart List.prefix_rfl]
    exact find?_excluding_of_ne (Ne.symm ne) _
  names := by
    rw [run_others apart List.prefix_rfl]
    exact (coherent_empty.run steps).names_excluding absent
  asked name session := by
    have coherent := coherent_empty.run steps
    exact hails_of_isRegistered List.prefix_rfl ((coherent.owned name absent).1 session)
  told := (undisturbed_of_apart apart List.prefix_rfl).told
  caused moment mem e told := by
    rw [mem_contributed_iff apart mem told]
    refine or_congr_left (and_congr_right' ?_)
    cases e <;> simp [name?]
  answered before step begun kept free single := by
    rw [run_others apart ((List.prefix_append _ _).trans begun)]
    exact (coherent_empty.run before).answer_excluding (unrivalled_of_apart apart begun) kept free
      single
  reached before m begun registered carried := by
    obtain ⟨name, here⟩ := registered
    rw [run_others apart ((List.prefix_append _ _).trans begun)]
    exact (coherent_empty.run before).count_broadcast_of_registered ⟨name, here⟩
      (((sound_run before).canWrite_iff here m).2 carried)
  unreached before m begun spared := by
    rw [run_others apart ((List.prefix_append _ _).trans begun)]
    refine (coherent_empty.run before).count_broadcast_of_not ?_
    rintro ⟨⟨name, here⟩, written⟩
    exact spared ⟨⟨name, here⟩, ((sound_run before).canWrite_iff here m).1 written⟩

/-- Of two renderers one leaves, and to the other it is as though it had been alone. -/
theorem run_isolated_leaves :
    let hello (name : String) : List Message := [Message.hello "cmd-1" "renderer" name]
    let steps : List RegistryStep := [.start (some 4455),
      .accept "first", .receive "first" (frames ((hello "left").map Message.encode)),
      .accept "second", .receive "second" (frames ((hello "right").map Message.encode)),
      .broadcast ⟨"cmd-2", .playCue ⟨"blackout"⟩⟩, .hangUp "first"]
    Hails steps "first" "left" ∧ Isolated "first" steps := by
  intro hello steps
  have sent (name : String) : Message.stream (hello name) ≠ [] := by
    rw [Message.stream_cons]
    exact List.append_ne_nil_of_right_ne_nil _ (List.cons_ne_nil _ _)
  have first : pieces "first" steps = [Message.stream (hello "left")] := by
    simp [pieces, steps, RegistryStep.bytesFrom, Message.toList_data_frames, sent]
  have second : pieces "second" steps = [Message.stream (hello "right")] := by
    simp [pieces, steps, RegistryStep.bytesFrom, Message.toList_data_frames, sent]
  have others (other : String) (ne : "first" ≠ other) (ne' : "second" ≠ other) :
      pieces other steps = [] := by
    simp [pieces, steps, RegistryStep.bytesFrom, ne, ne']
  have introduced : Hails steps "first" "left" := by
    refine ⟨by decide, steps.take 3, "cmd-1", List.take_prefix 3 steps, ?_⟩
    have heard : (conversation (steps.take 3) "first").received = Message.stream (hello "left") :=
      Message.toList_data_frames (hello "left")
    exact Conversation.introduces_hello heard
  refine ⟨introduced, run_isolated fun name other mine theirs ↦ ?_⟩
  obtain rfl := mine.eq_of_hello first
  by_contra ne
  by_cases same : "second" = other
  · subst same
    exact absurd (theirs.eq_of_hello second) (by decide)
  · exact not_hails_of_silent (others other (Ne.symm ne) same) theirs

end Registry

end ShowControl
