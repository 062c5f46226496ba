import ShowControl.Proofs.Registry.Excluding

/-!
# Names that peers ask for

A peer asks for a name when its first line is a hello with it, whatever becomes of it. In the words
of its conversations, it has introduced itself by the name at some time of the run (`Hails`). Only
such names are registered to it (`hails_of_isRegistered`) or looked up for it (`hails_of_claims`),
and an event that comes from its connection is a rejection or is about such a name
(`hails_of_contributed`).
-/

namespace ShowControl

open Splitter RegistryOutput RegistryEvent

/-! ### Conversations of runs -/

/-- A step begins a conversation anew, or brings the bytes that it brings. -/
theorem Conversation.received_after (talk : Conversation) (peer : String) (step : RegistryStep)
    (outcome : RegistryOutcome) :
    (talk.after peer step outcome).received = [] ∨
      (talk.after peer step outcome).received = talk.received ++ step.bytesFrom peer := by
  cases step with
  | accept other =>
    unfold after
    split
    · dsimp only
      split
      · exact .inl rfl
      · exact .inr (List.append_nil _).symm
    · next never => cases never
    · next never => cases never
    · next never => cases never
    · exact .inr (List.append_nil _).symm
  | receive other bytes =>
    right
    rw [after, RegistryStep.bytesFrom]
    split
    · rfl
    · exact (List.append_nil _).symm
  | start bound => exact .inr (List.append_nil _).symm
  | stop => exact .inr (List.append_nil _).symm
  | hangUp other =>
    right
    rw [after]
    split <;> exact (List.append_nil _).symm
  | block other fault =>
    right
    rw [after]
    split <;> exact (List.append_nil _).symm
  | timeOut other => exact .inr (List.append_nil _).symm
  | send name m => exact .inr (List.append_nil _).symm
  | broadcast m => exact .inr (List.append_nil _).symm

section Hello

variable {talk : Conversation} {commandId role name : String}

theorem Conversation.not_introduces (silent : talk.received = []) :
    ¬talk.Introduces name commandId := by
  rintro ⟨line, m, hello, first, -⟩
  rw [lines, silent] at first
  cases first

/-- Who sends a hello introduces itself by the name in it. -/
theorem Conversation.introduces_hello
    (heard : talk.received = Message.stream [Message.hello commandId role name]) :
    talk.Introduces name commandId := by
  have finite : ∀ coordinate ∈ (Message.hello commandId role name).coordinates,
      coordinate.2.isFinite = true := fun _ mem ↦ absurd mem List.not_mem_nil
  refine ⟨textBytes (Message.hello commandId role name).encode, _, _, ?_,
    Message.decodeBytes_encode finite, rfl, rfl, rfl⟩
  rw [lines, heard, Message.segments_stream, List.map_singleton, contents_cons,
    Message.content_encode, if_neg (Message.textBytes_encode_ne_nil _)]
  rfl

end Hello

namespace Registry

/-- At some time of a run a peer has introduced itself by a name. -/
def Hails (steps : List RegistryStep) (peer name : String) : Prop :=
  name ≠ "" ∧ ∃ before commandId, before <+: steps ∧
    (conversation before peer).Introduces name commandId

/-- What is heard of a peer is what it has said lately. -/
theorem exists_said_eq_received (steps : List RegistryStep) (peer : String) :
    ∃ lately, lately <:+ steps ∧ (conversation steps peer).received = said peer lately := by
  induction steps using List.reverseRecOn with
  | nil => exact ⟨[], List.suffix_rfl, rfl⟩
  | append_singleton steps step ih =>
    obtain ⟨lately, recent, heard⟩ := ih
    rw [conversation_append_singleton]
    rcases (conversation steps peer).received_after peer step _ with anew | more
    · exact ⟨[], List.nil_suffix, anew⟩
    · refine ⟨lately ++ [step], List.suffix_append_self_iff.2 recent, ?_⟩
      rw [more, heard, said_append, said_singleton]

variable {r : Registry} {peer name : String} {e : RegistryEvent}
variable {before steps : List RegistryStep} {step : RegistryStep}

theorem hails_of_isRegistered (begun : before <+: steps)
    (registered : (run {} before).1.IsRegistered peer name) : Hails steps peer name := by
  obtain ⟨named, commandId, introduces, -⟩ := (sound_run before).welcomes registered
  exact ⟨named, before, commandId, begun, introduces⟩

/-- The pieces in which the bytes of a peer arrive. -/
def pieces (peer : String) (steps : List RegistryStep) : List (List UInt8) :=
  (steps.map (·.bytesFrom peer)).filter (· ≠ [])

theorem flatten_pieces (peer : String) (steps : List RegistryStep) :
    (pieces peer steps).flatten = said peer steps := by
  rw [pieces, List.flatten_filter_ne_nil, said, List.flatMap_def]

/-- A peer introduces itself by some of the pieces that it sends. -/
theorem Hails.exists_pieces (h : Hails steps peer name) :
    ∃ heard commandId, List.Sublist heard (pieces peer steps) ∧
      Conversation.Introduces { received := heard.flatten } name commandId := by
  obtain ⟨-, before, commandId, begun, line, m, hello, first, decoded⟩ := h
  obtain ⟨lately, recent, heard⟩ := exists_said_eq_received before peer
  refine ⟨pieces peer lately, commandId, ?_, line, m, hello, ?_, decoded⟩
  · exact ((recent.sublist.trans begun.sublist).map _).filter _
  · rwa [Conversation.lines, heard, ← flatten_pieces] at first

theorem not_hails_of_silent (silent : pieces peer steps = []) : ¬Hails steps peer name := by
  intro h
  obtain ⟨heard, commandId, some_of, introduces⟩ := h.exists_pieces
  rw [silent] at some_of
  obtain rfl := List.sublist_nil.1 some_of
  exact Conversation.not_introduces rfl introduces

/-- A peer that sends one hello introduces itself by no other name. -/
theorem Hails.eq_of_hello (h : Hails steps peer name) {commandId role name' : String}
    (once : pieces peer steps = [Message.stream [Message.hello commandId role name']]) :
    name = name' := by
  obtain ⟨heard, commandId', some_of, introduces⟩ := h.exists_pieces
  rw [once] at some_of
  rcases List.sublist_singleton.1 some_of with rfl | rfl
  · exact absurd introduces (Conversation.not_introduces rfl)
  · exact (introduces.unique (Conversation.introduces_hello (List.flatten_singleton ..))).1

/-- The first line that can be taken is the first line of all. -/
theorem head?_contents_segments {bytes first : List UInt8}
    (h : (contents (fitting bytes)).head? = some first) :
    (contents (segments bytes).1).head? = some first := by
  rw [← List.takeWhile_append_dropWhile (p := fits) (l := (segments bytes).1), contents_append,
    List.head?_append]
  exact congrArg (Option.or · _) h

/-- Who asks for a name has said so in its first line. -/
theorem Sound.introduces_of_claims {talks : String → Conversation} (sound : r.Sound talks)
    {bytes : ByteArray} (claims : r.Claims peer bytes name) :
    name ≠ "" ∧ ∃ commandId, ∀ talk : Conversation,
      talk.received = (talks peer).received ++ bytes.data.toList →
        talk.Introduces name commandId := by
  obtain ⟨c, line, wish, found, waiting, head, introduced, rfl⟩ := claims
  obtain ⟨inbox, within, standing, -⟩ := sound.reflects peer c found
  rw [waiting] at standing
  obtain ⟨i, drained, -⟩ := (inbox.append bytes).drain
  rw [drained, List.head?_map] at head
  obtain ⟨first, arrives, rfl⟩ := Option.map_eq_some_iff.1 head
  obtain ⟨m, hello, decoded, payload, named, rfl⟩ := Introduction.ofLine_eq_ok_iff.1 introduced
  refine ⟨named, m.commandId, fun talk heard ↦ ⟨first, m, hello, ?_, decoded, payload, rfl, rfl⟩⟩
  -- there was no line before
  have blank : contents (fitting (talks peer).received) = [] := by
    rw [fitting_eq within]
    exact standing.1
  rw [Conversation.lines, heard]
  refine head?_contents_segments ?_
  rwa [contents_fitting_append, blank, List.nil_append]

theorem hails_of_claims {bytes : ByteArray} (begun : before ++ [.receive peer bytes] <+: steps)
    (claims : (run {} before).1.Claims peer bytes name) : Hails steps peer name := by
  obtain ⟨named, commandId, introduces⟩ := (sound_run before).introduces_of_claims claims
  refine ⟨named, _, commandId, begun, introduces _ ?_⟩
  rw [conversation_append_singleton, Conversation.after, if_pos rfl]
  rfl

end Registry

/-! ### Names in events -/

/-- All that is reported of a registered connection is about its name. -/
theorem Course.name?_of_mem {name : String} {told : List RegistryEvent}
    {standing : Option Standing} (course : Course (some (.registered name)) told standing)
    {e : RegistryEvent} (mem : e ∈ told) : e.name? = some name := by
  obtain ⟨reports, all, ⟨-, rfl⟩ | ⟨-, rfl⟩⟩ := course.exists_reports
  · exact (all e mem).name?_eq
  · rcases List.mem_append.1 mem with report | last
    · exact (all e report).name?_eq
    · rw [List.mem_singleton.1 last]
      rfl

namespace Registry

variable {r : Registry} {peer name : String} {e : RegistryEvent} {c : RegistryConnection}
variable {before steps : List RegistryStep} {step : RegistryStep}

theorem not_mem_events_reject {rejection : Rejection} (named : e.name? = some name) :
    e ∉ events (r.reject peer rejection).2 := by
  rw [events_reject, List.mem_singleton]
  rintro rfl
  cases named

section Greeting

variable (found : r.connections.find? peer = some c) (waiting : c.standing = .greeting)
include found waiting

/-- A name that is reported when the first line is taken is the one that it asks for. -/
theorem exists_wish_of_takeLine {line : ByteArray} (mem : e ∈ events (takeLine peer r line).2)
    (named : e.name? = some name) :
    ∃ wish, Introduction.ofLine line = .ok wish ∧ wish.name = name := by
  rw [takeLine, found] at mem
  dsimp only at mem
  rw [waiting] at mem
  dsimp only at mem
  split at mem
  · next wish introduced =>
    refine ⟨wish, introduced, ?_⟩
    cases inserted : r.table.insert ⟨peer, wish.name⟩ with
    | error reason =>
      rw [register_of_refused inserted] at mem
      exact absurd mem (not_mem_events_reject named)
    | ok table =>
      by_cases written : r.CanWrite peer (.ack wish.commandId)
      · rw [register_of_written inserted written] at mem
        obtain rfl : e = .registered wish.name := List.mem_singleton.1 mem
        exact Option.some_inj.1 named
      · rw [register_of_unwritten inserted written] at mem
        cases mem
  · exact absurd mem (not_mem_events_reject named)

/-- Bytes without a line are not reported. -/
theorem events_receive_of_blank {bytes : ByteArray} {i : Inbox} {oversized : Option FrameTooLarge}
    (drained : (c.inbox.append bytes).drain = (i, [], oversized)) :
    events (r.receive peer bytes).2 = [] := by
  have found' : (r.refill peer i).connections.find? peer = some { c with inbox := i } := by
    rw [find?_refill, found, Option.map_some]
  rw [receive, found]
  dsimp only
  rw [drained]
  dsimp only
  rw [← refill_of_open found, Transducer.run_nil]
  cases oversized with
  | none => rfl
  | some _ =>
    dsimp only
    rw [drop_greeting found' waiting]
    rfl

omit waiting in
/-- What bytes with a line are reported for: this line, and then how the connection goes on. -/
theorem Coherent.events_receive (h : r.Coherent) {bytes : ByteArray} {i : Inbox}
    {line : ByteArray} {lines : List ByteArray} {oversized : Option FrameTooLarge}
    (drained : (c.inbox.append bytes).drain = (i, line :: lines, oversized)) :
    ∃ tail standing, events (r.receive peer bytes).2 =
        events (takeLine peer (r.refill peer i) line).2 ++ tail ∧
      Course ((takeLine peer (r.refill peer i) line).1.standing? peer) tail standing := by
  have coherent := (spares_takeLine (h.refill peer i) peer line).coherent
  have taken := Course.run (course_takeLine peer) (takeLine peer (r.refill peer i) line).1 lines
  have left := (Spares.run (fun h ↦ spares_takeLine h peer) coherent lines).coherent
  rw [receive, found]
  dsimp only
  rw [drained]
  dsimp only
  rw [← refill_of_open found, Transducer.run_cons]
  cases oversized with
  | none =>
    dsimp only
    rw [events_append]
    exact ⟨_, _, rfl, taken⟩
  | some _ =>
    dsimp only
    rw [events_append, events_append, List.append_assoc]
    exact ⟨_, _, rfl, taken.trans (left.course_drop peer)⟩

end Greeting

/-- A name that is reported when bytes arrive from a peer is its own, or the one that it asks
for. -/
theorem Coherent.name_of_receive (h : r.Coherent) {bytes : ByteArray}
    (mem : e ∈ events (r.receive peer bytes).2) (named : e.name? = some name) :
    r.IsRegistered peer name ∨ r.Claims peer bytes name := by
  have course := h.course_receive peer bytes
  rcases stands : r.standing? peer with _ | _ | name'
  · rw [receive_of_closed (standing?_eq_none_iff.1 stands)] at mem
    cases mem
  · right
    obtain ⟨c, found, waiting⟩ := standing?_eq_some_iff.1 stands
    rcases drained : (c.inbox.append bytes).drain with ⟨i, _ | ⟨line, lines⟩, oversized⟩
    · rw [events_receive_of_blank found waiting drained] at mem
      cases mem
    · have found' : (r.refill peer i).connections.find? peer = some { c with inbox := i } := by
        rw [find?_refill, found, Option.map_some]
      suffices ∃ wish, Introduction.ofLine line = .ok wish ∧ wish.name = name by
        obtain ⟨wish, introduced, asked⟩ := this
        exact ⟨c, line, wish, found, waiting, by rw [drained]; rfl, introduced, asked⟩
      obtain ⟨tail, standing, told, later⟩ := h.events_receive found drained
      rw [told] at mem
      rcases List.mem_append.1 mem with first | mem
      · exact exists_wish_of_takeLine found' waiting first named
      · rcases left : (takeLine peer (r.refill peer i) line).1.standing? peer with _ | _ | name'
        · rw [(later.closed left).1] at mem
          cases mem
        · exact absurd left (standing?_takeLine_ne _ peer line)
        · obtain ⟨c', found'', registered⟩ := standing?_eq_some_iff.1 left
          obtain ⟨wish, introduced, rfl, -⟩ := takeLine_greeting found' waiting found''
          obtain rfl := Standing.registered.inj registered
          rw [left] at later
          exact ⟨wish, introduced, Option.some_inj.1 ((later.name?_of_mem mem).symm.trans named)⟩
  · left
    rw [stands] at course
    rw [← Option.some_inj.1 ((course.name?_of_mem mem).symm.trans named)]
    exact standing?_eq_registered_iff.1 stands

/-- A name that is reported at a step of a peer is its own, or the one that it asks for. -/
theorem Coherent.name_of_step (h : r.Coherent) (about : step.peer? = some peer)
    (mem : e ∈ events (r.step step).2.outputs) (named : e.name? = some name) :
    r.IsRegistered peer name ∨ ∃ bytes, step = .receive peer bytes ∧ r.Claims peer bytes name := by
  cases RegistryStep.isAbout about with
  | accept => cases mem
  | receive bytes =>
    exact (h.name_of_receive mem named).imp_right fun claims ↦ ⟨bytes, rfl, claims⟩
  | hangUp =>
    left
    change e ∈ events (r.forget peer).2 at mem
    rcases stands : r.standing? peer with _ | _ | name'
    · rw [forget_closed (standing?_eq_none_iff.1 stands)] at mem
      cases mem
    · obtain ⟨c, found, waiting⟩ := standing?_eq_some_iff.1 stands
      rw [forget_greeting found waiting] at mem
      cases mem
    · have registered := standing?_eq_registered_iff.1 stands
      rw [h.forget_registered registered] at mem
      obtain rfl : e = .disconnected name' := List.mem_singleton.1 mem
      rwa [← Option.some_inj.1 named]
  | block fault => cases mem
  | timeOut =>
    change e ∈ events (r.timeOut peer).2 at mem
    rw [timeOut] at mem
    split at mem
    · exact absurd mem (not_mem_events_reject named)
    · cases mem

/-- An event that comes from the connection of a peer and is about a name is about one that the peer
has asked for. -/
theorem hails_of_contributed (begun : before ++ [step] <+: steps)
    (mem : e ∈ RegistryMoment.contributed ⟨(run {} before).1, step⟩ peer)
    (named : e.name? = some name) : Hails steps peer name := by
  have sofar : before <+: steps := (List.prefix_append before [step]).trans begun
  rcases about : step.peer? with _ | other
  · rw [RegistryMoment.contributed_of_owner about] at mem
    dsimp only at mem
    split at mem
    · next name' stands =>
      obtain ⟨-, eq⟩ := List.mem_filter.1 mem
      obtain rfl := Option.some_inj.1 (named.symm.trans (of_decide_eq_true eq))
      exact hails_of_isRegistered sofar (standing?_eq_registered_iff.1 stands)
    · cases mem
  · rw [RegistryMoment.contributed_of_peer about] at mem
    split at mem
    · next same =>
      subst same
      rcases (coherent_empty.run before).name_of_step about mem named with
        registered | ⟨bytes, rfl, claims⟩
      · exact hails_of_isRegistered sofar registered
      · exact hails_of_claims begun claims
    · cases mem

end Registry

end ShowControl
