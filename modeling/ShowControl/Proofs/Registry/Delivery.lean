import ShowControl.Proofs.Registry.Handshake

/-!
# What is delivered

What a registry writes to a peer from when it connects is told by the run: the reply to its
handshake, if that ends with one (`Replies`), and behind an acknowledgment the messages that are
addressed to it while it is registered and not blocked (`Visit.delivered`). With what is known of
single broadcasts and of messages to a name, which hold whatever has happened before, this is
`run_delivery`.

It is asked of all messages and replies that they fit a frame. One that does not fit ends the
connections it was meant for, and whether that happens would have to be told as well.
-/

namespace ShowControl

open Splitter RegistryOutput

namespace Registry

variable {r : Registry} {peer : String} {before after quiet rest : List RegistryStep}

/-! ### The reply of a handshake -/

/-- The message that ends the handshake of a visit, if there is one. There is none for a peer that
has been blocked before. -/
inductive Replies (peer : String) (before after : List RegistryStep) : Option Message → Prop where
  | undecided (still : Undecided peer after) : Replies peer before after none
  | lost {quiet rest : List RegistryStep} {step : RegistryStep}
      (split : after = quiet ++ step :: rest) (undecided : Undecided peer quiet)
      (loses : step.Loses peer (said peer quiet)) : Replies peer before after none
  | timedOut {quiet rest : List RegistryStep} (split : after = quiet ++ .timeOut peer :: rest)
      (undecided : Undecided peer quiet) (unblocked : Unblocked peer quiet) :
      Replies peer before after (some (.error "handshake" "handshake timed out"))
  | settled {quiet rest : List RegistryStep} {bytes : ByteArray} {line : List UInt8}
      {more : List (List UInt8)} (first : FirstLine peer after quiet bytes rest line more)
      (unblocked : Unblocked peer quiet) :
      Replies peer before after (some (verdictOn before peer quiet line).reply)
  | unreminded {quiet rest : List RegistryStep} (split : after = quiet ++ .timeOut peer :: rest)
      (undecided : Undecided peer quiet) (blocked : ¬Unblocked peer quiet) :
      Replies peer before after none
  | unanswered {quiet rest : List RegistryStep} {bytes : ByteArray} {line : List UInt8}
      {more : List (List UInt8)} (first : FirstLine peer after quiet bytes rest line more)
      (blocked : ¬Unblocked peer quiet) : Replies peer before after none

theorem Replies.append_singleton {reply : Option Message} (step : RegistryStep)
    (h : Replies peer before after reply) :
    Undecided peer after ∨ Replies peer before (after ++ [step]) reply := by
  have extend {quiet rest : List RegistryStep} {last : RegistryStep}
      (split : after = quiet ++ last :: rest) :
      after ++ [step] = quiet ++ last :: (rest ++ [step]) := by
    rw [split, List.append_assoc, List.cons_append]
  cases h with
  | undecided still => exact .inl still
  | lost split undecided loses => exact .inr (.lost (extend split) undecided loses)
  | timedOut split undecided unblocked =>
    exact .inr (.timedOut (extend split) undecided unblocked)
  | settled first unblocked =>
    exact .inr (.settled ⟨extend first.split, first.undecided, first.arrives⟩ unblocked)
  | unreminded split undecided blocked => exact .inr (.unreminded (extend split) undecided blocked)
  | unanswered first blocked =>
    exact .inr (.unanswered ⟨extend first.split, first.undecided, first.arrives⟩ blocked)

theorem exists_replies (peer : String) (before after : List RegistryStep) :
    ∃ reply, Replies peer before after reply := by
  induction after using List.reverseRecOn with
  | nil => exact ⟨none, .undecided (.nil peer)⟩
  | append_singleton after step ih =>
    obtain ⟨reply, replies⟩ := ih
    rcases replies.append_singleton step with undecided | later
    · rcases undecided.step step with still | rfl | loses | ⟨bytes, line, more, rfl, arrives⟩
      · exact ⟨none, .undecided still⟩
      · by_cases unblocked : Unblocked peer after
        · exact ⟨_, .timedOut rfl undecided unblocked⟩
        · exact ⟨none, .unreminded rfl undecided unblocked⟩
      · exact ⟨none, .lost rfl undecided loses⟩
      · by_cases unblocked : Unblocked peer after
        · exact ⟨_, .settled ⟨rfl, undecided, arrives⟩ unblocked⟩
        · exact ⟨none, .unanswered ⟨rfl, undecided, arrives⟩ unblocked⟩
    · exact ⟨reply, later⟩

/-! ### Visits -/

/-- Nothing is addressed to a peer while its handshake is undecided. -/
theorem Visit.addressed_of_undecided (visit : Visit peer before quiet)
    (undecided : Undecided peer quiet) : (entered before peer).addressed peer quiet = [] := by
  induction quiet using List.reverseRecOn with
  | nil => rfl
  | append_singleton quiet step ih =>
    obtain ⟨awaits, -⟩ := visit.left.awaits undecided.left
    have waiting :
        RegistryMoment.addressed? ⟨((entered before peer).run quiet).1, step⟩ peer = none :=
      RegistryMoment.addressed?_of_greeting awaits.standing?_eq
    rw [addressed_append, ih visit.left undecided.left, addressed_cons, waiting]
    rfl

/-- What is addressed to a peer in a visit is addressed to it after the step that ends its
handshake. -/
theorem Visit.addressed_eq {step : RegistryStep} (visit : Visit peer before (quiet ++ step :: rest))
    (undecided : Undecided peer quiet) :
    (entered before peer).addressed peer (quiet ++ step :: rest) =
      (((entered before peer).run quiet).1.step step).1.addressed peer rest := by
  obtain ⟨awaits, -⟩ := visit.left.awaits undecided
  have waiting :
      RegistryMoment.addressed? ⟨((entered before peer).run quiet).1, step⟩ peer = none :=
    RegistryMoment.addressed?_of_greeting awaits.standing?_eq
  rw [addressed_append, visit.left.addressed_of_undecided undecided, addressed_cons, waiting]
  rfl

/-- A peer whose time is over is told so if it can be, and its connection is closed. -/
theorem Awaits.timeOut_eq {heard : List UInt8} (h : r.Awaits peer heard) :
    r.timeOut peer = r.reject peer ⟨handshakeId, .timedOut⟩ := by
  rw [timeOut, ← standing?, h.standing?_eq]

/-- What is written to a peer from when it connects. -/
structure Delivered (peer : String) (before after : List RegistryStep) : Prop where
  /-- Nothing, as long as its handshake is undecided. -/
  undecided : Undecided peer after → linesTo peer ((entered before peer).outputs after) = []
  /-- The reply, if there is one, and then what is addressed to the peer while it is registered. -/
  replied : ∀ reply, Replies peer before after reply →
    linesTo peer ((entered before peer).outputs after) =
      (reply.toList ++ (entered before peer).addressed peer after).map Message.encode
  /-- Only behind an acknowledgment anything is addressed to the peer. -/
  welcomed : ∀ reply, Replies peer before after reply →
    (∀ commandId, reply ≠ some (.ack commandId)) → (entered before peer).addressed peer after = []
  exists_reply : ∃ reply, Replies peer before after reply
  /-- As long as it is not blocked, lines can be written to it, -/
  unblocked : Unblocked peer after → ((entered before peer).run after).1.fault? peer = none
  /-- and from then on none are. -/
  blocked : ∀ first fault second, after = first ++ .block peer fault :: second →
    linesTo peer ((entered before peer).outputs after) =
      linesTo peer ((entered before peer).outputs first)

section Visits

variable (visit : Visit peer before after)
include visit

/-- To a peer whose connection has ended with its handshake nothing is addressed. -/
theorem Visit.addressed_of_ended {step : RegistryStep} (split : after = quiet ++ step :: rest)
    (undecided : Undecided peer quiet)
    (ended : (((entered before peer).run quiet).1.step step).1.standing? peer = none) :
    (entered before peer).addressed peer after = [] := by
  subst split
  have coherent := ((coherent_entered before peer).run quiet).step step
  rw [visit.addressed_eq undecided]
  exact coherent.addressed_of_closed ended (List.forall_mem_cons.1 visit.once_right).2

/-- A peer whose time is over is told so if it can be, and nothing else, then or later. -/
theorem Visit.linesTo_of_timedOut (split : after = quiet ++ .timeOut peer :: rest)
    (undecided : Undecided peer quiet) :
    linesTo peer ((entered before peer).outputs after) =
        (if ((entered before peer).run quiet).1.CanWrite peer
            (.error "handshake" "handshake timed out") then
          [(Message.error "handshake" "handshake timed out").encode] else []) ∧
      (entered before peer).addressed peer after = [] := by
  have nothing := visit.addressed_of_ended split undecided
  subst split
  obtain ⟨awaits, silent, -⟩ := visit.left.awaits undecided
  have told := awaits.timeOut_eq.trans (reject_eq ..)
  have ended :
      (((entered before peer).run quiet).1.step (.timeOut peer)).1.standing? peer = none := by
    show (((entered before peer).run quiet).1.timeOut peer).1.standing? peer = none
    rw [told]
    exact standing?_eq_none_iff.2 (Catalog.find?_erase_self ..)
  have coherent := ((coherent_entered before peer).run quiet).step (.timeOut peer)
  have later := coherent.linesTo_outputs_of_closed ended
    (List.forall_mem_cons.1 visit.once_right).2
  refine ⟨?_, nothing ended⟩
  rw [outputs_append, linesTo_append, silent, outputs_cons, linesTo_append, later]
  show [] ++ (linesTo peer (((entered before peer).run quiet).1.timeOut peer).2 ++ []) = _
  rw [told, linesTo_append, List.nil_append, List.append_nil]
  refine (List.append_nil _).trans ?_
  show linesTo peer (if ((entered before peer).run quiet).1.CanWrite peer
    (.error "handshake" "handshake timed out") then _ else _) = _
  split
  · rw [linesTo_line, if_pos rfl]
    rfl
  · rfl

/-- Behind a reply to the first line come the messages that are addressed to the peer. -/
theorem Visit.linesTo_of_settled {bytes : ByteArray} {line : List UInt8}
    {more : List (List UInt8)} (first : FirstLine peer after quiet bytes rest line more)
    (unblocked : Unblocked peer quiet) (small : (verdictOn before peer quiet line).reply.Fits)
    (smaller : ∀ step ∈ after, ∀ m, step.message? = some m → m.Fits) :
    linesTo peer ((entered before peer).outputs after) =
      ((verdictOn before peer quiet line).reply ::
        (entered before peer).addressed peer after).map Message.encode := by
  have settles := visit.settles first unblocked small
  have lines := visit.linesTo_eq first unblocked small
  obtain ⟨rfl, undecided, -⟩ := first
  have coherent : (((entered before peer).run quiet).1.receive peer bytes).1.Coherent :=
    ((coherent_entered before peer).run quiet).step (.receive peer bytes)
  have once := (List.forall_mem_cons.1 visit.once_right).2
  have later := coherent.linesTo_outputs settles.decided once fun step mem ↦
    smaller step (List.mem_append_right _ (List.mem_cons_of_mem _ mem))
  rw [lines, later, visit.addressed_eq undecided]
  rfl

/-- To a peer that is refused nothing is addressed. -/
theorem Visit.addressed_of_refused {bytes : ByteArray} {line : List UInt8}
    {more : List (List UInt8)} (first : FirstLine peer after quiet bytes rest line more)
    (unblocked : Unblocked peer quiet) (small : (verdictOn before peer quiet line).reply.Fits)
    {commandId text : String}
    (verdict : verdictOn before peer quiet line = .refused commandId text) :
    (entered before peer).addressed peer after = [] := by
  have settles := visit.settles first unblocked small
  rw [verdict] at settles
  refine visit.addressed_of_ended first.split first.undecided ?_
  show (((entered before peer).run quiet).1.receive peer bytes).1.standing? peer = none
  rw [settles.eq_of_refused]
  exact standing?_eq_none_iff.2 (Catalog.find?_erase_self ..)

/-- To a peer that cannot be told the verdict on its first line nothing is addressed. -/
theorem Visit.addressed_of_unanswered {bytes : ByteArray} {line : List UInt8}
    {more : List (List UInt8)} (first : FirstLine peer after quiet bytes rest line more)
    (blocked : ¬Unblocked peer quiet) : (entered before peer).addressed peer after = [] := by
  refine visit.addressed_of_ended first.split first.undecided ?_
  show (((entered before peer).run quiet).1.receive peer bytes).1.standing? peer = none
  rw [visit.receive_of_unanswered first fun told ↦ blocked told.2]
  exact standing?_eq_none_iff.2 (Catalog.find?_erase_self ..)

theorem Visit.addressed_of_loses {step : RegistryStep} (split : after = quiet ++ step :: rest)
    (undecided : Undecided peer quiet) (loses : step.Loses peer (said peer quiet)) :
    (entered before peer).addressed peer after = [] := by
  have awaits := ((split ▸ visit).left.awaits undecided).1
  have coherent := (coherent_entered before peer).run quiet
  exact visit.addressed_of_ended split undecided (coherent.awaits_loses awaits loses).1

theorem Visit.delivered (small : ∀ step ∈ after, ∀ m, step.message? = some m → m.Fits)
    (replies : ∀ m, Replies peer before after (some m) → m.Fits) :
    Delivered peer before after where
  undecided undecided := (visit.awaits undecided).2.1
  replied reply h := by
    cases h with
    | undecided still =>
      rw [(visit.awaits still).2.1, visit.addressed_of_undecided still]
      rfl
    | lost split undecided loses =>
      rw [(visit.lost split undecided loses).1, visit.addressed_of_loses split undecided loses]
      rfl
    | timedOut split undecided unblocked =>
      obtain ⟨told, nothing⟩ := visit.linesTo_of_timedOut split undecided
      have fits := replies _ (.timedOut split undecided unblocked)
      subst split
      rw [told, nothing, if_pos (visit.left.canWrite fits unblocked)]
      rfl
    | settled first unblocked =>
      exact visit.linesTo_of_settled first unblocked (replies _ (.settled first unblocked)) small
    | unreminded split undecided blocked =>
      obtain ⟨told, nothing⟩ := visit.linesTo_of_timedOut split undecided
      subst split
      obtain ⟨⟨⟨c, found, -⟩, -⟩, -⟩ := visit.left.awaits undecided
      rw [told, nothing, if_neg ((visit.left.muted blocked).not_canWrite found _)]
      rfl
    | unanswered first blocked =>
      rw [(visit.unanswered first fun told ↦ blocked told.2).1,
        visit.addressed_of_unanswered first blocked]
      rfl
  welcomed reply h other := by
    cases h with
    | undecided still => exact visit.addressed_of_undecided still
    | lost split undecided loses => exact visit.addressed_of_loses split undecided loses
    | timedOut split undecided => exact (visit.linesTo_of_timedOut split undecided).2
    | @settled quiet _ _ line _ first unblocked =>
      have fits := replies _ (.settled first unblocked)
      rcases verdict : verdictOn before peer quiet line with ⟨commandId, text⟩ | ⟨commandId, name⟩
      · exact visit.addressed_of_refused first unblocked fits verdict
      · rw [verdict] at other
        exact absurd rfl (other commandId)
    | unreminded split undecided => exact (visit.linesTo_of_timedOut split undecided).2
    | unanswered first blocked => exact visit.addressed_of_unanswered first blocked
  exists_reply := exists_replies peer before after
  unblocked := visit.fault?_eq_none
  blocked first fault second split := by
    subst split
    exact visit.block.2

end Visits

/-! ### Runs -/

/-- What a run writes to its peers. -/
structure Delivery (steps : List RegistryStep) : Prop where
  /-- From when a peer connects until it connects again it is written its reply and then what is
  addressed to it. -/
  visits : ∀ before after peer, before ++ .accept peer :: after <+: steps →
    Visit peer before after → Delivered peer before after
  /-- At other times nothing is written to it. -/
  closed : ∀ moment ∈ moments {} steps, ∀ peer, moment.before.standing? peer = none →
    linesTo peer moment.outcome.outputs = []
  /-- A broadcast tells to how many peers it writes, and in which order it goes through the table is
  seen by none of them. -/
  broadcast : ∀ moment ∈ moments {} steps, ∀ m, moment.step = .broadcast m →
    (∃ count, moment.outcome.answer = .delivered count ∧
      {peer | linesTo peer moment.outcome.outputs ≠ []}.encard = count) ∧
    ∀ sessions : List (Session String), sessions.Perm moment.before.table.sessions →
      (moment.before.broadcastIn m sessions).1 = moment.after ∧
      (∀ peer, linesTo peer (moment.before.broadcastIn m sessions).2.1 =
        linesTo peer moment.outcome.outputs) ∧
      moment.outcome.answer = .delivered (moment.before.broadcastIn m sessions).2.2
  /-- A message to a name is written to the peer that is registered under it, unless this is
  blocked, and if there is none, that is told and nothing else happens. -/
  send : ∀ moment ∈ moments {} steps, ∀ name m, moment.step = .send name m →
    (∀ peer, (moment.before.IsRegistered peer name → moment.before.fault? peer = none →
        linesTo peer moment.outcome.outputs = [m.encode]) ∧
      (¬(moment.before.IsRegistered peer name ∧ moment.before.fault? peer = none) →
        linesTo peer moment.outcome.outputs = [])) ∧
    (moment.outcome.answer = .sent (.error (.unknownRenderer name)) ↔
      name ∉ moment.before.names) ∧
    (name ∉ moment.before.names → moment.after = moment.before ∧ moment.outcome.outputs = [])
  /-- Who has not been blocked is not. -/
  unblocked : ∀ before peer, before <+: steps → Unblocked peer before →
    (run {} before).1.fault? peer = none

section Owner

variable (h : r.Coherent) {m : Message} (small : m.Fits) (name : String)
include h small

theorem Coherent.send_of_fits (peer : String) :
    (r.IsRegistered peer name → r.fault? peer = none →
        linesTo peer (r.send name m).2.1 = [m.encode]) ∧
      (¬(r.IsRegistered peer name ∧ r.fault? peer = none) →
        linesTo peer (r.send name m).2.1 = []) := by
  rw [linesTo_send, ← h.owned]
  constructor
  · exact fun session clean ↦ if_pos ⟨session, small, clean⟩
  · exact fun unwritten ↦ if_neg fun both ↦ unwritten ⟨both.1, both.2.2⟩

end Owner

theorem send_of_unknown {name : String} (unknown : name ∉ r.names) (m : Message) :
    r.send name m = (r, [], .error (.unknownRenderer name)) := by
  rw [names, SessionTable.mem_names_iff, Bool.not_eq_true, Option.isSome_eq_false_iff,
    Option.isNone_iff_eq_none] at unknown
  rw [send, unknown]

theorem send_eq_unknown_iff (r : Registry) (name : String) (m : Message) :
    (r.send name m).2.2 = .error (.unknownRenderer name) ↔ name ∉ r.names := by
  constructor
  · intro answer listed
    obtain ⟨peer, session⟩ := Option.isSome_iff_exists.1 (r.table.mem_names_iff.1 listed)
    rw [send, session] at answer
    dsimp only at answer
    split at answer <;> cases answer
  · intro unknown
    rw [send_of_unknown unknown]

/-- If all messages and all replies fit a frame, every peer is written the reply to its handshake
and then the messages that were addressed to it, each once and in order. -/
theorem run_delivery (steps : List RegistryStep)
    (small : ∀ step ∈ steps, ∀ m, step.message? = some m → m.Fits)
    (replies : ∀ before after peer, before ++ .accept peer :: after <+: steps →
      Visit peer before after → ∀ m, Replies peer before after (some m) → m.Fits) :
    Delivery steps where
  visits before after peer begun visit := by
    refine visit.delivered (fun step mem ↦ small step (begun.mem ?_))
      (replies before after peer begun visit)
    exact List.mem_append_right _ (List.mem_cons_of_mem _ mem)
  closed moment mem peer closed :=
    (coherent_empty.moments steps moment mem).linesTo_step_of_closed closed moment.step
  broadcast moment mem m sent := by
    have coherent := coherent_empty.moments steps moment mem
    obtain ⟨r, step⟩ := moment
    obtain rfl : step = .broadcast m := sent
    refine ⟨⟨_, rfl, coherent.encard_recipients m⟩, fun sessions order ↦ ?_⟩
    obtain ⟨state, lines, count⟩ := coherent.broadcastIn_perm m order
    exact ⟨state, lines, congrArg RegistryAnswer.delivered count.symm⟩
  send moment mem name m sent := by
    have coherent := coherent_empty.moments steps moment mem
    have fits := small _ (step_mem_of_mem_moments mem) m (by rw [sent]; rfl)
    obtain ⟨r, step⟩ := moment
    obtain rfl : step = .send name m := sent
    refine ⟨coherent.send_of_fits fits name, ?_, fun unknown ↦ ?_⟩
    · rw [← send_eq_unknown_iff r name m]
      exact ⟨fun answer ↦ by injection answer, congrArg RegistryAnswer.sent⟩
    · have nothing := send_of_unknown unknown m
      exact ⟨congrArg Prod.fst nothing, congrArg (fun result ↦ result.2.1) nothing⟩
  unblocked _ _ _ := fault?_run_of_unblocked

/-- A renderer that is registered is sent a cue twice, once to all and once by its name. -/
theorem run_delivery_cues :
    let hello := Message.hello "cmd-1" "renderer" "left"
    let cue : Message := ⟨"cmd-2", .playCue ⟨"blackout"⟩⟩
    let visit : List RegistryStep :=
      [.receive "peer" hello.frame, .broadcast cue, .send "left" cue]
    Delivery (.start (some 4455) :: .accept "peer" :: visit) ∧
      linesTo "peer" ((entered [.start (some 4455)] "peer").outputs visit) =
        (Message.ack "cmd-1" :: (entered [.start (some 4455)] "peer").addressed "peer" visit).map
          Message.encode := by
  intro hello cue visit
  have greeted : hello.encode.utf8ByteSize ≤ maxFrameSize := by
    rw [Message.utf8ByteSize_encode]
    decide +kernel
  have acknowledged : (Message.ack "cmd-1").Fits := by
    rw [Message.Fits, Message.utf8ByteSize_encode]
    decide +kernel
  have excused : (Message.error "handshake" "handshake timed out").Fits := by
    rw [Message.Fits, Message.utf8ByteSize_encode]
    decide +kernel
  have small : ∀ step ∈ .start (some 4455) :: .accept "peer" :: visit, ∀ m, step.message? = some m →
      m.Fits := by
    have played : cue.Fits := by
      rw [Message.Fits, Message.utf8ByteSize_encode]
      decide +kernel
    simp [visit, RegistryStep.message?, played]
  have line : contents (fitting hello.frame.data.toList) = [textBytes hello.encode] := by
    rw [Message.frame, Message.textBytes_push]
    exact Message.contents_fitting_encode hello greeted []
  have verdict : verdictOn [.start (some 4455)] "peer" [] (textBytes hello.encode) =
      .welcomed "cmd-1" "left" :=
    Verdict.ofLine_hello (by decide) (by decide +kernel) "cmd-1" "renderer"
  have replies : ∀ before after peer,
      before ++ .accept peer :: after <+: .start (some 4455) :: .accept "peer" :: visit →
      Visit peer before after → ∀ m, Replies peer before after (some m) → m.Fits := by
    rintro before after peer ⟨tail, run⟩ - m reply
    -- one peer connects, and its hello is the only step that brings bytes
    have connects : [.start (some 4455)] ++ .accept "peer" :: visit =
        before ++ .accept peer :: (after ++ tail) := by
      simpa using run.symm
    obtain ⟨rfl, same, rest⟩ :=
      (List.append_cons_inj_of_notMem (by simp) (by simp [visit])).1 connects
    obtain rfl : "peer" = peer := RegistryStep.accept.inj same
    cases reply with
    | timedOut => exact excused
    | @settled quiet more bytes text _ first _ =>
      have arrives : [] ++ .receive "peer" hello.frame :: [.broadcast cue, .send "left" cue] =
          quiet ++ .receive "peer" bytes :: (more ++ tail) := by
        rw [List.nil_append, ← List.cons_append, ← List.append_assoc, ← first.split]
        exact rest
      obtain ⟨rfl, same, -⟩ := (List.append_cons_inj_of_notMem (by simp) (by simp)).1 arrives
      obtain ⟨-, rfl⟩ := RegistryStep.receive.inj same
      obtain rfl : text = textBytes hello.encode :=
        (List.cons.inj (first.arrives.symm.trans line)).1
      rw [verdict]
      exact acknowledged
  have delivery := run_delivery _ small replies
  have connected : Visit "peer" [.start (some 4455)] visit :=
    ⟨by decide +kernel, not_connects (by simp [visit])⟩
  have first : FirstLine "peer" visit [] hello.frame [.broadcast cue, .send "left" cue]
      (textBytes hello.encode) [] :=
    ⟨rfl, .nil "peer", line⟩
  have visited := delivery.visits _ _ _ ⟨[], rfl⟩ connected
  have replied := visited.replied _ (.settled first (.nil "peer"))
  rw [verdict] at replied
  exact ⟨delivery, replied⟩

end Registry

end ShowControl
