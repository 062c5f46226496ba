import ShowControl.Proofs.Renderer.Visits

/-!
# One controller after the other

Controllers may write to a listener all at once, and still the renderer does what it would do if
they came one after the other (`Listener.run_serial`).

It has gone through the visits that are over and through what has come of the next one, line by
line; the inboxes of those that wait hold all that they have sent. This is what each step preserves
(`Listener.Follows.step`). When a visit ends, it is the turn of the next, and of the one behind it
if that has a line over the limit, and so on (`Listener.advance_of_waits`).
-/

namespace ShowControl

open Splitter Reading

/-! ### Callers -/

namespace Listener

variable {σ : Type} {h : Handler σ} {state : σ} {l : Listener σ} {outputs : List ListenerOutput}
variable {c : Caller} {v : Visit} {rest : List Visit} {callers : List Caller}
variable {bytes : List UInt8}

/-- The turn of a caller goes on until it has sent a line over the limit. -/
theorem serve_of_fits (holds : c.inbox.Holds bytes) (chunk : ByteArray)
    (small : ∀ reply ∈ h.replies state (ofLines (fitting (bytes ++ chunk.data.toList))),
      reply.Fits) :
    ∃ i : Inbox, (oversized (bytes ++ chunk.data.toList) = false →
        i.Holds (pending (bytes ++ chunk.data.toList))) ∧
      serve h state c chunk =
        (h.after state (ofLines (fitting (bytes ++ chunk.data.toList))),
          if oversized (bytes ++ chunk.data.toList) then none else some { c with inbox := i },
          (h.replies state (ofLines (fitting (bytes ++ chunk.data.toList)))).map
              (fun reply ↦ .line c.peer reply.encode) ++
            if oversized (bytes ++ chunk.data.toList) then [.closed c.peer] else []) := by
  have answered := Service.receive_of_fits holds chunk small
  refine ⟨_, answered.holds, ?_⟩
  rw [serve]
  dsimp only
  rw [answered.isOpen, answered.state, answered.written, List.map_map]
  cases oversized (bytes ++ chunk.data.toList) with
  | true => rfl
  | false =>
    rw [if_neg Bool.false_ne_true, if_neg Bool.false_ne_true, List.append_nil]
    rfl

/-- The inbox of a caller that waits holds all that has been sent. -/
structure Waits (v : Visit) (c : Caller) : Prop where
  peer : c.peer = v.peer
  holds : c.inbox.Holds v.sent
  stays : v.left = false

/-- The callers of a listener are those of these visits. -/
inductive Attends : List Visit → List Caller → Prop where
  | nobody : Attends [] []
  | serving {v : Visit} {c : Caller} {rest : List Visit} {callers : List Caller}
    (peer : c.peer = v.peer) (holds : c.inbox.Holds (pending v.sent)) (on : v.isOver = false)
    (waiting : List.Forall₂ Waits rest callers) :
    Attends (v :: rest) (c :: callers)

/-- Those that wait have their turns, until the turn of one goes on. -/
theorem advance_of_waits (waiting : List.Forall₂ Waits rest callers)
    (small : ∀ reply ∈ h.replies state ((Visit.inTurn rest).flatMap Visit.readings),
      reply.Fits) :
    ∃ callers', Attends (rest.dropWhile Visit.isOver) callers' ∧
      advance h state callers =
        (h.after state ((Visit.inTurn rest).flatMap Visit.readings), callers',
          Turn.talk h state (Visit.inTurn rest)) := by
  induction waiting generalizing state with
  | nil => exact ⟨[], .nobody, rfl⟩
  | @cons v c rest callers waits waiting ih =>
    have nothing : v.sent ++ ByteArray.empty.data.toList = v.sent := List.append_nil _
    have isOver : v.isOver = oversized v.sent := by rw [Visit.isOver, waits.stays, Bool.false_or]
    rw [advance]
    cases overrun : oversized v.sent with
    | true =>
      have ended := isOver.trans overrun
      rw [Visit.inTurn_of_over ended, List.flatMap_cons, Handler.replies_append,
        List.forall_mem_append] at small
      have small' := small.1
      rw [Visit.readings, ← nothing] at small'
      obtain ⟨i, -, served⟩ := serve_of_fits waits.holds .empty small'
      obtain ⟨callers', attends, advanced⟩ := ih small.2
      refine ⟨callers', by rwa [List.dropWhile_cons_of_pos ended], ?_⟩
      rw [served, nothing, overrun, if_pos rfl, if_pos rfl]
      dsimp only
      rw [← Visit.readings, advanced, Visit.inTurn_of_over ended, List.flatMap_cons,
        Handler.after_append, Turn.talk_cons, Turn.outputs, overrun, if_pos rfl, waits.peer]
    | false =>
      have on := isOver.trans overrun
      rw [Visit.inTurn_of_on on, List.flatMap_singleton] at small
      rw [Visit.readings, ← nothing] at small
      obtain ⟨i, holds, served⟩ := serve_of_fits waits.holds .empty small
      rw [nothing] at holds
      refine ⟨{ c with inbox := i } :: callers, ?_, ?_⟩
      · rw [List.dropWhile_cons_of_neg (Bool.eq_false_iff.1 on)]
        exact .serving waits.peer (holds overrun) on waiting
      · rw [served, nothing, Visit.inTurn_of_on on, List.flatMap_singleton, Turn.talk_singleton,
          Turn.outputs, overrun, if_neg Bool.false_ne_true, waits.peer]
        rfl

theorem map_peer_of_waits (waiting : List.Forall₂ Waits rest callers) :
    callers.map Caller.peer = rest.map Visit.peer := by
  induction waiting with
  | nil => rfl
  | cons waits _ ih => rw [List.map_cons, List.map_cons, waits.peer, ih]

theorem Attends.map_peer (attends : Attends rest callers) :
    callers.map Caller.peer = rest.map Visit.peer := by
  cases attends with
  | nobody => rfl
  | serving peer holds on waiting =>
    rw [List.map_cons, List.map_cons, peer, map_peer_of_waits waiting]

/-- More bytes for those that wait. -/
theorem Waits.add (waits : Waits v c) (peer : String) (chunk : ByteArray) :
    Waits (if v.peer = peer then v.add chunk else v)
      (if c.peer = peer then { c with inbox := c.inbox.append chunk } else c) := by
  by_cases here : v.peer = peer
  · rw [if_pos here, if_pos (waits.peer.trans here)]
    exact ⟨waits.peer, waits.holds.append chunk, waits.stays⟩
  · rw [if_neg here, if_neg fun eq ↦ here (waits.peer.symm.trans eq)]
    exact waits

/-- A renderer that has gone through the visits whose turn has come. -/
structure Follows (h : Handler σ) (state : σ) (visits : Visits) (l : Listener σ)
    (outputs : List ListenerOutput) : Prop where
  isOpen : l.isOpen = true
  outputs : outputs = Turn.talk h state visits.served
  state : l.state = h.after state visits.lines
  attends : Attends visits.present l.callers
  distinct : (visits.present.map Visit.peer).Nodup
  ended : ∀ v ∈ visits.past, v.isOver = true

theorem follows_empty (h : Handler σ) (state : σ) : Follows h state {} { state } [] where
  isOpen := rfl
  outputs := rfl
  state := rfl
  attends := .nobody
  distinct := List.nodup_nil
  ended := nofun

namespace Follows

variable {visits : Visits}

theorem connect (follows : Follows h state visits l outputs) (peer : String) :
    Follows h state (visits.record (.connect peer)) (l.accept peer).1 outputs := by
  have peers := follows.attends.map_peer
  rw [Visits.record, accept, follows.isOpen]
  by_cases connected : peer ∈ visits.present.map Visit.peer
  · have listed := connected
    rw [← peers] at listed
    rw [if_pos (by simpa using connected), if_neg (by simpa using listed)]
    exact follows
  · have absent := connected
    rw [← peers] at absent
    rw [if_neg (by simpa using connected), if_pos (by simpa using absent)]
    obtain ⟨past, present⟩ := visits
    obtain ⟨-, told, reached, attends, distinct, ended⟩ := follows
    have distinct' : ((present ++ [({ peer } : Visit)]).map Visit.peer).Nodup := by
      rw [List.map_append]
      exact List.concat_eq_append ▸ distinct.concat connected
    obtain ⟨state', callers, opened⟩ := l
    cases attends with
    | nobody =>
      refine ⟨rfl, ?_, ?_, .serving rfl Inbox.holds_empty rfl .nil, distinct', ended⟩
      · have silent (state : σ) : Turn.talk h state [{ peer }] = [] := rfl
        exact told.trans (by simp [Visits.served, Turn.talk_append, silent])
      · have silent : ({ peer } : Visit).readings = [] := rfl
        exact reached.trans (by simp [Visits.lines, Visits.served, silent])
    | serving same holds on waiting =>
      refine ⟨rfl, told, reached, .serving same holds on ?_, distinct', ended⟩
      exact List.rel_append waiting (.cons ⟨rfl, Inbox.holds_empty, rfl⟩ .nil)

/-- When a visit is over, those that wait have their turns. -/
theorem advance {past : List Visit} {state' : σ} (reached : state' = h.after state
      ((past ++ [v]).flatMap Visit.readings)) (told : outputs = Turn.talk h state (past ++ [v]))
    (passed : ∀ v' ∈ past ++ [v], v'.isOver = true) (waiting : List.Forall₂ Waits rest callers)
    (distinct : (rest.map Visit.peer).Nodup)
    (small : ∀ reply ∈ h.replies state (Visits.settle ⟨past, v :: rest⟩).lines, reply.Fits) :
    Follows h state (Visits.settle ⟨past, v :: rest⟩)
      { state := (Listener.advance h state' callers).1
        callers := (Listener.advance h state' callers).2.1 }
      (outputs ++ (Listener.advance h state' callers).2.2) := by
  have ended : v.isOver = true := passed v List.mem_concat_self
  have served : (Visits.settle ⟨past, v :: rest⟩).served =
      (past ++ [v]) ++ Visit.inTurn rest := by
    rw [Visits.served_settle, Visit.inTurn_of_over ended, List.append_assoc, List.singleton_append]
  have lines : (Visits.settle ⟨past, v :: rest⟩).lines =
      (past ++ [v]).flatMap Visit.readings ++ (Visit.inTurn rest).flatMap Visit.readings := by
    rw [Visits.lines, served, List.flatMap_append]
  rw [lines, Handler.replies_append, List.forall_mem_append, ← reached] at small
  obtain ⟨callers', attends, advanced⟩ := advance_of_waits waiting small.2
  rw [advanced]
  refine ⟨rfl, ?_, ?_, ?_, ?_, ?_⟩
  · rw [served, Turn.talk_append, told, ← reached]
  · rw [lines, Handler.after_append, ← reached]
  · rwa [Visits.settle, List.dropWhile_cons_of_pos ended]
  · rw [Visits.settle, List.dropWhile_cons_of_pos ended]
    exact distinct.sublist ((List.dropWhile_sublist _).map _)
  · rw [Visits.settle, List.takeWhile_cons_of_pos ended, List.append_cons past]
    exact List.forall_mem_append.2 ⟨passed, fun v listed ↦ List.mem_takeWhile_imp listed⟩

/-- Bytes of the controller that is served. -/
theorem send_served {past : List Visit} {state' : σ} (same : c.peer = v.peer)
    (holds : c.inbox.Holds (pending v.sent)) (on : v.isOver = false)
    (waiting : List.Forall₂ Waits rest callers) (distinct : ((v :: rest).map Visit.peer).Nodup)
    (told : outputs = Turn.talk h state (past ++ [v]))
    (reached : state' = h.after state ((past ++ [v]).flatMap Visit.readings))
    (ended : ∀ v' ∈ past, v'.isOver = true) (chunk : ByteArray)
    (small : ∀ reply ∈ h.replies state (Visits.settle ⟨past, v.add chunk :: rest⟩).lines,
      reply.Fits) :
    Follows h state (Visits.settle ⟨past, v.add chunk :: rest⟩)
      (Listener.receive h { state := state', callers := c :: callers } c.peer chunk).1
      (outputs ++
        (Listener.receive h { state := state', callers := c :: callers } c.peer chunk).2) := by
  obtain ⟨stays, within⟩ := Bool.or_eq_false_iff.1 on
  have grown := v.flatMap_readings_add past chunk
  have talk := Turn.talk_add h state past within chunk
  rw [← told, ← reached, ← same] at talk
  have replied : ∀ reply ∈ h.replies state'
      (ofLines (fitting (pending v.sent ++ chunk.data.toList))), reply.Fits := by
    obtain ⟨more, lines⟩ := Visits.exists_lines_settle past (v.add chunk) rest
    rw [lines, grown, Handler.replies_append, Handler.replies_append, List.forall_mem_append,
      List.forall_mem_append, ← reached] at small
    exact small.1.2
  obtain ⟨i, holds', served⟩ := serve_of_fits holds chunk replied
  rw [receive]
  dsimp only
  rw [if_pos rfl, served]
  cases overrun : oversized (pending v.sent ++ chunk.data.toList) with
  | true =>
    have ended' : (v.add chunk).isOver = true := by
      rw [Visit.isOver, Visit.add, oversized_append, overrun, Bool.or_true]
    rw [overrun] at talk
    rw [if_pos rfl]
    dsimp only
    rw [← List.append_assoc]
    refine advance ?_ talk.symm ?_ waiting (List.nodup_cons.1 distinct).2 small
    · rw [grown, Handler.after_append, ← reached]
    · exact List.forall_mem_append.2 ⟨ended, List.forall_mem_singleton.2 ended'⟩
  | false =>
    have on' : (v.add chunk).isOver = false := by
      rw [Visit.isOver, Visit.add, oversized_append, overrun, stays, Bool.or_false]
    rw [overrun] at talk
    rw [if_neg Bool.false_ne_true, Visits.settle_of_on on']
    refine ⟨rfl, talk.symm, ?_, .serving same ?_ on' waiting, distinct, ended⟩
    · refine Eq.trans ?_ (congrArg (h.after state) grown.symm)
      rw [Handler.after_append, ← reached]
    · rw [Visit.add, pending_append]
      exact holds' overrun

theorem send (follows : Follows h state visits l outputs) (peer : String) (chunk : ByteArray)
    (small : ∀ reply ∈ h.replies state (visits.record (.send peer chunk)).lines, reply.Fits) :
    Follows h state (visits.record (.send peer chunk)) (l.receive h peer chunk).1
      (outputs ++ (l.receive h peer chunk).2) := by
  obtain ⟨past, present⟩ := visits
  obtain ⟨state', all, isOpen⟩ := l
  obtain ⟨opened, told, reached, attends, distinct, ended⟩ := follows
  cases opened
  rw [Visits.record] at small ⊢
  cases attends with
  | nobody =>
    rw [Visit.change, List.map_nil, Visits.settle_nil, receive, List.append_nil]
    exact ⟨rfl, told, reached, .nobody, distinct, ended⟩
  | @serving v c rest callers same holds on waiting =>
    dsimp only at small ⊢
    by_cases turn : c.peer = peer
    · subst turn
      have absent : ∀ v' ∈ rest, v'.peer ≠ c.peer := fun v' listed eq ↦
        (List.nodup_cons.1 distinct).1 (List.mem_map.2 ⟨v', listed, eq.trans same⟩)
      rw [Visit.change, List.map_cons, if_pos same.symm, ← Visit.change,
        Visit.change_of_absent absent] at small ⊢
      exact send_served same holds on waiting distinct told reached ended chunk small
    · have others : Visit.change peer (Visit.add chunk) (v :: rest) =
          v :: Visit.change peer (Visit.add chunk) rest := by
        rw [Visit.change, List.map_cons, if_neg fun eq ↦ turn (same.trans eq), ← Visit.change]
      rw [others, Visits.settle_of_on on, receive]
      dsimp only
      rw [if_neg turn, List.append_nil]
      refine ⟨rfl, told, reached, .serving same holds on ?_, ?_, ended⟩
      · rw [Visit.change, List.forall₂_map_left_iff, List.forall₂_map_right_iff]
        exact waiting.imp fun _ _ waits ↦ waits.add peer chunk
      · have peers := Visit.map_peer_change (f := Visit.add chunk) (fun _ ↦ rfl) peer (v :: rest)
        rw [others] at peers
        exact peers.symm ▸ distinct

theorem hangUp (follows : Follows h state visits l outputs) {peer : String}
    (patient : ∀ v ∈ visits.waiting, v.peer ≠ peer)
    (small : ∀ reply ∈ h.replies state (visits.record (.hangUp peer)).lines, reply.Fits) :
    Follows h state (visits.record (.hangUp peer)) (l.hangUp h peer).1
      (outputs ++ (l.hangUp h peer).2) := by
  obtain ⟨past, present⟩ := visits
  obtain ⟨state', all, isOpen⟩ := l
  obtain ⟨opened, told, reached, attends, distinct, ended⟩ := follows
  cases opened
  rw [Visits.record] at small ⊢
  rw [Listener.hangUp]
  cases attends with
  | nobody =>
    rw [Visit.change, List.map_nil, Visits.settle_nil, List.append_nil]
    exact ⟨rfl, told, reached, .nobody, distinct, ended⟩
  | @serving v c rest callers same holds on waiting =>
    dsimp only at small ⊢
    rw [Visits.waiting, List.tail_cons] at patient
    rw [Visit.change, List.map_cons, ← Visit.change, Visit.change_of_absent patient] at small ⊢
    by_cases turn : c.peer = peer
    · rw [if_pos (same.symm.trans turn)] at small ⊢
      rw [if_pos turn]
      refine advance ?_ ?_ ?_ waiting (List.nodup_cons.1 distinct).2 small
      · rw [v.flatMap_readings_leave]
        exact reached
      · rw [Turn.talk_leave]
        exact told
      · exact List.forall_mem_append.2 ⟨ended, List.forall_mem_singleton.2 rfl⟩
    · rw [if_neg fun eq ↦ turn (same.trans eq), Visits.settle_of_on on, if_neg turn,
        List.append_nil]
      have stay : callers.filter (fun c ↦ c.peer ≠ peer) = callers := by
        refine List.filter_eq_self.2 fun c' listed ↦ decide_eq_true fun eq ↦ ?_
        have mem := List.mem_map_of_mem (f := Caller.peer) listed
        rw [map_peer_of_waits waiting] at mem
        obtain ⟨v', listed', eq'⟩ := List.mem_map.1 mem
        exact patient v' listed' (eq'.trans eq)
      rw [stay]
      exact ⟨rfl, told, reached, .serving same holds on waiting, distinct, ended⟩

theorem step (follows : Follows h state visits l outputs) {step : CallerStep}
    (patient : ∀ peer, step = .hangUp peer → ∀ v ∈ visits.waiting, v.peer ≠ peer)
    (small : ∀ reply ∈ h.replies state (visits.record step).lines, reply.Fits) :
    Follows h state (visits.record step) (l.step h step).1 (outputs ++ (l.step h step).2) := by
  cases step with
  | connect peer => exact (List.append_nil outputs).symm ▸ follows.connect peer
  | send peer bytes => exact follows.send peer bytes small
  | hangUp peer => exact follows.hangUp (patient peer rfl) small

theorem run (follows : Follows h state visits l outputs) {steps : List CallerStep}
    (patient : visits.Patient steps)
    (small : ∀ reply ∈ h.replies state (visits.after steps).lines, reply.Fits) :
    Follows h state (visits.after steps) (l.run h steps).1 (outputs ++ (l.run h steps).2) := by
  induction steps generalizing visits l outputs with
  | nil => exact (List.append_nil outputs).symm ▸ follows
  | cons step steps ih =>
    obtain ⟨more, lines⟩ := (visits.record step).lines_prefix_after steps
    have before : ∀ reply ∈ h.replies state (visits.record step).lines, reply.Fits := by
      intro reply listed
      refine small reply ?_
      show reply ∈ h.replies state ((visits.record step).after steps).lines
      rw [← lines, Handler.replies_append]
      exact List.mem_append_left _ listed
    rw [Listener.run, Transducer.run_cons, ← List.append_assoc]
    exact ih (follows.step patient.1 before) patient.2 small

end Follows

/-! ### Runs -/

/-- What a listener has done that these controllers have visited. -/
structure Serial (h : Handler σ) (state : σ) (visits : Visits)
    (result : Listener σ × List ListenerOutput) : Prop where
  /-- The visits that are over have been served one after the other, and what has come of the
  next. -/
  outputs : result.2 = Turn.talk h state visits.served
  order : (∀ v ∈ visits.past, v.isOver = true) ∧ ∀ v ∈ visits.present.head?, v.isOver = false
  /-- Each controller is written the replies to its own lines, in order. -/
  lines : ∀ peer, ListenerOutput.linesTo peer result.2 =
    ((Turn.ofVisits h state visits.served).filter fun t ↦ t.visit.peer = peer).flatMap fun t ↦
      t.replies.map Message.encode
  answered : ∀ t ∈ Turn.ofVisits h state visits.served,
    List.Forall₂ IsAnswered (t.visit.readings.filter asksReply) t.replies
  /-- All that is done to the state is what these lines say. -/
  state : result.1.state =
    (visits.lines.filterMap Except.toOption).foldl (fun s m ↦ (h.dispatch s m).1) state
  /-- They are the lines of all controllers when nobody waits. -/
  all : visits.waiting = [] → visits.lines = visits.all.flatMap Visit.readings
  /-- What a controller sends that waits has no effect before its turn. -/
  waits : ∀ v ∈ visits.waiting, ∀ bytes,
    (result.1.receive h v.peer bytes).1.state = result.1.state ∧
      (result.1.receive h v.peer bytes).2 = []
  /-- A connection is closed for a line over the limit that has come over it. -/
  closed : ∀ peer, .closed peer ∈ result.2 ↔
    ∃ v ∈ visits.served, v.peer = peer ∧ oversized v.sent = true
  /-- Whoever has neither sent one nor hung up is still connected. -/
  spared : ∀ v ∈ visits.all, v.isOver = false → v.peer ∈ result.1.callers.map Caller.peer

theorem Attends.isOver_head (attends : Attends rest callers) :
    ∀ v ∈ rest.head?, v.isOver = false := by
  cases attends with
  | nobody => nofun
  | serving peer holds on waiting =>
    rintro v ⟨⟩
    exact on

/-- Whoever waits is not listened to. -/
theorem Follows.receive_of_waiting {visits : Visits} (follows : Follows h state visits l outputs)
    (waits : v ∈ visits.waiting) (bytes : ByteArray) :
    (l.receive h v.peer bytes).1.state = l.state ∧ (l.receive h v.peer bytes).2 = [] := by
  obtain ⟨past, present⟩ := visits
  obtain ⟨state', all, isOpen⟩ := l
  obtain ⟨-, -, -, attends, distinct, -⟩ := follows
  cases attends with
  | nobody => exact absurd waits List.not_mem_nil
  | @serving v' c rest callers same holds on waiting =>
    have other : c.peer ≠ v.peer := fun eq ↦
      (List.nodup_cons.1 distinct).1 (List.mem_map.2 ⟨v, waits, eq.symm.trans same⟩)
    rw [receive]
    dsimp only
    rw [if_neg other]
    exact ⟨rfl, rfl⟩

/-- Whatever controllers do at the same time, the renderer serves them one after the other, in the
order in which they have connected, as long as its replies can be sent. -/
theorem run_serial (h : Handler σ) (state : σ) {steps : List CallerStep}
    (patient : Visits.Patient {} steps)
    (small : ∀ reply ∈ h.replies state (Visits.after {} steps).lines, reply.Fits) :
    Serial h state (Visits.after {} steps) (run h { state } steps) := by
  have follows := (follows_empty h state).run patient small
  rw [List.nil_append] at follows
  generalize Visits.after {} steps = visits at follows
  exact
    { outputs := follows.outputs
      order := ⟨follows.ended, follows.attends.isOver_head⟩
      lines := fun peer ↦ by
        rw [follows.outputs]
        exact Turn.linesTo_flatMap_outputs peer _
      answered := Turn.answered_ofVisits h state _
      state := follows.state
      all := fun nobody ↦ by
        have one : visits.present.take 1 = visits.present := by
          rcases visits with ⟨past, _ | ⟨v, rest⟩⟩
          · rfl
          · cases (nobody : rest = [])
            rfl
        rw [Visits.lines, Visits.served, one, Visits.all]
      waits := fun v listed bytes ↦ follows.receive_of_waiting listed bytes
      closed := fun peer ↦ by
        rw [follows.outputs]
        exact Turn.closed_mem_talk_iff h state peer _
      spared := fun v listed on ↦ by
        rw [follows.attends.map_peer]
        refine List.mem_map_of_mem ((List.mem_append.1 listed).resolve_left fun passed ↦ ?_)
        rw [follows.ended v passed] at on
        cases on }

/-- Two controllers at the same time: the second plays its cue first, and is answered last. -/
theorem run_serial_cues :
    let early := Message.stream [⟨"cmd-1", .playCue ⟨"early"⟩⟩]
    let late := Message.stream [⟨"cmd-2", .playCue ⟨"late"⟩⟩]
    let steps : List CallerStep := [.connect "first", .connect "second",
      .send "second" late.toByteArray, .send "first" (early.take 20).toByteArray,
      .send "first" (early.drop 20).toByteArray, .hangUp "first"]
    Visits.Patient {} steps ∧
      (∀ reply ∈ Handler.stage.replies {} (Visits.after {} steps).lines, reply.Fits) ∧
      Serial .stage {} (Visits.after {} steps) (run .stage { state := {} } steps) ∧
      (run .stage { state := {} } steps).2 =
        [.line "first" (Message.ack "cmd-1").encode, .line "second" (Message.ack "cmd-2").encode] ∧
      (run .stage { state := {} } steps).1.state = { lastCue := some ⟨"late"⟩ } := by
  intro early late steps
  have small : ∀ m ∈ [(⟨"cmd-1", .playCue ⟨"early"⟩⟩ : Message), ⟨"cmd-2", .playCue ⟨"late"⟩⟩,
      .ack "cmd-1", .ack "cmd-2"], m.Fits := by
    simp only [Message.Fits, Message.utf8ByteSize_encode]
    decide +kernel
  have early_within : oversized early = false :=
    Message.oversized_stream (List.forall_mem_singleton.2 (small _ (by simp)))
  have late_within : oversized late = false :=
    Message.oversized_stream (List.forall_mem_singleton.2 (small _ (by simp)))
  have start_within : oversized (early.take 20) = false := by
    have whole := early_within
    rw [← List.take_append_drop 20 early] at whole
    exact oversized_eq_false_of_append whole
  have empty_within : oversized [] = false := rfl
  have patient : Visits.Patient {} steps := by
    simp [steps, Visits.Patient, Visits.record, Visits.settle, Visits.waiting, Visit.change,
      Visit.add, Visit.isOver, start_within, early_within, empty_within]
  have visits : Visits.after {} steps =
      ⟨[⟨"first", early, true⟩], [⟨"second", late, false⟩]⟩ := by
    simp [steps, Visits.after, Visits.record, Visits.settle, Visit.change, Visit.add, Visit.leave,
      Visit.isOver, start_within, early_within, late_within, empty_within]
  have read (m : Message) (coordinates : m.coordinates = []) (fits : m.Fits) :
      ofLines (fitting (Message.stream [m])) = [.ok m] := by
    have finite : ∀ m' ∈ [m], ∀ coordinate ∈ m'.coordinates, coordinate.2.isFinite = true := by
      simp [coordinates]
    exact ofLines_stream finite (List.forall_mem_singleton.2 fits)
  have read_early := read ⟨"cmd-1", .playCue ⟨"early"⟩⟩ rfl (small _ (by simp))
  have read_late := read ⟨"cmd-2", .playCue ⟨"late"⟩⟩ rfl (small _ (by simp))
  have lines : (Visits.after {} steps).lines =
      [.ok ⟨"cmd-1", .playCue ⟨"early"⟩⟩, .ok ⟨"cmd-2", .playCue ⟨"late"⟩⟩] := by
    rw [visits]
    show ofLines (fitting early) ++ (ofLines (fitting late) ++ []) = _
    rw [read_early, read_late]
    rfl
  have fits : ∀ reply ∈ Handler.stage.replies {} (Visits.after {} steps).lines, reply.Fits := by
    rw [lines]
    exact fun reply listed ↦ small reply (List.mem_append_right
      [(⟨"cmd-1", .playCue ⟨"early"⟩⟩ : Message), ⟨"cmd-2", .playCue ⟨"late"⟩⟩] listed)
  have serial := run_serial .stage {} patient fits
  refine ⟨patient, fits, serial, ?_, ?_⟩
  · rw [serial.outputs, visits]
    show Turn.talk .stage {} [⟨"first", early, true⟩, ⟨"second", late, false⟩] = _
    rw [Turn.talk_cons, Turn.talk_singleton, Turn.outputs, Turn.outputs, Visit.readings,
      Visit.readings]
    dsimp only
    rw [early_within, late_within, read_early, read_late]
    rfl
  · rw [serial.state, lines]
    rfl

end Listener

end ShowControl
