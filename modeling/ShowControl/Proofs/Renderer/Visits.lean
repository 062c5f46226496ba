import ShowControl.Proofs.Renderer.Exchange
import ShowControl.Renderer.ListenerRun

/-!
# Visits of controllers

What a controller sends from when it connects until it hangs up is its visit (`Visit`). The visits
to a listener stand in the order in which the controllers have connected: those that are over, the
one that is served, and those that wait (`Visits`). They are recorded from what the controllers do,
without a look at the renderer.

Here is what should come of visits one after the other (`Turn.ofVisits`), and that no line of them
is lost as they grow (`Visits.lines_prefix_after`).
-/

namespace ShowControl

open Splitter Reading

/-! ### Visits -/

/-- A connection of a controller. -/
structure Visit where
  peer : String
  /-- All that the controller has sent. -/
  sent : List UInt8 := []
  /-- The controller has hung up. -/
  left : Bool := false

namespace Visit

/-- The controller has hung up, or it has sent a line over the limit. -/
def isOver (v : Visit) : Bool := v.left || oversized v.sent

/-- The lines that can be taken. -/
def readings (v : Visit) : List Reading := ofLines (fitting v.sent)

/-- More bytes have been sent. -/
def add (bytes : ByteArray) (v : Visit) : Visit := { v with sent := v.sent ++ bytes.data.toList }

/-- The controller hangs up. -/
def leave (v : Visit) : Visit := { v with left := true }

/-- The visits with a change to those of a peer. -/
def change (peer : String) (f : Visit → Visit) (visits : List Visit) : List Visit :=
  visits.map fun v ↦ if v.peer = peer then f v else v

/-- The visits whose turn has come: all that are over at the front, and the next. -/
def inTurn (visits : List Visit) : List Visit :=
  visits.takeWhile isOver ++ (visits.dropWhile isOver).take 1

theorem inTurn_of_over {v : Visit} (ended : v.isOver = true) (rest : List Visit) :
    inTurn (v :: rest) = v :: inTurn rest := by
  rw [inTurn, List.takeWhile_cons_of_pos ended, List.dropWhile_cons_of_pos ended, inTurn,
    List.cons_append]

theorem inTurn_of_on {v : Visit} (on : v.isOver = false) (rest : List Visit) :
    inTurn (v :: rest) = [v] := by
  have on' := Bool.eq_false_iff.1 on
  rw [inTurn, List.takeWhile_cons_of_neg on', List.dropWhile_cons_of_neg on']
  rfl

/-- The lines that have been completed by more bytes. -/
theorem flatMap_readings_add (v : Visit) (past : List Visit) (bytes : ByteArray) :
    (past ++ [v.add bytes]).flatMap readings = (past ++ [v]).flatMap readings ++
      ofLines (fitting (pending v.sent ++ bytes.data.toList)) := by
  rw [List.flatMap_append, List.flatMap_append, List.flatMap_singleton, List.flatMap_singleton,
    readings, readings, add, fitting_append, ofLines_append, List.append_assoc]

/-- No line is completed by a controller that hangs up. -/
theorem flatMap_readings_leave (v : Visit) (past : List Visit) :
    (past ++ [v.leave]).flatMap readings = (past ++ [v]).flatMap readings := by
  rw [List.flatMap_append, List.flatMap_append]
  rfl

theorem change_of_absent {peer : String} {visits : List Visit}
    (absent : ∀ v ∈ visits, v.peer ≠ peer) (f : Visit → Visit) : change peer f visits = visits :=
  (List.map_congr_left fun v listed ↦ if_neg (absent v listed)).trans (List.map_id _)

theorem map_peer_change {f : Visit → Visit} (keeps : ∀ v, (f v).peer = v.peer) (peer : String)
    (visits : List Visit) : (change peer f visits).map Visit.peer = visits.map Visit.peer := by
  rw [change, List.map_map]
  refine List.map_congr_left fun v _ ↦ ?_
  rw [Function.comp_apply]
  split
  · exact keeps v
  · rfl

end Visit

/-- The visits to a listener, in the order in which the controllers have connected. -/
structure Visits where
  /-- Those that are over. -/
  past : List Visit := []
  /-- Those that are not; the first is served and the others wait. -/
  present : List Visit := []

namespace Visits

/-- All visits. -/
def all (visits : Visits) : List Visit := visits.past ++ visits.present

/-- The visits whose turn has come. -/
def served (visits : Visits) : List Visit := visits.past ++ visits.present.take 1

/-- Their lines, one visit after the other. -/
def lines (visits : Visits) : List Reading := visits.served.flatMap Visit.readings

/-- The visits that wait for their turn. -/
def waiting (visits : Visits) : List Visit := visits.present.tail

/-- Visits at the front that are over have passed. -/
def settle (visits : Visits) : Visits where
  past := visits.past ++ visits.present.takeWhile Visit.isOver
  present := visits.present.dropWhile Visit.isOver

/-- The visits after one step. Nothing comes from a controller that is not connected. -/
def record (visits : Visits) : CallerStep → Visits
  | .connect peer =>
    if visits.present.any fun v ↦ v.peer = peer then visits
    else { visits with present := visits.present ++ [{ peer }] }
  | .send peer bytes =>
    settle { visits with present := Visit.change peer (Visit.add bytes) visits.present }
  | .hangUp peer =>
    settle { visits with present := Visit.change peer Visit.leave visits.present }

/-- The visits after some steps. -/
def after (visits : Visits) (steps : List CallerStep) : Visits := steps.foldl record visits

/-- Nobody hangs up before it has been served. -/
def Patient : Visits → List CallerStep → Prop
  | _, [] => True
  | visits, step :: steps =>
    (∀ peer, step = .hangUp peer → ∀ v ∈ visits.waiting, v.peer ≠ peer) ∧
      Patient (visits.record step) steps

theorem served_settle (visits : Visits) :
    visits.settle.served = visits.past ++ Visit.inTurn visits.present := by
  rw [served, settle, List.append_assoc, Visit.inTurn]

theorem settle_of_on {past rest : List Visit} {v : Visit} (on : v.isOver = false) :
    settle ⟨past, v :: rest⟩ = ⟨past, v :: rest⟩ := by
  have on' := Bool.eq_false_iff.1 on
  rw [settle, List.takeWhile_cons_of_neg on', List.dropWhile_cons_of_neg on', List.append_nil]

theorem settle_nil (past : List Visit) : settle ⟨past, []⟩ = ⟨past, []⟩ := by
  rw [settle, List.takeWhile_nil, List.append_nil, List.dropWhile_nil]

/-- The turn of the first visit has come in any case. -/
theorem exists_lines_settle (past : List Visit) (v : Visit) (rest : List Visit) :
    ∃ more, (settle ⟨past, v :: rest⟩).lines = (past ++ [v]).flatMap Visit.readings ++ more := by
  rw [lines, served_settle]
  cases ended : v.isOver with
  | true =>
    rw [Visit.inTurn_of_over ended, List.append_cons past, List.flatMap_append]
    exact ⟨_, rfl⟩
  | false =>
    rw [Visit.inTurn_of_on ended]
    exact ⟨[], (List.append_nil _).symm⟩

/-- Where visits only grow, no line of them is lost. -/
theorem lines_prefix_change (visits : Visits) (peer : String) {f : Visit → Visit}
    (grows : ∀ v, v.readings <+: (f v).readings) :
    visits.lines <+:
      (settle { visits with present := Visit.change peer f visits.present }).lines := by
  obtain ⟨past, present⟩ := visits
  cases present with
  | nil =>
    rw [Visit.change, List.map_nil, settle_nil]
  | cons v rest =>
    rw [Visit.change, List.map_cons, ← Visit.change]
    obtain ⟨more, lines⟩ :=
      exists_lines_settle past (if v.peer = peer then f v else v) (Visit.change peer f rest)
    have first : v.readings <+: (if v.peer = peer then f v else v).readings := by
      split
      · exact grows v
      · exact List.prefix_rfl
    rw [lines, List.flatMap_append, List.flatMap_singleton]
    refine List.IsPrefix.trans ?_ (List.prefix_append ..)
    rw [Visits.lines, served, List.flatMap_append]
    exact (List.prefix_append_right_inj _).2 ((List.flatMap_singleton ..).symm ▸ first)

theorem lines_prefix_record (visits : Visits) (step : CallerStep) :
    visits.lines <+: (visits.record step).lines := by
  cases step with
  | connect peer =>
    rw [record]
    split
    · exact List.prefix_rfl
    · obtain ⟨past, present⟩ := visits
      cases present with
      | nil =>
        rw [lines, lines, served, served, List.flatMap_append, List.flatMap_append]
        exact List.prefix_rfl
      | cons v rest => exact List.prefix_rfl
  | send peer bytes =>
    refine visits.lines_prefix_change peer fun v ↦ ?_
    rw [Visit.readings, Visit.readings, Visit.add, fitting_append, ofLines_append]
    exact List.prefix_append ..
  | hangUp peer => exact visits.lines_prefix_change peer fun _ ↦ List.prefix_rfl

theorem lines_prefix_after (visits : Visits) (steps : List CallerStep) :
    visits.lines <+: (visits.after steps).lines := by
  induction steps generalizing visits with
  | nil => exact List.prefix_rfl
  | cons step steps ih => exact (visits.lines_prefix_record step).trans (ih (visits.record step))

end Visits

/-! ### Turns -/

/-- A visit and what the controller has been told. -/
structure Turn where
  visit : Visit
  replies : List Message

namespace Turn

/-- The lines that are written to the controller, and whether its connection is closed. -/
def outputs (t : Turn) : List ListenerOutput :=
  t.replies.map (fun reply ↦ .line t.visit.peer reply.encode) ++
    if oversized t.visit.sent then [.closed t.visit.peer] else []

variable {σ : Type} (h : Handler σ) (state : σ)

/-- What comes of visits one after the other; the state goes from each to the next. -/
def ofVisits (state : σ) : List Visit → List Turn
  | [] => []
  | v :: rest =>
    ⟨v, h.replies state v.readings⟩ :: ofVisits (h.after state v.readings) rest

theorem ofVisits_append (left right : List Visit) :
    ofVisits h state (left ++ right) =
      ofVisits h state left ++ ofVisits h (h.after state (left.flatMap Visit.readings)) right := by
  induction left generalizing state with
  | nil => rfl
  | cons v left ih =>
    rw [List.cons_append, ofVisits, ih, ofVisits, List.flatMap_cons, Handler.after_append,
      List.cons_append]

/-- What a listener puts out that has these visits one after the other. -/
def talk (visits : List Visit) : List ListenerOutput := (ofVisits h state visits).flatMap outputs

theorem talk_append (left right : List Visit) :
    talk h state (left ++ right) =
      talk h state left ++ talk h (h.after state (left.flatMap Visit.readings)) right := by
  rw [talk, ofVisits_append, List.flatMap_append, talk, talk]

theorem talk_cons (v : Visit) (rest : List Visit) :
    talk h state (v :: rest) =
      outputs ⟨v, h.replies state v.readings⟩ ++ talk h (h.after state v.readings) rest := by
  rw [talk, ofVisits, List.flatMap_cons, talk]

theorem talk_singleton (v : Visit) :
    talk h state [v] = outputs ⟨v, h.replies state v.readings⟩ := by
  rw [talk_cons]
  exact List.append_nil _

/-- What comes of more bytes in the last visit. -/
theorem talk_add (past : List Visit) {v : Visit} (within : oversized v.sent = false)
    (bytes : ByteArray) :
    talk h state (past ++ [v.add bytes]) =
      talk h state (past ++ [v]) ++
        ((h.replies (h.after state ((past ++ [v]).flatMap Visit.readings))
            (ofLines (fitting (pending v.sent ++ bytes.data.toList)))).map
              (fun reply ↦ .line v.peer reply.encode) ++
          if oversized (pending v.sent ++ bytes.data.toList) then [.closed v.peer] else []) := by
  rw [talk_append, talk_append, talk_singleton, talk_singleton, outputs, outputs, within,
    if_neg Bool.false_ne_true, List.append_nil, Visit.add, Visit.readings, oversized_append,
    fitting_append, ofLines_append, Handler.replies_append, List.map_append, List.flatMap_append,
    List.flatMap_singleton, Handler.after_append, Visit.readings]
  simp only [List.append_assoc]

theorem talk_leave (past : List Visit) (v : Visit) :
    talk h state (past ++ [v.leave]) = talk h state (past ++ [v]) := by
  rw [talk_append, talk_append]
  rfl

/-- Each controller is written the replies to its own lines. -/
theorem linesTo_flatMap_outputs (peer : String) (turns : List Turn) :
    ListenerOutput.linesTo peer (turns.flatMap outputs) =
      (turns.filter fun t ↦ t.visit.peer = peer).flatMap fun t ↦
        t.replies.map Message.encode := by
  induction turns with
  | nil => rfl
  | cons t turns ih =>
    have first : ListenerOutput.linesTo peer t.outputs =
        if t.visit.peer = peer then t.replies.map Message.encode else [] := by
      have closed : ListenerOutput.linesTo peer
          (if oversized t.visit.sent then [.closed t.visit.peer] else []) = [] := by
        split <;> rfl
      rw [ListenerOutput.linesTo] at closed
      rw [ListenerOutput.linesTo, outputs, List.filterMap_append, closed, List.append_nil,
        List.filterMap_map]
      by_cases own : t.visit.peer = peer <;> simp [own]
    rw [ListenerOutput.linesTo] at first ih
    rw [ListenerOutput.linesTo, List.flatMap_cons, List.filterMap_append, first, ih]
    by_cases own : t.visit.peer = peer <;> simp [own]

/-- A connection is closed for a line over the limit that has come over it. -/
theorem closed_mem_talk_iff (peer : String) (visits : List Visit) :
    .closed peer ∈ talk h state visits ↔ ∃ v ∈ visits, v.peer = peer ∧ oversized v.sent = true := by
  induction visits generalizing state with
  | nil => simp [talk, ofVisits]
  | cons v rest ih =>
    rw [talk_cons, List.mem_append, ih, List.exists_mem_cons_iff, outputs]
    refine or_congr_left ?_
    cases oversized v.sent <;> simp [eq_comm]

theorem answered_ofVisits (visits : List Visit) :
    ∀ t ∈ ofVisits h state visits,
      List.Forall₂ IsAnswered (t.visit.readings.filter asksReply) t.replies := by
  induction visits generalizing state with
  | nil => nofun
  | cons v rest ih => exact List.forall_mem_cons.2 ⟨h.forall₂_replies state _, ih _⟩

end Turn

end ShowControl
