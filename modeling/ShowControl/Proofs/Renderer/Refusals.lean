import ShowControl.Proofs.Renderer.Commands

/-!
# Refused commands leave no trace

A command that is refused leaves the state as it was, so that whatever is sent behind it meets the
state that it would have met without it. Over a run this is a statement about exchanges, messages
with the answers to them: those that leave the state alone may be taken out, and the rest is a run
of its own, with the same answers and the same state in the end (`Handler.run_filter_exchanges`).

For a renderer `Stage.refusals_traceless` says it of the refused commands, together with which
commands these are.
-/

namespace ShowControl

/-- The answer is an error. -/
def isRefusal (answer : Option Message) : Bool := answer.any fun reply ↦ reply.type = .error

namespace Handler

variable {σ : Type} {h : Handler σ} {s : σ} {m : Message}

/-- The messages of a run with the answers to them. -/
def exchanges (h : Handler σ) (s : σ) (messages : List Message) : List (Message × Option Message) :=
  messages.zip (h.run s messages).2

theorem exchanges_cons (h : Handler σ) (s : σ) (m : Message) (messages : List Message) :
    h.exchanges s (m :: messages) =
      (m, (h.dispatch s m).2) :: h.exchanges (h.dispatch s m).1 messages := by
  rw [exchanges, run_cons, List.zip_cons_cons, exchanges]

/-- Exchanges that leave the state alone may be taken out of a run. -/
theorem run_filter_exchanges {keep : Message × Option Message → Bool}
    (idle : ∀ s m, keep (m, (h.dispatch s m).2) = false → (h.dispatch s m).1 = s) (s : σ)
    (messages : List Message) :
    h.run s (((h.exchanges s messages).filter keep).map Prod.fst) =
      ((h.run s messages).1, ((h.exchanges s messages).filter keep).map Prod.snd) := by
  induction messages generalizing s with
  | nil => rfl
  | cons m messages ih =>
    rw [exchanges_cons, run_cons]
    by_cases kept : keep (m, (h.dispatch s m).2) = true
    · rw [List.filter_cons_of_pos kept, List.map_cons, run_cons, ih, List.map_cons]
    · have same := idle s m (Bool.eq_false_iff.2 kept)
      rw [List.filter_cons_of_neg kept, same]
      exact ih s

end Handler

namespace Stage

/-- What refused commands do to a stage: nothing. -/
structure Traceless (s : Stage) : Prop where
  /-- These are the commands that are refused, and the texts that they are refused with. -/
  refused_iff : ∀ m text, (Handler.stage.dispatch s m).2 = some (.error m.commandId text) ↔
    ∃ reason, s.Refuses m.payload reason ∧ reason.message = text
  refused : ∀ m, isRefusal (Handler.stage.dispatch s m).2 = true →
    (Handler.stage.dispatch s m).1 = s
  /-- A hello changes nothing either, and a reply does not. -/
  passive : ∀ m, m.type = .hello ∨ m.type = .ack ∨ m.type = .error →
    (Handler.stage.dispatch s m).1 = s
  /-- Without its refused commands a run comes to the same, and all others are answered the same. -/
  deleted : ∀ messages,
    let kept := (messages.zip (Handler.stage.run s messages).2).filter fun exchange ↦
      !isRefusal exchange.2
    Handler.stage.run s (kept.map Prod.fst) =
      ((Handler.stage.run s messages).1, kept.map Prod.snd)

variable {s : Stage} {m : Message}

/-- An acknowledgment is no refusal. -/
theorem not_isRefusal_ackFor : isRefusal (some m.ackFor) = false := rfl

theorem dispatch_of_isRefusal (refused : isRefusal (Handler.stage.dispatch s m).2 = true) :
    (Handler.stage.dispatch s m).1 = s := by
  have outcome := s.dispatch_cases m
  generalize Handler.stage.dispatch s m = result at outcome refused ⊢
  cases outcome with
  | accepted accepts => exact absurd refused (Bool.eq_false_iff.1 not_isRefusal_ackFor)
  | refused refuses => rfl
  | silent reply => rfl

theorem dispatch_of_hello (hello : m.type = .hello) : (Handler.stage.dispatch s m).1 = s := by
  obtain ⟨commandId, payload⟩ := m
  cases payload with
  | hello hello => rfl
  | _ => cases hello

/-- A command is answered by an error exactly if it is refused for the reason that is told. -/
theorem dispatch_eq_error_iff {text : String} :
    (Handler.stage.dispatch s m).2 = some (.error m.commandId text) ↔
      ∃ reason, s.Refuses m.payload reason ∧ reason.message = text := by
  constructor
  · intro answered
    have outcome := s.dispatch_cases m
    generalize Handler.stage.dispatch s m = result at outcome answered
    cases outcome with
    | accepted accepts => cases answered
    | refused refuses =>
      cases answered
      exact ⟨_, refuses, rfl⟩
    | silent reply => cases answered
  · rintro ⟨reason, refuses, rfl⟩
    rw [dispatch_of_refuses refuses]
    rfl

/-- Refused commands leave no trace in a renderer, in whatever state it is. -/
theorem refusals_traceless (s : Stage) : s.Traceless where
  refused_iff _ _ := dispatch_eq_error_iff
  refused _ := dispatch_of_isRefusal
  passive m passive := by
    rcases passive with hello | reply
    · exact dispatch_of_hello hello
    · rw [Handler.dispatch_of_silent (Reading.asksReply_eq_false_iff.2 reply)]
  deleted messages := by
    refine Handler.run_filter_exchanges (fun s m dropped ↦ dispatch_of_isRefusal ?_) s messages
    exact (Bool.not_eq_false' ..).mp dropped

end Stage

end ShowControl
