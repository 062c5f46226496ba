import ShowControl.Proofs.Registry.Greeting

/-!
# How a handshake goes

A peer connects, and from then on others connect and go, messages are sent, and now and then bytes
of the peer arrive. As long as these hold no line the registry waits in silence (`Visit.awaits`).
The first line settles the handshake, whatever stands before it, behind it, or in which pieces it
comes (`Visit.settled`); and if the connection is lost before, nobody hears of it (`Visit.lost`).
If the peer cannot be told, because it is blocked or the reply is too large, that ends the
connection (`Visit.unanswered`). These make up `run_handshake`.

All verdicts that a line can be given are those of `Verdict.ofLine`, because the table is open for
as long as the registry listens (`Admits`): a registry that is shutting down has no connections.
-/

namespace ShowControl

open Splitter RegistryOutput

/-! ### What a peer says -/

namespace RegistryStep

/-- The bytes that a step brings from a peer. -/
def bytesFrom (peer : String) : RegistryStep → List UInt8
  | .receive other bytes => if other = peer then bytes.data.toList else []
  | _ => []

/-- The step ends a connection in the greeting, whatever has arrived from the peer. -/
def Interrupts (peer : String) : RegistryStep → Prop
  | .stop => True
  | .hangUp other => other = peer
  | .timeOut other => other = peer
  | _ => False

/-- The step ends a connection in the greeting without an answer: the peer hangs up, the registry
stops, or behind the bytes `heard` the peer sends a segment over the limit and no line before it. -/
def Loses (peer : String) (heard : List UInt8) : RegistryStep → Prop
  | .stop => True
  | .hangUp other => other = peer
  | .receive other bytes => other = peer ∧
      contents (fitting (heard ++ bytes.data.toList)) = [] ∧
      oversized (heard ++ bytes.data.toList) = true
  | _ => False

variable {step : RegistryStep} {peer other : String}

theorem bytesFrom_of_owner (owner : step.peer? = none) : step.bytesFrom peer = [] := by
  cases step <;> first | rfl | cases owner

theorem bytesFrom_of_ne (about : step.peer? = some other) (ne : other ≠ peer) :
    step.bytesFrom peer = [] := by
  cases step <;> first | rfl | (cases about; exact if_neg ne)

end RegistryStep

/-- The bytes that arrive from a peer during some steps. -/
def said (peer : String) (steps : List RegistryStep) : List UInt8 :=
  steps.flatMap (·.bytesFrom peer)

/-- No line has arrived from the peer, and it may still send one. -/
structure Undecided (peer : String) (steps : List RegistryStep) : Prop where
  uninterrupted : ∀ step ∈ steps, ¬step.Interrupts peer
  blank : contents (fitting (said peer steps)) = []
  within : oversized (said peer steps) = false

/-- After some of the steps the first line of a peer arrives: some bytes complete it, and they
complete the lines `more` behind it. -/
structure FirstLine (peer : String) (steps quiet : List RegistryStep) (bytes : ByteArray)
    (rest : List RegistryStep) (line : List UInt8) (more : List (List UInt8)) : Prop where
  split : steps = quiet ++ .receive peer bytes :: rest
  undecided : Undecided peer quiet
  arrives : contents (fitting (said peer quiet ++ bytes.data.toList)) = line :: more

section Said

variable {peer : String} {steps first second : List RegistryStep}

theorem said_append (peer : String) (first second : List RegistryStep) :
    said peer (first ++ second) = said peer first ++ said peer second :=
  List.flatMap_append

theorem said_singleton (peer : String) (step : RegistryStep) :
    said peer [step] = step.bytesFrom peer := by
  rw [said, List.flatMap_singleton]

theorem Undecided.left (h : Undecided peer (first ++ second)) : Undecided peer first := by
  obtain ⟨uninterrupted, blank, within⟩ := h
  rw [said_append] at blank within
  refine ⟨fun step mem ↦ uninterrupted step (List.mem_append_left _ mem), ?_, ?_⟩
  · rw [contents_fitting_append] at blank
    exact (List.append_eq_nil_iff.1 blank).1
  · by_contra overrun
    rw [Bool.not_eq_false] at overrun
    rw [oversized_append_of_oversized overrun] at within
    cases within

/-- A step that brings nothing from the peer and does not end its connection decides nothing. -/
theorem Undecided.append_singleton (h : Undecided peer steps) {step : RegistryStep}
    (goes_on : ¬step.Interrupts peer) (unsaid : step.bytesFrom peer = []) :
    Undecided peer (steps ++ [step]) := by
  have same : said peer (steps ++ [step]) = said peer steps := by
    rw [said_append, said_singleton, unsaid, List.append_nil]
  refine ⟨?_, by rw [same, h.blank], by rw [same, h.within]⟩
  rw [List.forall_mem_append, List.forall_mem_singleton]
  exact ⟨h.uninterrupted, goes_on⟩

/-- The four things that a step may do to a handshake. -/
theorem Undecided.step (h : Undecided peer steps) (step : RegistryStep) :
    Undecided peer (steps ++ [step]) ∨ step = .timeOut peer ∨ step.Loses peer (said peer steps) ∨
      ∃ bytes line more, step = .receive peer bytes ∧
        contents (fitting (said peer steps ++ bytes.data.toList)) = line :: more := by
  cases step with
  | start bound => exact .inl (h.append_singleton id rfl)
  | stop => exact .inr (.inr (.inl trivial))
  | accept other => exact .inl (h.append_singleton id rfl)
  | receive other bytes =>
    by_cases same : other = peer
    · subst same
      rcases lines : contents (fitting (said other steps ++ bytes.data.toList)) with
        _ | ⟨line, more⟩
      · by_cases overrun : oversized (said other steps ++ bytes.data.toList) = true
        · exact .inr (.inr (.inl ⟨rfl, lines, overrun⟩))
        · have all : said other (steps ++ [.receive other bytes]) =
              said other steps ++ bytes.data.toList := by
            rw [said_append, said_singleton, RegistryStep.bytesFrom, if_pos rfl]
          refine .inl ⟨?_, by rw [all, lines], by rw [all, Bool.eq_false_iff.2 overrun]⟩
          rw [List.forall_mem_append, List.forall_mem_singleton]
          exact ⟨h.uninterrupted, id⟩
      · exact .inr (.inr (.inr ⟨bytes, line, more, rfl, lines⟩))
    · exact .inl (h.append_singleton id (if_neg same))
  | hangUp other =>
    by_cases same : other = peer
    · exact .inr (.inr (.inl same))
    · exact .inl (h.append_singleton same rfl)
  | block other fault => exact .inl (h.append_singleton id rfl)
  | timeOut other =>
    by_cases same : other = peer
    · exact .inr (.inl (by rw [same]))
    · exact .inl (h.append_singleton same rfl)
  | send name m => exact .inl (h.append_singleton id rfl)
  | broadcast m => exact .inl (h.append_singleton id rfl)

theorem Undecided.nil (peer : String) : Undecided peer [] :=
  ⟨fun _ mem ↦ absurd mem List.not_mem_nil, rfl, rfl⟩

/-- Where a connection may be lost without an interruption, no line arrives. -/
theorem contents_said_of_loses {step : RegistryStep} (loses : step.Loses peer (said peer steps))
    (goes_on : ¬step.Interrupts peer) : contents (fitting (said peer (steps ++ [step]))) = [] := by
  cases step with
  | receive other bytes =>
    obtain ⟨rfl, blank, -⟩ := loses
    rwa [said_append, said_singleton, RegistryStep.bytesFrom, if_pos rfl]
  | stop => exact absurd trivial goes_on
  | hangUp other => exact absurd loses goes_on
  | start bound => exact loses.elim
  | accept other => exact loses.elim
  | block other fault => exact loses.elim
  | timeOut other => exact loses.elim
  | send name m => exact loses.elim
  | broadcast m => exact loses.elim

/-- The first line among all that the peer says arrives at some step. -/
theorem exists_firstLine (uninterrupted : ∀ step ∈ steps, ¬step.Interrupts peer)
    {line : List UInt8} {more : List (List UInt8)}
    (lines : contents (fitting (said peer steps)) = line :: more) :
    ∃ quiet bytes rest more', FirstLine peer steps quiet bytes rest line more' := by
  induction steps using List.reverseRecOn generalizing more with
  | nil => cases lines
  | append_singleton steps step ih =>
    obtain ⟨uninterrupted, goes_on⟩ := List.forall_mem_append.1 uninterrupted
    rw [List.forall_mem_singleton] at goes_on
    rcases before : contents (fitting (said peer steps)) with _ | ⟨line', more'⟩
    · have within : oversized (said peer steps) = false := by
        by_contra overrun
        rw [Bool.not_eq_false] at overrun
        rw [said_append, fitting_append_of_oversized overrun, before] at lines
        cases lines
      have undecided : Undecided peer steps := ⟨uninterrupted, before, within⟩
      rcases undecided.step step with still | rfl | loses | ⟨bytes, line', more', rfl, arrives⟩
      · rw [still.blank] at lines
        cases lines
      · exact absurd rfl goes_on
      · rw [contents_said_of_loses loses goes_on] at lines
        cases lines
      · obtain ⟨rfl, -⟩ : line' = line ∧ more' = more := by
          rw [said_append, said_singleton, RegistryStep.bytesFrom, if_pos rfl, arrives] at lines
          exact List.cons.inj lines
        exact ⟨steps, bytes, [], more', rfl, undecided, arrives⟩
    · -- it has arrived before
      obtain ⟨rfl, -⟩ : line' = line ∧ _ := by
        rw [said_append, contents_fitting_append, before, List.cons_append] at lines
        exact List.cons.inj lines
      obtain ⟨quiet, bytes, rest, more'', split, undecided, arrives⟩ := ih uninterrupted before
      refine ⟨quiet, bytes, rest ++ [step], more'', ?_, undecided, arrives⟩
      rw [split, List.append_assoc, List.cons_append]

end Said

namespace Registry

variable {r r' : Registry} {peer : String} {heard : List UInt8}

/-! ### Steps of a handshake -/

theorem Awaits.standing?_eq (h : r.Awaits peer heard) : r.standing? peer = some .greeting := by
  obtain ⟨⟨c, found, waiting, -⟩, -⟩ := h
  exact standing?_eq_some_iff.2 ⟨c, found, waiting⟩

theorem Awaits.not_isRegistered (h : r.Awaits peer heard) (name : String) :
    ¬r.IsRegistered peer name := by
  rw [← standing?_eq_registered_iff, h.standing?_eq]
  simp

theorem Awaits.congr (h : r.Awaits peer heard)
    (same : r'.connections.find? peer = r.connections.find? peer) : r'.Awaits peer heard := by
  obtain ⟨⟨c, found, waiting⟩, blank⟩ := h
  exact ⟨⟨c, same.trans found, waiting⟩, blank⟩

/-- A connection that is blocked is waited for as before. -/
theorem Awaits.block (h : r.Awaits peer heard) (fault : WriteError) :
    (r.block peer fault).Awaits peer heard := by
  obtain ⟨⟨c, found, waiting⟩, blank⟩ := h
  refine ⟨⟨{ c with fault := some fault }, ?_, waiting⟩, blank⟩
  rw [find?_block, if_pos rfl, found, Option.map_some]

/-- What a step of the owner reports is not reported of a connection in the greeting. -/
theorem Awaits.contributed_of_owner (h : r.Awaits peer heard) {step : RegistryStep}
    (owner : step.peer? = none) : RegistryMoment.contributed ⟨r, step⟩ peer = [] := by
  rw [RegistryMoment.contributed_of_owner owner]
  dsimp only
  rw [h.standing?_eq]

/-- A step of the peer itself that neither ends the connection nor brings a line says nothing. -/
theorem Awaits.step_of_peer (awaits : r.Awaits peer heard) {step : RegistryStep}
    (about : step.peer? = some peer) (once : ¬RegistryMoment.Connects ⟨r, step⟩ peer)
    (goes_on : ¬step.Interrupts peer)
    (blank : contents (fitting (heard ++ step.bytesFrom peer)) = [])
    (within : oversized (heard ++ step.bytesFrom peer) = false) :
    (r.step step).1.Awaits peer (heard ++ step.bytesFrom peer) ∧
      linesTo peer (r.step step).2.outputs = [] ∧ RegistryMoment.told ⟨r, step⟩ = [] := by
  cases RegistryStep.isAbout about with
  | accept =>
    have refused : (r.accept peer).1 = r := accept_of_refused fun accepted ↦ once ⟨rfl, accepted⟩
    have unsaid : heard ++ RegistryStep.bytesFrom peer (.accept peer) = heard :=
      List.append_nil heard
    rw [unsaid]
    exact ⟨refused.symm ▸ awaits, rfl, rfl⟩
  | receive bytes =>
    rw [RegistryStep.bytesFrom, if_pos rfl] at blank within ⊢
    obtain ⟨silent, awaits'⟩ := awaits.receive_of_blank blank within
    refine ⟨awaits', ?_, ?_⟩
    · show linesTo peer (r.receive peer bytes).2 = []
      rw [silent]
      rfl
    · show events (r.receive peer bytes).2 = []
      rw [silent]
      rfl
  | hangUp =>
    exact absurd rfl goes_on
  | block fault =>
    have unsaid : heard ++ RegistryStep.bytesFrom peer (.block peer fault) = heard :=
      List.append_nil heard
    rw [unsaid]
    exact ⟨awaits.block fault, rfl, rfl⟩
  | timeOut =>
    exact absurd rfl goes_on

section Steps

variable (coherent : r.Coherent) (awaits : r.Awaits peer heard) {step : RegistryStep}
include coherent awaits

/-- A step that neither ends the connection nor brings a line says nothing. -/
theorem Coherent.awaits_step (once : ¬RegistryMoment.Connects ⟨r, step⟩ peer)
    (goes_on : ¬step.Interrupts peer)
    (blank : contents (fitting (heard ++ step.bytesFrom peer)) = [])
    (within : oversized (heard ++ step.bytesFrom peer) = false) :
    (r.step step).1.Awaits peer (heard ++ step.bytesFrom peer) ∧
      linesTo peer (r.step step).2.outputs = [] ∧
      RegistryMoment.contributed ⟨r, step⟩ peer = [] := by
  rcases about : step.peer? with _ | other
  · have goes_on' : step ≠ .stop := by
      rintro rfl
      exact goes_on trivial
    have same := coherent.find?_step_of_unregistered awaits.not_isRegistered about goes_on'
    rw [RegistryStep.bytesFrom_of_owner about, List.append_nil]
    exact ⟨awaits.congr same, coherent.linesTo_step_of_unregistered awaits.not_isRegistered about,
      awaits.contributed_of_owner about⟩
  · by_cases same : other = peer
    · subst same
      rw [RegistryMoment.contributed_of_peer about, if_pos rfl]
      exact awaits.step_of_peer about once goes_on blank within
    · rw [RegistryStep.bytesFrom_of_ne about same, List.append_nil,
        RegistryMoment.contributed_of_peer about, if_neg same]
      exact ⟨awaits.congr (find?_step_of_ne about same), linesTo_step_of_ne about same, rfl⟩

/-- Where a connection is lost before its first line, nobody is told. -/
theorem Coherent.awaits_loses (loses : step.Loses peer heard) :
    (r.step step).1.standing? peer = none ∧ linesTo peer (r.step step).2.outputs = [] ∧
      RegistryMoment.contributed ⟨r, step⟩ peer = [] := by
  obtain ⟨⟨c, found, waiting, -⟩, -⟩ := id awaits
  have gone : (r.without peer).standing? peer = none :=
    standing?_eq_none_iff.2 (Catalog.find?_erase_self ..)
  cases step with
  | stop =>
    refine ⟨?_, linesTo_stop r peer, awaits.contributed_of_owner rfl⟩
    have running : r.isRunning = true := Option.isSome_iff_ne_none.2 (coherent.port_ne_none found)
    show r.stop.1.standing? peer = none
    rw [stop_of_running running]
    rfl
  | hangUp other =>
    obtain rfl : other = peer := loses
    have ended : r.hangUp other = (r.without other, []) := forget_greeting found waiting
    rw [RegistryMoment.contributed_of_peer rfl, if_pos rfl]
    show (r.hangUp other).1.standing? other = none ∧ linesTo other (r.hangUp other).2 = [] ∧
      events (r.hangUp other).2 = []
    rw [ended]
    exact ⟨gone, rfl, rfl⟩
  | receive other bytes =>
    obtain ⟨rfl, blank, overrun⟩ := loses
    rw [RegistryMoment.contributed_of_peer rfl, if_pos rfl]
    show (r.receive other bytes).1.standing? other = none ∧
      linesTo other (r.receive other bytes).2 = [] ∧ events (r.receive other bytes).2 = []
    rw [awaits.receive_of_oversized blank overrun]
    exact ⟨gone, rfl, rfl⟩
  | start bound => exact loses.elim
  | accept other => exact loses.elim
  | block other fault => exact loses.elim
  | timeOut other => exact loses.elim
  | send name m => exact loses.elim
  | broadcast m => exact loses.elim

end Steps

/-! ### Visits -/

section Visits

variable {before after quiet rest : List RegistryStep} {line : List UInt8}
variable {more : List (List UInt8)} {bytes : ByteArray}

/-- As long as a handshake is undecided the registry waits in silence. -/
theorem Visit.awaits (visit : Visit peer before quiet) (undecided : Undecided peer quiet) :
    ((entered before peer).run quiet).1.Awaits peer (said peer quiet) ∧
      linesTo peer ((entered before peer).outputs quiet) = [] ∧
      (entered before peer).contributions peer quiet = [] := by
  induction quiet using List.reverseRecOn with
  | nil => exact ⟨⟨⟨{}, visit.find?_entered, rfl, Inbox.holds_empty⟩, rfl⟩, rfl, rfl⟩
  | append_singleton quiet step ih =>
    obtain ⟨awaits, silent, unreported⟩ := ih visit.left undecided.left
    have coherent := (coherent_entered before peer).run quiet
    obtain ⟨uninterrupted, blank, within⟩ := undecided
    rw [said_append, said_singleton] at blank within ⊢
    obtain ⟨awaits', silent', unreported'⟩ := coherent.awaits_step awaits
      (visit.once_right _ List.mem_cons_self) (uninterrupted step (by simp)) blank within
    rw [run_append, outputs_append, linesTo_append, silent, contributions_append, unreported]
    refine ⟨awaits', ?_, ?_⟩
    · rw [outputs_cons, linesTo_append, silent']
      rfl
    · rw [contributions_cons, unreported']
      rfl

/-- A connection that is lost before its first line is told nothing, then or later, and nothing is
reported of it. -/
theorem Visit.lost (visit : Visit peer before after) {step : RegistryStep}
    (split : after = quiet ++ step :: rest) (undecided : Undecided peer quiet)
    (loses : step.Loses peer (said peer quiet)) :
    linesTo peer ((entered before peer).outputs after) = [] ∧
      (entered before peer).contributions peer after = [] := by
  subst split
  obtain ⟨awaits, silent, unreported⟩ := visit.left.awaits undecided
  have coherent := (coherent_entered before peer).run quiet
  obtain ⟨ended, silent', unreported'⟩ := coherent.awaits_loses awaits loses
  have once := (List.forall_mem_cons.1 visit.once_right).2
  have later := ((coherent.step step).course_run rest once).closed ended
  constructor
  · rw [outputs_append, linesTo_append, silent, outputs_cons, linesTo_append, silent',
      (coherent.step step).linesTo_outputs_of_closed ended once]
    rfl
  · rw [contributions_append, unreported, contributions_cons, unreported', later.1]
    rfl

/-- The verdict on a line that arrives after some steps of a visit. -/
def verdictOn (before : List RegistryStep) (peer : String) (quiet : List RegistryStep)
    (line : List UInt8) : Verdict :=
  Verdict.ofLine ((entered before peer).run quiet).1.names line

/-- What the first line of a visit comes to. -/
structure Settled (peer : String) (before after quiet : List RegistryStep) (bytes : ByteArray)
    (rest : List RegistryStep) (line : List UInt8) (more : List (List UInt8)) : Prop where
  settles : ((entered before peer).run quiet).1.Settles peer more (verdictOn before peer quiet line)
    (oversized (said peer quiet ++ bytes.data.toList))
    (((entered before peer).run quiet).1.receive peer bytes)
  /-- The reply is all that is written to the peer, as long as no messages are sent. -/
  replied : (∀ step ∈ rest, step.message? = none) →
    linesTo peer ((entered before peer).outputs after) =
      [(verdictOn before peer quiet line).reply.encode]
  /-- A refusal is all that is written to the peer and all that is reported of it, ever. -/
  refused : ∀ commandId text, verdictOn before peer quiet line = .refused commandId text →
    linesTo peer ((entered before peer).outputs after) = [(Message.error commandId text).encode] ∧
      (entered before peer).contributions peer after = [.rejected text]

theorem Settles.linesTo_eq {verdict : Verdict} {overrun : Bool}
    {result : Registry × List RegistryOutput} (h : r.Settles peer more verdict overrun result) :
    linesTo peer result.2 = [verdict.reply.encode] := by
  cases h with
  | refused commandId text =>
    rw [linesTo_line, if_pos rfl]
    rfl
  | welcomed commandId name i =>
    rw [linesTo_append, linesTo_events, List.append_nil, linesTo_line, if_pos rfl]
    rfl
  | overrun commandId name =>
    rw [linesTo_append, linesTo_append, linesTo_events, List.append_nil, linesTo_line, if_pos rfl]
    rfl

theorem Settles.decided {verdict : Verdict} {overrun : Bool}
    {result : Registry × List RegistryOutput} (h : r.Settles peer more verdict overrun result) :
    result.1.standing? peer ≠ some .greeting := by
  have gone : (r.without peer).standing? peer = none :=
    standing?_eq_none_iff.2 (Catalog.find?_erase_self ..)
  cases h with
  | refused commandId text => simp [gone]
  | welcomed commandId name i => simp [standing?_of_find? (find?_welcome r peer name i)]
  | overrun commandId name => simp [gone]

theorem Settles.eq_of_refused {commandId text : String} {overrun : Bool}
    {result : Registry × List RegistryOutput}
    (h : r.Settles peer more (.refused commandId text) overrun result) :
    result = (r.without peer, [.line peer (Message.error commandId text).encode, .closed peer,
      .event (.rejected text)]) := by
  cases h
  rfl

/-- Where a peer waits the table takes sessions. -/
theorem Visit.open_table (visit : Visit peer before quiet) (undecided : Undecided peer quiet) :
    ((entered before peer).run quiet).1.table.isClosed = false := by
  obtain ⟨⟨⟨c, found, -⟩, -⟩, -⟩ := visit.awaits undecided
  have coherent := (coherent_entered before peer).run quiet
  have running := Option.isSome_iff_ne_none.2 (coherent.port_ne_none found)
  exact ((admits_entered before peer).run quiet) running

/-- A reply can be written in a visit if it fits a frame and the peer has not been blocked. -/
theorem Visit.canWrite (visit : Visit peer before quiet) {m : Message} (small : m.Fits)
    (unblocked : Unblocked peer quiet) : ((entered before peer).run quiet).1.CanWrite peer m :=
  ⟨small, visit.fault?_eq_none unblocked⟩

/-- The first line settles the handshake of a visit. -/
theorem Visit.settles (visit : Visit peer before after)
    (first : FirstLine peer after quiet bytes rest line more) (unblocked : Unblocked peer quiet)
    (small : (verdictOn before peer quiet line).reply.Fits) :
    ((entered before peer).run quiet).1.Settles peer more (verdictOn before peer quiet line)
      (oversized (said peer quiet ++ bytes.data.toList))
      (((entered before peer).run quiet).1.receive peer bytes) := by
  obtain ⟨split, undecided, arrives⟩ := first
  subst split
  obtain ⟨awaits, -, -⟩ := visit.left.awaits undecided
  exact awaits.receive_of_first arrives (visit.left.open_table undecided)
    (visit.left.canWrite small unblocked) ((coherent_entered before peer).run quiet)

/-- The lines of a visit are the reply to its first line and those that follow. -/
theorem Visit.linesTo_eq (visit : Visit peer before after)
    (first : FirstLine peer after quiet bytes rest line more) (unblocked : Unblocked peer quiet)
    (small : (verdictOn before peer quiet line).reply.Fits) :
    linesTo peer ((entered before peer).outputs after) =
      (verdictOn before peer quiet line).reply.encode ::
        linesTo peer ((((entered before peer).run quiet).1.receive peer bytes).1.outputs rest) := by
  have settles := visit.settles first unblocked small
  obtain ⟨rfl, undecided, -⟩ := first
  obtain ⟨-, silent, -⟩ := visit.left.awaits undecided
  rw [outputs_append, linesTo_append, silent, outputs_cons, linesTo_append]
  show [] ++ (linesTo peer (((entered before peer).run quiet).1.receive peer bytes).2 ++ _) = _
  rw [settles.linesTo_eq]
  rfl

theorem Visit.settled (visit : Visit peer before after)
    (first : FirstLine peer after quiet bytes rest line more) (unblocked : Unblocked peer quiet)
    (small : (verdictOn before peer quiet line).reply.Fits) :
    Settled peer before after quiet bytes rest line more := by
  have settles := visit.settles first unblocked small
  have lines := visit.linesTo_eq first unblocked small
  have coherent' : (((entered before peer).run quiet).1.receive peer bytes).1.Coherent :=
    ((coherent_entered before peer).run quiet).step (.receive peer bytes)
  obtain ⟨rfl, undecided, -⟩ := first
  have once : ∀ moment ∈ (((entered before peer).run quiet).1.receive peer bytes).1.moments rest,
      ¬moment.Connects peer :=
    (List.forall_mem_cons.1 visit.once_right).2
  obtain ⟨awaits, -, unreported⟩ := visit.left.awaits undecided
  refine ⟨settles, fun unsent ↦ ?_, fun commandId text verdict ↦ ?_⟩
  · rw [lines, coherent'.linesTo_outputs_of_unsent settles.decided once unsent]
  · rw [verdict] at settles lines
    have received := settles.eq_of_refused
    have ended :
        (((entered before peer).run quiet).1.receive peer bytes).1.standing? peer = none := by
      rw [received]
      exact standing?_eq_none_iff.2 (Catalog.find?_erase_self ..)
    have told : RegistryMoment.contributed ⟨((entered before peer).run quiet).1,
        .receive peer bytes⟩ peer = [.rejected text] := by
      rw [RegistryMoment.contributed_of_peer rfl, if_pos rfl]
      show events (((entered before peer).run quiet).1.receive peer bytes).2 = _
      rw [received]
      rfl
    have later := (coherent'.course_run rest once).closed ended
    constructor
    · rw [lines, coherent'.linesTo_outputs_of_closed ended once]
      rfl
    · rw [contributions_append, unreported, contributions_cons, told]
      exact congrArg (RegistryEvent.rejected text :: ·) later.1

section Unanswered

variable (visit : Visit peer before after)
variable (first : FirstLine peer after quiet bytes rest line more)
variable (untold : ¬((verdictOn before peer quiet line).reply.Fits ∧ Unblocked peer quiet))
include visit first untold

/-- A peer that cannot be told the verdict on its first line is closed. -/
theorem Visit.receive_of_unanswered :
    ((entered before peer).run quiet).1.receive peer bytes =
      (((entered before peer).run quiet).1.without peer,
        .closed peer :: (verdictOn before peer quiet line).untold.map .event) := by
  obtain ⟨rfl, undecided, arrives⟩ := first
  obtain ⟨awaits, -, -⟩ := visit.left.awaits undecided
  refine awaits.receive_of_unwritten arrives (visit.left.open_table undecided) fun written ↦ ?_
  obtain ⟨⟨c, found, -⟩, -⟩ := id awaits
  have blocked : ¬Unblocked peer quiet := fun unblocked ↦ untold ⟨written.1, unblocked⟩
  exact (visit.left.muted blocked).not_canWrite found _ written

/-- It is told nothing, then or later, and at most its refusal is reported. -/
theorem Visit.unanswered :
    linesTo peer ((entered before peer).outputs after) = [] ∧
      (entered before peer).contributions peer after =
        (verdictOn before peer quiet line).untold := by
  have received := visit.receive_of_unanswered first untold
  have ended :
      (((entered before peer).run quiet).1.receive peer bytes).1.standing? peer = none := by
    rw [received]
    exact standing?_eq_none_iff.2 (Catalog.find?_erase_self ..)
  have coherent : (((entered before peer).run quiet).1.receive peer bytes).1.Coherent :=
    ((coherent_entered before peer).run quiet).step (.receive peer bytes)
  obtain ⟨rfl, undecided, -⟩ := first
  obtain ⟨-, silent, unreported⟩ := visit.left.awaits undecided
  have once := (List.forall_mem_cons.1 visit.once_right).2
  constructor
  · rw [outputs_append, linesTo_append, silent, outputs_cons, linesTo_append]
    show [] ++ (linesTo peer (((entered before peer).run quiet).1.receive peer bytes).2 ++
      linesTo peer ((((entered before peer).run quiet).1.receive peer bytes).1.outputs rest)) = []
    rw [coherent.linesTo_outputs_of_closed ended once, received]
    exact (List.append_nil _).trans (linesTo_events peer _)
  · have told : RegistryMoment.contributed ⟨((entered before peer).run quiet).1,
        .receive peer bytes⟩ peer = (verdictOn before peer quiet line).untold := by
      rw [RegistryMoment.contributed_of_peer rfl, if_pos rfl]
      show events (((entered before peer).run quiet).1.receive peer bytes).2 = _
      rw [received]
      exact events_map_event _
    have later := (coherent.course_run rest once).closed ended
    rw [contributions_append, unreported, contributions_cons, told]
    exact (congrArg (_ ++ ·) later.1).trans (List.append_nil _)

end Unanswered

/-- How a handshake goes. -/
structure Handshake (peer : String) (before after : List RegistryStep) : Prop where
  /-- While no line has arrived nothing is written to the peer and nothing is reported of it. -/
  silent : Undecided peer after →
    linesTo peer ((entered before peer).outputs after) = [] ∧
      (entered before peer).contributions peer after = []
  /-- If nothing interrupts the peer, its first line arrives. -/
  arrives : (∀ step ∈ after, ¬step.Interrupts peer) →
    ∀ line more, contents (fitting (said peer after)) = line :: more →
      ∃ quiet bytes rest more', FirstLine peer after quiet bytes rest line more'
  /-- When it arrives it settles the handshake, if the reply fits a frame and the peer has not been
  blocked. -/
  settled : ∀ quiet bytes rest line more, FirstLine peer after quiet bytes rest line more →
    Unblocked peer quiet → (verdictOn before peer quiet line).reply.Fits →
      Settled peer before after quiet bytes rest line more
  /-- Otherwise the peer is told nothing, and at most its refusal is reported. -/
  unanswered : ∀ quiet bytes rest line more, FirstLine peer after quiet bytes rest line more →
    ¬((verdictOn before peer quiet line).reply.Fits ∧ Unblocked peer quiet) →
      linesTo peer ((entered before peer).outputs after) = [] ∧
        (entered before peer).contributions peer after =
          (verdictOn before peer quiet line).untold
  /-- A connection that is lost before is told nothing, and nothing is reported of it. -/
  lost : ∀ quiet step rest, after = quiet ++ step :: rest → Undecided peer quiet →
    step.Loses peer (said peer quiet) →
      linesTo peer ((entered before peer).outputs after) = [] ∧
        (entered before peer).contributions peer after = []

/-- The handshake of every visit is decided by the first line of the peer alone. -/
theorem run_handshake (visit : Visit peer before after) : Handshake peer before after where
  silent undecided := (visit.awaits undecided).2
  arrives uninterrupted _ _ := exists_firstLine uninterrupted
  settled _ _ _ _ _ := visit.settled
  unanswered _ _ _ _ _ := visit.unanswered
  lost _ _ _ := visit.lost

/-- A hello behind a blank line that comes by itself is acknowledged. -/
theorem run_handshake_hello :
    let hello := Message.hello "cmd-1" "renderer" "left"
    let pieces : List RegistryStep :=
      [.receive "peer" [carriageReturn, lineFeed].toByteArray, .receive "peer" hello.frame]
    Visit "peer" [.start (some 4455)] pieces ∧
      linesTo "peer" ((entered [.start (some 4455)] "peer").outputs pieces) =
        [(Message.ack "cmd-1").encode] := by
  intro hello pieces
  have visit : Visit "peer" [.start (some 4455)] pieces :=
    ⟨by decide +kernel, not_connects (by simp [pieces])⟩
  have small : hello.encode.utf8ByteSize ≤ maxFrameSize := by
    rw [Message.utf8ByteSize_encode]
    decide +kernel
  have arrives : FirstLine "peer" pieces [.receive "peer" [carriageReturn, lineFeed].toByteArray]
      hello.frame [] (textBytes hello.encode) [] := by
    refine ⟨rfl, ⟨by simp [RegistryStep.Interrupts], by decide +kernel, by decide +kernel⟩, ?_⟩
    have blank : contents (fitting (said "peer" [.receive "peer"
        [carriageReturn, lineFeed].toByteArray])) = [] := by
      decide +kernel
    have nothing : pending (said "peer" [.receive "peer" [carriageReturn, lineFeed].toByteArray]) =
        [] := by
      decide +kernel
    rw [contents_fitting_append, blank, nothing, Message.frame, Message.textBytes_push]
    exact Message.contents_fitting_encode hello small []
  have verdict : verdictOn [.start (some 4455)] "peer"
      [.receive "peer" [carriageReturn, lineFeed].toByteArray] (textBytes hello.encode) =
      .welcomed "cmd-1" "left" :=
    Verdict.ofLine_hello (by decide) (by decide +kernel) "cmd-1" "renderer"
  have acknowledged : (Message.ack "cmd-1").Fits := by
    rw [Message.Fits, Message.utf8ByteSize_encode]
    decide +kernel
  have unblocked : Unblocked "peer" [.receive "peer" [carriageReturn, lineFeed].toByteArray] := by
    simp [Unblocked, RegistryStep.Blocks]
  have settled := (run_handshake visit).settled _ _ _ _ _ arrives unblocked (by rwa [verdict])
  have replied := settled.replied (by simp)
  rw [verdict] at replied
  exact ⟨visit, replied⟩

end Visits

end Registry

end ShowControl
