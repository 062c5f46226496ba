import ShowControl.Proofs.Registry.Handshake

/-!
# Starting and stopping

A registry can be started and stopped as often as its owner likes, whatever its connections are in
the middle of. To start it while it listens, or when the system gives no port, changes nothing. To
stop it closes all connections without a word to them, and reports one disconnection for each name
(`Stops`).

What is left has no connections and no sessions, as this is what it means to be coherent while no
port is open. Only the table may be closed, and a start opens it, so that the registry is then in
the state in which a new one is started (`Coherent.start_of_idle`). Whoever was connected before is
neither written to nor listened to, until it connects again (`Coherent.deaf_run`).
-/

namespace ShowControl

open RegistryOutput

namespace Registry

variable {r : Registry} {peer name : String}

/-! ### Registries that do not listen -/

namespace Coherent

variable (h : r.Coherent) (stopped : r.port = none)
include h stopped

theorem connections_of_idle : r.connections = ∅ := Catalog.ext_find? (h.idle stopped)

theorem ids_of_idle : r.table.ids = ∅ := by
  refine Catalog.ext_find? fun name ↦ Option.eq_none_iff_forall_ne_some.2 fun peer session ↦ ?_
  obtain ⟨c, found, -⟩ := (h.owned name peer).1 session
  rw [h.idle stopped peer] at found
  cases found

/-- However a registry came to listen no more, it starts like a new one. -/
theorem start_of_idle (port : Nat) : r.start (some port) = ({} : Registry).start (some port) := by
  unfold start SessionTable.reopen
  rw [stopped, h.connections_of_idle stopped, h.ids_of_idle stopped]

end Coherent

theorem start_of_running {port : Nat} (listens : r.port = some port) (bound : Option Nat) :
    r.start bound = (r, some port) := by
  unfold start
  rw [listens]

theorem start_of_unbound (stopped : r.port = none) : r.start none = (r, none) := by
  unfold start
  rw [stopped]

theorem port_of_not_running (idle : ¬r.isRunning = true) : r.port = none := by
  rwa [isRunning, Option.isSome_iff_ne_none, not_not] at idle

theorem port_stop (r : Registry) : r.stop.1.port = none := by
  by_cases running : r.isRunning = true
  · rw [stop_of_running running]
  · have stopped := port_of_not_running running
    rw [stop_of_idle stopped, stopped]

theorem Coherent.stop (h : r.Coherent) : r.stop.1.Coherent :=
  h.step .stop

/-- Each connection is closed once. -/
theorem count_closed_stop (running : r.isRunning = true) (peer : String) :
    r.stop.2.count (.closed peer) = if r.connections.contains peer then 1 else 0 := by
  have unclosed : (r.table.sessions.map fun s ↦
      RegistryOutput.event (.disconnected s.name)).count (.closed peer) = 0 := by
    refine List.count_eq_zero.2 fun listed ↦ ?_
    obtain ⟨s, -, eq⟩ := List.mem_map.1 listed
    cases eq
  have injective : Function.Injective RegistryOutput.closed := fun _ _ ↦ RegistryOutput.closed.inj
  rw [stop_of_running running, List.count_append, unclosed,
    List.count_map_of_injective _ _ injective, r.connections.nodup_keys.count, Nat.add_zero]
  exact if_congr r.connections.mem_keys_iff rfl rfl

/-! ### Peers without a connection -/

/-- Until it connects, a peer is ignored. -/
theorem Coherent.deaf_run (h : r.Coherent) (closed : r.standing? peer = none)
    {steps : List RegistryStep} (once : ∀ moment ∈ r.moments steps, ¬moment.Connects peer) :
    ∀ moment ∈ r.moments steps, moment.step.peer? = some peer →
      moment.after = moment.before ∧ moment.outcome.outputs = [] := by
  induction steps generalizing r with
  | nil => exact fun _ mem ↦ absurd mem List.not_mem_nil
  | cons step steps ih =>
    obtain ⟨first, others⟩ := List.forall_mem_cons.1 once
    refine List.forall_mem_cons.2 ⟨fun about ↦ ?_, ?_⟩
    · exact step_of_closed (standing?_eq_none_iff.1 closed) about first
    · exact ih (h.step step) ((h.course_step first).closed closed).2 others

/-! ### Cycles -/

/-- What a stop comes to while the registry listens. -/
structure Stops (r : Registry) : Prop where
  answered : (r.step .stop).2.answer = .port none
  /-- Each connection is closed, once. -/
  closed : ∀ peer, (r.step .stop).2.outputs.count (.closed peer) =
    if r.connections.contains peer then 1 else 0
  silent : ∀ peer, linesTo peer (r.step .stop).2.outputs = []
  /-- The names are disconnected, each of them once, and that is all that is reported. -/
  told : events (r.step .stop).2.outputs = r.names.map .disconnected
  distinct : r.names.Nodup
  unreported : ∀ peer, r.standing? peer = some .greeting →
    RegistryMoment.contributed ⟨r, .stop⟩ peer = []
  names : (r.step .stop).1.names = []
  port : (r.step .stop).1.port.getD 0 = 0
  connections : ∀ peer, (r.step .stop).1.connections.find? peer = none

theorem stops_of_running (running : r.isRunning = true) : Stops r where
  answered := congrArg RegistryAnswer.port (port_stop r)
  closed := count_closed_stop running
  silent := linesTo_stop r
  told := events_stop running
  distinct := r.nodup_names
  unreported peer waiting := by
    rw [RegistryMoment.contributed_of_owner rfl]
    dsimp only
    rw [waiting]
  names := congrArg (fun result ↦ result.1.names) (stop_of_running running)
  port := congrArg (fun result ↦ result.1.port.getD 0) (stop_of_running running)
  connections peer :=
    congrArg (fun result ↦ result.1.connections.find? peer) (stop_of_running running)

/-- A free name can be registered by whoever is not connected, while the registry listens. -/
theorem run_hello (running : r.isRunning = true) (admits : r.Admits)
    (fresh : r.connections.find? peer = none) (named : name ≠ "") (free : name ∉ r.names)
    {commandId role : String} (small : (Message.hello commandId role name).Fits)
    (answerable : (Message.ack commandId).Fits) :
    let steps : List RegistryStep :=
      [.accept peer, .receive peer (frames [(Message.hello commandId role name).encode])]
    (r.run steps).1.IsRegistered peer name ∧
      r.outputs steps = [.line peer (Message.ack commandId).encode, .event (.registered name)] := by
  intro steps
  have connected : (r.step (.accept peer)).1 = (r.accept peer).1 := rfl
  rw [accept_of_running running fresh] at connected
  have waits : (r.step (.accept peer)).1.connections.find? peer = some {} := by
    rw [connected]
    exact Catalog.find?_insert_self ..
  obtain ⟨i, -, welcomed⟩ := receive_hello waits (by rw [connected]; exact admits running) named
    (by rw [connected]; exact free) small answerable
  constructor
  · refine ⟨{ standing := .registered name, inbox := i }, ?_, rfl⟩
    show ((r.step (.accept peer)).1.receive peer _).1.connections.find? peer = _
    rw [welcomed]
    exact find?_welcome ..
  · show (r.outputs (.accept peer :: [_])) = _
    rw [outputs_cons, outputs_cons]
    show [] ++ (((r.step (.accept peer)).1.receive peer _).2 ++ []) = _
    rw [welcomed]
    rfl

/-- How a registry that has come to this state is started and stopped. -/
structure Lifecycle (r : Registry) : Prop where
  /-- To start it while it listens tells the port that it has, and does nothing. -/
  started : ∀ port bound, r.port = some port →
    r.step (.start bound) = (r, { answer := .port (some port) })
  /-- Without a port from the system it is not started. -/
  unbound : r.port = none → r.step (.start none) = (r, { answer := .port none })
  /-- To stop it while it does not listen does nothing. -/
  idle : r.port = none → r.step .stop = (r, { answer := .port none })
  stops : r.isRunning = true → Stops r
  /-- Stopped and started, it is what a new one is when it is started. -/
  restarts : ∀ port, (r.run [.stop, .start (some port)]).1 =
    (run {} [.start (some port)]).1
  /-- All names can then be registered again. -/
  again : ∀ port peer name commandId role, name ≠ "" →
    (Message.hello commandId role name).Fits → (Message.ack commandId).Fits →
      let restarted := (r.run [.stop, .start (some port)]).1
      let steps : List RegistryStep :=
        [.accept peer, .receive peer (frames [(Message.hello commandId role name).encode])]
      (restarted.run steps).1.IsRegistered peer name ∧
        restarted.outputs steps =
          [.line peer (Message.ack commandId).encode, .event (.registered name)]
  /-- After a stop, and whatever is started and stopped then, a peer that does not connect is
  neither written to nor reported, and what it sends is ignored. -/
  forgotten : ∀ steps peer, (∀ moment ∈ r.stop.1.moments steps, ¬moment.Connects peer) →
    linesTo peer (r.stop.1.outputs steps) = [] ∧ r.stop.1.contributions peer steps = [] ∧
      ∀ moment ∈ r.stop.1.moments steps, moment.step.peer? = some peer →
        moment.after = moment.before ∧ moment.outcome.outputs = []

/-- In every state that a registry comes to it can be started and stopped. -/
theorem run_lifecycle (steps : List RegistryStep) : Lifecycle (run {} steps).1 := by
  have coherent := coherent_empty.run steps
  generalize (run {} steps).1 = r at coherent
  have restarts (port : Nat) : (r.run [.stop, .start (some port)]).1 =
      (run {} [.start (some port)]).1 := by
    show (r.stop.1.start (some port)).1 = _
    rw [coherent.stop.start_of_idle (port_stop r)]
    rfl
  refine
    { started := fun port bound listens ↦ ?_
      unbound := fun stopped ↦ ?_
      idle := fun stopped ↦ ?_
      stops := stops_of_running
      restarts
      again := fun port peer name commandId role named small answerable ↦ ?_
      forgotten := fun steps peer once ↦ ?_ }
  · show ((r.start bound).1, RegistryOutcome.mk (.port (r.start bound).2) []) = _
    rw [start_of_running listens]
  · show ((r.start none).1, RegistryOutcome.mk (.port (r.start none).2) []) = _
    rw [start_of_unbound stopped]
  · show (r.stop.1, RegistryOutcome.mk (.port r.stop.1.port) r.stop.2) = _
    rw [stop_of_idle stopped, stopped]
  · rw [restarts]
    exact run_hello rfl (Admits.empty.run _) rfl named (List.not_mem_nil) small answerable
  · have closed : r.stop.1.standing? peer = none :=
      standing?_eq_none_iff.2 (coherent.stop.idle (port_stop r) peer)
    exact ⟨coherent.stop.linesTo_outputs_of_closed closed once,
      ((coherent.stop.course_run steps once).closed closed).1, coherent.stop.deaf_run closed once⟩

end Registry

end ShowControl
