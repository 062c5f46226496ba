import ShowControl.Message.Wire

/-!
# What a registry reports

A registry tells whoever listens what becomes of the renderers that connect to it. A renderer that
is registered reports the outcome of commands by acknowledgments and errors; its other lines say
nothing.
-/

namespace ShowControl

/-- What has become of a renderer. -/
inductive RegistryEvent where
  | registered (name : String)
  /-- A connection was refused for this reason. -/
  | rejected (reason : String)
  /-- The renderer carried out the command with this id. -/
  | acknowledged (name commandId : String)
  /-- The renderer refused the command with this id. -/
  | commandFailed (name commandId message : String)
  | disconnected (name : String)
  deriving DecidableEq, Repr

namespace RegistryEvent

/-- The renderer that an event is about. -/
def name? : RegistryEvent → Option String
  | .registered name => some name
  | .rejected _ => none
  | .acknowledged name _ => some name
  | .commandFailed name _ _ => some name
  | .disconnected name => some name

/-- What a message from a registered renderer reports. -/
def ofMessage? (name : String) (m : Message) : Option RegistryEvent :=
  match m.payload with
  | .ack commandId => some (.acknowledged name commandId)
  | .error commandId message => some (.commandFailed name commandId message)
  | _ => none

/-- What a line from a registered renderer reports. -/
def ofLine? (name : String) (line : ByteArray) : Option RegistryEvent :=
  match Message.decodeBytes line with
  | .ok m => ofMessage? name m
  | .error _ => none

end RegistryEvent

/-- What a registry does that others can see, apart from its answers. -/
inductive RegistryOutput where
  /-- It reports an event. -/
  | event (event : RegistryEvent)
  /-- It writes a line to a peer. -/
  | line (peer text : String)
  /-- It closes the connection with a peer. -/
  | closed (peer : String)
  deriving DecidableEq, Repr

namespace RegistryOutput

/-- The event that is reported, if one is. -/
def event? : RegistryOutput → Option RegistryEvent
  | .event e => some e
  | _ => none

/-- The line that is written to this peer, if one is. -/
def lineTo? (peer : String) : RegistryOutput → Option String
  | .line recipient text => if recipient = peer then some text else none
  | _ => none

/-- The events that are reported, in order. -/
def events (outputs : List RegistryOutput) : List RegistryEvent := outputs.filterMap event?

/-- The lines that are written to a peer, in order. -/
def linesTo (peer : String) (outputs : List RegistryOutput) : List String :=
  outputs.filterMap (lineTo? peer)

@[simp] theorem events_append (before after : List RegistryOutput) :
    events (before ++ after) = events before ++ events after :=
  List.filterMap_append

@[simp] theorem linesTo_append (peer : String) (before after : List RegistryOutput) :
    linesTo peer (before ++ after) = linesTo peer before ++ linesTo peer after :=
  List.filterMap_append

/-! ### What single outputs write -/

theorem linesTo_line (peer recipient text : String) (outputs : List RegistryOutput) :
    linesTo peer (.line recipient text :: outputs) =
      if recipient = peer then text :: linesTo peer outputs else linesTo peer outputs := by
  unfold linesTo
  rw [List.filterMap_cons, lineTo?]
  split <;> split <;> simp_all

@[simp] theorem linesTo_nil (peer : String) : linesTo peer [] = [] := rfl

@[simp] theorem linesTo_event (peer : String) (event : RegistryEvent)
    (outputs : List RegistryOutput) :
    linesTo peer (.event event :: outputs) = linesTo peer outputs :=
  rfl

@[simp] theorem linesTo_closed (peer recipient : String) (outputs : List RegistryOutput) :
    linesTo peer (.closed recipient :: outputs) = linesTo peer outputs :=
  rfl

/-- A line that is written to several peers is written to no other. -/
theorem linesTo_map_line {peer : String} {peers : List String} (h : peer ∉ peers) (text : String) :
    linesTo peer (peers.map fun recipient ↦ .line recipient text) = [] := by
  induction peers with
  | nil => rfl
  | cons recipient peers ih =>
    rw [List.mem_cons, not_or] at h
    rw [List.map_cons, linesTo_line, if_neg (Ne.symm h.1), ih h.2]

/-- Nobody is written to by events. -/
theorem linesTo_events (peer : String) (events : List RegistryEvent) :
    linesTo peer (events.map .event) = [] := by
  induction events with
  | nil => rfl
  | cons event events ih => exact ih

end RegistryOutput

end ShowControl
