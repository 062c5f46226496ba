import ShowControl.Proofs.Controller.Correlation

/-!
# Waiting for a reply piece by piece

A client that has written a command is told at once what arrives on it. Over a network this comes in
pieces, and the client looks for a message before each of them and behind the last
(`Client.await`). It finds the same line as if all had come at once: a line that is there stays
the next one, and where none is there the client still follows its peer (`Client.Follows.await`).

So there are two ways to ask for something, and they agree on everything that matters to a caller
(`Client.Asks`): the line that decides, the verdict on it, and the client that is left.
-/

namespace ShowControl

theorem Incoming.Follows.arrive_all {s : Incoming} {sofar : List Arrival} {taken : ℕ}
    (h : s.Follows sofar taken) (pieces : List Arrival) :
    (pieces.foldl Incoming.arrive s).Follows (sofar ++ pieces) taken := by
  induction pieces generalizing s sofar with
  | nil => rwa [List.append_nil]
  | cons a pieces ih =>
    rw [List.append_cons, List.foldl_cons]
    exact ih (h.arrive a)

namespace Client

variable {c : Client} {sofar : List Arrival} {taken : ℕ}

/-- Waits for a message while these pieces arrive. Those behind the message arrive later. -/
def await (c : Client) : List Arrival → Client × Option (Except ClientError Message)
  | [] => c.receive
  | a :: pieces =>
    match c.receive with
    | (c, none) => (c.arrive a).await pieces
    | (c, some result) => ((a :: pieces).foldl arrive c, some result)

theorem foldl_arrive_connected (address : String) (s : Incoming) (pieces : List Arrival) :
    pieces.foldl Client.arrive ⟨address, some s⟩ =
      ⟨address, some (pieces.foldl Incoming.arrive s)⟩ := by
  induction pieces generalizing s with
  | nil => rfl
  | cons a pieces ih => exact ih (s.arrive a)

theorem foldl_arrive_lost (address : String) (pieces : List Arrival) :
    pieces.foldl Client.arrive ⟨address, none⟩ = ⟨address, none⟩ := by
  induction pieces with
  | nil => rfl
  | cons a pieces ih => exact ih

/-- What has been found stays found while more arrives. -/
theorem Hears.arrive_all {c' : Client} {result : Except ClientError Message}
    (h : Hears sofar taken c' (some result)) (pieces : List Arrival) :
    Hears (sofar ++ pieces) taken (pieces.foldl Client.arrive c') (some result) := by
  cases h with
  | @takes address s reading here follows =>
    obtain ⟨more, all⟩ := readings_prefix_append sofar pieces
    rw [foldl_arrive_connected]
    refine .takes ?_ (follows.arrive_all pieces)
    rw [← all, List.getElem?_append_left (List.getElem?_eq_some_iff.1 here).1, here]
  | fails reason all finished =>
    obtain ⟨finished', same⟩ := finished.append pieces
    rw [foldl_arrive_lost]
    exact .fails reason (same ▸ all) finished'

/-- Pieces make no difference to what is found. -/
theorem Follows.await (h : c.Follows sofar taken) (pieces : List Arrival) :
    Hears (sofar ++ pieces) taken (c.await pieces).1 (c.await pieces).2 := by
  induction pieces generalizing c sofar with
  | nil =>
    rw [List.append_nil]
    exact h.receive
  | cons a pieces ih =>
    have first := h.receive
    obtain ⟨⟨c', heard?⟩, eq⟩ : ∃ r, c.receive = r := ⟨_, rfl⟩
    rw [eq] at first
    rw [Client.await, eq]
    cases heard? with
    | none =>
      cases first with
      | waits none follows =>
        rw [List.append_cons]
        exact ih (follows.arrive a)
    | some result => exact first.arrive_all (a :: pieces)

/-! ### Ways to ask -/

/-- Sends a command behind these lines, and takes its reply, by this client. -/
abbrev Ask := Client → List String → Message → Client × List String × Except ClientError Unit

/-- Asks a peer that says this to each line, and is told all of it at once. -/
def askAtOnce (speech : List String → List Arrival) : Ask := fun c written m ↦
  c.request m fun line ↦ .ok (.joined (speech (written ++ [line])))

/-- Asks a peer that says this to each line, and waits for it piece by piece. -/
def askInPieces (speech : List String → List Arrival) : Ask := fun c written m ↦
  match c.send m fun _ ↦ .ok {} with
  | (c, lines, .error reason) => (c, lines, .error reason)
  | (c, lines, .ok ()) =>
    let (c, heard?) := c.await (speech (written ++ lines))
    (c, lines, settle m.commandId heard?)

/-- Asking comes to what the next line says that the peer has said by then. -/
def Asks (speech : List String → List Arrival) (ask : Ask) : Prop :=
  ∀ (address : String) (s : Incoming) (sofar : List Arrival) (taken : ℕ) (written : List String)
    (m : Message), s.Follows sofar taken → m.Fits →
    ∃ c' heard?, Hears (sofar ++ speech (written ++ [m.encode])) taken c' heard? ∧
      ask ⟨address, some s⟩ written m = (c', [m.encode], settle m.commandId heard?)

theorem asks_atOnce (speech : List String → List Arrival) : Asks speech (askAtOnce speech) := by
  intro address s sofar taken written m follows fits
  have joined : Client.Follows (sofar ++ speech (written ++ [m.encode])) taken
      ⟨address, some (s.arrive (.joined (speech (written ++ [m.encode]))))⟩ :=
    .connected (follows.arrive_joined _)
  exact ⟨_, _, joined.receive, request_of_fits address s fits rfl⟩

theorem asks_inPieces (speech : List String → List Arrival) : Asks speech (askInPieces speech) := by
  intro address s sofar taken written m follows fits
  have still : Client.Follows sofar taken ⟨address, some (s.arrive {})⟩ :=
    .connected (List.append_nil sofar ▸ follows.arrive_joined [])
  refine ⟨_, _, still.await (speech (written ++ [m.encode])), ?_⟩
  rw [askInPieces, send_of_fits address s fits rfl]

end Client

end ShowControl
