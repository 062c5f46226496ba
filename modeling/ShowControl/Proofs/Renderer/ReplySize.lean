import ShowControl.Proofs.Message.Quoting
import ShowControl.Proofs.Message.Size
import ShowControl.Proofs.Renderer.Commands

/-!
# How long replies are

A reply repeats the command id twice, and a refusal repeats one or two names of the command besides,
or a string of a line that is no message. The strings of a value take no more bytes when they are
written than they took in the line, and the command id and the payload are different members. So a
reply is never much longer than twice its line (`Handler.utf8ByteSize_answer_le`), but it may be
nearly that (`Message.utf8ByteSize_ack`).
-/

namespace ShowControl

open Json (quotedSize membersTextSize quotedSize_append)

/-! ### Refusals -/

namespace ValidationError

/-- The bytes of the names in the wording of a fault. -/
def namesSize : ValidationError → ℕ
  | .emptySurfaceId => 0
  | .tooFewVertices surface => quotedSize surface.text
  | .nonFiniteVertex surface => quotedSize surface.text
  | .duplicateSurface surface => quotedSize surface.text
  | .unknownFeed surface feed => quotedSize surface.text + quotedSize feed.text

/-- A name within a wording. -/
theorem quotedSize_around (before name after : String) :
    quotedSize (before ++ name ++ after) = quotedSize before + quotedSize name + quotedSize after :=
  (quotedSize_append _ _).trans (congrArg (· + _) (quotedSize_append _ _))

theorem quotedSize_message_le (reason : ValidationError) :
    quotedSize reason.message ≤ 48 + reason.namesSize := by
  have surface : quotedSize "Surface '" = 9 := by decide +kernel
  cases reason with
  | emptySurfaceId => decide +kernel
  | tooFewVertices s =>
    have rest : quotedSize "' must have at least 3 vertices." = 32 := by decide +kernel
    have joined : (tooFewVertices s).message =
        "Surface '" ++ s.text ++ "' must have at least 3 vertices." := by
      have three : "' must have at least " ++ toString minVertices ++ " vertices." =
          "' must have at least 3 vertices." := by decide +kernel
      rw [← three, ← String.append_assoc, ← String.append_assoc]
      rfl
    rw [joined]
    refine (quotedSize_around _ _ _).trans_le ?_
    show _ ≤ 48 + quotedSize s.text
    omega
  | nonFiniteVertex s =>
    have rest : quotedSize "' has a non-finite vertex." = 26 := by decide +kernel
    refine (quotedSize_around _ s.text _).trans_le ?_
    show _ ≤ 48 + quotedSize s.text
    omega
  | duplicateSurface s =>
    have first : quotedSize "Scene contains duplicate surface id '" = 37 := by decide +kernel
    have last : quotedSize "'." = 2 := by decide +kernel
    refine (quotedSize_around _ s.text _).trans_le ?_
    show _ ≤ 48 + quotedSize s.text
    omega
  | unknownFeed s f =>
    have middle : quotedSize "' references unknown feed '" = 27 := by decide +kernel
    have last : quotedSize "'." = 2 := by decide +kernel
    have first : quotedSize ("Surface '" ++ s.text ++ "' references unknown feed '") =
        9 + quotedSize s.text + 27 :=
      (quotedSize_around _ _ _).trans (by rw [surface, middle])
    refine (quotedSize_around _ f.text _).trans_le ?_
    rw [first, last]
    show _ ≤ 48 + (quotedSize s.text + quotedSize f.text)
    omega

end ValidationError

section Check

variable {n : ℕ} {reason : ValidationError}

theorem Surface.namesSize_of_check {surface : Surface} (h : surface.check = .error reason) :
    reason.namesSize ≤ quotedSize surface.id.text := by
  unfold Surface.check at h
  split_ifs at h <;> cases h
  · exact Nat.zero_le _
  · exact le_rfl
  · exact le_rfl

/-- A fault of a scene has the names of one of its surfaces. -/
theorem Scene.namesSize_of_checkSurfaces {before surfaces : List Surface}
    (each : ∀ surface ∈ surfaces, quotedSize surface.id.text + quotedSize surface.feed.text ≤ n)
    (h : checkSurfaces before surfaces = .error reason) : reason.namesSize ≤ n := by
  induction surfaces generalizing before with
  | nil => cases h
  | cons surface rest ih =>
    obtain ⟨first, others⟩ := List.forall_mem_cons.1 each
    have name : quotedSize surface.id.text ≤ n := by omega
    rw [checkSurfaces] at h
    cases checked : surface.check with
    | error r =>
      rw [checked] at h
      cases h
      exact (Surface.namesSize_of_check checked).trans name
    | ok _ =>
      rw [checked] at h
      change (if _ then _ else _) = _ at h
      split at h
      · cases h
        exact name
      · exact ih others h

theorem Scene.namesSize_of_check {s : Scene} {feeds : List Feed}
    (each : ∀ surface ∈ s.surfaces, quotedSize surface.id.text + quotedSize surface.feed.text ≤ n)
    (h : s.check feeds = .error reason) : reason.namesSize ≤ n := by
  rw [check] at h
  cases checked : checkSurfaces [] s.surfaces with
  | error r =>
    rw [checked] at h
    cases h
    exact namesSize_of_checkSurfaces each checked
  | ok _ =>
    rw [checked] at h
    change checkFeeds s feeds = _ at h
    unfold checkFeeds at h
    split at h
    · next surface dangling =>
      cases h
      exact each surface (List.mem_of_find?_eq_some dangling)
    · cases h

end Check

/-! ### Names of commands -/

section Spelled

variable {members : List (String × Json)}

theorem HasText.quotedSize_le {field s : String} (held : HasText members field s) :
    quotedSize s ≤ membersTextSize members :=
  textSize_le_of_find? held

/-- The object of a part is one of the items. -/
theorem HasParts.exists_of_mem {α : Type} {field : String}
    {Spelled : List (String × Json) → α → Prop} {parts : List α} {part : α}
    (held : HasParts members field Spelled parts) (listed : part ∈ parts) :
    ∃ inner, Spelled inner part ∧ membersTextSize inner ≤ membersTextSize members := by
  obtain ⟨items, inner, found, mem, spelled⟩ := held.exists_item listed
  have whole : Json.itemsTextSize items ≤ membersTextSize members := textSize_le_of_find? found
  exact ⟨inner, spelled, (textSize_le_of_mem mem).trans whole⟩

/-- The two names of a surface are different members of its object. -/
theorem Definition.Spelled.names_le {d : Definition} (spelled : d.Spelled members) :
    ∀ surface ∈ d.scene.surfaces,
      quotedSize surface.id.text + quotedSize surface.feed.text ≤ membersTextSize members := by
  intro surface listed
  obtain ⟨scene, found, spelled⟩ := spelled.scene
  obtain ⟨inner, spelled, within⟩ := spelled.surfaces.exists_of_mem listed
  have names := textSize_add_le_of_find? (by decide) spelled.id spelled.feed
  exact (names.trans within).trans (textSize_le_of_find? found)

end Spelled

namespace Handler

variable {σ : Type} {h : Handler σ}

/-- What a handler says of a command it refuses repeats no more than the strings of the command,
besides 48 bytes of its own. -/
def Terse (h : Handler σ) : Prop :=
  ∀ (s : σ) (payload : Payload) (members : List (String × Json)) (reason : CommandError),
    payload.Spelled members → h.apply s payload = some (.error reason) →
      quotedSize reason.message ≤ 48 + membersTextSize members

end Handler

namespace Stage

theorem quotedSize_message_of_refuses {s : Stage} {payload : Payload} {reason : CommandError}
    {members : List (String × Json)} (spelled : payload.Spelled members)
    (refuses : s.Refuses payload reason) :
    quotedSize reason.message ≤ 48 + membersTextSize members := by
  have around (before name : String) (short : quotedSize before + quotedSize "'" ≤ 48)
      (held : quotedSize name ≤ membersTextSize members) :
      quotedSize (before ++ name ++ "'") ≤ 48 + membersTextSize members := by
    refine (ValidationError.quotedSize_around _ _ _).trans_le ?_
    omega
  cases refuses with
  | @invalid d reason fault =>
    have names := Scene.namesSize_of_check (Definition.Spelled.names_le spelled) fault
    exact reason.quotedSize_message_le.trans (Nat.add_le_add_left names _)
  | unknownScene absent => exact around _ _ (by decide +kernel) (HasText.quotedSize_le spelled)
  | unknownFeed surface absent =>
    exact around _ _ (by decide +kernel) (HasText.quotedSize_le spelled.2)
  | noScene surface known dark =>
    have short : quotedSize "No scene loaded" ≤ 48 := by decide +kernel
    exact short.trans (Nat.le_add_right ..)
  | unknownSurface known shown absent =>
    exact around _ _ (by decide +kernel) (HasText.quotedSize_le spelled.1)

theorem terse : Handler.stage.Terse := by
  intro s payload members reason spelled applied
  rcases s.accepts_or_refuses payload with ⟨s', accepts⟩ | ⟨reason', refuses⟩ | reply
  · cases (apply_of_accepts accepts).symm.trans applied
  · cases (apply_of_refuses refuses).symm.trans applied
    exact quotedSize_message_of_refuses spelled refuses
  · cases payload <;> first | cases applied | simp [Payload.type] at reply

end Stage

/-! ### Replies to lines -/

/-- A reply is at most so much longer than twice its line. -/
def replyMargin : ℕ := 256

namespace Message

/-- A line is no JSON, or it is read as a value whose strings it holds. -/
theorem decodeBytes_cases (line : ByteArray) :
    decodeBytes line = .error .notJson ∨
      ∃ value : Json, value.textSize ≤ line.size ∧ decodeBytes line = ofJson value := by
  rw [decodeBytes, Json.decodeBytes]
  cases parsed : Json.parseBytes? line with
  | none => exact .inl rfl
  | some value => exact .inr ⟨value, Json.textSize_le_of_parseBytes? parsed, rfl⟩

theorem utf8ByteSize_undecodable_le {e : DecodeError} {n : ℕ}
    (short : quotedSize e.message ≤ faultMargin + n) :
    (error unknownId e.message).encode.utf8ByteSize ≤ n + replyMargin := by
  have unknown : quotedSize unknownId = 7 := by decide +kernel
  rw [utf8ByteSize_error, unknown]
  unfold faultMargin at short
  unfold replyMargin
  omega

end Message

namespace Handler

variable {σ : Type} {h : Handler σ} {s : σ} {line : ByteArray} {reply : Message}

theorem utf8ByteSize_dispatch_le (terse : h.Terse) {m : Message} {members : List (String × Json)}
    (spelled : m.Spelled members) (dispatched : (h.dispatch s m).2 = some reply) :
    reply.encode.utf8ByteSize ≤ 2 * membersTextSize members + replyMargin := by
  obtain ⟨inner, found, payload⟩ := spelled.payload
  have apart := textSize_add_le_of_find? (by decide) spelled.commandId found
  simp only [Json.textSize] at apart
  rw [dispatch] at dispatched
  unfold replyMargin
  cases applied : h.apply s m.payload with
  | none =>
    rw [applied] at dispatched
    cases dispatched
  | some result =>
    rw [applied] at dispatched
    cases result with
    | ok s' =>
      cases dispatched
      rw [Message.ackFor, Message.utf8ByteSize_ack]
      omega
    | error reason =>
      cases dispatched
      have short := terse s m.payload inner reason payload applied
      rw [Message.errorFor, Message.utf8ByteSize_error]
      omega

/-- No reply is much longer than twice its line. -/
theorem utf8ByteSize_answer_le (terse : h.Terse) (answered : (h.answer s line).2 = some reply) :
    reply.encode.utf8ByteSize ≤ 2 * line.size + replyMargin := by
  rw [answer] at answered
  rcases Message.decodeBytes_cases line with broken | ⟨value, within, read⟩
  · rw [broken] at answered
    cases answered
    have short : quotedSize DecodeError.notJson.message ≤ Message.faultMargin + 0 := by
      decide +kernel
    exact (Message.utf8ByteSize_undecodable_le short).trans (Nat.add_le_add_right (Nat.zero_le _) _)
  · rw [read] at answered
    cases result : Message.ofJson value with
    | error e =>
      rw [result] at answered
      cases answered
      have short := Message.utf8ByteSize_undecodable_le (Message.quotedSize_of_refused result)
      omega
    | ok m =>
      rw [result] at answered
      obtain ⟨members, rfl, spelled⟩ := ((Message.decodes_ofJson value).ok_iff m).1 result
      have twice := utf8ByteSize_dispatch_le terse spelled answered
      have same : (Json.object members).textSize = membersTextSize members := rfl
      omega

end Handler

end ShowControl
