import Mathlib.Logic.Relation
import ShowControl.Proofs.Rig.Dispatch

/-!
# Whatever arrives first

Lines to several renderers, and the replies of those that have got theirs, are under way at the same
time, and nothing says which of them arrives next (`Rig.Traffic.Arrives`). At any moment every
renderer that a message is sent to is still waiting for it, or is answering it, or has been reported
(`Rig.Traffic.Underway`), and whatever arrives moves one renderer on. So all ways in which it can go
end with the message delivered, and differ only in the order of the events
(`Rig.Sends.delivers_of_arrives`).
-/

namespace ShowControl

namespace Rig

variable {σ : Type} {h : Handler σ} {m : Message} {rig : Rig σ}
variable {sessions waiting answering reported : List (Session String)}

/-- A rig, what is under way in it, and the events so far. -/
structure Traffic (σ : Type) where
  rig : Rig σ
  /-- Lines to renderers, with the addresses of these. -/
  lines : List (String × String)
  /-- Replies to the registry, with the addresses that they come from. -/
  replies : List (String × List String) := []
  events : List RegistryEvent := []

/-- The lines among the outputs of a registry are under way. -/
def launch (rig : Rig σ) (outputs : List RegistryOutput) : Traffic σ where
  rig := rig
  lines := outputs.filterMap fun
    | .line peer text => some (peer, text)
    | _ => none

/-- What a renderer writes when a message arrives. -/
def replyLines (h : Handler σ) (m : Message) (rig : Rig σ) (s : Session String) : List String :=
  ((rig.state? s.id).bind fun state ↦ (h.dispatch state m).2).toList.map Message.encode

theorem replyLines_eq {s : Session String} {state : σ} (here : rig.state? s.id = some state) :
    replyLines h m rig s = (h.dispatch state m).2.toList.map Message.encode := by
  rw [replyLines, here, Option.bind_some]

namespace Traffic

variable {t t' : Traffic σ}

/-- One of the things that are under way arrives. -/
inductive Arrives (h : Handler σ) (t : Traffic σ) : Traffic σ → Prop where
  | line {before after : List (String × String)} {peer text : String} {l l' : Link σ}
      {replies : List String} (next : t.lines = before ++ (peer, text) :: after)
      (found : t.rig.links.find? peer = some l)
      (answers : l.receive h (frames [text]) = (l', replies)) :
      Arrives h t
        { t with
          rig := t.rig.relink peer l'
          lines := before ++ after
          replies := t.replies ++ [(peer, replies)] }
  | replies {before after : List (String × List String)} {peer : String} {texts : List String}
      {registry : Registry} {outputs : List RegistryOutput}
      (next : t.replies = before ++ (peer, texts) :: after)
      (reports : t.rig.registry.receive peer (frames texts) = (registry, outputs)) :
      Arrives h t
        { t with
          rig := { t.rig with registry }
          replies := before ++ after
          events := t.events ++ RegistryOutput.events outputs }

/-- Nothing is under way for ever: a line brings a reply on its way, and a reply brings nothing. -/
theorem wellFounded_arrives (h : Handler σ) :
    WellFounded fun t' t : Traffic σ ↦ t.Arrives h t' := by
  refine Subrelation.wf (fun {t' t} arrives ↦ ?_)
    (measure fun t : Traffic σ ↦ 2 * t.lines.length + t.replies.length).wf
  show 2 * t'.lines.length + t'.replies.length < 2 * t.lines.length + t.replies.length
  cases arrives with
  | line next found answers =>
    rw [next]
    simp only [List.length_append, List.length_cons, List.length_nil]
    omega
  | replies next reports =>
    rw [next]
    simp only [List.length_append, List.length_cons]
    omega

/-- Some renderers are waiting for a message, some are answering it, and some have been reported. -/
structure Underway (h : Handler σ) (m : Message) (rig : Rig σ)
    (waiting answering reported : List (Session String)) (t : Traffic σ) : Prop where
  lines : t.lines = waiting.map fun s ↦ (s.id, m.encode)
  replies : t.replies = answering.map fun s ↦ (s.id, replyLines h m rig s)
  events : t.events = (reported.filterMap rig.renderer?).filterMap (told h m)
  reached : Reached h m ((reported ++ answering).map Session.id) rig t.rig

theorem underway_launch (linked : rig.Linked) (sessions : List (Session String)) :
    Underway h m rig sessions [] [] (rig.launch (sessions.map fun s ↦ .line s.id m.encode)) := by
  refine ⟨?_, rfl, rfl, .nobody linked⟩
  rw [launch, List.filterMap_map]
  exact congrFun List.filterMap_eq_map sessions

section Moves

theorem perm_reported (reported before after : List (Session String)) (s : Session String) :
    (reported ++ (before ++ s :: after)).Perm (reported ++ [s] ++ (before ++ after)) := by
  rw [List.append_assoc]
  exact List.perm_middle.append_left reported

variable {s : Session String} {before after : List (Session String)}

/-- A renderer that waits for the message gets it, and then answers. -/
theorem Underway.line (underway : Underway h m rig (before ++ s :: after) answering reported t)
    (sends : Sends h m rig (reported ++ answering ++ (before ++ s :: after))) :
    ∃ l l', t.rig.links.find? s.id = some l ∧
      l.receive h (frames [m.encode]) = (l', replyLines h m rig s) ∧
      Underway h m rig (before ++ after) (answering ++ [s]) reported
        { t with
          rig := t.rig.relink s.id l'
          lines := (before ++ after).map fun s ↦ (s.id, m.encode)
          replies := t.replies ++ [(s.id, replyLines h m rig s)] } := by
  have away : s.id ∉ (reported ++ answering).map Session.id := by
    have nodup := sends.nodup
    rw [List.map_append] at nodup
    exact fun there ↦ List.disjoint_of_nodup_append nodup there (by simp)
  have mem : s ∈ reported ++ answering ++ (before ++ s :: after) := by simp
  obtain ⟨state, here, -, answerable⟩ := sends.exists_renderer mem
  have registered := underway.reached.isRegistered (sends.listed s mem)
  have here' : t.rig.state? s.id = some state := by
    rw [underway.reached.state?, if_neg away, here]
  obtain ⟨l, l', found, received, -, reached⟩ := underway.reached.linked.receive_line registered
    sends.finite sends.small here' answerable
  refine ⟨l, l', found, by rw [replyLines_eq here, received], rfl, ?_, underway.events, ?_⟩
  · show t.replies ++ _ = _
    rw [underway.replies, List.map_append]
    rfl
  · have all := underway.reached.trans (fun peer one ↦ List.mem_singleton.1 one ▸ away) reached
    exact all.congr fun peer ↦ by simp

/-- The reply of a renderer gets to the registry, and then it is reported. -/
theorem Underway.reply (underway : Underway h m rig waiting (before ++ s :: after) reported t)
    (sends : Sends h m rig (reported ++ (before ++ s :: after) ++ waiting)) :
    ∃ registry outputs, t.rig.registry.receive s.id (frames (replyLines h m rig s)) =
        (registry, outputs) ∧
      Underway h m rig waiting (before ++ after) (reported ++ [s])
        { t with
          rig := { t.rig with registry }
          replies := (before ++ after).map fun s ↦ (s.id, replyLines h m rig s)
          events := t.events ++ RegistryOutput.events outputs } := by
  have mem : s ∈ reported ++ (before ++ s :: after) ++ waiting := by simp
  obtain ⟨state, here, renderer, answerable⟩ := sends.exists_renderer mem
  have registered := underway.reached.isRegistered (sends.listed s mem)
  obtain ⟨registry, received, reached⟩ :=
    underway.reached.linked.receive_reply registered answerable
  refine ⟨registry, _, by rw [replyLines_eq here, received], underway.lines, rfl, ?_, ?_⟩
  · show t.events ++ RegistryOutput.events _ = _
    rw [underway.events, Registry.events_map_event, List.filterMap_append, List.filterMap_append,
      List.filterMap_cons, renderer, List.filterMap_nil, List.filterMap_cons, List.filterMap_nil]
    cases told h m (s.name, state) <;> rfl
  · have all := underway.reached.trans (fun _ mem ↦ absurd mem List.not_mem_nil) reached
    rw [List.append_nil] at all
    exact all.congr fun peer ↦ ((perm_reported reported before after s).map _).mem_iff

/-- Whatever arrives moves one renderer on. -/
theorem Underway.arrives (underway : Underway h m rig waiting answering reported t)
    (sends : Sends h m rig (reported ++ answering ++ waiting)) (arrives : t.Arrives h t') :
    ∃ waiting' answering' reported',
      (reported' ++ answering' ++ waiting').Perm (reported ++ answering ++ waiting) ∧
        Underway h m rig waiting' answering' reported' t' := by
  cases arrives with
  | line next found answers =>
    rw [underway.lines] at next
    obtain ⟨before, rest, rfl, rfl, split⟩ := List.map_eq_append_iff.1 next
    obtain ⟨s, after, rfl, first, rfl⟩ := List.map_eq_cons_iff.1 split
    cases first
    obtain ⟨l, l', found', answers', underway'⟩ := underway.line sends
    cases found.symm.trans found'
    cases answers.symm.trans answers'
    refine ⟨before ++ after, answering ++ [s], reported, ?_, ?_⟩
    · rw [← List.append_assoc reported]
      exact (perm_reported _ before after s).symm
    · rwa [List.map_append] at underway'
  | replies next reports =>
    rw [underway.replies] at next
    obtain ⟨before, rest, rfl, rfl, split⟩ := List.map_eq_append_iff.1 next
    obtain ⟨s, after, rfl, first, rfl⟩ := List.map_eq_cons_iff.1 split
    cases first
    obtain ⟨registry, outputs, reports', underway'⟩ := underway.reply sends
    cases reports.symm.trans reports'
    refine ⟨waiting, before ++ after, reported ++ [s], ?_, ?_⟩
    · exact ((perm_reported reported before after s).append_right waiting).symm
    · rwa [List.map_append] at underway'

/-- While something is under way, something can arrive. -/
theorem Underway.exists_arrives (underway : Underway h m rig waiting answering reported t)
    (sends : Sends h m rig (reported ++ answering ++ waiting)) :
    (∃ t', t.Arrives h t') ∨ waiting = [] ∧ answering = [] := by
  cases waiting with
  | cons s after =>
    have first : Underway h m rig ([] ++ s :: after) answering reported t := underway
    obtain ⟨l, l', found, answers, -⟩ := first.line sends
    have next : t.lines = [] ++ (s.id, m.encode) :: after.map fun s ↦ (s.id, m.encode) :=
      underway.lines
    exact .inl ⟨_, .line next found answers⟩
  | nil =>
    cases answering with
    | cons s after =>
      have next : t.replies = [] ++ (s.id, replyLines h m rig s) ::
          after.map fun s ↦ (s.id, replyLines h m rig s) := underway.replies
      exact .inl ⟨_, .replies next rfl⟩
    | nil => exact .inr ⟨rfl, rfl⟩

end Moves

end Traffic

/-- In whatever order lines and replies arrive, there is a next one, or the message has been
delivered. -/
theorem Sends.delivers_of_arrives (sends : Sends h m rig sessions) {t : Traffic σ}
    (arrives : Relation.ReflTransGen (Traffic.Arrives h)
      (rig.launch (sessions.map fun s ↦ .line s.id m.encode)) t) :
    (∃ t', t.Arrives h t') ∨ t.lines = [] ∧ t.replies = [] ∧
      ∃ order, order.Perm (sessions.filterMap rig.renderer?) ∧
        Delivers h m order rig t.rig t.events := by
  obtain ⟨waiting, answering, reported, perm, underway⟩ : ∃ waiting answering reported,
      (reported ++ answering ++ waiting).Perm sessions ∧
        Traffic.Underway h m rig waiting answering reported t := by
    induction arrives with
    | refl => exact ⟨sessions, [], [], .refl _, Traffic.underway_launch sends.linked sessions⟩
    | tail _ arrives ih =>
      obtain ⟨waiting, answering, reported, perm, underway⟩ := ih
      obtain ⟨waiting', answering', reported', perm', underway'⟩ :=
        underway.arrives (sends.perm perm) arrives
      exact ⟨waiting', answering', reported', perm'.trans perm, underway'⟩
  rcases underway.exists_arrives (sends.perm perm) with next | ⟨rfl, rfl⟩
  · exact .inl next
  · rw [List.append_nil, List.append_nil] at perm
    have reached := underway.reached
    rw [List.append_nil] at reached
    refine .inr ⟨underway.lines, underway.replies, _, perm.filterMap rig.renderer?, ?_⟩
    rw [underway.events]
    exact reached.delivers sends.linked (sends.perm perm).listed

end Rig

end ShowControl
