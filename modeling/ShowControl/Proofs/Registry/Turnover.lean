import Mathlib.Data.List.Count
import Mathlib.Data.List.Induction
import Mathlib.Data.List.Nodup
import ShowControl.Proofs.Lasting
import ShowControl.Registry.SessionTable
import ShowControl.Transducer

/-!
# Who comes into the session table and who leaves it

Many tasks share the table: one for each connection, those that send, and the one that stops the
registry. Each call is done as a whole, so whatever the tasks do comes to some list of calls, one
behind the other. A run answers such a list, and this module accounts for the sessions in it
(`SessionTable.run_accounted`): who is in, who has been let in, and who has been taken out by which
call.

The table itself says nothing of the past. What connects the two is that a call lets a session in
only where it is not, and takes one out only where it is (`SessionTable.putsIn_answer_iff`,
`SessionTable.takesOut_answer_iff`). So for each session the calls that let it in and those that
take it out alternate, and their numbers differ by whether it is in (`SessionTable.countP_putsIn`).
None of this needs the ids to be distinct. That they are, and that each session asks to be let in
once, is what makes a session the only one with its id: what has been taken out stays out, and a
late call for it finds nobody.
-/

namespace ShowControl

/-! ### Calls -/

/-- What may be asked of a session table. -/
inductive TableCall (ι : Type) where
  | reopen
  | insert (session : Session ι)
  /-- Takes out the session with this id, if it is the one that has this name. -/
  | remove (session : Session ι)
  | closeAndDrain
  deriving DecidableEq

/-- What a call gives back. -/
inductive TableAnswer (ι : Type) where
  | done
  | inserted (result : Except HandshakeError Unit)
  | removed (found : Bool)
  | drained (sessions : List (Session ι))
  deriving DecidableEq

/-- The sessions that ask to be let in. -/
def TableCall.newcomers {ι : Type} (calls : List (TableCall ι)) : List (Session ι) :=
  calls.filterMap fun
    | .insert s => some s
    | _ => none

/-- A call with what it has given back. -/
abbrev AnsweredCall (ι : Type) := TableCall ι × TableAnswer ι

namespace AnsweredCall

variable {ι : Type} [DecidableEq ι]

/-- The call has let the session in. -/
def putsIn (s : Session ι) : AnsweredCall ι → Bool
  | (.insert other, .inserted (.ok ())) => other = s
  | _ => false

/-- The call has taken the session out. -/
def takesOut (s : Session ι) : AnsweredCall ι → Bool
  | (.remove other, .removed true) => other = s
  | (.closeAndDrain, .drained sessions) => sessions.contains s
  | _ => false

/-- One of the calls has let the session in, and none behind it has taken it out. -/
def Keep (history : List (AnsweredCall ι)) (s : Session ι) : Prop :=
  Lasting (fun call ↦ putsIn s call = true) (fun call ↦ takesOut s call = true) history

end AnsweredCall

namespace SessionTable

open TableCall AnsweredCall

variable {ι : Type} [DecidableEq ι]

/-- Answers a call. -/
def answer (t : SessionTable ι) : TableCall ι → SessionTable ι × TableAnswer ι
  | .reopen => (t.reopen, .done)
  | .insert s =>
    match t.insert s with
    | .ok t' => (t', .inserted (.ok ()))
    | .error reason => (t, .inserted (.error reason))
  | .remove s => ((t.remove s).1, .removed (t.remove s).2)
  | .closeAndDrain => (t.closeAndDrain.1, .drained t.closeAndDrain.2)

/-- Answers calls in order, and tells what each of them has given back. -/
def run (t : SessionTable ι) (calls : List (TableCall ι)) :
    SessionTable ι × List (AnsweredCall ι) :=
  Transducer.run (fun t call ↦ ((t.answer call).1, [(call, (t.answer call).2)])) t calls

/-! ### Who is in -/

section Members

omit [DecidableEq ι]

variable {t : SessionTable ι} {s : Session ι}

theorem mem_sessions_insert (free : t.find? s.name = none) {other : Session ι} :
    other ∈ sessions { t with ids := t.ids.insert s.name s.id } ↔
      other = s ∨ other ∈ t.sessions := by
  obtain ⟨id, name⟩ := s
  obtain ⟨id', name'⟩ := other
  rw [mem_sessions_iff, mem_sessions_iff, find?, Catalog.find?_insert, Session.mk.injEq]
  dsimp only at free ⊢
  split
  · next same =>
    subst same
    simp [free, eq_comm]
  · next ne =>
    have differ : ¬(id' = id ∧ name' = name) := fun same ↦ ne same.2.symm
    exact ⟨.inr, fun h ↦ h.resolve_left differ⟩

theorem mem_sessions_remove [DecidableEq ι] {other : Session ι} :
    other ∈ (t.remove s).1.sessions ↔ other ∈ t.sessions ∧ other ≠ s := by
  rw [mem_sessions_iff, find?_remove, mem_sessions_iff]
  split
  · next hit =>
    refine ⟨nofun, fun ⟨here, ne⟩ ↦ absurd ?_ ne⟩
    obtain ⟨id, name⟩ := s
    obtain ⟨id', name'⟩ := other
    obtain rfl := Option.some.inj (hit.2.symm.trans here)
    obtain rfl := hit.1
    rfl
  · next miss =>
    refine ⟨fun here ↦ ⟨here, ?_⟩, And.left⟩
    rintro rfl
    exact miss ⟨rfl, here⟩

theorem name_mem_names (listed : s ∈ t.sessions) : s.name ∈ t.names := by
  rw [mem_names_iff, t.mem_sessions_iff.1 listed, Option.isSome_some]

theorem nodup_sessions (t : SessionTable ι) : t.sessions.Nodup := by
  refine List.Nodup.of_map Session.name ?_
  have names : t.sessions.map Session.name = t.ids.keys := by
    rw [sessions, List.map_map]
    rfl
  rw [names]
  exact t.ids.nodup_keys

theorem free_or_refused (t : SessionTable ι) (s : Session ι) :
    (t.isClosed = false ∧ s.name ∉ t.names) ∨ (t.isClosed = true ∨ s.name ∈ t.names) := by
  rw [← Bool.not_eq_true, ← not_or]
  exact (em _).symm

theorem not_free_of_refused (refused : t.isClosed = true ∨ s.name ∈ t.names) :
    ¬(t.isClosed = false ∧ s.name ∉ t.names) := by
  rwa [← Bool.not_eq_true, ← not_or, not_not]

end Members

/-! ### One call -/

variable {t : SessionTable ι} {s : Session ι} {call : TableCall ι}

/-- A session is let in if the table is not closed and its name is free. -/
theorem answer_insert_of_free (free : t.isClosed = false ∧ s.name ∉ t.names) :
    t.answer (.insert s) =
      ({ t with ids := t.ids.insert s.name s.id }, .inserted (.ok ())) := by
  rw [answer, insert_of_not_mem t free.1 free.2]

/-- Otherwise it is refused, and nothing changes. -/
theorem answer_insert_of_refused (refused : t.isClosed = true ∨ s.name ∈ t.names) :
    t.answer (.insert s) =
      (t, .inserted (.error (if t.isClosed then .shuttingDown else .nameInUse))) := by
  rcases closed : t.isClosed with _ | _
  · have taken : s.name ∈ t.names := refused.resolve_left (by simp [closed])
    rw [answer, insert_of_mem t closed taken]
    rfl
  · rw [answer, insert, if_pos closed]
    rfl

theorem answer_insert_eq_ok_iff :
    (t.answer (.insert s)).2 = .inserted (.ok ()) ↔ t.isClosed = false ∧ s.name ∉ t.names := by
  rcases t.free_or_refused s with free | refused
  · rw [answer_insert_of_free free]
    exact iff_of_true rfl free
  · rw [answer_insert_of_refused refused]
    exact iff_of_false nofun (not_free_of_refused refused)

theorem answer_remove_of_mem (listed : s ∈ t.sessions) :
    (t.answer (.remove s)).2 = .removed true := by
  show TableAnswer.removed (t.remove s).2 = .removed true
  rw [(t.remove_snd_iff s).2 (t.mem_sessions_iff.1 listed)]

/-- Where nobody is to be taken out, nothing changes. -/
theorem answer_remove_of_not_mem (absent : s ∉ t.sessions) :
    t.answer (.remove s) = (t, .removed false) := by
  rw [mem_sessions_iff] at absent
  rw [answer, remove, if_neg absent]

theorem putsIn_answer_iff :
    putsIn s (call, (t.answer call).2) = true ↔
      call = .insert s ∧ t.isClosed = false ∧ s.name ∉ t.names := by
  rcases call with _ | other | other | _
  · exact ⟨nofun, fun ⟨eq, _⟩ ↦ nomatch eq⟩
  · rcases t.free_or_refused other with free | refused
    · rw [answer_insert_of_free free]
      show decide (other = s) = true ↔ _
      rw [decide_eq_true_iff]
      constructor
      · rintro rfl
        exact ⟨rfl, free⟩
      · rintro ⟨⟨⟩, -⟩
        rfl
    · rw [answer_insert_of_refused refused]
      refine iff_of_false nofun ?_
      rintro ⟨⟨⟩, free⟩
      exact not_free_of_refused refused free
  · exact ⟨nofun, fun ⟨eq, _⟩ ↦ nomatch eq⟩
  · exact ⟨nofun, fun ⟨eq, _⟩ ↦ nomatch eq⟩

theorem takesOut_answer_iff :
    takesOut s (call, (t.answer call).2) = true ↔
      s ∈ t.sessions ∧ (call = .remove s ∨ call = .closeAndDrain) := by
  rcases call with _ | other | other | _
  · exact ⟨nofun, fun ⟨_, eq⟩ ↦ by simp at eq⟩
  · exact ⟨nofun, fun ⟨_, eq⟩ ↦ by simp at eq⟩
  · have found : (t.remove other).2 = true ↔ other ∈ t.sessions := by
      rw [remove_snd_iff, mem_sessions_iff]
    have same : takesOut s (.remove other, .removed (t.remove other).2) = true ↔
        (t.remove other).2 = true ∧ other = s := by
      rcases (t.remove other).2 <;> simp [takesOut]
    show takesOut s (.remove other, .removed (t.remove other).2) = true ↔ _
    rw [same, found]
    constructor
    · rintro ⟨listed, rfl⟩
      exact ⟨listed, .inl rfl⟩
    · rintro ⟨listed, eq | eq⟩
      · obtain rfl := TableCall.remove.inj eq
        exact ⟨listed, rfl⟩
      · cases eq
  · show t.sessions.contains s = true ↔ _
    rw [List.contains_iff_mem]
    exact ⟨fun listed ↦ ⟨listed, .inr rfl⟩, And.left⟩

theorem not_mem_of_putsIn (entry : putsIn s (call, (t.answer call).2) = true) :
    s ∉ t.sessions := fun listed ↦
  (putsIn_answer_iff.1 entry).2.2 (name_mem_names listed)

theorem mem_of_takesOut (exit : takesOut s (call, (t.answer call).2) = true) : s ∈ t.sessions :=
  (takesOut_answer_iff.1 exit).1

/-- Those who are in behind a call are whom it has let in, and those who were in and whom it has not
taken out. -/
theorem mem_sessions_answer_iff :
    s ∈ (t.answer call).1.sessions ↔
      putsIn s (call, (t.answer call).2) = true ∨
        (s ∈ t.sessions ∧ takesOut s (call, (t.answer call).2) = false) := by
  rw [← Bool.not_eq_true, takesOut_answer_iff, putsIn_answer_iff]
  rcases call with _ | other | other | _
  · show s ∈ t.sessions ↔ _
    simp
  · rcases t.free_or_refused other with free | refused
    · have unused : t.find? other.name = none := by
        simpa [mem_names_iff] using free.2
      have entry : (TableCall.insert other = .insert s ∧ t.isClosed = false ∧ s.name ∉ t.names) ↔
          s = other := by
        constructor
        · rintro ⟨⟨⟩, -⟩
          rfl
        · rintro rfl
          exact ⟨rfl, free⟩
      rw [answer_insert_of_free free, mem_sessions_insert unused, entry]
      simp
    · have no_entry : ¬(TableCall.insert other = .insert s ∧ t.isClosed = false ∧
          s.name ∉ t.names) := by
        rintro ⟨⟨⟩, free⟩
        exact not_free_of_refused refused free
      rw [answer_insert_of_refused refused, or_iff_right no_entry]
      simp
  · show s ∈ (t.remove other).1.sessions ↔ _
    rw [mem_sessions_remove, ne_comm]
    simp +contextual
  · show s ∈ [] ↔ _
    simp

theorem isClosed_answer_iff :
    (t.answer call).1.isClosed = true ↔
      call = .closeAndDrain ∨ (t.isClosed = true ∧ call ≠ .reopen) := by
  rcases call with _ | other | other | _
  · show false = true ↔ _
    simp
  · rcases t.free_or_refused other with free | refused
    · rw [answer_insert_of_free free]
      simp
    · rw [answer_insert_of_refused refused]
      simp
  · have same : (t.remove other).1.isClosed = t.isClosed := by
      rw [remove]
      split <;> rfl
    show (t.remove other).1.isClosed = true ↔ _
    simp [same]
  · show true = true ↔ _
    simp

/-! ### Runs -/

variable {calls : List (TableCall ι)}

theorem run_concat (t : SessionTable ι) (calls : List (TableCall ι)) (call : TableCall ι) :
    t.run (calls ++ [call]) =
      (((t.run calls).1.answer call).1,
        (t.run calls).2 ++ [(call, ((t.run calls).1.answer call).2)]) := by
  rw [run, Transducer.run_append, Transducer.run_cons, Transducer.run_nil, List.append_nil]
  rfl

/-- The table is closed from the last call that closes it until one opens it again. -/
theorem isClosed_run_iff (calls : List (TableCall ι)) :
    (run {} calls).1.isClosed = true ↔ Lasting (· = .closeAndDrain) (· = .reopen) calls := by
  induction calls using List.reverseRecOn with
  | nil => exact iff_of_false Bool.false_ne_true not_lasting_nil
  | append_singleton calls call ih =>
    rw [run_concat, isClosed_answer_iff, lasting_concat_iff, ih]

/-- Those who are in have been let in, and have not been taken out since. -/
theorem mem_sessions_run_iff (calls : List (TableCall ι)) :
    s ∈ (run {} calls).1.sessions ↔ Keep (run {} calls).2 s := by
  induction calls using List.reverseRecOn with
  | nil => exact iff_of_false List.not_mem_nil not_lasting_nil
  | append_singleton calls call ih =>
    rw [run_concat, mem_sessions_answer_iff, Keep, lasting_concat_iff, ih, Bool.not_eq_true, Keep]

/-- While the table is closed nobody is in. -/
theorem sessions_run_of_closed (calls : List (TableCall ι))
    (closed : (run {} calls).1.isClosed = true) : (run {} calls).1.sessions = [] := by
  induction calls using List.reverseRecOn with
  | nil => rfl
  | append_singleton calls call ih =>
    rw [run_concat] at closed ⊢
    rcases isClosed_answer_iff.1 closed with rfl | ⟨before, -⟩
    · rfl
    · refine List.eq_nil_iff_forall_not_mem.2 fun s listed ↦ ?_
      rcases mem_sessions_answer_iff.1 listed with entry | ⟨earlier, -⟩
      · exact absurd before (Bool.not_eq_true _ ▸ (putsIn_answer_iff.1 entry).2.1)
      · rw [ih before] at earlier
        exact List.not_mem_nil earlier

/-- A session has been let in as often as it has been taken out, and once more if it is in. -/
theorem countP_putsIn (calls : List (TableCall ι)) (s : Session ι) :
    (run {} calls).2.countP (putsIn s) =
      (run {} calls).2.countP (takesOut s) + if s ∈ (run {} calls).1.sessions then 1 else 0 := by
  induction calls using List.reverseRecOn with
  | nil => rfl
  | append_singleton calls call ih =>
    have members : s ∈ ((run {} calls).1.answer call).1.sessions ↔ _ := mem_sessions_answer_iff
    rw [run_concat, List.countP_append, List.countP_append, List.countP_singleton,
      List.countP_singleton, ih, if_congr members rfl rfl]
    -- one that is let in was not in, so the call has not taken it out as well
    rcases entry : putsIn s (call, ((run {} calls).1.answer call).2) with _ | _
    · rcases exit : takesOut s (call, ((run {} calls).1.answer call).2) with _ | _
      · simp
      · simp [mem_of_takesOut exit]
    · have absent := not_mem_of_putsIn entry
      have stays : takesOut s (call, ((run {} calls).1.answer call).2) = false :=
        Bool.eq_false_iff.2 fun exit ↦ absent (mem_of_takesOut exit)
      simp [absent, stays]

/-- The sessions that have been let in have asked to be, each as often as it has been let in. -/
theorem countP_putsIn_le (calls : List (TableCall ι)) (s : Session ι) :
    (run {} calls).2.countP (putsIn s) ≤ (newcomers calls).count s := by
  induction calls using List.reverseRecOn with
  | nil => exact Nat.le_refl 0
  | append_singleton calls call ih =>
    rw [run_concat, List.countP_append, List.countP_singleton, newcomers, List.filterMap_append,
      List.count_append, ← newcomers]
    refine Nat.add_le_add ih ?_
    split
    · next entry =>
      obtain ⟨rfl, -⟩ := putsIn_answer_iff.1 entry
      simp
    · exact Nat.zero_le _

/-! ### The account of a run -/

/-- What a run makes of the sessions that ask to be let in. -/
structure Accounted (calls : List (TableCall ι)) (t : SessionTable ι)
    (history : List (AnsweredCall ι)) : Prop where
  /-- Each session is found by its own name. -/
  stored : ∀ {name : String} {id : ι}, t.find? name = some id → ⟨id, name⟩ ∈ newcomers calls
  /-- A session is let in exactly if the table is not closed and the name is free. -/
  admitted : ∀ s : Session ι,
    (t.answer (.insert s)).2 = .inserted (.ok ()) ↔ t.isClosed = false ∧ s.name ∉ t.names
  /-- One that is not let in changes nothing. -/
  refused : ∀ s : Session ι, t.isClosed = true ∨ s.name ∈ t.names →
    t.answer (.insert s) =
      (t, .inserted (.error (if t.isClosed then .shuttingDown else .nameInUse)))
  /-- The table is closed from the last call that closes it until one opens it again. -/
  closed : t.isClosed = true ↔ Lasting (· = .closeAndDrain) (· = .reopen) calls
  empty : t.isClosed = true → t.sessions = []
  /-- Those are in who have been let in and have not been taken out since. -/
  present : ∀ s : Session ι, s ∈ t.sessions ↔ Keep history s
  /-- No call takes anybody out twice, -/
  nodup : t.sessions.Nodup
  /-- and no two calls do. -/
  once : ∀ s : Session ι, history.countP (takesOut s) ≤ 1
  /-- Whoever has been let in and is not in any more has been taken out by one call. -/
  gone : ∀ s : Session ι, (∃ call ∈ history, putsIn s call = true) → s ∉ t.sessions →
    history.countP (takesOut s) = 1
  /-- Whoever is in can be taken out, -/
  removed : ∀ s ∈ t.sessions, (t.answer (.remove s)).2 = .removed true
  /-- and for whoever is not, no call takes anybody out, whatever name it gives. -/
  stale : ∀ s ∈ newcomers calls, s ∉ t.sessions → ∀ name,
    t.answer (.remove ⟨s.id, name⟩) = (t, .removed false)

/-- The account of a run holds whatever the calls are and in whatever order, if the sessions have
ids of their own and each asks to be let in once. -/
theorem run_accounted {calls : List (TableCall ι)}
    (distinct : ((newcomers calls).map Session.id).Nodup) :
    Accounted calls (run {} calls).1 (run {} calls).2 := by
  have single (s : Session ι) : (run {} calls).2.countP (putsIn s) ≤ 1 :=
    Nat.le_trans (countP_putsIn_le calls s) (List.nodup_iff_count_le_one.1 distinct.of_map s)
  have known {s : Session ι} (listed : s ∈ (run {} calls).1.sessions) : s ∈ newcomers calls := by
    have balance := countP_putsIn calls s
    have asked := countP_putsIn_le calls s
    rw [if_pos listed] at balance
    exact List.count_pos_iff.1 (by omega)
  constructor
  case stored =>
    intro name id found
    exact known ((mem_sessions_iff _).2 found)
  case admitted => exact fun s ↦ answer_insert_eq_ok_iff
  case refused => exact fun s ↦ answer_insert_of_refused
  case closed => exact isClosed_run_iff calls
  case empty => exact sessions_run_of_closed calls
  case present => exact fun s ↦ mem_sessions_run_iff calls
  case nodup => exact nodup_sessions _
  case once =>
    intro s
    have balance := countP_putsIn calls s
    have := single s
    omega
  case gone =>
    intro s entered absent
    have balance := countP_putsIn calls s
    have := single s
    have : 0 < (run {} calls).2.countP (putsIn s) := List.countP_pos_iff.2 entered
    rw [if_neg absent] at balance
    omega
  case removed => exact fun s ↦ answer_remove_of_mem
  case stale =>
    intro s asked absent name
    refine answer_remove_of_not_mem fun listed ↦ absent ?_
    -- the id is that of the session alone, so the name is its own
    have same : (⟨s.id, name⟩ : Session ι) = s :=
      List.inj_on_of_nodup_map distinct (known listed) asked rfl
    rwa [same] at listed

/-- A renderer comes back under its old name; two late calls for its first session, one of them
behind the drain, take nobody out. -/
theorem run_accounted_return :
    let calls : List (TableCall ℕ) :=
      [.insert ⟨1, "left"⟩, .insert ⟨2, "left"⟩, .remove ⟨1, "left"⟩, .insert ⟨3, "left"⟩,
        .remove ⟨1, "left"⟩, .closeAndDrain, .insert ⟨4, "left"⟩, .reopen, .insert ⟨5, "left"⟩,
        .remove ⟨3, "left"⟩]
    let t : SessionTable ℕ := {}
    ((newcomers calls).map Session.id).Nodup ∧
      Accounted calls (t.run calls).1 (t.run calls).2 ∧
      (t.run calls).2.map Prod.snd =
        [.inserted (.ok ()), .inserted (.error .nameInUse), .removed true, .inserted (.ok ()),
          .removed false, .drained [⟨3, "left"⟩], .inserted (.error .shuttingDown), .done,
          .inserted (.ok ()), .removed false] ∧
      (t.run calls).1.sessions = [⟨5, "left"⟩] := by
  intro calls t
  have distinct : ((newcomers calls).map Session.id).Nodup := by decide
  exact ⟨distinct, run_accounted distinct, by decide +kernel, by decide +kernel⟩

end SessionTable

end ShowControl
