import Mathlib.Data.List.Basic

/-!
# What lasts

Some events of a history start something and others end it: a session comes in and is taken out, a
connection is made and lost, a table is closed and opened again. Whether it is still there is a
matter of the last of these events (`Lasting`), and one more event changes it in the obvious way
(`lasting_concat_iff`). A state that changes in this way with each step of a run is the state of
something that lasts.
-/

namespace ShowControl

variable {α : Type} {starts ends : α → Prop} {history : List α} {event : α}

/-- An event has started it, and none behind it has ended it. -/
def Lasting (starts ends : α → Prop) (history : List α) : Prop :=
  ∃ before event after, history = before ++ event :: after ∧ starts event ∧
    ∀ later ∈ after, ¬ends later

theorem not_lasting_nil : ¬Lasting starts ends [] := by
  rintro ⟨before, event, after, place, -⟩
  exact List.append_ne_nil_of_right_ne_nil before (List.cons_ne_nil event after) place.symm

theorem lasting_concat_iff :
    Lasting starts ends (history ++ [event]) ↔
      starts event ∨ (Lasting starts ends history ∧ ¬ends event) := by
  constructor
  · rintro ⟨before, first, after, place, start, lasts⟩
    rcases List.eq_nil_or_concat after with rfl | ⟨after, last, rfl⟩
    · obtain ⟨-, same⟩ := List.append_inj' place rfl
      exact .inl (List.singleton_inj.1 same ▸ start)
    · rw [List.concat_eq_append, ← List.cons_append, ← List.append_assoc] at place
      obtain ⟨rfl, same⟩ := List.append_inj' place rfl
      obtain rfl := List.singleton_inj.1 same
      rw [List.concat_eq_append, List.forall_mem_append, List.forall_mem_singleton] at lasts
      exact .inr ⟨⟨before, first, after, rfl, start, lasts.1⟩, lasts.2⟩
  · rintro (start | ⟨⟨before, first, after, rfl, start, lasts⟩, stays⟩)
    · exact ⟨history, event, [], rfl, start, nofun⟩
    · refine ⟨before, first, after ++ [event], by simp, start, ?_⟩
      exact List.forall_mem_append.2 ⟨lasts, List.forall_mem_singleton.2 stays⟩

end ShowControl
