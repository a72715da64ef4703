import Mathlib.Data.List.Induction

/-!
# Histories

Much of what a state machine remembers is what happened last: an event of one kind has come, and
nothing of another kind after it. This module names that shape for a history, which is a list of
events with the first one first, and says how it changes with one more event.

## Key results

- `since_concat`: after one more event it is that event that counts, or an earlier one still does
- `since_eq_iff`: one event came, and another one did not come after it
-/

namespace SoloBuild

variable {α : Type}

/-- An event of the history was marked, given the events before it, and all events after it were
quiet. -/
def Since (marked : List α → α → Prop) (quiet : α → Prop) (history : List α) : Prop :=
  ∃ before e after, history = before ++ e :: after ∧ marked before e ∧ ∀ later ∈ after, quiet later

variable {marked : List α → α → Prop} {quiet : α → Prop}

@[simp] theorem not_since_nil : ¬ Since marked quiet [] := by
  rintro ⟨before, e, after, hnil, -, -⟩
  have hlength := congrArg List.length hnil
  simp at hlength

/-- One more event is the one that counts, or is quiet and leaves the one that counted. -/
theorem since_concat (history : List α) (e : α) :
    Since marked quiet (history ++ [e]) ↔
      marked history e ∨ Since marked quiet history ∧ quiet e := by
  constructor
  · rintro ⟨before, e', after, hsplit, hmarked, hquiet⟩
    -- The new event is the marked one exactly when nothing comes after that one.
    obtain rfl | ⟨after, last, rfl⟩ := List.eq_nil_or_concat after
    · obtain ⟨rfl, heq⟩ := List.append_inj' hsplit rfl
      cases heq
      exact .inl hmarked
    · rw [List.concat_eq_append] at hsplit hquiet
      rw [← List.cons_append, ← List.append_assoc] at hsplit
      obtain ⟨rfl, heq⟩ := List.append_inj' hsplit rfl
      cases heq
      rw [List.forall_mem_append, List.forall_mem_singleton] at hquiet
      exact .inr ⟨⟨before, e', after, rfl, hmarked, hquiet.1⟩, hquiet.2⟩
  · rintro (hmarked | ⟨⟨before, e', after, rfl, hmarked, hafter⟩, hquiet⟩)
    · exact ⟨history, e, [], rfl, hmarked, nofun⟩
    · refine ⟨before, e', after ++ [e], by simp, hmarked, ?_⟩
      rw [List.forall_mem_append, List.forall_mem_singleton]
      exact ⟨hafter, hquiet⟩

/-- One event came, and another one did not come after it. -/
theorem since_eq_iff {history : List α} {event other : α} :
    Since (fun _ e => e = event) (· ≠ other) history ↔
      ∃ before after, history = before ++ event :: after ∧ other ∉ after := by
  constructor
  · rintro ⟨before, _, after, hsplit, rfl, hquiet⟩
    exact ⟨before, after, hsplit, fun hmem => hquiet other hmem rfl⟩
  · rintro ⟨before, after, hsplit, hnot⟩
    exact ⟨before, event, after, hsplit, rfl, fun e he heq => hnot (heq ▸ he)⟩

end SoloBuild
