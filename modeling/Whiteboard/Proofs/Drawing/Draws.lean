import Whiteboard.Drawing.Identity

/-!
# Whiteboard — work that draws identities, step by step

Work that draws identities and may fail is put together from parts. What a part does to the
source is done, whether the rest fails or not; so the outcome of the whole is told from the
outcomes of its parts one after the other.

Main results:

* `exists_of_run_bind_ok` — work that succeeds has parts that do.
* `run_bind_of_ok`, `run_bind_of_error` — the outcome of work from that of its first part.
-/

namespace Whiteboard.Drawing

variable {G ε α β : Type}

theorem run_draw (act : StateM G α) (g : G) :
    (draw act).run.run g = (.ok (act.run g).1, (act.run g).2) := by
  rw [draw, ExceptT.run_lift, StateT.run_map]
  rfl

theorem run_bind_of_ok {act : ExceptT ε (StateM G) α} {g g' : G} {a : α}
    (h : act.run.run g = (.ok a, g')) (next : α → ExceptT ε (StateM G) β) :
    (act >>= next).run.run g = (next a).run.run g' := by
  rw [ExceptT.run_bind, StateT.run_bind, h]
  rfl

theorem run_bind_of_error {act : ExceptT ε (StateM G) α} {g g' : G} {e : ε}
    (h : act.run.run g = (.error e, g')) (next : α → ExceptT ε (StateM G) β) :
    (act >>= next).run.run g = (.error e, g') := by
  rw [ExceptT.run_bind, StateT.run_bind, h]
  rfl

/-- A draw cannot fail, so what comes after it decides. -/
theorem run_draw_bind (act : StateM G α) (next : α → Draws G β) (g : G) :
    (draw act >>= next).run.run g = (next (act.run g).1).run.run (act.run g).2 :=
  run_bind_of_ok (run_draw act g) next

/-- **Work after work.** If both together succeed, the first did, and the second went on
from there. -/
theorem exists_of_run_bind_ok {act : ExceptT ε (StateM G) α}
    {next : α → ExceptT ε (StateM G) β} {g g'' : G} {b : β}
    (h : (act >>= next).run.run g = (.ok b, g'')) :
    ∃ a g', act.run.run g = (.ok a, g') ∧ (next a).run.run g' = (.ok b, g'') := by
  obtain ⟨outcome, g', hact⟩ : ∃ outcome g', act.run.run g = (outcome, g') := ⟨_, _, rfl⟩
  cases outcome with
  | error e =>
    rw [run_bind_of_error hact] at h
    cases h
  | ok a =>
    rw [run_bind_of_ok hact] at h
    exact ⟨a, g', hact, h⟩

/-- Of work that is computed to the end only what is asked of its result need be compared. -/
theorem exists_of_toOption_map {r : Except ε α × G} {f : α → β} {b : β}
    (h : r.1.toOption.map f = some b) : ∃ a g', r = (.ok a, g') ∧ f a = b := by
  obtain ⟨outcome, g'⟩ := r
  cases outcome with
  | error e => cases h
  | ok a => exact ⟨a, g', rfl, Option.some.inj h⟩

end Whiteboard.Drawing
