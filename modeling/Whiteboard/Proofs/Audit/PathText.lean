import Whiteboard.Audit.Finding
import Whiteboard.Proofs.Text.Digits

/-!
# Whiteboard — paths and their texts

A path is shown as a text, and two findings are the same to a reader if their texts are. No
key that an audit speaks of contains a dot or a bracket, and what follows a key starts with
one of these; so where a key ends can be seen, and a number ends at the closing bracket.

Main results:

* `stepsText_inj` — steps with plain keys can be read back from their text.
* `pathText_inj` — so can a path that starts with a key.
-/

namespace Whiteboard.Audit

open Text (append_inj_of_ends digits_append_inj)

/-! ## Steps -/

/-- The characters that start a step. -/
def startsStep (c : Char) : Bool := c == '.' || c == '['

/-- A step whose key, if it is one, shows where it ends. -/
def Step.Plain : Step → Prop
  | .key name => ∀ c ∈ name.toList, startsStep c = false
  | .index _ => True

instance (step : Step) : Decidable step.Plain :=
  match step with
  | .key name => List.decidableBAll (fun c => startsStep c = false) name.toList
  | .index _ => inferInstanceAs (Decidable True)

theorem toList_text_key (name : String) : (Step.key name).text.toList = '.' :: name.toList := by
  rw [Step.text, String.toList_append]
  rfl

theorem toList_text_index (n : Nat) :
    (Step.index n).text.toList = '[' :: (Nat.toDigits 10 n ++ [']']) := by
  rw [Step.text, String.toList_append, String.toList_append]
  show '[' :: ((Nat.repr n).toList ++ [']']) = _
  rw [Nat.toList_repr]

theorem toList_stepsText_cons (step : Step) (rest : Path) :
    (stepsText (step :: rest)).toList = step.text.toList ++ (stepsText rest).toList := by
  rw [stepsText, String.toList_append]

theorem stepsText_cons_ne_nil (step : Step) (rest : Path) :
    (stepsText (step :: rest)).toList ≠ [] := by
  rw [toList_stepsText_cons]
  cases step with
  | key name => simp [toList_text_key]
  | index n => simp [toList_text_index]

/-- The text of steps is empty or starts as a step does. -/
theorem startsStep_stepsText (p : Path) :
    ∀ c ∈ (stepsText p).toList.head?, startsStep c = true := by
  intro c hc
  cases p with
  | nil => cases hc
  | cons step rest =>
    rw [toList_stepsText_cons] at hc
    cases step with
    | key name =>
      rw [toList_text_key, List.cons_append, List.head?_cons, Option.mem_some_iff] at hc
      subst hc
      rfl
    | index n =>
      rw [toList_text_index, List.cons_append, List.head?_cons, Option.mem_some_iff] at hc
      subst hc
      rfl

/-- **Steps from their text.** Steps whose keys are plain are known by their text. -/
theorem stepsText_inj {p q : Path} (hp : ∀ step ∈ p, step.Plain) (hq : ∀ step ∈ q, step.Plain)
    (h : (stepsText p).toList = (stepsText q).toList) : p = q := by
  -- on the first path, one step of each after the other
  induction p generalizing q with
  | nil =>
    cases q with
    | nil => rfl
    | cons step q => exact absurd h.symm (stepsText_cons_ne_nil step q)
  | cons step p ih =>
    obtain ⟨hstep, hsteps⟩ := List.forall_mem_cons.mp hp
    cases q with
    | nil => exact absurd h (stepsText_cons_ne_nil step p)
    | cons step' q =>
      obtain ⟨hstep', hsteps'⟩ := List.forall_mem_cons.mp hq
      rw [toList_stepsText_cons, toList_stepsText_cons] at h
      cases step with
      | key name =>
        rw [toList_text_key, List.cons_append] at h
        cases step' with
        | key name' =>
          rw [toList_text_key, List.cons_append] at h
          obtain ⟨hname, hrest⟩ := append_inj_of_ends hstep hstep' (startsStep_stepsText p)
            (startsStep_stepsText q) (List.cons.inj h).2
          rw [String.toList_inj.mp hname, ih hsteps hsteps' hrest]
        | index n =>
          -- a dot is no bracket
          rw [toList_text_index] at h
          simp at h
      | index n =>
        rw [toList_text_index, List.cons_append, List.append_assoc, List.singleton_append] at h
        cases step' with
        | key name =>
          rw [toList_text_key] at h
          simp at h
        | index n' =>
          rw [toList_text_index, List.cons_append, List.append_assoc, List.singleton_append] at h
          obtain ⟨rfl, hrest⟩ := digits_append_inj (by decide) (List.cons.inj h).2
          rw [ih hsteps hsteps' hrest]

/-! ## Paths -/

/-- **Paths from their text.** A path that starts with a key is known by its text, as the
first key is not told from a later one by its dot. -/
theorem pathText_inj {name name' : String} {p q : Path}
    (hp : ∀ step ∈ Step.key name :: p, step.Plain) (hq : ∀ step ∈ Step.key name' :: q, step.Plain)
    (h : pathText (.key name :: p) = pathText (.key name' :: q)) :
    Step.key name :: p = Step.key name' :: q := by
  obtain ⟨hname, hp⟩ := List.forall_mem_cons.mp hp
  obtain ⟨hname', hq⟩ := List.forall_mem_cons.mp hq
  have hchars := congrArg String.toList h
  rw [pathText, pathText, String.toList_append, String.toList_append] at hchars
  obtain ⟨hnames, hrest⟩ := append_inj_of_ends hname hname' (startsStep_stepsText p)
    (startsStep_stepsText q) hchars
  rw [String.toList_inj.mp hnames, stepsText_inj hp hq hrest]

end Whiteboard.Audit
