import Mathlib.Algebra.Group.Nat.Defs
import Mathlib.Data.List.Nodup
import Whiteboard.Proofs.Drawing.Draws
import Whiteboard.Proofs.Text.Digits

/-!
# Whiteboard — which ids are handed out

Work that draws identities changes the state of a source. `Issues g ids g'` says
that the source comes from `g` to `g'` by handing out exactly `ids`, in this
order, with any nonces and seeds in between; `Yields` says that work succeeds and
draws exactly these ids. A source that keeps a record (`Recorder`) shows that
nothing is hidden by this: whatever it issues is on its record.

Main results:

* `Yields.bind` — work after work draws the ids of the one and then of the other.
* `Issues.record` — the ids issued by a recorder are those it has written down.
* `SequentialIds.nodup_of_issues` — numbered ids are not handed out twice before the counter
  starts over.
* `NumberedIds.neverRepeats` — without a bound they never are.
-/

namespace Whiteboard.Drawing

variable {G : Type} [IdSource G]

/-! ## Issued ids -/

/-- From the one state to the other a source hands out exactly these ids, in this
order. Nonces and seeds may be drawn at any time. -/
inductive Issues : G → List String → G → Prop where
  | nothing (g : G) : Issues g [] g
  | id {g g' : G} {ids : List String} (rest : Issues (IdSource.nextId.run g).2 ids g') :
      Issues g ((IdSource.nextId.run g).1 :: ids) g'
  | nonce {g g' : G} {ids : List String} (rest : Issues (IdSource.nextNonce.run g).2 ids g') :
      Issues g ids g'
  | seed {g g' : G} {ids : List String} (rest : Issues (IdSource.nextSeed.run g).2 ids g') :
      Issues g ids g'

/-- Whatever is drawn from the source, in whatever order, no id is handed out
twice. -/
def NeverRepeats (g : G) : Prop := ∀ ids g', Issues g ids g' → ids.Nodup

theorem Issues.append {g g' g'' : G} {ids ids' : List String} (h : Issues g ids g')
    (h' : Issues g' ids' g'') : Issues g (ids ++ ids') g'' := by
  -- on the draws that came first
  induction h with
  | nothing _ => exact h'
  | id _ ih => exact .id (ih h')
  | nonce _ ih => exact .nonce (ih h')
  | seed _ ih => exact .seed (ih h')

/-! ## Work that succeeds -/

section Yields

variable {ε α β : Type}

/-- The work succeeds with `a`, brings the source from `g` to `g'` and draws
exactly these ids. -/
def Yields (act : ExceptT ε (StateM G) α) (g : G) (ids : List String) (a : α) (g' : G) : Prop :=
  act.run.run g = (.ok a, g') ∧ Issues g ids g'

theorem Yields.pure (a : α) (g : G) :
    Yields (Pure.pure a : ExceptT ε (StateM G) α) g [] a g :=
  ⟨rfl, .nothing g⟩

theorem Yields.bind {act : ExceptT ε (StateM G) α} {next : α → ExceptT ε (StateM G) β}
    {g g' g'' : G} {ids ids' : List String} {a : α} {b : β} (h : Yields act g ids a g')
    (h' : Yields (next a) g' ids' b g'') : Yields (act >>= next) g (ids ++ ids') b g'' := by
  refine ⟨?_, h.2.append h'.2⟩
  rw [run_bind_of_ok h.1]
  exact h'.1

/-- A draw that cannot fail yields what it draws. -/
theorem yields_draw {act : StateM G α} {g g' : G} {ids : List String} {a : α}
    (hrun : act.run g = (a, g')) (h : Issues g ids g') : Yields (draw act) g ids a g' := by
  refine ⟨?_, h⟩
  rw [run_draw, hrun]

/-- What is settled already yields without drawing anything. -/
theorem yields_settle {outcome : Except Error α} {a : α} (h : outcome = .ok a) (g : G) :
    Yields (settle outcome) g [] a g := by
  rw [h]
  exact ⟨rfl, .nothing g⟩

end Yields

/-! ## Sources that keep a record -/

/-- A source together with the ids that it has handed out so far. -/
structure Recorder (G : Type) where
  source : G
  record : List String

instance : IdSource (Recorder G) where
  nextId := fun r =>
    let (id, source) := IdSource.nextId.run r.source
    (id, ⟨source, r.record ++ [id]⟩)
  nextNonce := fun r =>
    let (nonce, source) := IdSource.nextNonce.run r.source
    (nonce, ⟨source, r.record⟩)
  nextSeed := fun r =>
    let (seed, source) := IdSource.nextSeed.run r.source
    (seed, ⟨source, r.record⟩)

/-- Exactly the issued ids are on the record, in the order in which they were
drawn. -/
theorem Issues.record {r r' : Recorder G} {ids : List String} (h : Issues r ids r') :
    r'.record = r.record ++ ids := by
  induction h with
  | nothing r => rw [List.append_nil]
  | id _ ih =>
    rw [ih]
    exact List.append_assoc ..
  | nonce _ ih => exact ih
  | seed _ ih => exact ih

/-- What a recorder issues, its source issues. -/
theorem Issues.source {r r' : Recorder G} {ids : List String} (h : Issues r ids r') :
    Issues r.source ids r'.source := by
  induction h with
  | nothing r => exact .nothing r.source
  | id _ ih => exact .id ih
  | nonce _ ih => exact .nonce ih
  | seed _ ih => exact .seed ih

/-- A recorder repeats no id that its source does not repeat. -/
theorem NeverRepeats.recorder {g : G} (h : NeverRepeats g) (record : List String) :
    NeverRepeats (⟨g, record⟩ : Recorder G) :=
  fun ids g' hissued => h ids g'.source hissued.source

/-! ## Numbered ids -/

namespace SequentialIds

/-- A numbered id is known by its stem and its number, even where the stem ends like an id. -/
theorem idAt_inj {stem stem' : String} {m n : Nat} :
    idAt stem m = idAt stem' n ↔ stem = stem' ∧ m = n := by
  refine ⟨fun h => ?_, fun h => by rw [h.1, h.2]⟩
  have hchars : ∀ stem n, (idAt stem n).toList = stem.toList ++ '-' :: Nat.toDigits 10 n := by
    intro stem n
    rw [idAt, String.toList_append, String.toList_append, List.append_assoc]
    show stem.toList ++ ("-".toList ++ (Nat.repr n).toList) = _
    rw [Nat.toList_repr]
    rfl
  have hlists := congrArg String.toList h
  rw [hchars, hchars] at hlists
  -- the last dash stands before the number
  obtain ⟨hstem, hnumber⟩ := Text.append_digits_inj (by decide) hlists
  exact ⟨String.toList_inj.mp hstem, hnumber⟩

/-- Ids are numbered without a gap, whatever else is drawn, until the counter starts over. -/
theorem ids_of_issues {s s' : SequentialIds} {ids : List String} (h : Issues s ids s') :
    ids = (List.range ids.length).map (fun k => idAt s.stem (s.counter + .ofNat (k + 1)).toNat) ∧
      s'.stem = s.stem ∧ s'.counter = s.counter + .ofNat ids.length := by
  have hnext : ∀ (counter : UInt64) (n : Nat),
      counter + 1 + .ofNat n = counter + .ofNat (n + 1) := by
    intro counter n
    rw [Nat.add_comm n 1, UInt64.ofNat_add, UInt64.add_assoc]
    rfl
  induction h with
  | nothing s => exact ⟨rfl, rfl, (UInt64.add_zero s.counter).symm⟩
  | @id s s' ids _ ih =>
    -- the number after the one that was handed out
    obtain ⟨hids, hstem, hcounter⟩ := ih
    refine ⟨?_, hstem, hcounter.trans (hnext s.counter ids.length)⟩
    rw [List.length_cons, List.range_succ_eq_map, List.map_cons, List.map_map]
    refine congrArg (List.cons _) (hids.trans (List.map_congr_left fun k _ => ?_))
    exact congrArg (fun n : UInt64 => idAt s.stem n.toNat) (hnext s.counter (k + 1))
  | nonce _ ih => exact ih
  | seed _ ih => exact ih

/-- As long as the counter does not come around, no id is handed out twice. -/
theorem nodup_of_issues {s s' : SequentialIds} {ids : List String} (h : Issues s ids s')
    (hlength : ids.length < 2 ^ 64) : ids.Nodup := by
  rw [(ids_of_issues h).1]
  refine List.Nodup.map_on (fun k hk k' hk' heq => ?_) List.nodup_range
  have hnumber := UInt64.toNat_inj.mp (idAt_inj.mp heq).2
  have hnat := congrArg UInt64.toNat (UInt64.add_right_inj _ |>.mp hnumber)
  rw [List.mem_range] at hk hk'
  rw [UInt64.toNat_ofNat', UInt64.toNat_ofNat'] at hnat
  omega

end SequentialIds

/-- A source that numbers its ids as `SequentialIds` does, but whose counter never starts over. -/
structure NumberedIds where
  stem : String
  /-- How many ids were handed out. -/
  issued : Nat
  /-- The nonce handed out last. -/
  nonce : UInt32

namespace NumberedIds

open SequentialIds (idAt idAt_inj nonceAfter)

/-- A source that has handed out nothing yet. -/
def fresh (stem : String) : NumberedIds := ⟨stem, 0, 0⟩

instance : IdSource NumberedIds where
  nextId := fun s => (idAt s.stem (s.issued + 1), { s with issued := s.issued + 1 })
  nextNonce := fun s => (nonceAfter s.nonce, { s with nonce := nonceAfter s.nonce })

theorem ids_of_issues {s s' : NumberedIds} {ids : List String} (h : Issues s ids s') :
    ids = (List.range' (s.issued + 1) ids.length).map (idAt s.stem) := by
  induction h with
  | nothing s => rfl
  | id _ ih =>
    rw [List.length_cons, List.range'_succ, List.map_cons]
    exact congrArg (List.cons _) ih
  | nonce _ ih => exact ih
  | seed _ ih => exact ih

/-- Ids that are numbered without a bound are never handed out twice. -/
theorem neverRepeats (s : NumberedIds) : NeverRepeats s := by
  intro ids s' h
  rw [ids_of_issues h]
  exact List.Nodup.map (fun m n h => (idAt_inj.mp h).2) List.nodup_range'

end NumberedIds

end Whiteboard.Drawing
