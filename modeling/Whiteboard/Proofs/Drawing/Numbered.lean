import Mathlib.Data.List.Chain
import Whiteboard.Proofs.Drawing.Mutation

/-!
# Whiteboard — numbered identities

Ids, nonces and seeds are drawn from one source in any order. A numbered source counts its ids
apart from the rest: whatever is drawn in between, the ids are its stem with 1, 2, 3, … behind a
dash, and the counter, a word of 64 bits, says how many there were as long as it can tell. Nonces
and seeds come from the other counter, which starts over before it leaves its range, so two in a
row are different.

As the number of an id stands after its last dash, an id tells the stem of its source. So two
sources with different stems never hand out the same id, even if the one stem is an id of the
other.

Main results:

* `issues_serveAll` — the ids among what was drawn are the ids that were issued.
* `SequentialIds.ids_serveAll` — numbered ids, without a gap until the counter starts over.
* `SequentialIds.isChain_numbers` — each nonce or seed is the one after the last.
* `SequentialIds.serveAll_laws` — all together.
-/

namespace Whiteboard.Drawing

/-! ## Drawing in any order -/

/-- What is asked of a source. -/
inductive Request where
  | id
  | nonce
  | seed
  deriving DecidableEq

/-- What a source hands out. -/
inductive Handout where
  | id (text : String)
  | nonce (number : UInt32)
  | seed (number : UInt32)
  deriving DecidableEq

namespace Handout

/-- The request that is answered. -/
def request : Handout → Request
  | .id _ => .id
  | .nonce _ => .nonce
  | .seed _ => .seed

def id? : Handout → Option String
  | .id text => some text
  | .nonce _ | .seed _ => none

/-- The nonce or the seed. -/
def number? : Handout → Option UInt32
  | .id _ => none
  | .nonce number | .seed number => some number

/-- The ids that were handed out, in their order. -/
def ids (handouts : List Handout) : List String := handouts.filterMap id?

/-- The nonces and seeds that were handed out, in their order. -/
def numbers (handouts : List Handout) : List UInt32 := handouts.filterMap number?

end Handout

section

variable {G : Type} [IdSource G]

/-- Draws what is asked for. -/
def Request.serve : Request → StateM G Handout
  | .id => return .id (← IdSource.nextId)
  | .nonce => return .nonce (← IdSource.nextNonce)
  | .seed => return .seed (← IdSource.nextSeed)

/-- Draws what is asked for, one after the other. -/
def serveAll (requests : List Request) : StateM G (List Handout) := requests.mapM Request.serve

theorem serveAll_cons (request : Request) (requests : List Request) (g : G) :
    (serveAll (request :: requests)).run g =
      let first := request.serve.run g
      let rest := (serveAll requests).run first.2
      (first.1 :: rest.1, rest.2) := by
  rw [serveAll, List.mapM_cons]
  rfl

/-- Each request is answered, in order. -/
theorem map_request_serveAll (requests : List Request) (g : G) :
    ((serveAll requests).run g).1.map Handout.request = requests := by
  induction requests generalizing g with
  | nil => rfl
  | cons request requests ih =>
    rw [serveAll_cons, List.map_cons, ih]
    cases request <;> rfl

/-- The ids among what was handed out are the ids that the source issued. -/
theorem issues_serveAll (requests : List Request) (g : G) :
    Issues g (Handout.ids ((serveAll requests).run g).1) ((serveAll requests).run g).2 := by
  induction requests generalizing g with
  | nil => exact .nothing g
  | cons request requests ih =>
    rw [serveAll_cons]
    cases request with
    | id => exact .id (ih _)
    | nonce => exact .nonce (ih _)
    | seed => exact .seed (ih _)

theorem length_ids_serveAll (requests : List Request) (g : G) :
    (Handout.ids ((serveAll requests).run g).1).length = requests.count .id := by
  induction requests generalizing g with
  | nil => rfl
  | cons request requests ih =>
    rw [serveAll_cons, List.count_cons]
    cases request with
    | id => exact congrArg Nat.succ (ih _)
    | nonce => exact ih _
    | seed => exact ih _

end

namespace SequentialIds

/-! ## Ids -/

/-- **Numbered ids.** They are numbered without a gap, and the counter goes on by as many as
there are. -/
theorem ids_serveAll (requests : List Request) (s : SequentialIds) :
    let served := (serveAll requests).run s
    Handout.ids served.1 = (List.range (requests.count .id)).map
        (fun k => idAt s.stem (s.counter + .ofNat (k + 1)).toNat) ∧
      served.2.counter = s.counter + .ofNat (requests.count .id) := by
  obtain ⟨hids, -, hcounter⟩ := ids_of_issues (issues_serveAll requests s)
  rw [length_ids_serveAll] at hids hcounter
  exact ⟨hids, hcounter⟩

/-- Before the counter of a new source starts over, it tells the numbers and how many there are. -/
theorem ids_serveAll_fresh (stem : String) {requests : List Request}
    (hcount : requests.count .id < 2 ^ 64) :
    let served := (serveAll requests).run (fresh stem)
    Handout.ids served.1 = (List.range' 1 (requests.count .id)).map (idAt stem) ∧
      served.2.issued = requests.count .id := by
  obtain ⟨hids, hcounter⟩ := ids_serveAll requests (fresh stem)
  have hnumber : ∀ n ≤ requests.count .id, ((fresh stem).counter + .ofNat n).toNat = n := by
    intro n hn
    show ((0 : UInt64) + .ofNat n).toNat = n
    rw [UInt64.zero_add, UInt64.toNat_ofNat']
    exact Nat.mod_eq_of_lt (by omega)
  refine ⟨?_, ?_⟩
  · rw [hids, List.range'_eq_map_range, List.map_map]
    refine List.map_congr_left fun k hk => ?_
    rw [hnumber _ (List.mem_range.mp hk), Function.comp_apply, Nat.add_comm 1 k]
    rfl
  · rw [issued, hcounter]
    exact hnumber _ (Nat.le_refl _)

/-! ## Nonces and seeds -/

/-- **Nonces and seeds.** Each is the one after the last, whatever ids are drawn in between. -/
theorem isChain_numbers (requests : List Request) (s : SequentialIds) :
    (s.nonce :: Handout.numbers ((serveAll requests).run s).1).IsChain
      fun last next => next = nonceAfter last := by
  induction requests generalizing s with
  | nil => exact List.isChain_singleton _
  | cons request requests ih =>
    rw [serveAll_cons]
    cases request with
    | id => exact ih { s with counter := s.counter + 1 }
    | nonce => exact List.isChain_cons_cons.mpr ⟨rfl, ih { s with nonce := nonceAfter s.nonce }⟩
    | seed => exact List.isChain_cons_cons.mpr ⟨rfl, ih { s with nonce := nonceAfter s.nonce }⟩

theorem mem_range_of_mem_numbers {requests : List Request} {s : SequentialIds} {n : UInt32}
    (h : n ∈ Handout.numbers ((serveAll requests).run s).1) : 1 ≤ n ∧ n ≤ maxNonce := by
  have hchain := isChain_numbers requests s
  obtain ⟨i, hi, rfl⟩ := List.getElem_of_mem h
  -- each of them comes after another one, the first after the one in the source
  have hstep := List.isChain_iff_getElem.mp hchain i (Nat.succ_lt_succ hi)
  rw [List.getElem_cons_succ] at hstep
  rw [hstep]
  exact nonceAfter_mem _

/-! ## All together -/

/-- **The laws of numbered identities.** Whatever is drawn from a new source, and in whatever
order, every request is answered; as long as there are no more ids than a counter of 64 bits can
tell, no id is handed out twice, as the ids are the stem with a dash and 1, 2, 3, … behind it, and
the counter says how many there were; it takes no notice of nonces and seeds; each of these is in
range and differs from the one before; and no source with another stem ever hands out one of these
ids. -/
theorem serveAll_laws (stem : String) (requests : List Request) :
    let served := (serveAll requests).run (fresh stem)
    served.1.map Handout.request = requests ∧
    (requests.count .id < 2 ^ 64 →
      (Handout.ids served.1).Nodup ∧
      Handout.ids served.1 =
        (List.range' 1 (requests.count .id)).map (fun k => stem ++ "-" ++ toString k) ∧
      served.2.issued = requests.count .id) ∧
    (∀ more, .id ∉ more → ((serveAll more).run served.2).2.issued = served.2.issued) ∧
    (∀ n ∈ Handout.numbers served.1, 1 ≤ n ∧ n ≤ maxNonce) ∧
    (Handout.numbers served.1).IsChain (· ≠ ·) ∧
    ∀ stem' requests', stem ≠ stem' → (Handout.ids served.1).Disjoint
      (Handout.ids ((serveAll requests').run (fresh stem')).1) := by
  intro served
  refine ⟨map_request_serveAll requests _, fun hcount => ?_, ?_,
    fun n hn => mem_range_of_mem_numbers hn, ?_, ?_⟩
  · refine ⟨nodup_of_issues (issues_serveAll requests (fresh stem)) ?_,
      ids_serveAll_fresh stem hcount⟩
    rw [length_ids_serveAll]
    exact hcount
  · intro more hmore
    rw [issued, (ids_serveAll more served.2).2, List.count_eq_zero_of_not_mem hmore]
    exact congrArg UInt64.toNat (UInt64.add_zero _)
  · refine (isChain_numbers requests (fresh stem)).tail.imp ?_
    rintro last next rfl
    exact (nonceAfter_ne last).symm
  · intro stem' requests' hne id hid hid'
    rw [(ids_serveAll requests (fresh stem)).1] at hid
    rw [(ids_serveAll requests' (fresh stem')).1] at hid'
    obtain ⟨k, -, rfl⟩ := List.mem_map.mp hid
    obtain ⟨k', -, heq⟩ := List.mem_map.mp hid'
    exact hne (idAt_inj.mp heq).1.symm

/-- Two sources of which the one has an id of the other as its stem. -/
theorem serveAll_laws_of_dashed :
    let requests : List Request := [.id, .nonce, .id, .seed, .nonce]
    let served := (serveAll requests).run (fresh "a")
    let served' := (serveAll requests).run (fresh "a-1")
    requests.count .id < 2 ^ 64 ∧
      Handout.ids served.1 = ["a-1", "a-2"] ∧ Handout.ids served'.1 = ["a-1-1", "a-1-2"] ∧
      (Handout.ids served.1).Nodup ∧ served.2.issued = 2 ∧
      .id ∉ ([.nonce, .seed] : List Request) ∧
      ((serveAll [.nonce, .seed]).run served.2).2.issued = 2 ∧
      Handout.numbers served.1 = [1, 2, 3] ∧ (Handout.numbers served.1).IsChain (· ≠ ·) ∧
      "a" ≠ "a-1" ∧ (Handout.ids served.1).Disjoint (Handout.ids served'.1) := by
  intro requests served served'
  have hcount : requests.count .id < 2 ^ 64 := by decide
  obtain ⟨-, hcounted, hmore, -, hchain, hdisjoint⟩ := serveAll_laws "a" requests
  obtain ⟨hnodup, hids, hissued⟩ := hcounted hcount
  obtain ⟨-, hcounted', -⟩ := serveAll_laws "a-1" requests
  obtain ⟨-, hids', -⟩ := hcounted' hcount
  have htwo : served.2.issued = 2 := hissued
  have hnone : .id ∉ ([.nonce, .seed] : List Request) := by decide
  have hne : "a" ≠ "a-1" := by decide
  refine ⟨hcount, ?_, ?_, hnodup, htwo, hnone, (hmore _ hnone).trans htwo, rfl, hchain, hne,
    hdisjoint _ _ hne⟩
  · rw [hids]
    decide
  · rw [hids']
    decide

end SequentialIds

end Whiteboard.Drawing
