import Mathlib.Data.List.Nodup
import Mathlib.Data.List.Perm.Basic
import Whiteboard.Proofs.Audit.Format
import Whiteboard.Proofs.Audit.PathText

/-!
# Whiteboard — findings at distinct places

Findings are distinct if no two of them are about one place. Those about different fields of
a record, or about different items of a list, never are; so it is enough to look at one field
or one item at a time, and there at the rules that speak of the same place.

Main results:

* `distinct_flatMap` — findings about different parts of a value are distinct.
* `ByField.distinct`, `apart_of_byField` — what is said of a record field by field.
* `distinct_numbered`, `numbered_append_perm` — what is said of a list item by item.
-/

namespace Whiteboard.Audit

variable {S : Type}

/-! ## Places -/

/-- No two findings are about one place, and all places are named by plain keys. -/
structure Distinct (fs : List (Finding S)) : Prop where
  nodup : (fs.map Finding.path).Nodup
  plain : ∀ f ∈ fs, ∀ step ∈ f.path, step.Plain

/-- All findings are about one part of the value. -/
def Within (step : Step) (fs : List (Finding S)) : Prop := ∀ f ∈ fs, ∃ rest, f.path = step :: rest

/-- No finding of the one list is about the place of one of the other. -/
def Apart (fs gs : List (Finding S)) : Prop := ∀ f ∈ fs, ∀ g ∈ gs, f.path ≠ g.path

theorem Distinct.nil : Distinct ([] : List (Finding S)) :=
  ⟨List.nodup_nil, fun _ hf => by cases hf⟩

theorem distinct_singleton {f : Finding S} (h : ∀ step ∈ f.path, step.Plain) : Distinct [f] :=
  ⟨List.nodup_singleton _, fun g hg => by rwa [List.mem_singleton.mp hg]⟩

theorem distinct_append_iff {fs gs : List (Finding S)} :
    Distinct (fs ++ gs) ↔ Distinct fs ∧ Distinct gs ∧ Apart fs gs := by
  have hnodup : ((fs ++ gs).map Finding.path).Nodup ↔
      (fs.map Finding.path).Nodup ∧ (gs.map Finding.path).Nodup ∧ Apart fs gs := by
    rw [List.map_append, List.nodup_append]
    simp only [List.forall_mem_map, Apart]
  constructor
  · rintro ⟨h, hplain⟩
    obtain ⟨hfs, hgs, hapart⟩ := hnodup.mp h
    exact ⟨⟨hfs, fun f hf => hplain f (List.mem_append_left _ hf)⟩,
      ⟨hgs, fun g hg => hplain g (List.mem_append_right _ hg)⟩, hapart⟩
  · rintro ⟨hfs, hgs, hapart⟩
    exact ⟨hnodup.mpr ⟨hfs.nodup, hgs.nodup, hapart⟩,
      fun f hf => (List.mem_append.mp hf).elim (hfs.plain f) (hgs.plain f)⟩

/-- The order of the findings does not matter. -/
theorem Distinct.perm {fs gs : List (Finding S)} (h : Distinct fs) (hperm : fs.Perm gs) :
    Distinct gs :=
  ⟨(hperm.map _).nodup_iff.mp h.nodup, fun g hg => h.plain g (hperm.mem_iff.mpr hg)⟩

theorem under_under (p q : Path) (f : Finding S) : (f.under q).under p = f.under (p ++ q) :=
  congrArg (Finding.mk · f.problem) (List.append_assoc p q f.path).symm

theorem Distinct.under {fs : List (Finding S)} (h : Distinct fs) {p : Path}
    (hp : ∀ step ∈ p, step.Plain) : Distinct (fs.map (.under p)) := by
  constructor
  · have hpaths : (fs.map (Finding.under p)).map Finding.path =
        (fs.map Finding.path).map (p ++ ·) := by
      rw [List.map_map, List.map_map]
      rfl
    rw [hpaths]
    exact h.nodup.map (List.append_right_injective p)
  · rw [List.forall_mem_map]
    intro f hf step hstep
    exact (List.mem_append.mp hstep).elim (hp step) (h.plain f hf step)

theorem Apart.under {fs gs : List (Finding S)} (h : Apart fs gs) (p : Path) :
    Apart (fs.map (.under p)) (gs.map (.under p)) := by
  intro f hf g hg heq
  obtain ⟨f', hf', rfl⟩ := List.mem_map.mp hf
  obtain ⟨g', hg', rfl⟩ := List.mem_map.mp hg
  exact h f' hf' g' hg' (List.append_cancel_left heq)

theorem within_under (step : Step) (p : Path) (fs : List (Finding S)) :
    Within step (fs.map (.under (step :: p))) := by
  intro f hf
  obtain ⟨f, -, rfl⟩ := List.mem_map.mp hf
  exact ⟨p ++ f.path, rfl⟩

/-- What is about different parts is apart. -/
theorem Within.apart {fs gs : List (Finding S)} {step step' : Step} (h : Within step fs)
    (h' : Within step' gs) (hne : step ≠ step') : Apart fs gs := by
  intro f hf g hg heq
  obtain ⟨rest, hrest⟩ := h f hf
  obtain ⟨rest', hrest'⟩ := h' g hg
  rw [hrest, hrest'] at heq
  exact hne (List.cons.inj heq).1

/-- **Different parts.** Where the findings about each part of a value are distinct, all of
them are. -/
theorem distinct_flatMap {ι : Type} {items : List ι} {step : ι → Step}
    {about : ι → List (Finding S)} (hsteps : (items.map step).Nodup)
    (hwithin : ∀ item ∈ items, Within (step item) (about item))
    (hdistinct : ∀ item ∈ items, Distinct (about item)) : Distinct (items.flatMap about) := by
  -- the first part, apart from all later ones
  induction items with
  | nil => exact .nil
  | cons item items ih =>
    rw [List.map_cons, List.nodup_cons] at hsteps
    rw [List.forall_mem_cons] at hwithin hdistinct
    obtain ⟨hitem, hitems⟩ := hwithin
    rw [List.flatMap_cons, distinct_append_iff]
    refine ⟨hdistinct.1, ih hsteps.2 hitems hdistinct.2, ?_⟩
    intro f hf g hg
    obtain ⟨other, hother, hg⟩ := List.mem_flatMap.mp hg
    have hne : step item ≠ step other := fun heq =>
      hsteps.1 (heq ▸ List.mem_map_of_mem hother)
    exact hitem.apart (hitems other hother) hne f hf g hg

/-! ## Records -/

/-- What a rule says of one field: findings about this field, at distinct places. -/
structure About (name : String) (fs : List (Finding S)) : Prop where
  within : Within (.key name) fs
  distinct : Distinct fs

theorem about_nil (name : String) : About name ([] : List (Finding S)) where
  within _ hf := by cases hf
  distinct := .nil

theorem about_atField {name : String} (hname : (Step.key name).Plain) (problem : Problem S) :
    About name [atField name problem] :=
  ⟨fun f hf => ⟨[], by rw [List.mem_singleton.mp hf]; rfl⟩,
    distinct_singleton (List.forall_mem_singleton.mpr hname)⟩

theorem about_under {name : String} (hname : (Step.key name).Plain) {fs : List (Finding S)}
    (h : Distinct fs) : About name (fs.map (.under [.key name])) :=
  ⟨within_under _ _ _, h.under (List.forall_mem_singleton.mpr hname)⟩

/-- What is said of the fields of a record, each of which is mentioned once. -/
structure ByField (parts : List (String × List (Finding S))) : Prop where
  names : (parts.map Prod.fst).Nodup
  about : ∀ part ∈ parts, About part.1 part.2

theorem byField_singleton {name : String} {fs : List (Finding S)} (h : About name fs) :
    ByField [(name, fs)] :=
  ⟨List.nodup_singleton _, List.forall_mem_singleton.mpr h⟩

theorem ByField.distinct {parts : List (String × List (Finding S))} (h : ByField parts) :
    Distinct (parts.flatMap Prod.snd) := by
  have hsteps : (parts.map fun part => Step.key part.1).Nodup := by
    have hmap := h.names.map fun _ _ heq => Step.key.inj heq
    rwa [List.map_map] at hmap
  exact distinct_flatMap hsteps (fun part hpart => (h.about part hpart).within)
    fun part hpart => (h.about part hpart).distinct

/-- The name of a field tells what is said of it. -/
theorem ByField.eq_of_mem {parts : List (String × List (Finding S))} (h : ByField parts)
    {name : String} {fs gs : List (Finding S)} (hfs : (name, fs) ∈ parts)
    (hgs : (name, gs) ∈ parts) : fs = gs :=
  congrArg Prod.snd (List.inj_on_of_nodup_map h.names hfs hgs rfl)

/-- Only what is said of one field under both views need be compared. -/
theorem apart_of_byField {parts parts' : List (String × List (Finding S))} (h : ByField parts)
    (h' : ByField parts')
    (hsame : ∀ name fs gs, (name, fs) ∈ parts → (name, gs) ∈ parts' → Apart fs gs) :
    Apart (parts.flatMap Prod.snd) (parts'.flatMap Prod.snd) := by
  intro f hf g hg
  obtain ⟨⟨name, fs⟩, hpart, hf⟩ := List.mem_flatMap.mp hf
  obtain ⟨⟨name', gs⟩, hpart', hg⟩ := List.mem_flatMap.mp hg
  by_cases hname : name = name'
  · subst hname
    exact hsame name fs gs hpart hpart' f hf g hg
  · have hne : Step.key name ≠ Step.key name' := fun heq => hname (Step.key.inj heq)
    exact (h.about _ hpart).within.apart (h'.about _ hpart').within hne f hf g hg

/-! ## Lists -/

/-- The findings about the items of a list, which know their places. -/
def numbered {ι : Type} (items : List ι) (about : ι → Nat → List (Finding S)) :
    List (Finding S) :=
  items.zipIdx.flatMap fun (item, i) => (about item i).map (.under [.index i])

theorem distinct_numbered {ι : Type} {items : List ι} {about : ι → Nat → List (Finding S)}
    (h : ∀ item ∈ items, ∀ i, Distinct (about item i)) : Distinct (numbered items about) := by
  have hsteps : (items.zipIdx.map fun item => Step.index item.2).Nodup := by
    have hplaces : (items.zipIdx.map Prod.snd).Nodup := by
      rw [List.zipIdx_map_snd]
      exact List.nodup_range'
    have hmap := hplaces.map fun _ _ heq => Step.index.inj heq
    rwa [List.map_map] at hmap
  refine distinct_flatMap hsteps (fun item _ => within_under _ _ _) ?_
  rintro ⟨item, i⟩ hitem
  exact (h item (List.fst_mem_of_mem_zipIdx hitem) i).under (by simp [Step.Plain])

theorem distinct_eachItem {ι : Type} {items : List ι} {check : ι → List (Finding S)}
    (h : ∀ item ∈ items, Distinct (check item)) : Distinct (eachItem items check) :=
  distinct_numbered fun item hitem _ => h item hitem

/-- Of two lists of findings about the same items, only those about one item need be
compared. -/
theorem apart_numbered {ι : Type} {items : List ι} {about about' : ι → Nat → List (Finding S)}
    (h : ∀ item ∈ items, ∀ i, Apart (about item i) (about' item i)) :
    Apart (numbered items about) (numbered items about') := by
  intro f hf g hg
  obtain ⟨⟨item, i⟩, hitem, hf⟩ := List.mem_flatMap.mp hf
  obtain ⟨⟨item', i'⟩, hitem', hg⟩ := List.mem_flatMap.mp hg
  by_cases hi : i = i'
  · subst hi
    rw [List.mem_zipIdx_iff_getElem?] at hitem hitem'
    obtain rfl : item = item' := Option.some.inj (hitem.symm.trans hitem')
    exact (h item (List.mem_of_getElem? hitem) i).under _ f hf g hg
  · have hne : Step.index i ≠ Step.index i' := fun heq => hi (Step.index.inj heq)
    exact (within_under _ _ _).apart (within_under _ _ _) hne f hf g hg

theorem apart_eachItem {ι : Type} {items : List ι} {check check' : ι → List (Finding S)}
    (h : ∀ item ∈ items, Apart (check item) (check' item)) :
    Apart (eachItem items check) (eachItem items check') :=
  apart_numbered fun item hitem _ => h item hitem

/-- What is said of all items in two rounds can be said in one. -/
theorem numbered_append_perm {ι : Type} (items : List ι)
    (about about' : ι → Nat → List (Finding S)) :
    (numbered items about ++ numbered items about').Perm
      (numbered items fun item i => about item i ++ about' item i) := by
  have h := List.flatMap_append_perm items.zipIdx
    (fun item => (about item.1 item.2).map (Finding.under [.index item.2]))
    (fun item => (about' item.1 item.2).map (Finding.under [.index item.2]))
  simp only [← List.map_append] at h
  exact h

end Whiteboard.Audit
