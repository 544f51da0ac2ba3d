import Mathlib.Data.List.Basic
import Whiteboard.Workspace.DocumentFile
import Whiteboard.Workspace.Memory

/-!
# Whiteboard — files in memory

Writing and moving files changes what they hold, but neither where paths lead nor what is a
directory. A file and the temporary file beside it stand at different locations, so writing
the latter leaves the former as it is; moving it puts what it holds into the place of the
file at once.

Main results:

* `place?_temporaryPath` — a file and its temporary file are neighbours of different names.
* `look_of_write?` — writing the temporary file is not seen at the path of the file.
* `read?_of_rename?` — once it was moved, the file holds what was written.
-/

namespace Whiteboard.Workspace

/-! ## Paths -/

namespace Path

/-- What follows a path without a slash belongs to its last part. -/
theorem exists_parts_append {ds : List Char} (hds : '/' ∉ ds) (cs : List Char) :
    ∃ init last, parts cs = init ++ [last] ∧ parts (cs ++ ds) = init ++ [last ++ ds] := by
  induction cs with
  | nil =>
    refine ⟨[], [], rfl, ?_⟩
    show parts ds = [ds]
    induction ds with
    | nil => rfl
    | cons d ds ih =>
      obtain ⟨hd, hds⟩ := not_or.mp (mt List.mem_cons.mpr hds)
      rw [parts, if_neg (Ne.symm hd), ih hds]
  | cons c cs ih =>
    obtain ⟨init, last, hcs, hall⟩ := ih
    by_cases hc : c = '/'
    · refine ⟨[] :: init, last, ?_, ?_⟩
      · rw [parts, if_pos hc, hcs, List.cons_append]
      · rw [List.cons_append, parts, if_pos hc, hall, List.cons_append]
    · -- the character joins the first part, which may be the last
      cases init with
      | nil =>
        refine ⟨[], c :: last, ?_, ?_⟩
        · rw [parts, if_neg hc, hcs]
          rfl
        · rw [List.cons_append, parts, if_neg hc, hall]
          rfl
      | cons part init =>
        refine ⟨(c :: part) :: init, last, ?_, ?_⟩
        · rw [parts, if_neg hc, hcs]
          rfl
        · rw [List.cons_append, parts, if_neg hc, hall]
          rfl

theorem ofString?_eq_some {s : String} {p : Path} (h : ofString? s = some p) :
    s.toList ≠ [] ∧ p.absolute = (s.toList.head? == some '/') ∧
      p.names = ((parts s.toList).map String.ofList).filter (fun name => !leadsNowhere name) ∧
      p.toDirectory = ((((parts s.toList).map String.ofList).getLast?.map fun name =>
        leadsNowhere name || name == "..").getD true) := by
  unfold ofString? at h
  simp only at h
  split at h
  · cases h
  · rename_i hplain
    split at h
    · cases h
    · cases h
      refine ⟨fun hnil => hplain (Or.inl ?_), rfl, rfl, rfl⟩
      rw [String.isEmpty_iff, ← String.toList_eq_nil_iff]
      exact hnil

/-- The names on the way to a file and on the way to its temporary file differ in the
last. -/
theorem names_temporaryPath {s : String} {p p' : Path} (h : ofString? s = some p)
    (hfile : p.toDirectory = false) (h' : ofString? (temporaryPath s) = some p') :
    p'.absolute = p.absolute ∧ ∃ init name, name ≠ ".." ∧ p.names = init ++ [name] ∧
      p'.names = init ++ [name ++ ".tmp"] := by
  obtain ⟨hs, habsolute, hnames, hdirectory⟩ := ofString?_eq_some h
  obtain ⟨-, habsolute', hnames', -⟩ := ofString?_eq_some h'
  have htext : (temporaryPath s).toList = s.toList ++ ".tmp".toList := String.toList_append
  have hplain : '/' ∉ ".tmp".toList := by decide
  obtain ⟨init, last, hparts, hparts'⟩ := exists_parts_append hplain s.toList
  rw [htext] at habsolute' hnames'
  rw [hparts, List.map_append, List.map_singleton] at hnames hdirectory
  rw [hparts', List.map_append, List.map_singleton, String.ofList_append, String.ofList_toList]
    at hnames'
  -- the last part is a name, as the path names a file
  rw [hdirectory, List.getLast?_append_cons, List.getLast?_singleton, Option.map_some,
    Option.getD_some, Bool.or_eq_false_iff, beq_eq_false_iff_ne] at hfile
  have hlonger : leadsNowhere (String.ofList last ++ ".tmp") = false := by
    have hlength : 4 ≤ (String.ofList last ++ ".tmp").length := by
      rw [String.length_append]
      exact Nat.le_add_left _ _
    unfold leadsNowhere
    rw [Bool.or_eq_false_iff, beq_eq_false_iff_ne, beq_eq_false_iff_ne]
    constructor <;>
    · intro heq
      rw [heq] at hlength
      exact absurd hlength (by decide)
  refine ⟨?_, (init.map String.ofList).filter fun name => !leadsNowhere name, String.ofList last,
    hfile.2, ?_, ?_⟩
  · rw [habsolute, habsolute', List.head?_append_of_ne_nil _ hs]
  · rw [hnames, List.filter_append, List.filter_cons_of_pos (by simp [hfile.1]), List.filter_nil]
  · rw [hnames', List.filter_append, List.filter_cons_of_pos (by simp [hlonger]), List.filter_nil]

end Path

namespace Memory

/-! ## Entries -/

theorem entry?_erase (m : Memory) (l l' : Location) :
    entry? (m.erase l) l' = if l' = l then none else m.entry? l' := by
  unfold entry? erase
  rw [List.find?_filter]
  split
  · rename_i heq
    subst heq
    simp
  · rename_i hne
    congr 2
    funext e
    by_cases he : e.1 = l' <;> simp [he, hne]

theorem entry?_put (m : Memory) (l l' : Location) (e : Entry) :
    entry? (m.put l e) l' = if l' = l then some e else m.entry? l' := by
  have hput : entry? (m.put l e) l' =
      (if l' = l then none else m.entry? l').or (if l = l' then some e else none) := by
    rw [← entry?_erase]
    unfold entry? put
    rw [List.find?_append]
    cases h : (m.erase l).entries.find? fun e => e.1 == l' with
    | some found => simp
    | none => by_cases hl : l = l' <;> simp [hl]
  rw [hput]
  by_cases h : l' = l
  · simp [h]
  · simp [h, Ne.symm h]

theorem isDirectory_iff {m : Memory} {l : Location} :
    m.isDirectory l = true ↔ l = [] ∨ m.entry? l = some .directory := by
  unfold isDirectory
  cases l with
  | nil => simp
  | cons name l =>
    cases h : m.entry? (name :: l) with
    | none => simp
    | some e => cases e <;> simp

/-! ## Where paths lead -/

/-- Two memories with the same directories. -/
structure SameDirectories (m m' : Memory) : Prop where
  directory_eq : m'.directory = m.directory
  isDirectory_eq : ∀ l, m'.isDirectory l = m.isDirectory l

namespace SameDirectories

variable {m m' m'' : Memory}

theorem trans (h : SameDirectories m m') (h' : SameDirectories m' m'') : SameDirectories m m'' :=
  ⟨h'.directory_eq.trans h.directory_eq, fun l => (h'.isDirectory_eq l).trans (h.isDirectory_eq l)⟩

theorem walk_eq (h : SameDirectories m m') (l : Location) (names : List String) :
    m'.walk l names = m.walk l names := by
  induction names generalizing l with
  | nil => rfl
  | cons name names ih => rw [walk, walk, h.isDirectory_eq, ih]

/-- Paths lead to the same locations. -/
theorem locate?_eq (h : SameDirectories m m') (path : Path) : m'.locate? path = m.locate? path := by
  rw [locate?, locate?, h.directory_eq, h.walk_eq]

theorem place?_eq (h : SameDirectories m m') (path : String) : m'.place? path = m.place? path := by
  unfold place?
  simp only [h.locate?_eq, h.isDirectory_eq]

end SameDirectories

theorem place?_eq_some {m : Memory} {path : String} {l : Location} (h : m.place? path = some l) :
    ∃ p, Path.ofString? path = some p ∧ m.locate? p = some l ∧ p.toDirectory = false ∧
      m.isDirectory l = false := by
  unfold place? at h
  simp only [Option.bind_eq_bind, Option.bind_eq_some_iff, Option.ite_none_left_eq_some,
    Bool.or_eq_true, not_or, Bool.not_eq_true, Option.some.injEq] at h
  obtain ⟨p, hp, l', hl, ⟨hfile, hdirectory⟩, rfl⟩ := h
  exact ⟨p, hp, hl, hfile, hdirectory⟩

theorem isDirectory_of_place? {m : Memory} {path : String} {l : Location}
    (h : m.place? path = some l) : m.isDirectory l = false := by
  obtain ⟨p, -, -, -, hdirectory⟩ := place?_eq_some h
  exact hdirectory

/-- Where a file may stand, something does exactly if a file does. -/
theorem isPresent_of_place? {m : Memory} {path : String} {l : Location}
    (h : m.place? path = some l) : m.isPresent path = (m.file? l).isSome := by
  obtain ⟨p, hp, hl, hfile, hdirectory⟩ := place?_eq_some h
  unfold isPresent
  simp only [hp, hl, hdirectory, hfile, Bool.false_or, Bool.not_false, Bool.true_and]

/-- A change at one location, where no directory was and none comes, changes no
directories. -/
theorem sameDirectories_of_entry? {m m' : Memory} {l : Location}
    (hdirectory : m'.directory = m.directory) (h : m.isDirectory l = false)
    (hnew : m'.entry? l ≠ some .directory) (hkept : ∀ l' ≠ l, m'.entry? l' = m.entry? l') :
    SameDirectories m m' := by
  refine ⟨hdirectory, fun l' => ?_⟩
  have hnone : ¬(l = [] ∨ m.entry? l = some .directory) := by
    rw [← isDirectory_iff, h]
    exact Bool.false_ne_true
  rw [Bool.eq_iff_iff, isDirectory_iff, isDirectory_iff]
  by_cases hl : l' = l
  · rw [hl]
    exact or_congr_right (iff_of_false hnew (not_or.mp hnone).2)
  · rw [hkept l' hl]

theorem sameDirectories_put {m : Memory} {l : Location} (h : m.isDirectory l = false)
    (content : ByteArray) : SameDirectories m (m.put l (.file content)) := by
  refine sameDirectories_of_entry? rfl h ?_ fun l' hl => ?_
  · simp [entry?_put]
  · rw [entry?_put, if_neg hl]

theorem sameDirectories_erase {m : Memory} {l : Location} (h : m.isDirectory l = false) :
    SameDirectories m (m.erase l) := by
  refine sameDirectories_of_entry? rfl h ?_ fun l' hl => ?_
  · simp [entry?_erase]
  · rw [entry?_erase, if_neg hl]

/-- Neither does taking a file from one location to another. -/
theorem sameDirectories_move {m : Memory} {old new : Location} (hold : m.isDirectory old = false)
    (hnew : m.isDirectory new = false) (content : ByteArray) :
    SameDirectories m ((m.erase old).put new (.file content)) := by
  have herase := sameDirectories_erase hold
  exact herase.trans (sameDirectories_put (by rw [herase.isDirectory_eq, hnew]) content)

theorem walk_concat (m : Memory) (l : Location) (names : List String) (name : String) :
    m.walk l (names ++ [name]) = (m.walk l names).bind fun base =>
      if m.isDirectory base then some (step base name) else none := by
  induction names generalizing l with
  | nil => rfl
  | cons first names ih =>
    rw [List.cons_append, walk, walk]
    split
    · exact ih _
    · rfl

/-- **The temporary file.** A file and its temporary file stand in one directory under two
names. -/
theorem place?_temporaryPath {m : Memory} {path : String} {l l' : Location}
    (h : m.place? path = some l) (h' : m.place? (temporaryPath path) = some l') :
    ∃ base name, l = base ++ [name] ∧ l' = base ++ [name ++ ".tmp"] := by
  obtain ⟨p, hp, ha, hfile, -⟩ := place?_eq_some h
  obtain ⟨p', hp', ha', -, -⟩ := place?_eq_some h'
  obtain ⟨habsolute, init, name, hname, hnames, hnames'⟩ :=
    Path.names_temporaryPath hp hfile hp'
  unfold locate? at ha ha'
  rw [hnames, walk_concat, Option.bind_eq_some_iff] at ha
  rw [habsolute, hnames', walk_concat, Option.bind_eq_some_iff] at ha'
  obtain ⟨base, hbase, ha⟩ := ha
  obtain ⟨base', hbase', ha'⟩ := ha'
  obtain rfl := Option.some.inj (hbase.symm.trans hbase')
  rw [Option.ite_none_right_eq_some] at ha ha'
  -- neither name leads back
  have hname' : name ++ ".tmp" ≠ ".." := by
    intro heq
    have hlength := congrArg String.length heq
    rw [String.length_append] at hlength
    have htwo : "..".length = 2 := by decide
    have hfour : ".tmp".length = 4 := by decide
    omega
  refine ⟨base, name, ?_, ?_⟩
  · rw [← Option.some.inj ha.2, step, if_neg (by simpa using hname)]
  · rw [← Option.some.inj ha'.2, step, if_neg (by simpa using hname')]

theorem ne_of_place?_temporaryPath {m : Memory} {path : String} {l l' : Location}
    (h : m.place? path = some l) (h' : m.place? (temporaryPath path) = some l') : l ≠ l' := by
  obtain ⟨base, name, rfl, rfl⟩ := place?_temporaryPath h h'
  intro heq
  have hname := List.singleton_inj.mp (List.append_cancel_left heq)
  have hlength := congrArg String.length hname
  rw [String.length_append] at hlength
  have hfour : ".tmp".length = 4 := by decide
  omega

/-! ## Writing and moving -/

/-- All that a path shows: whether anything stands there, and the content of a file. -/
def look (m : Memory) (path : String) : Bool × Option ByteArray := (m.isPresent path, m.read? path)

/-- Whether a path leads anywhere depends on directories and on the file there. -/
theorem look_eq {m m' : Memory} (h : SameDirectories m m') {path : String}
    (hfile : ∀ l, m.place? path = some l → m'.file? l = m.file? l) :
    m'.look path = m.look path := by
  have hread : m'.read? path = m.read? path := by
    unfold read?
    rw [h.place?_eq]
    cases hplace : m.place? path with
    | none => rfl
    | some l => exact hfile l hplace
  have hpresent : m'.isPresent path = m.isPresent path := by
    unfold isPresent
    cases hp : Path.ofString? path with
    | none => rfl
    | some p =>
      simp only [h.locate?_eq]
      cases hl : m.locate? p with
      | none => rfl
      | some l =>
        simp only [h.isDirectory_eq]
        -- only a place that may be that of a file is looked at
        by_cases hplace : p.toDirectory = true ∨ m.isDirectory l = true
        · rcases hplace with hp | hl <;> simp [*]
        · have hfile := hfile l (by simp [place?, hp, hl, hplace])
          rw [hfile]
  rw [look, look, hread, hpresent]

theorem file?_put (m : Memory) (l l' : Location) (content : ByteArray) :
    (m.put l (.file content)).file? l' = if l' = l then some content else m.file? l' := by
  unfold file?
  rw [entry?_put]
  split <;> rfl

/-- Writing a file changes no directories. -/
theorem sameDirectories_of_write? {m m' : Memory} {path : String} {content : ByteArray}
    (h : m.write? path content = some m') : SameDirectories m m' := by
  obtain ⟨l, hl, rfl⟩ := Option.map_eq_some_iff.mp h
  exact sameDirectories_put (isDirectory_of_place? hl) content

/-- **Writing the temporary file.** Nothing of it is to be seen at the path itself. -/
theorem look_of_write? {m m' : Memory} {path : String} {content : ByteArray}
    (h : m.write? (temporaryPath path) content = some m') : m'.look path = m.look path := by
  refine look_eq (sameDirectories_of_write? h) fun l hl => ?_
  obtain ⟨l', hl', rfl⟩ := Option.map_eq_some_iff.mp h
  rw [file?_put, if_neg (ne_of_place?_temporaryPath hl hl')]

theorem read?_of_write? {m m' : Memory} {path : String} {content : ByteArray}
    (h : m.write? path content = some m') : m'.read? path = some content := by
  have hplace := (sameDirectories_of_write? h).place?_eq path
  obtain ⟨l, hl, rfl⟩ := Option.map_eq_some_iff.mp h
  rw [read?, hplace, hl, Option.bind_some, file?_put, if_pos rfl]

theorem rename?_eq_some {m m' : Memory} {path target : String}
    (h : m.rename? path target = some m') : ∃ old content new, m.place? path = some old ∧
      m.file? old = some content ∧ m.place? target = some new ∧
      m' = (m.erase old).put new (.file content) := by
  unfold rename? at h
  simp only [Option.bind_eq_bind, Option.bind_eq_some_iff, Option.pure_def,
    Option.some.injEq] at h
  obtain ⟨old, hold, content, hcontent, new, hnew, rfl⟩ := h
  exact ⟨old, content, new, hold, hcontent, hnew, rfl⟩

/-- **Moving a file.** What was at the old path is at the new one. -/
theorem read?_of_rename? {m m' : Memory} {path target : String}
    (h : m.rename? path target = some m') : m'.read? target = m.read? path := by
  obtain ⟨old, content, new, hold, hcontent, hnew, rfl⟩ := rename?_eq_some h
  have hsame := sameDirectories_move (isDirectory_of_place? hold) (isDirectory_of_place? hnew)
    content
  rw [read?, hsame.place?_eq, hnew, Option.bind_some, file?_put, if_pos rfl, read?, hold,
    Option.bind_some, hcontent]

end Memory

end Whiteboard.Workspace
