import Whiteboard.Proofs.Number.Hundredths
import Whiteboard.Proofs.Workspace.Reopening
import Whiteboard.Proofs.Workspace.Succeeding

/-!
# Whiteboard — one call after another

Programs that change the document in a file come one after another, each with its own time and
its own source of identities; all they have in common is the file. A call spoils the file if it
succeeds with an element that is not finite. From then on every call fails and leaves the file
as it is, so that a file whose document cannot be read was spoiled by one of the calls.

Main results:

* `Change.leaves` — what one change leaves in the file.
* `Call.document?_eq_none_iff` — a call takes the document from the file exactly if it
  spoils it.
* `document?_after_eq_none_iff` — so do any number of calls, exactly if one of them spoils it.
* `operations_reopen` — what can be read after each of the operations, and after all of them.
-/

namespace Whiteboard.Workspace

open Drawing (ConnectorLook Document Draft Element FiniteDefaults IdSource Revision SequentialIds)

/-! ## Changes -/

/-- A change of the document in a file. -/
inductive Change where
  | add (data : String)
  | update (id data : String)
  | connect (source target : String) (look : ConnectorLook)
  deriving DecidableEq, Repr

variable {S : Type} [Scalar S] [Numeral S] {G : Type} [IdSource G]

section

variable (S)

/-- Makes the change. -/
def Change.perform (now : Int64) (path : String) : Change → Work (StateM Unreliable) G Unit
  | .add data => do
    let _ ← Workspace.add S now path data
    return ()
  | .update id data => do
    let _ ← Workspace.update S now path id data
    return ()
  | .connect source target look => do
    let _ ← Workspace.connect S now path source target look
    return ()

end

/-- The change puts this element on top of the document in the file. -/
def Change.Creates (change : Change) (now : Int64) (path : String) (g : G) (s : Unreliable)
    (e : Element S) : Prop :=
  match change with
  | .add data => ∃ (draft : Draft S) (g' : G), Draft.read? data = some draft ∧
      (draft.create now).run.run g = (.ok e, g')
  | .update _ _ => False
  | .connect source target look => ∃ (old d : Document S) (id : String) (g' : G),
      s.memory.document? S path = some old ∧
      (old.connect now source target look).run.run g = (.ok (id, d), g') ∧
      d.elements.getLast? = some e

variable [LawfulNumeral S] [FiniteDefaults S]

/-- **One change.** Where it succeeds, there was a document, and there is one afterwards unless
an element that is not finite has been created. -/
theorem Change.leaves (change : Change) (now : Int64) (path : String) (g : G) (s : Unreliable) :
    Leaves path (change.perform S now path) g s fun _ _ (d? : Option (Document S)) =>
      s.memory.document? S path ≠ none ∧
      (d? = none ↔ ∃ e : Element S, change.Creates now path g s e ∧ ¬e.IsFinite) := by
  cases change with
  | add data =>
    refine (add_leaves now path data g s).pure fun _ g' d? h => ?_
    obtain ⟨draft, old, e, hdraft, hold, hcreate, -, -, hreopens⟩ := h
    refine ⟨by rw [hold]; exact Option.some_ne_none old, ?_⟩
    rw [hreopens.eq_none_iff]
    refine ⟨fun he => ⟨e, ⟨draft, g', hdraft, hcreate⟩, he⟩, ?_⟩
    rintro ⟨e', ⟨draft', g'', hdraft', hcreate'⟩, he'⟩
    -- the data say which element it is
    obtain rfl := Option.some.inj (hdraft.symm.trans hdraft')
    obtain ⟨he, -⟩ := Prod.mk.inj (hcreate.symm.trans hcreate')
    obtain rfl := Except.ok.inj he
    exact he'
  | update id data =>
    refine (update_leaves now path id data g s).pure fun _ g' d? h => ?_
    obtain ⟨u, old, d, former, -, hold, -, -, -, hback⟩ := h
    refine ⟨by rw [hold]; exact Option.some_ne_none old, iff_of_false hback.ne_none ?_⟩
    rintro ⟨e, hfalse, -⟩
    exact hfalse
  | connect source target look =>
    refine (connect_leaves now path source target look g s).pure fun id g' d? h => ?_
    obtain ⟨old, d, c, hold, hconnect, hlast, hreopens⟩ := h
    refine ⟨by rw [hold]; exact Option.some_ne_none old, ?_⟩
    rw [hreopens.eq_none_iff]
    refine ⟨fun hc => ⟨c, ⟨old, d, id, g', hold, hconnect, hlast⟩, hc⟩, ?_⟩
    rintro ⟨c', ⟨old', d', id', g'', hold', hconnect', hlast'⟩, hc'⟩
    -- the document in the file says which connector it is
    obtain rfl := Option.some.inj (hold.symm.trans hold')
    obtain ⟨hd, -⟩ := Prod.mk.inj (hconnect.symm.trans hconnect')
    obtain ⟨-, rfl⟩ := Prod.mk.inj (Except.ok.inj hd)
    obtain rfl := Option.some.inj (hlast.symm.trans hlast')
    exact hc'

/-! ## Calls -/

/-- A change, when it is made, and where its identities come from. -/
structure Call (G : Type) where
  now : Int64
  identities : G
  change : Change

section

variable (S)

/-- What a call comes to. -/
def Call.outcome (path : String) (c : Call G) (s : Unreliable) :
    (Except Error Unit × G) × Unreliable :=
  Workspace.outcome (c.change.perform S c.now path) c.identities s

/-- The call succeeds, with an element that is not finite. -/
def Call.Spoils (path : String) (c : Call G) (s : Unreliable) : Prop :=
  (c.outcome S path s).1.1 = .ok () ∧
    ∃ e : Element S, c.change.Creates c.now path c.identities s e ∧ ¬e.IsFinite

/-- The files after calls that are made one after another. -/
def after (path : String) (calls : List (Call G)) (s : Unreliable) : Unreliable :=
  calls.foldl (fun s c => (c.outcome S path s).2) s

end

/-- **One call.** Nothing can be read from the file afterwards exactly if nothing could be
before or the call has spoiled it. -/
theorem Call.document?_eq_none_iff (path : String) (c : Call G) (s : Unreliable) :
    (c.outcome S path s).2.memory.document? S path = none ↔
      s.memory.document? S path = none ∨ c.Spoils S path s := by
  obtain ⟨r, g', s', hrun, hleaves⟩ := c.change.leaves (S := S) c.now path c.identities s
  have houtcome : c.outcome S path s = ((r, g'), s') := hrun
  unfold Call.Spoils
  rw [houtcome]
  cases r with
  | error e =>
    -- a call that fails changes nothing and spoils nothing
    have hsame : s'.memory.document? S path = s.memory.document? S path := hleaves
    rw [hsame]
    refine ⟨Or.inl, ?_⟩
    rintro (hnone | ⟨hok, -⟩)
    · exact hnone
    · cases hok
  | ok =>
    obtain ⟨hsome, hiff⟩ := hleaves
    rw [hiff]
    refine ⟨fun he => Or.inr ⟨rfl, he⟩, ?_⟩
    rintro (hnone | ⟨-, he⟩)
    · exact absurd hnone hsome
    · exact he

/-- **All calls.** After any number of calls nothing can be read from the file exactly if
nothing could be at first or one of them has spoiled it. -/
theorem document?_after_eq_none_iff (path : String) (calls : List (Call G)) (s : Unreliable) :
    (after S path calls s).memory.document? S path = none ↔
      s.memory.document? S path = none ∨ ∃ earlier c later, calls = earlier ++ c :: later ∧
        c.Spoils S path (after S path earlier s) := by
  -- on the calls, the first one first
  induction calls generalizing s with
  | nil =>
    refine ⟨Or.inl, ?_⟩
    rintro (hnone | ⟨earlier, c, later, hcalls, -⟩)
    · exact hnone
    · simp at hcalls
  | cons first calls ih =>
    have hafter : ∀ rest, after S path (first :: rest) s =
        after S path rest (first.outcome S path s).2 := fun rest => rfl
    rw [hafter, ih, Call.document?_eq_none_iff, or_assoc]
    refine or_congr_right ⟨?_, ?_⟩
    · rintro (hspoils | ⟨earlier, c, later, rfl, hspoils⟩)
      · exact ⟨[], first, calls, rfl, hspoils⟩
      · exact ⟨first :: earlier, c, later, rfl, by rw [hafter]; exact hspoils⟩
    · rintro ⟨earlier, c, later, hcalls, hspoils⟩
      cases earlier with
      | nil =>
        obtain ⟨rfl, rfl⟩ := List.cons.inj hcalls
        exact Or.inl hspoils
      | cons c' earlier =>
        obtain ⟨rfl, rfl⟩ := List.cons.inj hcalls
        rw [hafter] at hspoils
        exact Or.inr ⟨earlier, c, later, rfl, hspoils⟩

/-- **Opening a file again.** What is read from a file after an operation that has succeeded is
the document that the operation has made, with its numbers as the reader makes them of their
digits, and so the very document if the reader is exact — always after a revision, after an
addition exactly if the size of the new element is finite, after a connection exactly if the
connector is. Otherwise nothing can be read. After any number of calls a document can be read
that could be at first, exactly if none of them has put in an element that is not finite. -/
theorem operations_reopen (now : Int64) (path : String) (g : G) (s : Unreliable) :
    (∀ id data, Leaves path (update S now path id data) g s fun e g' d? =>
      ∃ (u : Revision S) (old d : Document S) (former : Element S), Revision.read? data = some u ∧
        s.memory.document? S path = some old ∧ old.get? id = some former ∧
        (former.update now u).run g = (e, g') ∧ old.replace e = .ok (former, d) ∧
        ReadBack d? d) ∧
    (∀ data, Leaves path (add S now path data) g s fun id g' d? =>
      ∃ (draft : Draft S) (old : Document S) (e : Element S), Draft.read? data = some draft ∧
        s.memory.document? S path = some old ∧ (draft.create now).run.run g = (.ok e, g') ∧
        id = e.id ∧
        (e.IsFinite ↔ Scalar.isFinite e.width = true ∧ Scalar.isFinite e.height = true) ∧
        Reopens d? (old.push e) e) ∧
    (∀ source target look, Leaves path (connect S now path source target look) g s
      fun id g' d? => ∃ (old d : Document S) (c : Element S), s.memory.document? S path = some old ∧
        (old.connect now source target look).run.run g = (.ok (id, d), g') ∧
        d.elements.getLast? = some c ∧ Reopens d? d c) ∧
    ∀ calls : List (Call G), (after S path calls s).memory.document? S path = none ↔
      s.memory.document? S path = none ∨ ∃ earlier c later, calls = earlier ++ c :: later ∧
        c.Spoils S path (after S path earlier s) :=
  ⟨fun id data => update_leaves now path id data g s, fun data => add_leaves now path data g s,
    fun source target look => connect_leaves now path source target look g s,
    fun calls => document?_after_eq_none_iff path calls s⟩

/-! ## A size that overflows -/

/-- Files of which one has a content, and no call of which fails by itself. -/
def oneFile (content : ByteArray) : Unreliable := ⟨⟨[(["a"], .file content)], [], .empty⟩, []⟩

theorem ofString?_name {name : String} (h : name = "a" ∨ name = "a.tmp") :
    Path.ofString? name = some ⟨false, [name], false⟩ := by
  unfold Path.ofString?
  rw [String.contains_char_eq]
  rcases h with rfl | rfl <;> decide +kernel

theorem place?_oneFile (content : ByteArray) {name : String} (h : name = "a" ∨ name = "a.tmp") :
    (oneFile content).memory.place? name = some [name] := by
  unfold Memory.place?
  rw [ofString?_name h]
  rcases h with rfl | rfl <;> rfl

theorem ready_oneFile (content : ByteArray) : (oneFile content).Ready "a" := by
  have htemporary : temporaryPath "a" = "a.tmp" := by decide
  refine ⟨rfl, ?_, ?_⟩
  · rw [place?_oneFile content (Or.inl rfl)]
    rfl
  · rw [htemporary, place?_oneFile content (Or.inr rfl)]
    rfl

theorem read?_oneFile (content : ByteArray) :
    (oneFile content).memory.read? "a" = some content := by
  rw [Memory.read?, place?_oneFile content (Or.inl rfl)]
  rfl

section

variable (S)

/-- A file with a new document. -/
def newFile : Unreliable := oneFile (documentText (.empty : Document S)).toUTF8

/-- A text of two characters in a size that a float can be, which their width cannot. -/
def hugeDraft : Draft S :=
  { kind := "text", x := 0.0, y := 0.0, text := some "ab", fontSize := some 1e308 }

/-- The element that is made of it. -/
def hugeText : Element S :=
  (hugeDraft S).element (.text (hugeDraft S).textBody) "el-1" 1 2 0

end

/-- The data that spell it. -/
def hugeData : String := "\x7b\"type\":\"text\",\"text\":\"ab\",\"fontSize\":1e308\x7d"

omit [LawfulNumeral S] [FiniteDefaults S] [IdSource G] in
/-- The characters of a file are read without going through their bytes. -/
theorem read?_documentText_eq (d : Document S) : Document.read? (documentText d) =
    ((Json.lex? (d.toJson.write .pretty 0 ++ ['\n'])).bind Tree.ofTokens?).bind
      (Document.decode? (S := S) Tree.nestingLimit) := by
  unfold Document.read? Tree.read? documentText Json.pretty
  rw [String.toList_append, String.toList_ofList]
  rfl

omit [Numeral S] [LawfulNumeral S] [FiniteDefaults S] [IdSource G] in
theorem create_hugeDraft : ((hugeDraft S).create 0).run.run (SequentialIds.fresh "el") =
    (.ok (hugeText S), ⟨"el", 1, 2⟩) := rfl

omit [LawfulNumeral S] [FiniteDefaults S] in
/-- What a caller hands in and what the file holds say what is made of them. -/
theorem made_eq {data path : String} {now : Int64} {s : Unreliable} {draft draft' : Draft S}
    {old old' : Document S} {e e' : Element S} {g g₁ g₂ : G}
    (hdraft : Draft.read? data = some draft) (hold : s.memory.document? S path = some old)
    (hcreate : (draft.create now).run.run g = (.ok e, g₁))
    (hdraft' : Draft.read? data = some draft') (hold' : s.memory.document? S path = some old')
    (hcreate' : (draft'.create now).run.run g = (.ok e', g₂)) : old' = old ∧ e' = e := by
  obtain rfl := Option.some.inj (hdraft.symm.trans hdraft')
  obtain ⟨he, -⟩ := Prod.mk.inj (hcreate.symm.trans hcreate')
  exact ⟨Option.some.inj (hold'.symm.trans hold), (Except.ok.inj he).symm⟩

omit [LawfulNumeral S] [FiniteDefaults S] [IdSource G] in
theorem document?_oneFile (d : Document S) :
    (oneFile (documentText d).toUTF8).memory.document? S "a" = Document.read? (documentText d) :=
  Memory.document?_of_read? (read?_oneFile _)

omit [LawfulNumeral S] [FiniteDefaults S] in
/-- The text is added to the document in the file. -/
theorem add_hugeData {d : Document S} (hread : Document.read? (documentText d) = some d)
    (hdata : Draft.read? hugeData = some (hugeDraft S)) :
    ∃ s', outcome (add S 0 "a" hugeData) (SequentialIds.fresh "el")
      (oneFile (documentText d).toUTF8) = ((.ok "el-1", ⟨"el", 1, 2⟩), s') ∧
    s'.memory.read? "a" = some (documentText (d.push (hugeText S))).toUTF8 := by
  have hold := (document?_oneFile d).trans hread
  obtain ⟨-, -, hchanges, -⟩ :=
    operations_succeed (S := S) 0 (ready_oneFile (documentText d).toUTF8) (SequentialIds.fresh "el")
  obtain ⟨s', hrun⟩ := (hchanges d hold).1 hugeData (hugeDraft S) (hugeText S) _ hdata
    create_hugeDraft
  obtain ⟨d', ⟨draft, old, e, hdraft, hold', hcreate, rfl, -⟩, hwritten⟩ :=
    (add_commits 0 "a" hugeData (SequentialIds.fresh "el") _).of_ok hrun
  obtain ⟨rfl, rfl⟩ := made_eq hdata hold create_hugeDraft hdraft hold' hcreate
  exact ⟨s', hrun, hwritten⟩

instance : FiniteDefaults Hundredths := by
  constructor <;> decide +kernel

/-- A document with two boxes. -/
def boxes : Document Hundredths :=
  let box : Draft Hundredths := { kind := "rectangle", x := 0.0, y := 0.0 }
  let apart : Draft Hundredths := { box with x := 300.0 }
  (Document.empty.push (box.element .rectangle "box-1" 1 2 0)).push
    (apart.element .rectangle "box-2" 3 4 0)

theorem storable_boxes : Storable boxes :=
  storable_empty.of_elements rfl rfl (by decide +kernel)

/-- A file with the two boxes. -/
def boxesFile : Unreliable := oneFile (documentText boxes).toUTF8

theorem document?_boxesFile : boxesFile.memory.document? Hundredths "a" = some boxes :=
  (document?_oneFile boxes).trans storable_boxes.readBack.exactly

/-- The data that move a box. -/
def movedData : String := "\x7b\"x\":7\x7d"

theorem revise_boxes : ∃ e d g',
    (boxes.revise 0 "box-1" { x := some 7.0 }).run.run (SequentialIds.fresh "el") =
      (.ok (e, d), g') ∧
    d.elements.map Element.x = [7.0, 300.0] := by
  obtain ⟨⟨e, d⟩, g', hrevise, hplaces⟩ := Drawing.exists_of_toOption_map
    (r := (boxes.revise 0 "box-1" { x := some 7.0 }).run.run (SequentialIds.fresh "el"))
    (f := fun r => r.2.elements.map Element.x) (b := [7.0, 300.0]) (by decide +kernel)
  exact ⟨e, d, g', hrevise, hplaces⟩

theorem connect_boxes : ∃ d g' c,
    (boxes.connect 0 "box-1" "box-2" {}).run.run (SequentialIds.fresh "el") =
      (.ok ("el-1", d), g') ∧
    d.elements.map Element.width = [100.0, 100.0, 200.0] ∧
    d.elements.getLast? = some c ∧ c.IsFinite := by
  obtain ⟨⟨id, d⟩, g', hconnect, hfacts⟩ := Drawing.exists_of_toOption_map
    (r := (boxes.connect 0 "box-1" "box-2" {}).run.run (SequentialIds.fresh "el"))
    (f := fun r => (r.1, r.2.elements.map Element.width,
      r.2.elements.getLast?.map fun c : Element Hundredths => decide c.IsFinite))
    (b := ("el-1", [100.0, 100.0, 200.0], some true)) (by decide +kernel)
  simp only [Prod.mk.injEq, Option.map_eq_some_iff, decide_eq_true_eq] at hfacts
  obtain ⟨rfl, hwidths, c, hlast, hfinite⟩ := hfacts
  exact ⟨d, g', c, hconnect, hwidths, hlast, hfinite⟩

/-- In hundredths up to the largest float the document is read back with the first box moved, and
with the boxes connected. The text overflows, as it does in floats, and with it in the document
nothing is read any more, not even by a call that would move the box. -/
theorem operations_reopen_of_hundredths :
    let g := SequentialIds.fresh "el"
    (∃ e d g' s', outcome (update Hundredths 0 "a" "box-1" movedData) g boxesFile =
        ((.ok e, g'), s') ∧ d.elements.map Element.x = [7.0, 300.0] ∧
      s'.memory.document? Hundredths "a" = some d) ∧
    (∃ d g' s', outcome (connect Hundredths 0 "a" "box-1" "box-2" {}) g boxesFile =
        ((.ok "el-1", g'), s') ∧ d.elements.map Element.width = [100.0, 100.0, 200.0] ∧
      s'.memory.document? Hundredths "a" = some d) ∧
    (∃ s', outcome (add Hundredths 0 "a" hugeData) g boxesFile =
        ((.ok "el-1", ⟨"el", 1, 2⟩), s') ∧
      (hugeText Hundredths).height = 1.25e308 ∧ ¬(hugeText Hundredths).IsFinite ∧
      s'.memory.document? Hundredths "a" = none) ∧
    (after Hundredths "a" [⟨0, g, .add hugeData⟩, ⟨0, g, .update "box-1" movedData⟩]
      boxesFile).memory.document? Hundredths "a" = none := by
  intro g
  obtain ⟨hupdates, hadds, hconnects, hcalls⟩ :=
    operations_reopen (S := Hundredths) 0 "a" g boxesFile
  have hready : boxesFile.Ready "a" := ready_oneFile _
  obtain ⟨-, -, hchanges, -⟩ := operations_succeed (S := Hundredths) 0 hready g
  obtain ⟨hadd, hupdate, hconnect⟩ := hchanges boxes document?_boxesFile
  have hdata : Draft.read? hugeData = some (hugeDraft Hundredths) := by decide +kernel
  have hhuge : ¬(hugeText Hundredths).IsFinite := by decide +kernel
  obtain ⟨s₃, hrun₃⟩ := hadd hugeData _ _ _ hdata create_hugeDraft
  refine ⟨?_, ?_, ⟨s₃, hrun₃, by decide +kernel, hhuge, ?_⟩, ?_⟩
  · have hmoved : Revision.read? movedData = some { x := some (7.0 : Hundredths) } := by
      decide +kernel
    obtain ⟨e, d, g', hrevise, hplaces⟩ := revise_boxes
    obtain ⟨s', hrun⟩ := hupdate "box-1" movedData _ e d g' hmoved hrevise
    refine ⟨e, d, g', s', hrun, hplaces, ?_⟩
    obtain ⟨u, old, d', former, hu, hold, hformer, hupdated, hreplace, hback⟩ :=
      (hupdates "box-1" movedData).of_ok hrun
    obtain ⟨former', hformer', hupdated', hreplace'⟩ := Document.revise_eq_ok hrevise
    -- the two ways to the document are one
    obtain rfl := Option.some.inj (hmoved.symm.trans hu)
    obtain rfl := Option.some.inj (document?_boxesFile.symm.trans hold)
    obtain rfl := Option.some.inj (hformer'.symm.trans hformer)
    obtain ⟨-, rfl⟩ := Prod.mk.inj (Except.ok.inj (hreplace'.symm.trans hreplace))
    exact hback.exactly
  · obtain ⟨d, g', c, hjoin, hwidths, hlast, hfinite⟩ := connect_boxes
    obtain ⟨s', hrun⟩ := hconnect "box-1" "box-2" {} _ d g' hjoin
    refine ⟨d, g', s', hrun, hwidths, ?_⟩
    obtain ⟨old, d', c', hold, hjoin', hlast', hreopens⟩ :=
      (hconnects "box-1" "box-2" {}).of_ok hrun
    obtain rfl := Option.some.inj (document?_boxesFile.symm.trans hold)
    obtain ⟨hd, -⟩ := Prod.mk.inj (hjoin.symm.trans hjoin')
    obtain ⟨-, rfl⟩ := Prod.mk.inj (Except.ok.inj hd)
    obtain rfl := Option.some.inj (hlast.symm.trans hlast')
    exact (hreopens.1 hfinite).exactly
  · obtain ⟨draft, old, e, hdraft, hold, hcreate, -, -, hreopens⟩ := (hadds hugeData).of_ok hrun₃
    obtain ⟨rfl, rfl⟩ := made_eq hdata document?_boxesFile create_hugeDraft hdraft hold hcreate
    exact hreopens.2 hhuge
  · have hok : ((⟨0, g, .add hugeData⟩ : Call SequentialIds).outcome Hundredths "a"
        boxesFile).1.1 = .ok () := by
      rw [Call.outcome, Change.perform, outcome_bind, hrun₃]
      rfl
    exact (hcalls _).mpr (Or.inr ⟨[], _, _, rfl, hok, hugeText Hundredths,
      ⟨hugeDraft Hundredths, _, hdata, create_hugeDraft⟩, hhuge⟩)

/-- **Floats overflow.** A new document can be read, the same text is added to it without an error,
and then nothing can be read any more: twice the size is no finite float, though 0.6 of it
would be. -/
theorem not_reopens_of_overflow : ∃ s',
    (newFile Float).memory.document? Float "a" = some .empty ∧
    outcome (add Float 0 "a" hugeData) (SequentialIds.fresh "el") (newFile Float) =
      ((.ok "el-1", ⟨"el", 1, 2⟩), s') ∧
    s'.memory.document? Float "a" = none := by
  have hread : Document.read? (documentText (.empty : Document Float)) =
      some (.empty : Document Float) := by
    rw [read?_documentText_eq]
    cbv
  have hnone : (Document.read? (documentText (Document.empty.push (hugeText Float))) :
      Option (Document Float)) = none := by
    -- the width is written as `null`
    rw [read?_documentText_eq, ← Option.isNone_iff_eq_none]
    decide +kernel
  obtain ⟨s', hrun, hwritten⟩ := add_hugeData hread (by decide +kernel)
  refine ⟨s', ?_, hrun, ?_⟩
  · exact (document?_oneFile _).trans hread
  · rw [Memory.document?_of_read? hwritten, hnone]

end Whiteboard.Workspace
