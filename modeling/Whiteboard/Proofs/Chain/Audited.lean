import Whiteboard.Proofs.Audit.WireDocument
import Whiteboard.Proofs.Chain.Attachments

/-!
# Whiteboard — the audit of a drawn diagram

Compiling fails only on a source without any node. What it makes of any other
source has a clean audit in exact arithmetic: no errors, and no warnings either,
since ids are distinct, references are mutual and all elements are opaque and
upright.

Main results:

* `Depicts.resolved` — every reference in a picture is to one of its elements.
* `compile_audited` — when compiling fails, and the audit of what it makes.
-/

namespace Whiteboard.Chain

open Drawing (Document Element NeverRepeats)

/-! ## References -/

section References

variable {S : Type} [Scalar S] {theme : Theme} {placed : List (Placed S)} {edges : List Edge}
  {p : Picture S}

/-- The element of a node is no connector. -/
theorem NodeBlock.polyline?_eq_none {placed : Placed S} {b : Block S}
    (h : NodeBlock theme placed b) : b.head.shape.polyline? = none := by
  have hkind : b.head.kind = placed.node.kind.elementKind := by
    refine kind_of_shows ?_ h.head
    rw [headDraft]
    split <;> rfl
  rw [Drawing.Shape.polyline?_eq_none_iff]
  show b.head.kind.isLinear = false
  rw [hkind]
  cases placed.node.kind <;> rfl

omit [Scalar S] in
theorem id_mem_of_head {b : Block S} (hb : b ∈ p.nodes ++ p.links) :
    b.head.id ∈ p.elements.map Element.id :=
  List.mem_map_of_mem (Picture.head_mem_elements hb)

/-- **References.** Bindings name nodes of the picture, and nodes list connectors of
the picture. -/
theorem Depicts.resolved (h : Depicts theme placed edges p) : Audit.Resolved p.elements := by
  refine ⟨?_, ?_⟩
  · -- only connectors have bindings, and these name the nodes next to them
    intro e he path hpath b hb
    obtain ⟨block, hblock, rfl | hlabel⟩ := Picture.mem_elements he
    · rcases List.mem_append.mp hblock with hnode | hlink
      · obtain ⟨node, -, hnode⟩ := h.exists_node hnode
        rw [hnode.polyline?_eq_none] at hpath
        cases hpath
      · obtain ⟨edge, -, hedge⟩ := h.exists_edge hlink
        obtain ⟨before, after, path', hbefore, hafter, hpath', hstart, hend⟩ := hedge.bindings
        obtain rfl : path' = path := Option.some.inj (hpath'.symm.trans hpath)
        rcases hb with hb | hb
        · obtain rfl : _ = b := Option.some.inj (hstart.symm.trans hb)
          exact id_mem_of_head (List.mem_append_left _ (List.mem_of_getElem? hbefore))
        · obtain rfl : _ = b := Option.some.inj (hend.symm.trans hb)
          exact id_mem_of_head (List.mem_append_left _ (List.mem_of_getElem? hafter))
    · obtain ⟨text, center, hnew⟩ := h.isNew_label hblock hlabel
      obtain ⟨body, hshape, -⟩ := holdsLabel_of_isNew hnew
      rw [hshape] at hpath
      cases hpath
  · -- only nodes have lists, and these name connectors
    intro e he entry hentry
    obtain ⟨block, hblock, rfl | hlabel⟩ := Picture.mem_elements he
    · rcases List.mem_append.mp hblock with hnode | hlink
      · obtain ⟨i, hi⟩ := List.mem_iff_getElem?.mp hnode
        rw [(h.marks i block hi).list, Drawing.getD_listed] at hentry
        obtain ⟨link, hlink, rfl⟩ := Picture.mem_linksAt hentry
        exact id_mem_of_head (List.mem_append_right _ hlink)
      · obtain ⟨edge, -, ⟨before, after, -, -, hconnects⟩, -⟩ := h.exists_edge hlink
        rw [hconnects.unbound] at hentry
        cases hentry
    · obtain ⟨text, center, hnew⟩ := h.isNew_label hblock hlabel
      rw [hnew.unbound] at hentry
      cases hentry

end References

/-! ## The audit -/

theorem Depicts.inRange {theme : Theme} {placed : List (Placed Rat)} {edges : List Edge}
    {p : Picture Rat} (h : Depicts theme placed edges p) {e : Element Rat} (he : e ∈ p.elements) :
    Audit.InRange e := by
  obtain ⟨draft, ⟨shape, -, heq⟩, hplain⟩ := h.plain he
  have hopacity : e.opacity = min (draft.opacity.getD Drawing.maxOpacity) Drawing.maxOpacity :=
    congrArg Element.opacity heq
  have hangle : e.angle = draft.angle.getD 0.0 := congrArg Element.angle heq
  rw [hplain.opacity] at hopacity
  rw [hplain.angle] at hangle
  refine ⟨?_, ?_⟩
  · rw [hopacity]
    decide
  · rw [hangle]
    decide +kernel

/-- **Compiling and its audit.** Compiling fails exactly on the sources that hold no
diagram, and says so. Whatever else it makes has neither errors nor warnings in its
wire form. -/
theorem compile_audited {G : Type} [Drawing.IdSource G] (now : Int64) (options : Options)
    (source : String) {g : G} (hg : NeverRepeats g) :
    let outcome := ((compile (S := Rat) now options source).run.run g).1
    ((∃ e, outcome = .error e) ↔ Diagram.read source = .error .emptyDiagram) ∧
      (∀ e, outcome = .error e → e = .emptyDiagram) ∧
      ∀ d, outcome = .ok d → Audit.document d.toJson = ⟨[], []⟩ := by
  intro outcome
  cases hread : Diagram.read source with
  | error e =>
    obtain ⟨rfl, -⟩ := read_eq_error_iff.mp hread
    have houtcome : outcome = .error .emptyDiagram := by
      show ((compile now options source).run.run g).1 = _
      rw [compile, hread]
      rfl
    rw [houtcome]
    refine ⟨iff_of_true ⟨_, rfl⟩ rfl, fun e he => ?_, fun d hd => ?_⟩
    · exact (Except.error.inj he).symm
    · cases hd
  | ok diagram =>
    obtain ⟨p, g', ⟨hrun, hissued⟩, h⟩ := compile_yields (S := Rat) now options hread hg
    have houtcome : outcome = .ok (p.document options.theme) := congrArg Prod.fst hrun
    rw [houtcome]
    refine ⟨⟨?_, ?_⟩, ?_, fun d hd => ?_⟩
    · rintro ⟨e, he⟩
      cases he
    · intro he
      cases he
    · intro e he
      cases he
    · -- the document depicts the diagram, and its ids are the ids drawn
      obtain rfl := Except.ok.inj hd
      have hheader : (p.document options.theme).format = Drawing.formatTag ∧
          (p.document options.theme).version = Drawing.formatVersion := by
        rw [Picture.document, emptyDocument]
        cases options.theme <;> exact ⟨rfl, rfl⟩
      refine Audit.document_eq_nil hheader.1 ?_ ?_ (fun e he => h.inRange he) (hg _ _ hissued)
        h.resolved
      · rw [hheader.2]
        decide
      · rw [hheader.2]
        decide

/-- Two nodes and a labelled edge, drawn with numbered ids. -/
theorem compile_audited_of_chain : ∃ d : Document Rat,
    ((compile 0 {} "[Ask] -> \"why\" -> (Answer)").run.run
      (Drawing.NumberedIds.fresh "e")).1 = .ok d ∧
      Audit.document d.toJson = ⟨[], []⟩ := by
  obtain ⟨hfails, -, haudit⟩ := compile_audited 0 {} "[Ask] -> \"why\" -> (Answer)"
    (Drawing.NumberedIds.neverRepeats (.fresh "e"))
  have hread : Diagram.read "[Ask] -> \"why\" -> (Answer)" =
      .ok ⟨[⟨.rectangle, "Ask"⟩, ⟨.ellipse, "Answer"⟩], [⟨0, 1, some "why", .arrow⟩]⟩ := by
    decide +kernel
  rw [hread] at hfails
  cases houtcome : ((compile (S := Rat) 0 {} "[Ask] -> \"why\" -> (Answer)").run.run
      (Drawing.NumberedIds.fresh "e")).1 with
  | error e =>
    have hfailed := hfails.mp ⟨e, houtcome⟩
    cases hfailed
  | ok d => exact ⟨d, rfl, haudit d houtcome⟩

end Whiteboard.Chain
