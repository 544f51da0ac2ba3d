import Whiteboard.Chain.Reading
import Whiteboard.Proofs.Text.Trim

/-!
# Whiteboard — how a source splits at its connectors

`Chain.cut` walks over a source and cuts it. This module says the same by
concatenation: a `Split` is a text, then connectors as they are written, each
with the text that follows it, and `Split.Reads` holds when

* nothing of the source is lost,
* no place inside a text begins a connector, and
* every connector has taken exactly what belongs to it (`Takes`).

Main results:

* `exists_takes_of_link?`, `link?_of_takes` — reading a connector at the head of a text takes
  exactly what `Takes` says.
* `existsUnique_split` — every source splits in exactly one way.
* `cut_of_reads` — and `cut` finds the texts and the connectors of that split.
-/

namespace Whiteboard.Chain

open Text (AllBlank isBlank skipBlanks exists_skipBlanks skipBlanks_append skipBlanks_of_head)

/-! ## What a connector takes -/

/-- A text that begins with `--` or `->`, as every connector does. -/
def BeginsConnector (text : List Char) : Prop := ['-', '-'] <+: text ∨ ['-', '>'] <+: text

/-- The connectors in the order in which they are tried, the longest first. -/
def LinkStyle.candidates : List LinkStyle := [.dashedArrow, .arrow, .line]

/-- The first connector that stands at the head of a text. -/
def heading? (text : List Char) : Option LinkStyle :=
  LinkStyle.candidates.find? fun style => style.token.toList.isPrefixOf text

/-- The connector at the head of a text as it is written, or nothing. -/
def optionalToken (text : List Char) : List Char :=
  match heading? text with
  | some style => style.token.toList
  | none => []

/-- A text that begins with a quote and has another one later. -/
def BeginsQuoted (text : List Char) : Prop := ∃ label after, text = '"' :: (label ++ '"' :: after)

/-- `Takes link taken rest`: at the head of `taken ++ rest` the connector `link`
is written, and it takes `taken` with it.

After the connector come all blanks; if a quoted label follows them, the label,
all blanks after it and one more connector, if there is one, are taken too. -/
inductive Takes : Link → List Char → List Char → Prop where
  | unlabelled {style : LinkStyle} {blanks rest : List Char}
      (heading : heading? (style.token.toList ++ (blanks ++ rest)) = some style)
      (blank : AllBlank blanks)
      (all : ∀ c, rest.head? = some c → isBlank c = false)
      (unquoted : ¬ BeginsQuoted rest) :
      Takes ⟨style, none⟩ (style.token.toList ++ blanks) rest
  | labelled {style : LinkStyle} {blanks label more folded rest : List Char}
      (heading : heading? (style.token.toList ++ (blanks ++ '"' :: (label ++ '"' ::
        (more ++ (folded ++ rest))))) = some style)
      (blank : AllBlank blanks)
      (quoted : '"' ∉ label)
      (blankMore : AllBlank more)
      (all : ∀ c, (folded ++ rest).head? = some c → isBlank c = false)
      (second : folded = optionalToken (folded ++ rest)) :
      Takes ⟨style, some (String.ofList label)⟩
        (style.token.toList ++ (blanks ++ '"' :: (label ++ '"' :: (more ++ folded)))) rest

/-! ## Reading a connector -/

theorem connector?_eq_some_iff {cs rest : List Char} {style : LinkStyle} :
    connector? cs = some (style, rest) ↔
      heading? cs = some style ∧ cs = style.token.toList ++ rest := by
  unfold connector?
  split
  · cases style <;> simp [heading?, LinkStyle.candidates, LinkStyle.token, List.isPrefixOf]
  · cases style <;> simp [heading?, LinkStyle.candidates, LinkStyle.token, List.isPrefixOf]
  · -- two dashes: the longer connector has been ruled out
    rename_i tail hlong
    have hprefix : ['>'].isPrefixOf tail = false := by
      rw [Bool.eq_false_iff, ne_eq, List.isPrefixOf_iff_prefix]
      rintro ⟨more, rfl⟩
      exact hlong more rfl
    cases style <;> simp [heading?, LinkStyle.candidates, LinkStyle.token, List.isPrefixOf, hprefix]
  · rename_i hdashed harrow hline
    constructor
    · intro h
      cases h
    · rintro ⟨-, rfl⟩
      cases style with
      | arrow => exact (harrow rest rfl).elim
      | dashedArrow => exact (hdashed rest rfl).elim
      | line => exact (hline rest rfl).elim

theorem connector?_eq_none_iff {cs : List Char} :
    connector? cs = none ↔ ¬ BeginsConnector cs := by
  unfold connector?
  split
  · simp [BeginsConnector]
  · simp [BeginsConnector]
  · simp [BeginsConnector]
  · rename_i hdashed harrow hline
    refine iff_of_true rfl ?_
    rintro (⟨more, rfl⟩ | ⟨more, rfl⟩)
    · exact hline more rfl
    · exact harrow more rfl

theorem heading?_eq_none_iff {cs : List Char} : heading? cs = none ↔ connector? cs = none := by
  cases hconnector : connector? cs with
  | some found =>
    obtain ⟨style, rest⟩ := found
    rw [(connector?_eq_some_iff.mp hconnector).1]
    simp
  | none =>
    refine iff_of_true ?_ rfl
    cases hheading : heading? cs with
    | none => rfl
    | some style =>
      -- the connector that fits would have been read
      have hprefix := List.find?_some hheading
      obtain ⟨rest, rfl⟩ := List.isPrefixOf_iff_prefix.mp hprefix
      rw [connector?_eq_some_iff.mpr ⟨hheading, rfl⟩] at hconnector
      cases hconnector

/-- An optional connector and what is left without it make up the text. -/
theorem optionalToken_append_skipConnector (cs : List Char) :
    optionalToken cs ++ skipConnector cs = cs := by
  unfold optionalToken skipConnector
  cases hconnector : connector? cs with
  | none => rw [heading?_eq_none_iff.mpr hconnector]; rfl
  | some found =>
    obtain ⟨style, rest⟩ := found
    obtain ⟨hheading, hcs⟩ := connector?_eq_some_iff.mp hconnector
    rw [hheading]
    exact hcs.symm

theorem quoted?_eq_some_iff {cs label after : List Char} :
    quoted? cs = some (label, after) ↔ cs = '"' :: (label ++ '"' :: after) ∧ '"' ∉ label := by
  constructor
  · intro h
    unfold quoted? at h
    split at h
    · rename_i rest
      split at h
      · -- what stops the label can only be a quote
        rename_i quote tail hdrop
        simp only [Option.some.injEq, Prod.mk.injEq] at h
        obtain ⟨rfl, rfl⟩ := h
        have hquote : quote = '"' := by
          have hhead := List.head?_dropWhile_not (· != '"') rest
          rw [hdrop] at hhead
          simpa using hhead
        have hsplit := List.takeWhile_append_dropWhile (p := (· != '"')) (l := rest)
        rw [hdrop, hquote] at hsplit
        refine ⟨by rw [hsplit], ?_⟩
        intro hmem
        have := List.mem_takeWhile_imp hmem
        simp at this
      · cases h
    · cases h
  · rintro ⟨rfl, hlabel⟩
    have hpass : ∀ c ∈ label, (c != '"') = true := by
      intro c hc
      rw [bne_iff_ne]
      rintro rfl
      exact hlabel hc
    simp [quoted?, List.dropWhile_append_of_pos hpass, List.takeWhile_append_of_pos hpass]

theorem quoted?_eq_none_iff {cs : List Char} : quoted? cs = none ↔ ¬ BeginsQuoted cs := by
  constructor
  · rintro h ⟨label, after, rfl⟩
    unfold quoted? at h
    split at h
    · rename_i rest heq
      obtain rfl := (List.cons.inj heq).2
      split at h
      · cases h
      · -- without a closing quote everything would have been dropped
        rename_i hdrop
        have hall := List.dropWhile_eq_nil_iff.mp hdrop '"' (by simp)
        simp at hall
    · rename_i hno
      exact hno _ rfl
  · intro h
    cases hquoted : quoted? cs with
    | none => rfl
    | some found =>
      obtain ⟨label, after⟩ := found
      exact (h ⟨label, after, (quoted?_eq_some_iff.mp hquoted).1⟩).elim

theorem isBlank_quote : isBlank '"' = false := by decide

theorem exists_takes_of_link? {cs rest : List Char} {link : Link}
    (h : link? cs = some (link, rest)) : ∃ taken, cs = taken ++ rest ∧ Takes link taken rest := by
  unfold link? at h
  split at h
  · cases h
  · rename_i style tail hconnector
    obtain ⟨hheading, rfl⟩ := connector?_eq_some_iff.mp hconnector
    obtain ⟨blanks, htail, hblank, hall⟩ := exists_skipBlanks tail
    split at h
    · -- no label: the connector ends with the blanks after it
      rename_i hquoted
      simp only [Option.some.injEq, Prod.mk.injEq] at h
      obtain ⟨rfl, rfl⟩ := h
      refine ⟨style.token.toList ++ blanks, ?_, .unlabelled ?_ hblank hall ?_⟩
      · rw [List.append_assoc, ← htail]
      · rw [← htail]
        exact hheading
      · exact quoted?_eq_none_iff.mp hquoted
    · -- a label, and whatever connector is folded into it
      rename_i label after hquoted
      obtain ⟨hskip, hlabel⟩ := quoted?_eq_some_iff.mp hquoted
      obtain ⟨more, hafter, hmore, hall'⟩ := exists_skipBlanks after
      have hfolded := optionalToken_append_skipConnector (skipBlanks after)
      simp only [Option.some.injEq, Prod.mk.injEq] at h
      obtain ⟨rfl, rfl⟩ := h
      have hwhole : tail = blanks ++ '"' :: (label ++ '"' ::
          (more ++ (optionalToken (skipBlanks after) ++ skipConnector (skipBlanks after)))) := by
        rw [hfolded, ← hafter, ← hskip]
        exact htail
      have htakes : Takes ⟨style, some (String.ofList label)⟩
          (style.token.toList ++ (blanks ++ '"' :: (label ++ '"' ::
            (more ++ optionalToken (skipBlanks after)))))
          (skipConnector (skipBlanks after)) := by
        refine .labelled ?_ hblank hlabel hmore ?_ ?_
        · rw [← hwhole]
          exact hheading
        · rw [hfolded]
          exact hall'
        · rw [hfolded]
      refine ⟨_, ?_, htakes⟩
      rw [hwhole]
      simp

theorem link?_of_takes {taken rest : List Char} {link : Link} (h : Takes link taken rest) :
    link? (taken ++ rest) = some (link, rest) := by
  cases h with
  | @unlabelled style blanks _ hheading hblank hall hunquoted =>
    rw [List.append_assoc]
    unfold link?
    rw [connector?_eq_some_iff.mpr ⟨hheading, rfl⟩]
    simp only
    rw [skipBlanks_append hblank, skipBlanks_of_head hall, quoted?_eq_none_iff.mpr hunquoted]
  | @labelled style blanks label more folded _ hheading hblank hlabel hmore hall hsecond =>
    -- the folded connector is what is skipped after the label
    have hskipped : skipConnector (folded ++ rest) = rest := by
      have h := optionalToken_append_skipConnector (folded ++ rest)
      rw [← hsecond] at h
      exact List.append_cancel_left h
    have hquote : ∀ c, ('"' :: (label ++ '"' :: (more ++ (folded ++ rest)))).head? = some c →
        isBlank c = false := by
      intro c hc
      cases hc
      exact isBlank_quote
    have hwhole : style.token.toList ++ (blanks ++ '"' :: (label ++ '"' :: (more ++ folded))) ++
        rest = style.token.toList ++ (blanks ++ '"' :: (label ++ '"' ::
          (more ++ (folded ++ rest)))) := by
      simp
    rw [hwhole]
    unfold link?
    rw [connector?_eq_some_iff.mpr ⟨hheading, rfl⟩]
    simp only
    rw [skipBlanks_append hblank, skipBlanks_of_head hquote,
      quoted?_eq_some_iff.mpr ⟨rfl, hlabel⟩]
    simp only
    rw [skipBlanks_append hmore, skipBlanks_of_head hall, hskipped]

theorem link?_eq_none_iff {cs : List Char} : link? cs = none ↔ ¬ BeginsConnector cs := by
  rw [← connector?_eq_none_iff]
  unfold link?
  split
  · rename_i h
    exact iff_of_true rfl h
  · rename_i style rest h
    rw [h]
    split <;> simp

/-- What a connector takes is determined by the text that it begins. -/
theorem Takes.unique {link link' : Link} {taken taken' rest rest' : List Char}
    (h : Takes link taken rest) (h' : Takes link' taken' rest')
    (heq : taken ++ rest = taken' ++ rest') : link = link' ∧ taken = taken' ∧ rest = rest' := by
  -- both are what reading finds
  have hlink := link?_of_takes h
  rw [heq, link?_of_takes h'] at hlink
  simp only [Option.some.injEq, Prod.mk.injEq] at hlink
  obtain ⟨rfl, rfl⟩ := hlink
  exact ⟨rfl, List.append_cancel_right heq, rfl⟩

/-! ## Splits -/

/-- No place inside a text begins a connector, where `after` follows the text. -/
def Unbroken (text after : List Char) : Prop :=
  ∀ before rest, text = before ++ rest → rest ≠ [] → ¬ BeginsConnector (rest ++ after)

/-- A connector as it is written, and the text up to the next one. -/
structure Piece where
  link : Link
  taken : List Char
  text : List Char

/-- A source in pieces. -/
structure Split where
  first : List Char
  pieces : List Piece

/-- The source that pieces make up. -/
def rejoined : List Piece → List Char
  | [] => []
  | p :: ps => p.taken ++ (p.text ++ rejoined ps)

/-- A text and the pieces after it are separated where the connectors are, and
every connector takes what belongs to it. -/
def Separated : List Char → List Piece → Prop
  | text, [] => Unbroken text []
  | text, p :: ps =>
    Unbroken text (rejoined (p :: ps)) ∧ Takes p.link p.taken (p.text ++ rejoined ps) ∧
      Separated p.text ps

/-- The split is one of this source: nothing is lost, and it is split exactly at
the connectors. -/
structure Split.Reads (s : Split) (source : List Char) : Prop where
  whole : source = s.first ++ rejoined s.pieces
  separated : Separated s.first s.pieces

theorem unbroken_nil (after : List Char) : Unbroken [] after := by
  intro before rest h hrest
  exact (hrest (List.append_eq_nil_iff.mp h.symm).2).elim

theorem unbroken_cons {c : Char} {cs after : List Char} :
    Unbroken (c :: cs) after ↔ ¬ BeginsConnector (c :: (cs ++ after)) ∧ Unbroken cs after := by
  constructor
  · intro h
    refine ⟨h [] (c :: cs) rfl (by simp), ?_⟩
    rintro before rest rfl
    exact h (c :: before) rest rfl
  · rintro ⟨hhead, htail⟩ before rest heq hrest
    -- the place is the head of the text, or one further on
    cases before with
    | nil =>
      rw [List.nil_append] at heq
      rw [← heq]
      exact hhead
    | cons b before => exact htail before rest (List.cons.inj heq).2 hrest

theorem Separated.unbroken {text : List Char} {ps : List Piece} (h : Separated text ps) :
    Unbroken text (rejoined ps) := by
  cases ps with
  | nil => exact h
  | cons p ps => exact h.1

theorem Separated.cons {c : Char} {cs : List Char} {ps : List Piece} (h : Separated cs ps)
    (hc : ¬ BeginsConnector (c :: (cs ++ rejoined ps))) : Separated (c :: cs) ps := by
  have hunbroken := unbroken_cons.mpr ⟨hc, h.unbroken⟩
  cases ps with
  | nil => exact hunbroken
  | cons p ps => exact ⟨hunbroken, h.2⟩

theorem Separated.tail {c : Char} {cs : List Char} {ps : List Piece}
    (h : Separated (c :: cs) ps) : Separated cs ps := by
  have hunbroken := (unbroken_cons.mp h.unbroken).2
  cases ps with
  | nil => exact hunbroken
  | cons p ps => exact ⟨hunbroken, h.2⟩

/-! ## Cutting finds the split -/

theorem cut_of_link? {cs rest : List Char} {link : Link} (h : link? cs = some (link, rest)) :
    cut cs = ⟨[], (link, (cut rest).first) :: (cut rest).others⟩ := by
  cases cs with
  | nil => simp [link?, connector?] at h
  | cons c cs =>
    rw [cut]
    split
    · rename_i link' rest' heq
      rw [h] at heq
      simp only [Option.some.injEq, Prod.mk.injEq] at heq
      obtain ⟨rfl, rfl⟩ := heq
      rfl
    · rename_i heq
      rw [h] at heq
      cases heq

theorem cut_cons_of_link? {c : Char} {cs : List Char} (h : link? (c :: cs) = none) :
    cut (c :: cs) = ⟨c :: (cut cs).first, (cut cs).others⟩ := by
  rw [cut]
  split
  · rename_i heq
    rw [h] at heq
    cases heq
  · rfl

/-- Cutting finds the texts and the connectors of a split. -/
theorem cut_of_separated {ps : List Piece} {text : List Char} (h : Separated text ps) :
    cut (text ++ rejoined ps) = ⟨text, ps.map fun p => (p.link, p.text)⟩ := by
  -- the outer induction is on the connectors, the inner one on the text before the next
  induction ps generalizing text with
  | nil =>
    induction text with
    | nil => rw [rejoined, List.append_nil, cut]; rfl
    | cons c cs ih =>
      have hc := (unbroken_cons.mp h.unbroken).1
      rw [List.cons_append, cut_cons_of_link? (link?_eq_none_iff.mpr hc), ih h.tail]
  | cons p ps ihps =>
    induction text with
    | nil =>
      -- the text is used up, so the connector is next
      obtain ⟨-, htakes, hrest⟩ := h
      rw [List.nil_append, rejoined, cut_of_link? (link?_of_takes htakes), ihps hrest]
      rfl
    | cons c cs ih =>
      have hc := (unbroken_cons.mp h.unbroken).1
      rw [List.cons_append, cut_cons_of_link? (link?_eq_none_iff.mpr hc), ih h.tail]

theorem cut_of_reads {s : Split} {source : List Char} (h : s.Reads source) :
    cut source = ⟨s.first, s.pieces.map fun p => (p.link, p.text)⟩ := by
  rw [h.whole]
  exact cut_of_separated h.separated

theorem exists_split (source : List Char) : ∃ s : Split, s.Reads source := by
  -- on the length, since a connector takes more than one character
  induction hn : source.length using Nat.strong_induction_on generalizing source with
  | _ n ih =>
    subst hn
    cases hlink : link? source with
    | some found =>
      obtain ⟨link, rest⟩ := found
      obtain ⟨s, hs⟩ := ih rest.length (length_of_link? hlink) rest rfl
      obtain ⟨taken, hsource, htakes⟩ := exists_takes_of_link? hlink
      refine ⟨⟨[], ⟨link, taken, s.first⟩ :: s.pieces⟩, ?_, unbroken_nil _, ?_, hs.separated⟩
      · rw [hsource, hs.whole]
        rfl
      · rw [← hs.whole]
        exact htakes
    | none =>
      -- no connector begins here, so the character belongs to the first text
      cases source with
      | nil => exact ⟨⟨[], []⟩, rfl, unbroken_nil []⟩
      | cons c cs =>
        obtain ⟨s, hs⟩ := ih cs.length (by simp) cs rfl
        have hc := link?_eq_none_iff.mp hlink
        refine ⟨⟨c :: s.first, s.pieces⟩, ?_, hs.separated.cons ?_⟩
        · rw [List.cons_append, ← hs.whole]
        · rw [← hs.whole]
          exact hc

/-- Pieces with the same connectors and texts that make up the same source are
written alike. -/
theorem pieces_unique {ps qs : List Piece} {text : List Char} (hp : Separated text ps)
    (hq : Separated text qs)
    (hmap : ps.map (fun p => (p.link, p.text)) = qs.map fun p => (p.link, p.text))
    (hjoin : rejoined ps = rejoined qs) : ps = qs := by
  induction ps generalizing text qs with
  | nil =>
    rw [List.map_nil, eq_comm, List.map_eq_nil_iff] at hmap
    exact hmap.symm
  | cons p ps ih =>
    cases qs with
    | nil => simp at hmap
    | cons q qs =>
      obtain ⟨-, hptakes, hprest⟩ := hp
      obtain ⟨-, hqtakes, hqrest⟩ := hq
      rw [List.map_cons, List.map_cons, List.cons.injEq, Prod.mk.injEq] at hmap
      obtain ⟨⟨hlink, htext⟩, hmap⟩ := hmap
      -- the two connectors begin the same text, so they take the same
      obtain ⟨-, htaken, hrest⟩ := hptakes.unique hqtakes hjoin
      rw [htext] at hprest hrest
      have htail := ih hprest hqrest hmap (List.append_cancel_left hrest)
      cases p
      cases q
      simp only at hlink htext htaken
      rw [hlink, htext, htaken, htail]

theorem Split.Reads.unique {s t : Split} {source : List Char} (hs : s.Reads source)
    (ht : t.Reads source) : s = t := by
  -- cutting finds the texts and connectors of both
  have hcut := cut_of_reads hs
  rw [cut_of_reads ht, Cut.mk.injEq] at hcut
  obtain ⟨hfirst, hmap⟩ := hcut
  have hwhole := hs.whole
  rw [ht.whole, hfirst] at hwhole
  have hsep := ht.separated
  rw [hfirst] at hsep
  have hpieces := pieces_unique hsep hs.separated hmap (List.append_cancel_left hwhole)
  cases s
  cases t
  simp only at hfirst hpieces
  rw [hfirst, hpieces]

/-- **Splits are unique.** Every source splits in exactly one way. -/
theorem existsUnique_split (source : List Char) :
    ∃ s : Split, s.Reads source ∧ ∀ t : Split, t.Reads source → t = s := by
  obtain ⟨s, hs⟩ := exists_split source
  exact ⟨s, hs, fun t ht => ht.unique hs⟩

end Whiteboard.Chain
