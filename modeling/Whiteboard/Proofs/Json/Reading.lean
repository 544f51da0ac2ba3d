import Whiteboard.Proofs.Json.Strings
import Whiteboard.Proofs.Json.Trees

/-!
# Whiteboard — the text of a value spells its tree

A reader goes through a text token by token with a stack of what is still open. The
text of a value takes it from where a value is awaited to where one was read,
whatever is open around it and whatever follows; only a number must not be followed
by what could continue it. No white space of a layout is seen.

Main results:

* `run?_write` — what reading the text of a value does to a reader.
* `read?_compact`, `read?_pretty` — both texts of a value spell its tree.
-/

namespace Whiteboard.Json

namespace Progress

/-! ## One token -/

/-- What a reader has read after more of the text. -/
def run? (p : Progress) (cs : List Char) : Option Progress :=
  (lex? cs).bind fun ts => ts.foldlM step? p

theorem run?_nil (p : Progress) : p.run? [] = some p := by
  rw [run?, lex?]
  rfl

theorem run?_space {c : Char} (hc : isSpace c = true) (p : Progress) (cs : List Char) :
    p.run? (c :: cs) = p.run? cs := by
  rw [run?, lex?, if_pos hc, run?]

/-- White space is passed over. -/
theorem run?_blank {blank : List Char} (hblank : ∀ c ∈ blank, isSpace c = true) (p : Progress)
    (cs : List Char) : p.run? (blank ++ cs) = p.run? cs := by
  induction blank with
  | nil => rfl
  | cons c blank ih =>
    obtain ⟨hc, hblank⟩ := List.forall_mem_cons.mp hblank
    rw [List.cons_append, run?_space hc, ih hblank]

/-- A token is one step. -/
theorem run?_token {c : Char} {cs rest : List Char} {t : Token} (hc : isSpace c = false)
    (ht : token? (c :: cs) = some (t, rest)) (p : Progress) :
    p.run? (c :: cs) = (p.step? t).bind fun q => q.run? rest := by
  have hlex : lex? (c :: cs) = (lex? rest).map (t :: ·) := by
    rw [lex?, if_neg (by rw [hc]; decide)]
    split
    · rename_i hnone
      rw [ht] at hnone
      cases hnone
    · rename_i t' rest' hsome
      rw [ht] at hsome
      cases hsome
      rfl
  rw [run?, hlex]
  cases hrest : lex? rest with
  | none => cases p.step? t <;> simp [run?, hrest]
  | some ts =>
    rw [Option.map_some, Option.bind_some, List.foldlM_cons]
    cases p.step? t <;> simp [run?, hrest]

theorem run?_quote (s : String) (p : Progress) (rest : List Char) :
    p.run? (quote s ++ rest) = (p.step? (.string (some s))).bind fun q => q.run? rest := by
  obtain ⟨units, hscan, hdenoted⟩ := scanString_quoted s.toList rest
  have htoken : token? ('"' :: (s.toList.flatMap escaped ++ '"' :: rest)) =
      some (.string (some s), rest) := by
    simp only [token?, hscan, hdenoted, Option.map_some, String.ofList_toList]
  have htext : quote s ++ rest = '"' :: (s.toList.flatMap escaped ++ '"' :: rest) := by
    simp [quote]
  rw [htext]
  exact run?_token rfl htoken p

/-- A text that begins like a number holds no other token at its head. -/
theorem token?_of_literal? {cs rest : List Char} {l : Literal}
    (h : literal? cs = some (l, rest)) : token? cs = some (.number l, rest) := by
  rw [token?.eq_def]
  split
  case h_11 => rw [h, Option.map_some]
  -- every other token begins with a character that no number begins with
  all_goals
    rcases head_of_literal? h with hhead | hhead <;> cases hhead

theorem isSpace_of_literal? {c : Char} {cs rest : List Char} {l : Literal}
    (h : literal? (c :: cs) = some (l, rest)) : isSpace c = false := by
  have hspace : ∀ d, isSpace d = true → d ≠ '-' ∧ d.isDigit = false := by
    intro d hd
    simp only [isSpace, Bool.or_eq_true, beq_iff_eq] at hd
    rcases hd with ((rfl | rfl) | rfl) | rfl <;> decide
  by_contra hc
  obtain ⟨hminus, hdigit⟩ := hspace c (Bool.not_eq_false _ ▸ hc)
  rcases head_of_literal? h with hhead | hhead
  · exact hminus hhead
  · rw [hdigit] at hhead
    cases hhead

variable {S : Type} [Scalar S] [Numeral S] [LawfulNumeral S]

theorem run?_numberText {n : Number S} (hn : n.InRange) (p : Progress) {rest : List Char}
    (hrest : EndsNumber rest) :
    p.run? (numberText n ++ rest) =
      (p.step? (.number n.literal)).bind fun q => q.run? rest := by
  have hliteral := literal?_append (Number.literal?_numberText hn) hrest
  rw [List.nil_append] at hliteral
  cases htext : numberText n ++ rest with
  | nil =>
    rw [htext] at hliteral
    cases hliteral
  | cons c cs =>
    rw [htext] at hliteral
    exact run?_token (isSpace_of_literal? hliteral) (token?_of_literal? hliteral) p

/-! ## Values -/

/-- A reader that awaits a value, with these arrays and objects open around it. -/
def Awaits (p : Progress) (stack : List Frame) : Prop :=
  ∀ t, t ≠ .closeArray → p.step? t = begin? stack t

theorem awaits_value (stack : List Frame) : (Progress.value stack).Awaits stack :=
  fun _ _ => rfl

/-- After an opening bracket a value is awaited as the first item. -/
theorem awaits_opened (stack : List Frame) :
    (Progress.opened stack).Awaits (.array [] :: stack) := by
  intro t ht
  cases t with
  | closeArray => exact absurd rfl ht
  | openArray | openObject | closeObject | colon | comma | null | bool | number | string => rfl

end Progress

/-- All that a layout puts between tokens is white space. -/
structure Layout.Blank (lay : Layout) : Prop where
  newline : ∀ level, ∀ c ∈ lay.newline level, isSpace c = true
  gap : ∀ c ∈ lay.gap, isSpace c = true

theorem Layout.blank_compact : Layout.compact.Blank where
  newline := by simp [Layout.compact]
  gap := by simp [Layout.compact]

theorem Layout.blank_pretty : Layout.pretty.Blank where
  newline := by
    intro level c hc
    rcases List.mem_cons.mp hc with rfl | hc
    · rfl
    · rw [List.eq_of_mem_replicate hc]
      rfl
  gap := by
    intro c hc
    rw [List.mem_singleton.mp hc]
    rfl

variable {S : Type} [Numeral S]

/-- The text of a value takes a reader that awaits one to where it was read. -/
def Spelled (lay : Layout) (v : Json S) : Prop :=
  ∀ ⦃p : Progress⦄ ⦃stack : List Frame⦄ (level : Nat) ⦃rest : List Char⦄, p.Awaits stack →
    EndsNumber rest →
    p.run? (write lay level v ++ rest) = (Progress.after stack v.tree).run? rest

theorem isNumeric_of_isSpace {c : Char} (hc : isSpace c = true) : isNumeric c = false := by
  simp only [isSpace, Bool.or_eq_true, beq_iff_eq] at hc
  rcases hc with ((rfl | rfl) | rfl) | rfl <;> rfl

theorem EndsNumber.of_blank (blank : List Char) {rest : List Char} {c : Char}
    (hblank : ∀ c ∈ blank, isSpace c = true) (hc : isNumeric c = false) :
    EndsNumber (blank ++ c :: rest) := by
  intro d hd
  cases blank with
  | nil =>
    cases hd
    exact hc
  | cons b blank =>
    cases hd
    exact isNumeric_of_isSpace (hblank _ List.mem_cons_self)

variable {lay : Layout}

theorem EndsNumber.writeItems (hlay : lay.Blank) (level : Nat) (vs : List (Json S))
    (rest : List Char) :
    EndsNumber (writeItems lay (level + 1) vs ++ (lay.newline level ++ ']' :: rest)) := by
  cases vs with
  | nil => exact EndsNumber.of_blank _ (hlay.newline level) rfl
  | cons v vs => exact EndsNumber.of_blank [] (by simp) rfl

theorem EndsNumber.writeFields (hlay : lay.Blank) (level : Nat) (fs : List (String × Json S))
    (rest : List Char) :
    EndsNumber (writeFields lay (level + 1) fs ++ (lay.newline level ++ '\x7d' :: rest)) := by
  cases fs with
  | nil => exact EndsNumber.of_blank _ (hlay.newline level) rfl
  | cons f fs => exact EndsNumber.of_blank [] (by simp) rfl

open Progress (run?_token run?_quote run?_blank awaits_value awaits_opened)

/-- The items after one that was read, up to the closing bracket. -/
theorem run?_writeItems (hlay : lay.Blank) {vs : List (Json S)} (hvs : ∀ v ∈ vs, Spelled lay v)
    (level : Nat) (stack : List Frame) (rest : List Char) :
    ∀ (items : List Tree) (t : Tree), (Progress.after (.array items :: stack) t).run?
        (writeItems lay (level + 1) vs ++ (lay.newline level ++ ']' :: rest)) =
      (Progress.after stack (.array ((t :: items).reverse ++ itemTrees vs))).run? rest := by
  induction vs with
  | nil =>
    intro items t
    rw [writeItems, List.nil_append, run?_blank (hlay.newline level), run?_token rfl rfl, itemTrees,
      List.append_nil]
    rfl
  | cons v vs ih =>
    obtain ⟨hv, hvs⟩ := List.forall_mem_cons.mp hvs
    intro items t
    -- after a comma the next item is awaited, and what follows it ends a number
    have hcomma : (Progress.after (.array items :: stack) t).step? .comma =
        some (.value (.array (t :: items) :: stack)) := rfl
    rw [writeItems, List.cons_append, run?_token rfl rfl, hcomma, Option.bind_some]
    rw [List.append_assoc, List.append_assoc, run?_blank (hlay.newline _),
      hv _ (awaits_value _) (EndsNumber.writeItems hlay level vs rest), ih hvs, itemTrees]
    simp

/-- A field, where a key is awaited, up to the end of its value. -/
theorem run?_field (hlay : lay.Blank) {v : Json S} (hv : Spelled lay v) (key : String)
    (level : Nat) (stack : List Frame) (fields : List (Option String × Tree)) (first : Bool)
    {rest : List Char} (hrest : EndsNumber rest) :
    (Progress.key stack fields first).run?
        (quote key ++ ':' :: (lay.gap ++ (write lay level v ++ rest))) =
      (Progress.after (.object fields (some key) :: stack) v.tree).run? rest := by
  have hkey : (Progress.key stack fields first).step? (.string (some key)) =
      some (.colon stack fields (some key)) := rfl
  have hcolon : (Progress.colon stack fields (some key)).step? .colon =
      some (.value (.object fields (some key) :: stack)) := rfl
  rw [run?_quote, hkey, Option.bind_some, run?_token rfl rfl, hcolon, Option.bind_some,
    run?_blank hlay.gap, hv level (awaits_value _) hrest]

/-- The fields after one that was read, up to the closing brace. -/
theorem run?_writeFields (hlay : lay.Blank) {fs : List (String × Json S)}
    (hfs : ∀ f ∈ fs, Spelled lay f.2) (level : Nat) (stack : List Frame) (rest : List Char) :
    ∀ (fields : List (Option String × Tree)) (key : Option String) (t : Tree),
      (Progress.after (.object fields key :: stack) t).run?
        (writeFields lay (level + 1) fs ++ (lay.newline level ++ '\x7d' :: rest)) =
      (Progress.after stack (.object (((key, t) :: fields).reverse ++ fieldTrees fs))).run?
        rest := by
  induction fs with
  | nil =>
    intro fields key t
    rw [writeFields, List.nil_append, run?_blank (hlay.newline level), run?_token rfl rfl,
      fieldTrees, List.append_nil]
    rfl
  | cons f fs ih =>
    obtain ⟨hf, hfs⟩ := List.forall_mem_cons.mp hfs
    intro fields key t
    have hcomma : (Progress.after (.object fields key :: stack) t).step? .comma =
        some (.key stack ((key, t) :: fields) false) := rfl
    rw [writeFields, List.cons_append, run?_token rfl rfl, hcomma, Option.bind_some]
    simp only [List.append_assoc, List.cons_append]
    rw [run?_blank (hlay.newline _), run?_field hlay hf _ _ _ _ _
      (EndsNumber.writeFields hlay level fs rest), ih hfs, fieldTrees]
    simp

variable [Scalar S] [LawfulNumeral S]

/-- **The text of a value is read as its tree**, whatever is open around it. -/
theorem run?_write (hlay : lay.Blank) {v : Json S} (hv : v.InRange) : Spelled lay v := by
  induction v using Json.induction with
  | null =>
    intro p stack level rest hp _
    rw [write, List.cons_append, run?_token rfl rfl, hp _ (by decide)]
    rfl
  | bool b =>
    intro p stack level rest hp _
    cases b
    all_goals
      rw [write, List.cons_append, run?_token rfl rfl, hp _ (by decide)]
      rfl
  | number n =>
    intro p stack level rest hp hrest
    cases hv with
    | number range =>
      rw [write, Progress.run?_numberText range p hrest, hp _ Token.noConfusion]
      rfl
  | string s =>
    intro p stack level rest hp _
    rw [write, run?_quote, hp _ Token.noConfusion]
    rfl
  | array items ih =>
    intro p stack level rest hp _
    cases hv with
    | array parts =>
      have hopen : p.step? .openArray = some (.opened stack) := hp _ (by decide)
      cases items with
      | nil =>
        rw [write, List.cons_append, run?_token rfl rfl, hopen, Option.bind_some,
          List.cons_append, run?_token rfl rfl]
        rfl
      | cons v vs =>
        -- the first item stands where the array could still be closed at once
        obtain ⟨hv, hvs⟩ := List.forall_mem_cons.mp fun v hv => ih v hv (parts v hv)
        rw [write, List.cons_append, run?_token rfl rfl, hopen, Option.bind_some]
        simp only [List.append_assoc, List.cons_append, List.nil_append]
        rw [run?_blank (hlay.newline _),
          hv _ (awaits_opened stack) (EndsNumber.writeItems hlay level vs rest),
          run?_writeItems hlay hvs]
        rfl
  | object fields ih =>
    intro p stack level rest hp _
    cases hv with
    | object parts =>
      have hopen : p.step? .openObject = some (.key stack [] true) := hp _ (by decide)
      cases fields with
      | nil =>
        rw [write, List.cons_append, run?_token rfl rfl, hopen, Option.bind_some,
          List.cons_append, run?_token rfl rfl]
        rfl
      | cons f fs =>
        obtain ⟨hf, hfs⟩ := List.forall_mem_cons.mp fun f hf => ih f hf (parts f hf)
        rw [write, List.cons_append, run?_token rfl rfl, hopen, Option.bind_some]
        simp only [List.append_assoc, List.cons_append, List.nil_append]
        rw [run?_blank (hlay.newline _), run?_field hlay hf _ _ _ _ _
          (EndsNumber.writeFields hlay level fs rest), run?_writeFields hlay hfs]
        rfl

/-! ## Texts -/

/-- White space after a value is no part of it. -/
theorem read?_write_append (hlay : lay.Blank) {v : Json S} (hv : v.InRange) {blank : List Char}
    (hblank : ∀ c ∈ blank, isSpace c = true) :
    Tree.read? (String.ofList (write lay 0 v ++ blank)) = some v.tree := by
  have hends : EndsNumber blank := fun c hc =>
    isNumeric_of_isSpace (hblank c (List.mem_of_mem_head? hc))
  have hrun := run?_write hlay hv 0 (awaits_value []) hends
  have hrest := Progress.run?_blank hblank (Progress.after [] v.tree) []
  rw [List.append_nil, Progress.run?_nil] at hrest
  rw [hrest, Progress.run?] at hrun
  obtain ⟨ts, hlex, hfold⟩ := Option.bind_eq_some_iff.mp hrun
  rw [Tree.read?, String.toList_ofList, hlex, Option.bind_some, Tree.ofTokens?, hfold]
  rfl

theorem read?_write (hlay : lay.Blank) {v : Json S} (hv : v.InRange) :
    Tree.read? (String.ofList (write lay 0 v)) = some v.tree := by
  have hread := read?_write_append hlay hv (List.forall_mem_nil _)
  rwa [List.append_nil] at hread

/-- The text without any space spells the tree. -/
theorem read?_compact {v : Json S} (hv : v.InRange) : Tree.read? v.compact = some v.tree :=
  read?_write Layout.blank_compact hv

/-- The text with an item a line spells the tree. -/
theorem read?_pretty {v : Json S} (hv : v.InRange) : Tree.read? v.pretty = some v.tree :=
  read?_write Layout.blank_pretty hv

/-- So does the text with the end of its last line. -/
theorem read?_pretty_newline {v : Json S} (hv : v.InRange) :
    Tree.read? (v.pretty ++ "\n") = some v.tree := by
  have htext : v.pretty ++ "\n" = String.ofList (write .pretty 0 v ++ ['\n']) := by
    rw [String.ofList_append]
    rfl
  rw [htext]
  exact read?_write_append Layout.blank_pretty hv (List.forall_mem_singleton.mpr rfl)

end Whiteboard.Json
