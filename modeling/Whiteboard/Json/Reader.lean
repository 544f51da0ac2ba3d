import Whiteboard.Json.Tree

/-!
# Whiteboard — reading JSON

A text is read in two steps, neither of which nests:

* `lex?` cuts it into tokens, dropping white space;
* `Tree.ofTokens?` runs over the tokens once, with a stack of the arrays and
  objects that are still open.

A text that is no JSON is refused without a reason.
-/

namespace Whiteboard

namespace Json

/-! ## Tokens -/

inductive Token where
  | openArray | closeArray | openObject | closeObject | colon | comma
  | null
  | bool (value : Bool)
  | number (value : Literal)
  | string (value : Option String)
  deriving DecidableEq, Repr

/-- White space between tokens. -/
def isSpace (c : Char) : Bool := c == ' ' || c == '\t' || c == '\n' || c == '\r'

/-! ## Strings -/

/-- A character of a string, or an escape by a code unit of sixteen bits. -/
inductive Unit16 where
  | char (c : Char)
  | code (n : Nat)
  deriving DecidableEq, Repr

/-- The value of a hexadecimal digit. -/
def hexValue? (c : Char) : Option Nat :=
  if '0' ≤ c ∧ c ≤ '9' then some (c.toNat - '0'.toNat)
  else if 'a' ≤ c ∧ c ≤ 'f' then some (c.toNat - 'a'.toNat + 10)
  else if 'A' ≤ c ∧ c ≤ 'F' then some (c.toNat - 'A'.toNat + 10)
  else none

/-- The character that a letter after a backslash stands for. -/
def simpleEscape? : Char → Option Char
  | '"' => some '"'
  | '\\' => some '\\'
  | '/' => some '/'
  | 'b' => some '\x08'
  | 'f' => some '\x0c'
  | 'n' => some '\n'
  | 'r' => some '\r'
  | 't' => some '\t'
  | _ => none

/-- A code unit from four hexadecimal digits. -/
def unit? (a b c d : Char) : Option Nat := do
  return (((← hexValue? a) * 16 + (← hexValue? b)) * 16 + (← hexValue? c)) * 16 + (← hexValue? d)

/-- The characters up to the closing quote, and what follows it. -/
def scanString : List Char → Option (List Unit16 × List Char)
  | '"' :: rest => some ([], rest)
  | '\\' :: 'u' :: a :: b :: c :: d :: rest => do
    let n ← unit? a b c d
    let (more, after) ← scanString rest
    return (.code n :: more, after)
  -- a lone `u` is no escape, so four digits must have followed it
  | '\\' :: e :: rest => do
    let c ← simpleEscape? e
    let (more, after) ← scanString rest
    return (.char c :: more, after)
  | c :: rest =>
    if c.toNat < 0x20 ∨ c = '\\' then none
    else do
      let (more, after) ← scanString rest
      return (.char c :: more, after)
  | [] => none

def isHighSurrogate (n : Nat) : Bool := 0xD800 ≤ n && n < 0xDC00

def isLowSurrogate (n : Nat) : Bool := 0xDC00 ≤ n && n < 0xE000

/-- The text of a string: a high surrogate stands for a character together with
the low one after it, and neither does alone. -/
def denoted? : List Unit16 → Option (List Char)
  | [] => some []
  | .char c :: rest => (denoted? rest).map (c :: ·)
  | .code n :: .code m :: rest =>
    -- both units of a pair are consumed together
    if isHighSurrogate n then
      if isLowSurrogate m then
        (denoted? rest).map (Char.ofNat (0x10000 + (n - 0xD800) * 0x400 + (m - 0xDC00)) :: ·)
      else none
    else if isLowSurrogate n then none
    else (denoted? (.code m :: rest)).map (Char.ofNat n :: ·)
  | .code n :: rest =>
    if isHighSurrogate n || isLowSurrogate n then none
    else (denoted? rest).map (Char.ofNat n :: ·)

theorem length_of_scanString {cs : List Char} {units : List Unit16} {after : List Char}
    (h : scanString cs = some (units, after)) : after.length < cs.length := by
  fun_induction scanString cs generalizing units after with
  | case1 => simp_all
  | case2 a b c d rest ih =>
    simp only [Option.bind_eq_bind, Option.bind_eq_some_iff] at h
    obtain ⟨n, -, ⟨more, tail⟩, hs, he⟩ := h
    have := ih hs
    simp_all
    omega
  | case3 e rest _ ih =>
    simp only [Option.bind_eq_bind, Option.bind_eq_some_iff] at h
    obtain ⟨n, -, ⟨more, tail⟩, hs, he⟩ := h
    have := ih hs
    simp_all
    omega
  | case4 => simp at h
  | case5 c rest _ _ _ _ ih =>
    simp only [Option.bind_eq_bind, Option.bind_eq_some_iff] at h
    obtain ⟨⟨more, tail⟩, hs, he⟩ := h
    have := ih hs
    simp_all
    omega
  | case6 => simp at h

/-! ## Numbers -/

/-- The digits at the head, at least one, and what follows them. -/
def digits? (cs : List Char) : Option (List Char × List Char) :=
  if (cs.takeWhile Char.isDigit).isEmpty then none
  else some (cs.takeWhile Char.isDigit, cs.dropWhile Char.isDigit)

def natOf (ds : List Char) : Nat := Nat.ofDigitChars 10 ds 0

/-- The digits of a whole number: a zero stands alone. -/
def wholePart? : List Char → Option (List Char × List Char)
  | '0' :: rest => some (['0'], rest)
  | cs => digits? cs

/-- The digits after a point, if there is one. -/
def fraction? : List Char → Option (List Char × List Char)
  | '.' :: rest => digits? rest
  | cs => some ([], cs)

/-- The exponent after its letter: a sign, if any, and digits. -/
def signedDigits? : List Char → Option (Int × List Char)
  | '-' :: rest => (digits? rest).map fun (ds, after) => (-(natOf ds : Int), after)
  | '+' :: rest => (digits? rest).map fun (ds, after) => ((natOf ds : Int), after)
  | rest => (digits? rest).map fun (ds, after) => ((natOf ds : Int), after)

/-- The exponent, if there is one. -/
def exponent? : List Char → Option (Option Int × List Char)
  | 'e' :: rest => (signedDigits? rest).map fun (e, after) => (some e, after)
  | 'E' :: rest => (signedDigits? rest).map fun (e, after) => (some e, after)
  | cs => some (none, cs)

/-- The number after its sign. -/
def unsigned? (negative : Bool) (cs : List Char) : Option (Literal × List Char) := do
  let (whole, rest) ← wholePart? cs
  let (fraction, rest) ← fraction? rest
  let (exponent, rest) ← exponent? rest
  return (⟨⟨negative, natOf (whole ++ fraction), exponent.getD 0 - fraction.length⟩,
    fraction.isEmpty && exponent.isNone⟩, rest)

/-- The number at the head, and what follows it. -/
def literal? : List Char → Option (Literal × List Char)
  | '-' :: rest => unsigned? true rest
  | cs => unsigned? false cs

theorem length_of_digits? {cs ds rest : List Char} (h : digits? cs = some (ds, rest)) :
    rest.length < cs.length := by
  unfold digits? at h
  split at h
  · simp at h
  · rename_i hne
    simp only [Option.some.injEq, Prod.mk.injEq] at h
    obtain ⟨rfl, rfl⟩ := h
    have happ := congrArg List.length
      (List.takeWhile_append_dropWhile (p := Char.isDigit) (l := cs))
    have hpos : 0 < (cs.takeWhile Char.isDigit).length := by
      cases h : cs.takeWhile Char.isDigit with
      | nil => simp [h] at hne
      | cons => simp
    simp only [List.length_append] at happ
    omega

theorem length_of_wholePart? {cs ds rest : List Char} (h : wholePart? cs = some (ds, rest)) :
    rest.length < cs.length := by
  unfold wholePart? at h
  split at h
  · simp_all
  · exact length_of_digits? h

theorem length_of_fraction? {cs ds rest : List Char} (h : fraction? cs = some (ds, rest)) :
    rest.length ≤ cs.length := by
  unfold fraction? at h
  split at h
  · have := length_of_digits? h
    simp
    omega
  · simp_all

theorem length_of_signedDigits? {cs rest : List Char} {e : Int}
    (h : signedDigits? cs = some (e, rest)) : rest.length ≤ cs.length := by
  unfold signedDigits? at h
  split at h
  all_goals
    simp only [Option.map_eq_some_iff, Prod.mk.injEq] at h
    obtain ⟨⟨ds, after⟩, hd, -, rfl⟩ := h
    have := length_of_digits? hd
    simp only [List.length_cons]
    omega

theorem length_of_exponent? {cs rest : List Char} {e : Option Int}
    (h : exponent? cs = some (e, rest)) : rest.length ≤ cs.length := by
  unfold exponent? at h
  split at h
  case h_3 => simp_all
  all_goals
    simp only [Option.map_eq_some_iff, Prod.mk.injEq] at h
    obtain ⟨⟨e', after⟩, hb, -, rfl⟩ := h
    have := length_of_signedDigits? hb
    simp only [List.length_cons]
    omega

theorem length_of_unsigned? {cs rest : List Char} {negative : Bool} {l : Literal}
    (h : unsigned? negative cs = some (l, rest)) : rest.length < cs.length := by
  simp only [unsigned?, Option.bind_eq_bind, Option.bind_eq_some_iff] at h
  obtain ⟨⟨ds, r1⟩, h1, ⟨f, r2⟩, h2, ⟨e, r3⟩, h3, h4⟩ := h
  have := length_of_wholePart? h1
  have := length_of_fraction? h2
  have := length_of_exponent? h3
  simp only [Option.pure_def, Option.some.injEq, Prod.mk.injEq] at h4
  obtain ⟨-, rfl⟩ := h4
  dsimp only at *
  omega

theorem length_of_literal? {cs rest : List Char} {l : Literal} (h : literal? cs = some (l, rest)) :
    rest.length < cs.length := by
  unfold literal? at h
  split at h
  · have := length_of_unsigned? h
    simp
    omega
  · exact length_of_unsigned? h

/-! ## Lexing -/

/-- The token at the head of a text without leading space. -/
def token? : List Char → Option (Token × List Char)
  | '[' :: rest => some (.openArray, rest)
  | ']' :: rest => some (.closeArray, rest)
  | '\x7b' :: rest => some (.openObject, rest)
  | '\x7d' :: rest => some (.closeObject, rest)
  | ':' :: rest => some (.colon, rest)
  | ',' :: rest => some (.comma, rest)
  | 'n' :: 'u' :: 'l' :: 'l' :: rest => some (.null, rest)
  | 't' :: 'r' :: 'u' :: 'e' :: rest => some (.bool true, rest)
  | 'f' :: 'a' :: 'l' :: 's' :: 'e' :: rest => some (.bool false, rest)
  | '"' :: rest => (scanString rest).map fun (units, after) =>
      (.string ((denoted? units).map String.ofList), after)
  | cs => (literal? cs).map fun (l, after) => (.number l, after)

theorem length_of_token? {cs rest : List Char} {t : Token} (h : token? cs = some (t, rest)) :
    rest.length < cs.length := by
  unfold token? at h
  split at h
  case h_10 tail =>
    simp only [Option.map_eq_some_iff, Prod.mk.injEq] at h
    obtain ⟨⟨units, after⟩, hs, -, rfl⟩ := h
    have := length_of_scanString hs
    simp
    omega
  case h_11 =>
    simp only [Option.map_eq_some_iff, Prod.mk.injEq] at h
    obtain ⟨⟨l, after⟩, hl, -, rfl⟩ := h
    exact length_of_literal? hl
  all_goals
    simp only [Option.some.injEq, Prod.mk.injEq] at h
    obtain ⟨-, rfl⟩ := h
    simp
    try omega

/-- The tokens of a text. -/
def lex? : List Char → Option (List Token)
  | [] => some []
  | c :: cs =>
    if isSpace c then lex? cs
    else match h : token? (c :: cs) with
      | none => none
      | some (t, rest) =>
        have := length_of_token? h
        (lex? rest).map (t :: ·)
termination_by cs => cs.length
decreasing_by all_goals (simp only [List.length_cons] at *; omega)

/-! ## Building -/

/-- An array or an object that is still open, its parts in reverse. -/
inductive Frame where
  | array (items : List Tree)
  | object (fields : List (Option String × Tree)) (key : Option String)

/-- What a reader of tokens has read, innermost open part first. -/
inductive Progress where
  /-- A value comes. -/
  | value (stack : List Frame)
  /-- An array was opened: a value comes, or the end. -/
  | opened (stack : List Frame)
  /-- In an object a key comes; directly after the opening brace also the end. -/
  | key (stack : List Frame) (fields : List (Option String × Tree)) (first : Bool)
  /-- A key was read and a colon comes. -/
  | colon (stack : List Frame) (fields : List (Option String × Tree)) (key : Option String)
  /-- A value was read; it belongs into the innermost open part. -/
  | after (stack : List Frame) (v : Tree)

namespace Progress

/-- The first token of a value. -/
def begin? (stack : List Frame) : Token → Option Progress
  | .openArray => some (.opened stack)
  | .openObject => some (.key stack [] true)
  | .null => some (.after stack .null)
  | .bool b => some (.after stack (.bool b))
  | .number l => some (.after stack (.number l))
  | .string s => some (.after stack (.string s))
  | _ => none

/-- One token more. -/
def step? : Progress → Token → Option Progress
  | .value stack, t => begin? stack t
  | .opened stack, .closeArray => some (.after stack (.array []))
  | .opened stack, t => begin? (.array [] :: stack) t
  | .key stack fields _, .string k => some (.colon stack fields k)
  | .key stack _ true, .closeObject => some (.after stack (.object []))
  | .key .., _ => none
  | .colon stack fields k, .colon => some (.value (.object fields k :: stack))
  | .colon .., _ => none
  | .after (.array items :: stack) v, .comma => some (.value (.array (v :: items) :: stack))
  | .after (.array items :: stack) v, .closeArray =>
    some (.after stack (.array (v :: items).reverse))
  | .after (.object fields k :: stack) v, .comma => some (.key stack ((k, v) :: fields) false)
  | .after (.object fields k :: stack) v, .closeObject =>
    some (.after stack (.object ((k, v) :: fields).reverse))
  | .after .., _ => none

/-- The tree, once everything is closed. -/
def finished? : Progress → Option Tree
  | .after [] v => some v
  | _ => none

end Progress

end Json

namespace Tree

/-- The tree that a list of tokens spells. -/
def ofTokens? (ts : List Json.Token) : Option Tree :=
  (ts.foldlM Json.Progress.step? (.value [])).bind Json.Progress.finished?

/-- The tree of a text. -/
def read? (text : String) : Option Tree := (Json.lex? text.toList).bind ofTokens?

end Tree

/-- The value of a text, its objects with their keys in order. -/
def Json.read? {S : Type} [Numeral S] (text : String) : Option (Json S) :=
  (Tree.read? text).bind (Tree.value? Tree.nestingLimit)

end Whiteboard
