import Pseudocode.Json

/-!
# JSON tokens

A JSON text is a sequence of tokens with blanks between them.  `Token.lex` splits a text into its
tokens, `Token.text` writes one token.  Blanks are the space, the tab and the two line ends, and
nothing else; a string literal holds no raw control character; numerals follow the strict grammar
(no leading zero, no leading plus, digits on both sides of a point).

Numerals and the words `true`, `false` and `null` are cut out as maximal runs of letters, digits,
signs and points, and are then classified.  Since the grammar never lets two of them touch, nothing
that a finer splitting would accept is lost.
-/

namespace Pseudocode.Json

/-- A token of a JSON text. -/
inductive Token where
  | openObject | closeObject | openArray | closeArray | colon | comma
  | null
  | bool (value : Bool)
  | number (value : Numeral)
  | string (value : Option String)
  deriving DecidableEq, Repr

/-- A piece of a string literal: a character, or a 16-bit unit given by its number. -/
inductive Piece where
  | char (c : Char)
  | unit (n : Nat)
  deriving DecidableEq, Repr

namespace Piece

/-- The value of a hexadecimal digit. -/
def hexDigit? (c : Char) : Option Nat :=
  if '0' ≤ c && c ≤ '9' then some (c.toNat - 48)
  else if 'a' ≤ c && c ≤ 'f' then some (c.toNat - 87)
  else if 'A' ≤ c && c ≤ 'F' then some (c.toNat - 55)
  else none

/-- The number written by four hexadecimal digits. -/
def hex4? (a b c d : Char) : Option Nat := do
  return (((← hexDigit? a) * 16 + (← hexDigit? b)) * 16 + (← hexDigit? c)) * 16 + (← hexDigit? d)

/-- The character that a backslash and `c` stand for. -/
def short? (c : Char) : Option Char :=
  match c with
  | '"' => some '"'
  | '\\' => some '\\'
  | '/' => some '/'
  | 'b' => some '\x08'
  | 'f' => some '\x0c'
  | 'n' => some '\n'
  | 'r' => some '\r'
  | 't' => some '\t'
  | _ => none

/-- The pieces up to the closing quote, and what follows it. -/
def scan : List Char → Option (List Piece × List Char)
  | [] => none
  | '"' :: rest => some ([], rest)
  | '\\' :: 'u' :: a :: b :: c :: d :: rest =>
    match hex4? a b c d, scan rest with
    | some n, some (ps, rest) => some (.unit n :: ps, rest)
    | _, _ => none
  | '\\' :: e :: rest =>
    match short? e, scan rest with
    | some c, some (ps, rest) => some (.char c :: ps, rest)
    | _, _ => none
  | c :: rest =>
    if c.toNat < 0x20 then none
    else match scan rest with
      | some (ps, rest) => some (.char c :: ps, rest)
      | none => none

/-- Whether a unit is the first half of a surrogate pair. -/
def isHigh (n : Nat) : Bool := 0xD800 ≤ n && n < 0xDC00

/-- Whether a unit is the second half of a surrogate pair. -/
def isLow (n : Nat) : Bool := 0xDC00 ≤ n && n < 0xE000

/-- The characters that a sequence of pieces denotes; `none` if half a surrogate pair is left. -/
def denote : List Piece → Option (List Char)
  | [] => some []
  | .char c :: ps => (denote ps).map (c :: ·)
  | .unit h :: .unit l :: ps =>
    if isHigh h then
      if isLow l then
        (denote ps).map (Char.ofNat (0x10000 + (h - 0xD800) * 0x400 + (l - 0xDC00)) :: ·)
      else none
    else if isLow h then none
    else (denote (.unit l :: ps)).map (Char.ofNat h :: ·)
  | .unit n :: ps =>
    if isHigh n || isLow n then none else (denote ps).map (Char.ofNat n :: ·)

/-- The closing quote at least is gone from what follows a literal. -/
theorem length_of_scan {cs rest : List Char} {ps : List Piece} (h : scan cs = some (ps, rest)) :
    rest.length < cs.length := by
  fun_induction scan cs generalizing ps rest with
  | case1 => simp at h
  | case2 rest' => simp_all
  | case3 a b c d rest' n ps' rest'' hs hn ih =>
    simp only [Option.some.injEq, Prod.mk.injEq] at h
    have := ih hs
    simp only [List.length_cons, ← h.2]
    omega
  | case4 => simp at h
  | case5 e rest' _ c ps' rest'' hs hc ih =>
    simp only [Option.some.injEq, Prod.mk.injEq] at h
    have := ih hs
    simp only [List.length_cons, ← h.2]
    omega
  | case6 => simp at h
  | case7 => simp at h
  | case8 c rest' _ _ _ _ ps' rest'' hs ih =>
    simp only [Option.some.injEq, Prod.mk.injEq] at h
    have := ih hs
    simp only [List.length_cons, ← h.2]
    omega
  | case9 => simp at h

end Piece

/-! ### Numerals -/

/-- Whether a character is a decimal digit. -/
def isDigit (c : Char) : Bool := '0' ≤ c && c ≤ '9'

/-- The exponent written by a sign, or none, and at least one digit. -/
def exponent? : List Char → Option Int
  | '-' :: ds => if !ds.isEmpty && ds.all isDigit then some (-(Nat.ofDigitChars 10 ds 0 : Int)) else none
  | '+' :: ds => if !ds.isEmpty && ds.all isDigit then some (Nat.ofDigitChars 10 ds 0) else none
  | ds => if !ds.isEmpty && ds.all isDigit then some (Nat.ofDigitChars 10 ds 0) else none

/-- The power of ten that the end of a numeral writes: nothing, or a mark and an exponent. -/
def power? : List Char → Option (Option Int)
  | [] => some none
  | 'e' :: cs => (exponent? cs).map some
  | 'E' :: cs => (exponent? cs).map some
  | _ => none

/-- A numeral without its sign. -/
def unsigned? (negative : Bool) (cs : List Char) : Option Numeral :=
  let whole := cs.takeWhile isDigit
  let rest := cs.dropWhile isDigit
  if whole.isEmpty || (whole.length > 1 && whole.head? == some '0') then none
  else
    let n := Nat.ofDigitChars 10 whole 0
    match rest with
    | '.' :: rest =>
      let fraction := rest.takeWhile isDigit
      if fraction.isEmpty then none
      else (power? (rest.dropWhile isDigit)).map fun e => ⟨negative, n, fraction, e⟩
    | rest => (power? rest).map fun e => ⟨negative, n, [], e⟩

/-- The numeral that a sequence of characters writes. -/
def numeral? : List Char → Option Numeral
  | '-' :: cs => unsigned? true cs
  | cs => unsigned? false cs

/-! ### Splitting a text -/

namespace Token

/-- Whether a character only separates tokens. -/
def isBlank (c : Char) : Bool := c == ' ' || c == '\n' || c == '\t' || c == '\r'

/-- Whether a character belongs to numerals and words. -/
def isWordChar (c : Char) : Bool :=
  isDigit c || c.isAlpha || c == '-' || c == '+' || c == '.'

/-- The token of a single punctuation character. -/
def punctuation? (c : Char) : Option Token :=
  match c with
  | '{' => some openObject
  | '}' => some closeObject
  | '[' => some openArray
  | ']' => some closeArray
  | ':' => some colon
  | ',' => some comma
  | _ => none

/-- The token that a maximal run of word characters is. -/
def ofWord? (w : List Char) : Option Token :=
  if w = ['n', 'u', 'l', 'l'] then some null
  else if w = ['t', 'r', 'u', 'e'] then some (bool true)
  else if w = ['f', 'a', 'l', 's', 'e'] then some (bool false)
  else (numeral? w).map number

/-- The token that a text starts with, blanks apart, and what follows it. -/
def next? (c : Char) (cs : List Char) : Option (Token × List Char) :=
  if c = '"' then
    match Piece.scan cs with
    | some (ps, rest) => some (string ((Piece.denote ps).map String.ofList), rest)
    | none => none
  else
    match punctuation? c with
    | some t => some (t, cs)
    | none =>
      if isWordChar c then
        (ofWord? (c :: cs.takeWhile isWordChar)).map fun t => (t, cs.dropWhile isWordChar)
      else none

theorem length_of_next? {c : Char} {cs rest : List Char} {t : Token}
    (h : next? c cs = some (t, rest)) : rest.length ≤ cs.length := by
  unfold next? at h
  split at h
  · split at h
    · rename_i hs
      have := Piece.length_of_scan hs
      simp_all
      omega
    · simp at h
  · split at h
    · simp_all
    · split at h
      · simp only [Option.map_eq_some_iff, Prod.mk.injEq] at h
        obtain ⟨_, _, _, rfl⟩ := h
        exact (List.dropWhile_sublist _).length_le
      · simp at h

/-- The tokens of a text, after those in `done`, which are kept in reverse. -/
def lexAfter (done : List Token) : List Char → Option (List Token)
  | [] => some done.reverse
  | c :: cs =>
    if isBlank c then lexAfter done cs
    else
      match _ : next? c cs with
      | some (t, rest) => lexAfter (t :: done) rest
      | none => none
termination_by cs => cs.length
decreasing_by
  · simp
  · have := length_of_next? ‹next? c cs = some (t, rest)›
    simp
    omega

/-- The tokens of a text; `none` if it is not a sequence of tokens. -/
def lex (s : String) : Option (List Token) := lexAfter [] s.toList

/-! ### Writing tokens -/

/-- A character of a string literal: only the quote, the backslash and controls are escaped. -/
def escaped (c : Char) : String :=
  match c with
  | '"' => "\\\""
  | '\\' => "\\\\"
  | '\x08' => "\\b"
  | '\x0c' => "\\f"
  | '\n' => "\\n"
  | '\r' => "\\r"
  | '\t' => "\\t"
  | c =>
    if c.toNat < 0x20 then
      let digits := Nat.toDigits 16 c.toNat
      "\\u" ++ String.ofList (List.replicate (4 - digits.length) '0' ++ digits)
    else c.toString

/-- The literal of a text.  What denotes no text is written as half a surrogate pair. -/
def literal : Option String → String
  | some s => "\"" ++ String.join (s.toList.map escaped) ++ "\""
  | none => "\"\\ud800\""

/-- One token as text.  Powers of ten are written with their sign. -/
def text : Token → String
  | openObject => "\x7b"
  | closeObject => "\x7d"
  | openArray => "["
  | closeArray => "]"
  | colon => ":"
  | comma => ","
  | null => "null"
  | bool true => "true"
  | bool false => "false"
  | number n => n.text true
  | string s => literal s

end Token

end Pseudocode.Json
