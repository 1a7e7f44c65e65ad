import DotScript.Syntax.Token
import DotScript.Text.Source
import DotScript.Text.Character

/-!
# From text to tokens

White space and comments separate tokens and are dropped; every other character belongs to exactly
one token. `lexeme` reads one token, `tokens` all of them, ending with the end of file.

`lexeme_append` says that reading a token loses nothing: its characters and the rest make up the
text it was read from. This is also why `tokensFrom` ends.
-/

namespace DotScript.Syntax

open DotScript.Text

/-- Skip white space and comments. A comment runs from `#` to the end of its line; `inComment` says
that one is open. Gives the offset reached and what is left. -/
def skipBlanks (inComment : Bool) (pos : Nat) : List Char → Nat × List Char
  | [] => (pos, [])
  | c :: cs =>
    if inComment then skipBlanks (c != '\n') (pos + c.utf8Size) cs
    else if c == '#' then skipBlanks true (pos + c.utf8Size) cs
    else if isBlank c then skipBlanks false (pos + c.utf8Size) cs
    else (pos, c :: cs)

/-- Whether a dot before this text closes a block: nothing but blanks and tabs up to the end of the
line, a comment or the end of the text. -/
def closesBlock : List Char → Bool
  | [] => true
  | c :: cs =>
    if c == ' ' || c == '\t' then closesBlock cs else c == '\r' || c == '\n' || c == '#'

/-- One token read off the front of a text: its kind, its characters and what is left. -/
structure Lexeme where
  kind : TokenKind
  text : List Char
  rest : List Char

/-- Characters that begin a name. -/
def startsWord (c : Char) : Bool := isAlphabetic c || c == '_'

/-- Characters that continue a name. -/
def continuesWord (c : Char) : Bool := isAlphanumeric c || c == '_'

/-- A name or a reserved word, begun by `c`. -/
def word (c : Char) (cs : List Char) : Lexeme :=
  let text := c :: cs.takeWhile continuesWord
  let name := String.ofList text
  let kind := match Keyword.ofText? name with
    | some k => .keyword k
    | none => .ident name
  ⟨kind, text, cs.dropWhile continuesWord⟩

/-- The fraction of a number: a dot that a digit follows, and the digits. -/
def fraction : List Char → Option (List Char × List Char)
  | '.' :: c :: cs =>
    if c.isDigit then some (c :: cs.takeWhile Char.isDigit, cs.dropWhile Char.isDigit) else none
  | _ => none

/-- A number begun by the digit `c`: digits with an optional fraction. -/
def numeral (c : Char) (cs : List Char) : Lexeme :=
  let whole := c :: cs.takeWhile Char.isDigit
  let rest := cs.dropWhile Char.isDigit
  match fraction rest with
  | some (digits, rest) => ⟨.number (.ofDigits whole digits), whole ++ '.' :: digits, rest⟩
  | none => ⟨.number (.ofDigits whole []), whole, rest⟩

/-- The character that an escape stands for. -/
def unescape (c : Char) : Char := if c == 'n' then '\n' else if c == 't' then '\t' else c

/-- The inside of a string literal. Gives the contents if a quote closes it, the characters read,
the closing quote included, and what is left. -/
def stringBody : List Char → Option (List Char) × List Char × List Char
  | [] => (none, [], [])
  | [c] => if c == '"' then (some [], [c], []) else (none, [c], [])
  | c :: d :: cs =>
    if c == '"' then (some [], [c], d :: cs)
    else if c == '\\' then
      let (contents, text, rest) := stringBody cs
      (contents.map (unescape d :: ·), c :: d :: text, rest)
    else
      let (contents, text, rest) := stringBody (d :: cs)
      (contents.map (c :: ·), c :: text, rest)

/-- A string literal behind its opening quote. -/
def stringLiteral (c : Char) (cs : List Char) : Lexeme :=
  let (contents, text, rest) := stringBody cs
  ⟨(match contents with
    | some contents => .str (String.ofList contents)
    | none => .unterminated), c :: text, rest⟩

/-- A symbol that becomes another one when an equals sign follows. -/
def withEquals (joined single : Symbol) (c : Char) : List Char → Lexeme
  | '=' :: cs => ⟨.symbol joined, [c, '='], cs⟩
  | cs => ⟨.symbol single, [c], cs⟩

/-- The token that a single character makes. -/
def single (c : Char) : TokenKind :=
  match c with
  | '+' => .symbol .plus
  | '-' => .symbol .minus
  | '*' => .symbol .star
  | '/' => .symbol .slash
  | '(' => .symbol .lParen
  | ')' => .symbol .rParen
  | '[' => .symbol .lBracket
  | ']' => .symbol .rBracket
  | '{' => .symbol .lBrace
  | '}' => .symbol .rBrace
  | ',' => .symbol .comma
  | ':' => .symbol .colon
  | c => .invalid c

/-- The token that begins with `c` and goes on in `cs`. -/
def lexeme (c : Char) (cs : List Char) : Lexeme :=
  if startsWord c then word c cs
  else if c.isDigit then numeral c cs
  else if c == '"' then stringLiteral c cs
  else if c == '=' then withEquals .eqEq .assign c cs
  else if c == '!' then withEquals .bangEq .bang c cs
  else if c == '<' then withEquals .ltEq .lt c cs
  else if c == '>' then withEquals .gtEq .gt c cs
  else if c == '.' then ⟨.symbol (if closesBlock cs then .blockDot else .dot), [c], cs⟩
  else ⟨single c, [c], cs⟩

/-- The ways to read a token that begins with `c`. -/
inductive ReadBy (c : Char) : (List Char → Lexeme) → Prop
  | word : startsWord c = true → ReadBy c (word c)
  | numeral : ReadBy c (numeral c)
  | stringLiteral : ReadBy c (stringLiteral c)
  | withEquals (joined single : Symbol) : ReadBy c (withEquals joined single c)
  | dot : c = '.' → ReadBy c fun cs => ⟨.symbol (if closesBlock cs then .blockDot else .dot), [c], cs⟩
  | single : ReadBy c fun cs => ⟨single c, [c], cs⟩

/-- The first character of a token decides how it is read. -/
theorem readBy_lexeme (c : Char) : ReadBy c (lexeme c) := by
  have hread : ∃ read, ReadBy c read ∧ ∀ cs, lexeme c cs = read cs := by
    by_cases hword : startsWord c = true
    · exact ⟨_, .word hword, fun cs => by rw [lexeme, if_pos hword]⟩
    by_cases hdigit : c.isDigit = true
    · exact ⟨_, .numeral, fun cs => by rw [lexeme, if_neg hword, if_pos hdigit]⟩
    by_cases hquote : (c == '"') = true
    · exact ⟨_, .stringLiteral, fun cs => by rw [lexeme, if_neg hword, if_neg hdigit, if_pos hquote]⟩
    simp only [lexeme, if_neg hword, if_neg hdigit, if_neg hquote]
    by_cases heq : (c == '=') = true
    · exact ⟨_, .withEquals _ _, fun cs => if_pos heq⟩
    simp only [if_neg heq]
    by_cases hbang : (c == '!') = true
    · exact ⟨_, .withEquals _ _, fun cs => if_pos hbang⟩
    simp only [if_neg hbang]
    by_cases hlt : (c == '<') = true
    · exact ⟨_, .withEquals _ _, fun cs => if_pos hlt⟩
    simp only [if_neg hlt]
    by_cases hgt : (c == '>') = true
    · exact ⟨_, .withEquals _ _, fun cs => if_pos hgt⟩
    simp only [if_neg hgt]
    by_cases hdot : (c == '.') = true
    · exact ⟨_, .dot (beq_iff_eq.mp hdot), fun cs => if_pos hdot⟩
    · exact ⟨_, .single, fun cs => if_neg hdot⟩
  obtain ⟨read, hread, hlexeme⟩ := hread
  exact funext hlexeme ▸ hread

/-! ## Nothing is lost -/

theorem fraction_append {cs digits rest : List Char} (h : fraction cs = some (digits, rest)) :
    '.' :: digits ++ rest = cs := by
  unfold fraction at h
  split at h
  · split at h
    · simp only [Option.some.injEq, Prod.mk.injEq] at h
      obtain ⟨rfl, rfl⟩ := h
      simp [List.takeWhile_append_dropWhile]
    · simp at h
  · simp at h

theorem stringBody_append (cs : List Char) : (stringBody cs).2.1 ++ (stringBody cs).2.2 = cs := by
  fun_induction stringBody cs <;> simp_all

theorem withEquals_append (joined single : Symbol) (c : Char) (cs : List Char) :
    (withEquals joined single c cs).text ++ (withEquals joined single c cs).rest = c :: cs := by
  unfold withEquals
  split <;> rfl

/-- Reading a token loses nothing. -/
theorem lexeme_append (c : Char) (cs : List Char) :
    (lexeme c cs).text ++ (lexeme c cs).rest = c :: cs := by
  have hread := readBy_lexeme c
  generalize lexeme c = read at hread ⊢
  cases hread with
  | word => simp [word, List.takeWhile_append_dropWhile]
  | numeral =>
    unfold numeral
    simp only
    split
    · next digits rest h =>
      have := fraction_append h
      simp only [List.cons_append, List.append_assoc] at this ⊢
      rw [this, List.takeWhile_append_dropWhile]
    · simp [List.takeWhile_append_dropWhile]
  | stringLiteral => simp [stringLiteral, stringBody_append]
  | withEquals => exact withEquals_append ..
  | dot | single => rfl

/-- A token has at least one character. -/
theorem lexeme_text_ne_nil (c : Char) (cs : List Char) : (lexeme c cs).text ≠ [] := by
  have hread := readBy_lexeme c
  generalize lexeme c = read at hread ⊢
  cases hread with
  | word | stringLiteral | dot | single => exact List.cons_ne_nil _ _
  | numeral =>
    unfold numeral
    simp only
    split <;> exact List.cons_ne_nil _ _
  | withEquals =>
    unfold withEquals
    split <;> exact List.cons_ne_nil _ _

theorem length_rest_le (c : Char) (cs : List Char) : (lexeme c cs).rest.length ≤ cs.length := by
  have h := congrArg List.length (lexeme_append c cs)
  have h' := List.length_pos_iff.2 (lexeme_text_ne_nil c cs)
  simp only [List.length_append, List.length_cons] at h
  omega

theorem length_skipBlanks_le (inComment : Bool) (pos : Nat) (cs : List Char) :
    (skipBlanks inComment pos cs).2.length ≤ cs.length := by
  fun_induction skipBlanks inComment pos cs <;> simp_all <;> omega

/-! ## The whole text -/

/-- The tokens of a text that begins at offset `pos`. -/
def tokensFrom (pos : Nat) (cs : List Char) : List Token :=
  let start := (skipBlanks false pos cs).1
  match _h : (skipBlanks false pos cs).2 with
  | [] => [⟨.endOfFile, .point start⟩]
  | c :: cs' =>
    let l := lexeme c cs'
    let stop := start + byteLength l.text
    ⟨l.kind, .ofOffsets start stop⟩ :: tokensFrom stop l.rest
termination_by cs.length
decreasing_by
  have h₁ := length_skipBlanks_le false pos cs
  have h₂ := length_rest_le c cs'
  simp only [_h, List.length_cons] at h₁
  omega

/-- The tokens of a source text, the end of file last. -/
def tokens (text : String) : List Token := tokensFrom 0 text.toList

end DotScript.Syntax
