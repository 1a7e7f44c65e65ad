import DotScript.Proofs.Syntax.Equations

/-!
# The grammar as a stack of goals

The parser is also a pushdown automaton: what it still has to read is a stack of goals, and the kind
of the next token decides what becomes of the first one. Between the statements of a program the
stack is empty.

* `Goal.step`: what a token does to a goal; `next`: what it does to a stack;
* `run`: all tokens, one after the other;
* `run_append`: tokens are either read to the last or rejected whatever follows them;
* `accepts_completion`: every stack can be emptied.
-/

namespace DotScript.Syntax.Automaton

open DotScript.Text DotScript.Syntax.Parser

/-- The symbols that end something. None of them goes on with an expression. -/
inductive Closer
  | paren | bracket | brace | colon | dot
  deriving DecidableEq

def Closer.symbol : Closer → Symbol
  | paren => .rParen
  | bracket => .rBracket
  | brace => .rBrace
  | colon => .colon
  | dot => .blockDot

/-- The levels of binary operators. -/
inductive Tier
  | product | sum | compare
  deriving DecidableEq

def Tier.operator : Tier → TokenKind → Option BinaryOp
  | product => productOp
  | sum => sumOp
  | compare => compareOp

/-- What stands between commas. -/
inductive Item
  | expr | entry | name
  deriving DecidableEq

/-- The bodies of statements: up to a dot, the first arm of an `if`, the body of a `try`. -/
inductive Body
  | plain | arm | guarded
  deriving DecidableEq

/-- What is still to be read of something. -/
inductive Goal
  | close (s : Closer)
  | name
  | expr
  /-- An operand with its signs. -/
  | signed
  | primary
  /-- Calls and properties, if there are any. -/
  | postfixes
  /-- Operators of a level with their operands, if there are any. -/
  | chain (t : Tier)
  /-- An equals sign and a value, if there are any. -/
  | assigned
  /-- Items with commas between them, and a symbol. -/
  | items (i : Item) (s : Closer)
  /-- The rest of that behind an item. -/
  | moreItems (i : Item) (s : Closer)
  | stmt
  | function
  /-- The value of a `return`, if there is one. -/
  | result
  /-- Statements and what ends them. -/
  | body (b : Body)
  /-- What ends the first arm of an `if`. -/
  | armEnd
  /-- `catch`, a name and the handler. -/
  | handler
  /-- The methods of a class and the dot behind them. -/
  | methods
  deriving DecidableEq

/-- What becomes of a goal when a token is next. -/
inductive Step
  /-- The token is read; the goals remain. -/
  | shift (goals : List Goal)
  /-- Nothing of the goal is there. -/
  | skip
  | fail (cause : ParseCause)

/-- A step of something that is followed by more. -/
def Step.before (more : List Goal) : Step → Step
  | shift goals => shift (goals ++ more)
  | skip => skip
  | fail cause => fail cause

/-- Why a token is not what was needed. -/
def unexpectedCause (what : String) : TokenKind → ParseCause
  | .invalid c => .invalidChar c
  | .unterminated => .unterminatedString
  | found => .expected what found

/-- The step of a goal that is a token of one kind. -/
def expectStep (kind k : TokenKind) : Step :=
  if k = kind then .shift [] else .fail (unexpectedCause kind.name k)

def nameStep : TokenKind → Step
  | .ident _ => .shift []
  | k => .fail (unexpectedCause "identifier" k)

def primaryStep : TokenKind → Step
  | .ident _ | .number _ | .str _ | .keyword .kwTrue | .keyword .kwFalse | .keyword .kwNull
  | .keyword .kwThis => .shift []
  | .symbol .lParen => .shift [.expr, .close .paren]
  | .symbol .lBracket => .shift [.items .expr .bracket]
  | .symbol .lBrace => .shift [.items .entry .brace]
  | k => .fail (unexpectedCause "expression" k)

def signedStep (k : TokenKind) : Step :=
  match unaryOp k with
  | some _ => .shift [.signed]
  | none => (primaryStep k).before [.postfixes]

def exprStep (k : TokenKind) : Step :=
  (signedStep k).before [.chain .product, .chain .sum, .chain .compare, .assigned]

/-- An operand of the operators of a level. -/
def Tier.operand : Tier → List Goal
  | product => [.signed]
  | sum => [.signed, .chain .product]
  | compare => [.signed, .chain .product, .chain .sum]

def chainStep (t : Tier) (k : TokenKind) : Step :=
  match t.operator k with
  | some _ => .shift (t.operand ++ [.chain t])
  | none => .skip

def postfixStep : TokenKind → Step
  | .symbol .lParen => .shift [.items .expr .paren, .postfixes]
  | .symbol .dot => .shift [.name, .postfixes]
  | _ => .skip

def assignedStep (k : TokenKind) : Step := if k = .symbol .assign then .shift [.expr] else .skip

def Item.goals : Item → List Goal
  | expr => [.expr]
  | entry => [.expr, .close .colon, .expr]
  | name => [.name]

def Item.step : Item → TokenKind → Step
  | expr, k => exprStep k
  | entry, k => (exprStep k).before [.close .colon, .expr]
  | name, k => nameStep k

def itemsStep (i : Item) (s : Closer) (k : TokenKind) : Step :=
  if k = .symbol s.symbol then .shift [] else (i.step k).before [.moreItems i s]

def moreItemsStep (i : Item) (s : Closer) (k : TokenKind) : Step :=
  if k = .symbol .comma then .shift (i.goals ++ [.moreItems i s])
  else expectStep (.symbol s.symbol) k

def functionStep (k : TokenKind) : Step :=
  (expectStep (.keyword .kwFun) k).before [.name, .items .name .colon, .body .plain]

def stmtStep : TokenKind → Step
  | .keyword .kwClass => .shift [.name, .close .colon, .methods]
  | .keyword .kwFun => functionStep (.keyword .kwFun)
  | .keyword .kwPrint | .keyword .kwImport | .keyword .kwSpawn => .shift [.expr]
  | .keyword .kwIf => .shift [.expr, .close .colon, .body .arm]
  | .keyword .kwWhile => .shift [.expr, .close .colon, .body .plain]
  | .keyword .kwReturn => .shift [.result]
  | .keyword .kwTry => .shift [.close .colon, .body .guarded]
  | .keyword .kwFor => .fail (.reserved .kwFor)
  | .keyword .kwIn => .fail (.reserved .kwIn)
  | k => exprStep k

def resultStep (k : TokenKind) : Step := if Parser.endsReturn k then .skip else exprStep k

def armEndStep (k : TokenKind) : Step :=
  if k = .keyword .kwElse then .shift [.close .colon, .body .plain]
  else expectStep (.symbol .blockDot) k

def handlerStep (k : TokenKind) : Step :=
  (expectStep (.keyword .kwCatch) k).before [.name, .close .colon, .body .plain]

/-- Where the statements of a body end. -/
def Body.stops : Body → TokenKind → Bool
  | plain, k => Parser.isBlockDot k
  | arm, k => k == .keyword .kwElse || Parser.isBlockDot k
  | guarded, k => k == .keyword .kwCatch

/-- What ends a body. -/
def Body.ending : Body → Goal
  | plain => .close .dot
  | arm => .armEnd
  | guarded => .handler

def Body.endingStep : Body → TokenKind → Step
  | plain => expectStep (.symbol .blockDot)
  | arm => armEndStep
  | guarded => handlerStep

def bodyStep (b : Body) (k : TokenKind) : Step :=
  if k == .endOfFile || b.stops k then b.endingStep k else (stmtStep k).before [.body b]

def methodsStep (k : TokenKind) : Step :=
  if k == .symbol .blockDot || k == .endOfFile then expectStep (.symbol .blockDot) k
  else if k = .keyword .kwFun then (functionStep k).before [.methods]
  else .fail (unexpectedCause "'fun' in class body" k)

/-- What becomes of a goal when a token of some kind is next. -/
def Goal.step : Goal → TokenKind → Step
  | close s => expectStep (.symbol s.symbol)
  | name => nameStep
  | expr => exprStep
  | signed => signedStep
  | primary => primaryStep
  | postfixes => postfixStep
  | chain t => chainStep t
  | assigned => assignedStep
  | items i s => itemsStep i s
  | moreItems i s => moreItemsStep i s
  | stmt => stmtStep
  | function => functionStep
  | result => resultStep
  | body b => bodyStep b
  | armEnd => armEndStep
  | handler => handlerStep
  | methods => methodsStep

/-- What becomes of a stack of goals when a token is next. -/
inductive Next
  /-- The token is read; the goals remain. -/
  | go (goals : List Goal)
  /-- The program ends before the token. -/
  | accept
  | reject (cause : ParseCause)

/-- A statement when the stack is empty, and otherwise the first goal of which something is there. -/
def next : List Goal → TokenKind → Next
  | [], k =>
    if k = .endOfFile then .accept
    else match stmtStep k with
      | .shift goals => .go goals
      | .skip => .accept
      | .fail cause => .reject cause
  | g :: gs, k =>
    match g.step k with
    | .shift goals => .go (goals ++ gs)
    | .skip => next gs k
    | .fail cause => .reject cause

/-- Read tokens with goals, the end of file last. -/
def run (eof : Span) : List Goal → List Token → Except ParseError Unit
  | gs, [] =>
    match next gs .endOfFile with
    | .reject cause => .error ⟨cause, eof⟩
    | _ => .ok ()
  | gs, t :: ts =>
    match next gs t.kind with
    | .go gs => run eof gs ts
    | .accept => .ok ()
    | .reject cause => .error ⟨cause, t.span⟩

/-! ## What comes later does not matter -/

/-- Whether a text that ends here might go on. -/
def awaits : ParseCause → Bool
  | .expected _ .endOfFile => true
  | _ => false

theorem isIncomplete_eq (e : ParseError) : e.isIncomplete = awaits e.cause := by
  unfold ParseError.isIncomplete awaits
  rfl

/-- What a step fails with at a token says whether that is the end of file. -/
def Step.Fitting (k : TokenKind) : Step → Prop
  | shift _ => k ≠ .endOfFile
  | skip => True
  | fail cause => awaits cause = (k == .endOfFile)

theorem Step.Fitting.before {k : TokenKind} {s : Step} (h : s.Fitting k) (more : List Goal) :
    (s.before more).Fitting k := by
  cases s <;> exact h

theorem awaits_unexpectedCause (what : String) (k : TokenKind) :
    awaits (unexpectedCause what k) = (k == .endOfFile) := by
  cases k <;> rfl

theorem fitting_expectStep {kind : TokenKind} (h : kind ≠ .endOfFile) (k : TokenKind) :
    (expectStep kind k).Fitting k := by
  unfold expectStep
  split
  · next hk => exact hk ▸ h
  · exact awaits_unexpectedCause ..

theorem fitting_nameStep (k : TokenKind) : (nameStep k).Fitting k := by
  cases k <;> first | exact TokenKind.noConfusion | rfl

theorem fitting_exprStep (k : TokenKind) :
    (primaryStep k).Fitting k ∧ (signedStep k).Fitting k ∧ (exprStep k).Fitting k := by
  have hprimary : (primaryStep k).Fitting k := by
    unfold primaryStep
    split <;> first | exact TokenKind.noConfusion | exact awaits_unexpectedCause ..
  have hsigned : (signedStep k).Fitting k := by
    unfold signedStep
    split
    · next op hop =>
      rintro rfl
      cases hop
    · exact hprimary.before _
  exact ⟨hprimary, hsigned, hsigned.before _⟩

theorem fitting_itemStep (i : Item) (k : TokenKind) : (i.step k).Fitting k := by
  cases i with
  | expr => exact (fitting_exprStep k).2.2
  | entry => exact (fitting_exprStep k).2.2.before _
  | name => exact fitting_nameStep k

theorem fitting_functionStep (k : TokenKind) : (functionStep k).Fitting k :=
  (fitting_expectStep (by decide) k).before _

theorem fitting_stmtStep (k : TokenKind) : (stmtStep k).Fitting k := by
  unfold stmtStep
  split
  case h_2 => exact fitting_functionStep _
  all_goals first | exact TokenKind.noConfusion | rfl | exact (fitting_exprStep _).2.2

theorem fitting_endingStep (b : Body) (k : TokenKind) : (b.endingStep k).Fitting k := by
  cases b with
  | plain => exact fitting_expectStep (by decide) k
  | arm =>
    show (armEndStep k).Fitting k
    unfold armEndStep
    split
    · next h =>
      rintro rfl
      exact TokenKind.noConfusion h
    · exact fitting_expectStep (by decide) k
  | guarded => exact (fitting_expectStep (by decide) k).before _

/-- No goal reads the end of file, and it fails there as one that waits for more, but nowhere
else. -/
theorem Goal.fitting (g : Goal) (k : TokenKind) : (g.step k).Fitting k := by
  cases g with
  | close s => exact fitting_expectStep TokenKind.noConfusion k
  | name => exact fitting_nameStep k
  | expr => exact (fitting_exprStep k).2.2
  | signed => exact (fitting_exprStep k).2.1
  | primary => exact (fitting_exprStep k).1
  | postfixes =>
    show (postfixStep k).Fitting k
    unfold postfixStep
    split <;> first | exact TokenKind.noConfusion | exact trivial
  | chain t =>
    show (chainStep t k).Fitting k
    unfold chainStep
    split
    · next op hop =>
      rintro rfl
      cases t <;> cases hop
    · exact trivial
  | assigned =>
    show (assignedStep k).Fitting k
    unfold assignedStep
    split
    · next h => exact h ▸ TokenKind.noConfusion
    · exact trivial
  | items i s =>
    show (itemsStep i s k).Fitting k
    unfold itemsStep
    split
    · next h => exact h ▸ TokenKind.noConfusion
    · exact (fitting_itemStep i k).before _
  | moreItems i s =>
    show (moreItemsStep i s k).Fitting k
    unfold moreItemsStep
    split
    · next h => exact h ▸ TokenKind.noConfusion
    · exact fitting_expectStep TokenKind.noConfusion k
  | stmt => exact fitting_stmtStep k
  | function => exact fitting_functionStep k
  | result =>
    show (resultStep k).Fitting k
    unfold resultStep
    split
    · exact trivial
    · exact (fitting_exprStep k).2.2
  | body b =>
    show (bodyStep b k).Fitting k
    unfold bodyStep
    split
    · exact fitting_endingStep b k
    · exact (fitting_stmtStep k).before _
  | armEnd => exact fitting_endingStep .arm k
  | handler => exact fitting_endingStep .guarded k
  | methods =>
    show (methodsStep k).Fitting k
    unfold methodsStep
    split
    · exact fitting_expectStep (by decide) k
    split
    · exact (fitting_functionStep k).before _
    · exact awaits_unexpectedCause ..

theorem Step.before_ne_skip {s : Step} (h : s ≠ .skip) (more : List Goal) :
    s.before more ≠ .skip := by
  cases s with
  | skip => exact absurd rfl h
  | _ => exact Step.noConfusion

theorem expectStep_ne_skip (kind k : TokenKind) : expectStep kind k ≠ .skip := by
  unfold expectStep
  split <;> exact Step.noConfusion

theorem primaryStep_ne_skip (k : TokenKind) : primaryStep k ≠ .skip := by
  unfold primaryStep
  split <;> exact Step.noConfusion

theorem signedStep_ne_skip (k : TokenKind) : signedStep k ≠ .skip := by
  unfold signedStep
  split
  · exact Step.noConfusion
  · exact Step.before_ne_skip (primaryStep_ne_skip k) _

theorem exprStep_ne_skip (k : TokenKind) : exprStep k ≠ .skip :=
  Step.before_ne_skip (signedStep_ne_skip k) _

theorem functionStep_ne_skip (k : TokenKind) : functionStep k ≠ .skip :=
  Step.before_ne_skip (expectStep_ne_skip _ k) _

/-- There is no empty statement. -/
theorem stmtStep_ne_skip (k : TokenKind) : stmtStep k ≠ .skip := by
  unfold stmtStep
  split
  case h_2 => exact functionStep_ne_skip _
  all_goals first | exact Step.noConfusion | exact exprStep_ne_skip _

/-- At the end of file a stack accepts or waits for more; at another token it goes on or fails for
good. -/
theorem next_fitting (gs : List Goal) (k : TokenKind) :
    match next gs k with
    | .go _ => k ≠ .endOfFile
    | .accept => k = .endOfFile
    | .reject cause => awaits cause = (k == .endOfFile) := by
  induction gs with
  | nil =>
    unfold next
    by_cases hk : k = .endOfFile
    · rw [if_pos hk]
      exact hk
    · rw [if_neg hk]
      have hstep := fitting_stmtStep k
      cases h : stmtStep k with
      | shift => exact hk
      | skip => exact absurd h (stmtStep_ne_skip k)
      | fail cause =>
        rw [h] at hstep
        exact hstep
  | cons g gs ih =>
    unfold next
    have hstep := g.fitting k
    cases h : g.step k with
    | shift =>
      rw [h] at hstep
      exact hstep
    | skip => exact ih
    | fail cause =>
      rw [h] at hstep
      exact hstep

/-- Tokens are all read, whatever follows them, or rejected whatever follows them. -/
theorem run_append {ts : List Token} (hts : ∀ t ∈ ts, t.kind ≠ .endOfFile) (gs : List Goal) :
    (∃ hs, ∀ eof more, run eof gs (ts ++ more) = run eof hs more) ∨
      ∃ e, e.isIncomplete = false ∧ ∀ eof more, run eof gs (ts ++ more) = .error e := by
  induction ts generalizing gs with
  | nil => exact .inl ⟨gs, fun _ _ => rfl⟩
  | cons t ts ih =>
    have hfit := next_fitting gs t.kind
    have ht := hts t List.mem_cons_self
    simp only [List.cons_append, run]
    cases h : next gs t.kind with
    | go hs => exact ih (fun t' ht' => hts t' (List.mem_cons_of_mem _ ht')) hs
    | accept =>
      rw [h] at hfit
      exact absurd hfit ht
    | reject cause =>
      rw [h] at hfit
      refine .inr ⟨⟨cause, t.span⟩, ?_, fun _ _ => rfl⟩
      rw [isIncomplete_eq]
      exact hfit.trans (beq_eq_false_iff_ne.2 ht)

/-- At the end of file a stack that is not accepted waits for more. -/
theorem isIncomplete_of_run_nil {eof : Span} {gs : List Goal} {e : ParseError}
    (h : run eof gs [] = .error e) : e.isIncomplete = true := by
  have hfit := next_fitting gs .endOfFile
  unfold run at h
  cases hnext : next gs .endOfFile with
  | go | accept =>
    rw [hnext] at h
    cases h
  | reject cause =>
    rw [hnext] at h hfit
    obtain rfl := Except.error.inj h
    rw [isIncomplete_eq]
    exact hfit

/-! ## What has been begun can be completed -/

/-- Tokens that complete a goal. -/
def Goal.completion : Goal → List TokenKind
  | close s | items _ s | moreItems _ s => [.symbol s.symbol]
  | name => [.ident "x"]
  | expr | signed | primary | stmt | result => [.number .zero]
  | postfixes | chain _ | assigned => []
  | function => [.keyword .kwFun, .ident "x", .symbol .colon, .symbol .blockDot]
  | body .plain | body .arm | armEnd | methods => [.symbol .blockDot]
  | body .guarded | handler => [.keyword .kwCatch, .ident "x", .symbol .colon, .symbol .blockDot]

/-- Tokens that empty a stack. -/
def completion (gs : List Goal) : List TokenKind := gs.flatMap Goal.completion

/-- Whether goals read kinds of tokens to the last. -/
def accepts : List Goal → List TokenKind → Bool
  | gs, [] =>
    match next gs .endOfFile with
    | .reject _ => false
    | _ => true
  | gs, k :: ks =>
    match next gs k with
    | .go gs => accepts gs ks
    | .accept => true
    | .reject _ => false

theorem run_of_accepts {gs : List Goal} {ts : List Token} (h : accepts gs (ts.map Token.kind) = true)
    (eof : Span) : run eof gs ts = .ok () := by
  induction ts generalizing gs with
  | nil =>
    simp only [List.map_nil, accepts] at h
    simp only [run]
    cases hnext : next gs .endOfFile with
    | go | accept => rfl
    | reject => simp [hnext] at h
  | cons t ts ih =>
    simp only [List.map_cons, accepts] at h
    simp only [run]
    cases hnext : next gs t.kind with
    | go hs =>
      rw [hnext] at h
      exact ih h
    | accept => rfl
    | reject => simp [hnext] at h

/-- Goals of which nothing need be there. -/
def Goal.optional : Goal → Bool
  | postfixes | chain _ | assigned => true
  | _ => false

theorem step_of_optional {g : Goal} (hg : g.optional = true) {k : TokenKind}
    (hk : joinLevel k = none) : g.step k = .skip := by
  have hop : ∀ l, operatorAt l k = none := fun l =>
    operatorAt_of_joinLevel_ne (by rw [hk]; exact (Option.some_ne_none l).symm)
  cases g with
  | postfixes =>
    show postfixStep k = .skip
    unfold postfixStep
    split
    · cases hk
    · cases hk
    · rfl
  | chain t =>
    show chainStep t k = .skip
    unfold chainStep
    cases t with
    | product => rw [show Tier.product.operator k = none from hop 3]
    | sum => rw [show Tier.sum.operator k = none from hop 2]
    | compare => rw [show Tier.compare.operator k = none from hop 1]
  | assigned =>
    refine if_neg ?_
    rintro rfl
    cases hk
  | _ => exact absurd hg Bool.false_ne_true

theorem accepts_optional {hs : List Goal} (hopt : ∀ g ∈ hs, g.optional = true) {ks : List TokenKind}
    (hks : joinLevel (ks.headD .endOfFile) = none) (gs : List Goal) :
    accepts (hs ++ gs) ks = accepts gs ks := by
  have hnext : next (hs ++ gs) (ks.headD .endOfFile) = next gs (ks.headD .endOfFile) := by
    induction hs with
    | nil => rfl
    | cons g hs ih =>
      rw [List.cons_append, next, step_of_optional (hopt g List.mem_cons_self) hks]
      exact ih fun g' hg' => hopt g' (List.mem_cons_of_mem _ hg')
  cases ks with
  | nil =>
    rw [List.headD_nil] at hnext
    simp only [accepts, hnext]
  | cons k ks =>
    rw [List.headD_cons] at hnext
    simp only [accepts, hnext]

/-- The completion of a goal is read up to what follows, if that does not go on with it. -/
theorem accepts_goal_completion (g : Goal) {ks : List TokenKind}
    (hks : joinLevel (ks.headD .endOfFile) = none) (gs : List Goal) :
    accepts (g :: gs) (g.completion ++ ks) = accepts gs ks := by
  have hopt : ∀ hs : List Goal, hs.all Goal.optional = true →
      accepts (hs ++ gs) ks = accepts gs ks := fun hs h =>
    accepts_optional (List.all_eq_true.1 h) hks gs
  cases g with
  | postfixes => exact hopt [.postfixes] rfl
  | chain t => exact hopt [.chain t] rfl
  | assigned => exact hopt [.assigned] rfl
  | primary => rfl
  | signed => exact hopt [.postfixes] rfl
  | expr | stmt | result =>
    exact hopt [.postfixes, .chain .product, .chain .sum, .chain .compare, .assigned] rfl
  | close s | items _ s | moreItems _ s => cases s <;> rfl
  | body b => cases b <;> rfl
  | name | function | armEnd | handler | methods => rfl

/-- The tokens of which completions are made. -/
def fillers : List TokenKind :=
  [.number .zero, .ident "x", .keyword .kwFun, .keyword .kwCatch, .symbol .rParen, .symbol .rBracket,
    .symbol .rBrace, .symbol .colon, .symbol .blockDot]

theorem mem_fillers {gs : List Goal} {k : TokenKind} (h : k ∈ completion gs) : k ∈ fillers := by
  have hcloser : ∀ s : Closer, .symbol s.symbol ∈ fillers := by
    intro s
    cases s <;> decide
  obtain ⟨g, -, hk⟩ := List.mem_flatMap.1 h
  suffices hsub : g.completion ⊆ fillers from hsub hk
  cases g with
  | close s | items _ s | moreItems _ s => exact List.cons_subset.2 ⟨hcloser s, List.nil_subset _⟩
  | body b => cases b <;> decide
  | chain t => exact List.nil_subset _
  | _ => decide

theorem joinLevel_of_mem_fillers {k : TokenKind} (h : k ∈ fillers) : joinLevel k = none :=
  (show ∀ k ∈ fillers, joinLevel k = none by decide) k h

/-- Every stack can be emptied. -/
theorem accepts_completion (gs : List Goal) : accepts gs (completion gs) = true := by
  induction gs with
  | nil => rfl
  | cons g gs ih =>
    rw [completion, List.flatMap_cons, accepts_goal_completion, ← completion, ih]
    rw [← completion]
    cases h : completion gs with
    | nil => rfl
    | cons k ks =>
      have hmem : k ∈ completion gs := h ▸ List.mem_cons_self
      exact joinLevel_of_mem_fillers (mem_fillers hmem)

end DotScript.Syntax.Automaton
