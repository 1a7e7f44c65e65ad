import DotScript.Proofs.Compile.Journal

/-!
# Requests to a builder

A builder may be asked for one thing after the other: constants, instructions, jumps and their slots,
the code of expressions and statements. It goes on after a request that failed, from where that one
left it.

* `Request`, `Request.runAll`: what a builder can be asked for, and what it answers;
* `Request.Accounts`: what the journal of a request looks like.

Main statement: `constants_kept`. After any requests, and at every moment before, an index that was
given for a constant denotes that constant, constants that are no functions are all different, and
words change only where a slot is filled in.
-/

namespace DotScript.Compile

open DotScript.Bytecode DotScript.Syntax

/-- What a builder can be asked for. -/
inductive Request
  | constant (k : Constant)
  | opcode (op : Opcode)
  | instruction (op : Opcode) (operand : Nat)
  | push (index : Nat)
  | pushNull
  | jump (op : Opcode)
  | patch (slot : Nat)
  | loop (start : Nat)
  | expr (e : Expr)
  | stmt (s : Stmt)
  | block (b : Block)

/-- What is answered: the index or address that was asked for, if any, or why the request failed. -/
abbrev Answer := Except CompileError (Option Nat)

namespace Request

def perform : Request → Build (Option Nat)
  | constant k => return some (← addConstant k)
  | opcode op => return some (← emitOp op)
  | instruction op operand => return some (← emitWith op operand)
  | push index => do
    emitConstant index
    return none
  | pushNull => do
    emitNull
    return none
  | jump op => return some (← emitJump op)
  | patch slot => do
    patchJump slot
    return none
  | loop start => do
    emitLoop start
    return none
  | expr e => do
    Compile.expr e
    return none
  | stmt s => do
    Compile.stmt s
    return none
  | block b => do
    Compile.block b
    return none

/-- The answer to a request and the builder it leaves, also if it fails. -/
def run (r : Request) (b : Builder) : Answer × Builder :=
  match r.perform b with
  | .ok a b' => (.ok a, b')
  | .error e b' => (.error e, b')

/-- One request after the other, each on the builder that the one before has left. -/
def runAll : List Request → Builder → List Answer × Builder
  | [], b => ([], b)
  | r :: rs, b =>
    let (answer, b') := r.run b
    let (answers, b'') := runAll rs b'
    (answer :: answers, b'')

/-- The journal of an instruction with an operand, if that fits into a word. -/
def Instruction (op : Opcode) (given? : Nat → Option Nat) (answer : Answer) (es : List Entry) : Prop :=
  (∃ a w, answer = .ok (given? a) ∧ es = [.write a op.encode, .write (a + 1) w]) ∨
    ∃ e, answer = .error e ∧ es = []

/-- The journal of a request, by what was answered. A slot is filled in where it is asked for, and code
fills in the slots that it has reserved itself. -/
def Accounts : Request → Answer → List Entry → Prop
  | constant k, answer, es => ∃ i, answer = .ok (some i) ∧ es = [.constant k i]
  | opcode op, answer, es => ∃ a, answer = .ok (some a) ∧ es = [.write a op.encode]
  | instruction op _, answer, es => Instruction op some answer es
  | push _, answer, es => Instruction .constant (fun _ => none) answer es
  | pushNull, answer, es => ∃ i es', es = .constant .null i :: es' ∧
    Instruction .constant (fun _ => none) answer es'
  | jump op, answer, es => ∃ a, answer = .ok (some (a + 1)) ∧
    es = [.write a op.encode, .reserve (a + 1)]
  | patch slot, answer, es => (∃ w, answer = .ok none ∧ es = [.patch slot w]) ∨
    ∃ e, answer = .error e ∧ es = []
  | loop _, answer, es => ∃ a, (∃ w, answer = .ok none ∧
      es = [.write a Opcode.jump.encode, .write (a + 1) w]) ∨
    ∃ e, answer = .error e ∧ es = [.write a Opcode.jump.encode]
  | expr _, _, es | stmt _, _, es | block _, _, es => Placed [] es

theorem run_of_ok {r : Request} {b b' : Builder} {a : Option Nat} (h : r.perform b = .ok a b') :
    r.run b = (.ok a, b') := by
  rw [run, h]

theorem run_of_error {r : Request} {b b' : Builder} {e : CompileError}
    (h : r.perform b = .error e b') : r.run b = (.error e, b') := by
  rw [run, h]

/-- The builder that a request leaves is that of the code that is built for it. -/
theorem run_snd {r : Request} {x : Build Unit} (hr : r.perform = do x; return none) (b : Builder) :
    (r.run b).2 = left (x b) := by
  rw [run, hr, bind_apply]
  cases x b <;> rfl

theorem run_sealed {r : Request} {x : Build Unit} (hr : r.perform = do x; return none) (hx : Sealed x)
    (b : Builder) : ∃ es, Journal es b.chunk (r.run b).2.chunk ∧ Placed [] es := by
  obtain ⟨es, hjournal, hplaced, -⟩ := hx b
  rw [run_snd hr]
  exact ⟨es, hjournal, hplaced⟩

/-- What one request does. -/
theorem run_accounts (r : Request) (b : Builder) :
    ∃ es, Journal es b.chunk (r.run b).2.chunk ∧ r.Accounts (r.run b).1 es := by
  cases r with
  | constant k =>
    obtain ⟨i, b', hadd, hjournal⟩ := addConstant_journal k b
    rw [run_of_ok (bind_of_ok hadd)]
    exact ⟨_, hjournal, i, rfl, rfl⟩
  | opcode op =>
    obtain ⟨b', hemit, hjournal⟩ := emitOp_journal op b
    rw [run_of_ok (bind_of_ok hemit)]
    exact ⟨_, hjournal, _, rfl, rfl⟩
  | instruction op operand =>
    obtain ⟨w, b', -, hemit, hjournal⟩ | hemit := emitWith_journal op operand b
    · rw [run_of_ok (bind_of_ok hemit)]
      exact ⟨_, hjournal, .inl ⟨_, w, rfl, rfl⟩⟩
    · rw [run_of_error (bind_of_error hemit)]
      exact ⟨[], .nil, .inr ⟨_, rfl, rfl⟩⟩
  | push index =>
    obtain ⟨w, b', hpush, hjournal⟩ | hpush := emitConstant_journal index b
    · rw [run_of_ok (bind_of_ok hpush)]
      exact ⟨_, hjournal, .inl ⟨_, w, rfl, rfl⟩⟩
    · rw [run_of_error (bind_of_error hpush)]
      exact ⟨[], .nil, .inr ⟨_, rfl, rfl⟩⟩
  | pushNull =>
    obtain ⟨i, b₁, hintern, hnull⟩ := intern_journal (k := .null) rfl b
    obtain ⟨w, b', hpush, hjournal⟩ | hpush := emitConstant_journal i b₁
    · rw [run_of_ok (bind_of_ok ((bind_of_ok hintern).trans hpush))]
      exact ⟨_, hnull.append hjournal, i, _, rfl, .inl ⟨_, w, rfl, rfl⟩⟩
    · rw [run_of_error (bind_of_error ((bind_of_ok hintern).trans hpush))]
      exact ⟨_, hnull, i, [], rfl, .inr ⟨_, rfl, rfl⟩⟩
  | jump op =>
    obtain ⟨b', hemit, hjournal⟩ := emitJump_journal op b
    rw [run_of_ok (bind_of_ok hemit)]
    exact ⟨_, hjournal, _, rfl, rfl⟩
  | patch slot =>
    obtain ⟨w, b', hpatch, hjournal⟩ | hpatch := patchJump_journal slot b
    · rw [run_of_ok (bind_of_ok hpatch)]
      exact ⟨_, hjournal, .inl ⟨w, rfl, rfl⟩⟩
    · rw [run_of_error (bind_of_error hpatch)]
      exact ⟨[], .nil, .inr ⟨_, rfl, rfl⟩⟩
  | loop start =>
    obtain ⟨w, b', hloop, hjournal⟩ | ⟨b', hloop, hjournal⟩ := emitLoop_journal start b
    · rw [run_of_ok (bind_of_ok hloop)]
      exact ⟨_, hjournal, _, .inl ⟨w, rfl, rfl⟩⟩
    · rw [run_of_error (bind_of_error hloop)]
      exact ⟨_, hjournal, _, .inr ⟨_, rfl, rfl⟩⟩
  | expr e => exact run_sealed rfl (expr_records e) b
  | stmt s => exact run_sealed rfl (stmt_records s) b
  | block body => exact run_sealed rfl (block_records body) b

end Request

/-- The journals of requests, one for each. -/
inductive Accounts : List Request → List Answer → List (List Entry) → Prop
  | nil : Accounts [] [] []
  | cons {r : Request} {answer : Answer} {es : List Entry} {rs : List Request}
    {answers : List Answer} {ess : List (List Entry)} : r.Accounts answer es →
    Accounts rs answers ess → Accounts (r :: rs) (answer :: answers) (es :: ess)

theorem runAll_accounts (rs : List Request) (b : Builder) :
    ∃ ess, Accounts rs (Request.runAll rs b).1 ess ∧
      Journal ess.flatten b.chunk (Request.runAll rs b).2.chunk := by
  induction rs generalizing b with
  | nil => exact ⟨[], .nil, .nil⟩
  | cons r rs ih =>
    obtain ⟨es, hjournal, haccounts⟩ := r.run_accounts b
    obtain ⟨ess, haccounts', hjournal'⟩ := ih (r.run b).2
    exact ⟨es :: ess, .cons haccounts haccounts', hjournal.append hjournal'⟩

/-! ## Constants -/

/-- Whatever a new builder is asked for, and whether requests succeed or fail midway: at every moment
an index that was given for a constant denotes it, constants that are no functions are all different,
and each function that was asked for has an index of its own. From there to the end constants stay
where they are, and words change only where a slot is filled in. -/
theorem constants_kept (name : String) (rs : List Request) :
    ∃ journals, Accounts rs (Request.runAll rs (.new name)).1 journals ∧
      ∀ before after, journals.flatten = before ++ after →
        ∃ c, Journal before { name } c ∧ SoundPool before c ∧
          Journal after c (Request.runAll rs (.new name)).2.chunk ∧
          Keeps c after (Request.runAll rs (.new name)).2.chunk := by
  obtain ⟨journals, haccounts, hjournal⟩ := runAll_accounts rs (.new name)
  refine ⟨journals, haccounts, fun before after hsplit => ?_⟩
  rw [hsplit] at hjournal
  obtain ⟨c, hbefore, hafter⟩ := hjournal.split
  exact ⟨c, hbefore, hbefore.soundPool, hafter, hafter.keeps⟩

end DotScript.Compile
