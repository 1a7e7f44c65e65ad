import DotScript.Proofs.Bytecode.Listings
import DotScript.Proofs.Compile.Shape
import DotScript.Proofs.Correspondence.Natives
import DotScript.Proofs.Correspondence.Units
import DotScript.Proofs.Session.Itself

/-!
# Sessions and listings

A listing decodes code from front to back, a machine along jumps, calls, returns and handlers. In
compiled code both come to the same instructions: every address at which a thread goes on has a line,
and where a jump leads or a handler begins is what its line shows.

* `Linked`: code that is nothing but instructions, each of which leads to others;
* `onLines`: a session corresponds to itself if its threads stand at lines of the compiled code;
* `Evolves.onLines`: whatever comes of a new session does so;
* `JumpsTo`: where a jump leads, or the handler begins that is armed there.

Main statement: `listing_faithful`.
-/

namespace DotScript.Bytecode

/-- There is a line for an address in the listing of a chunk. -/
def Chunk.HasLine (c : Chunk) (a : Nat) : Prop := ∃ item, (a, item) ∈ c.items

end DotScript.Bytecode

namespace DotScript.Machine

open DotScript.Bytecode DotScript.Compile DotScript.Semantics DotScript.Syntax

/-! ## Linked code -/

/-- Code that is nothing but given instructions, which lead to each other. The functions among its
constants begin at such as well. -/
structure Linked (c : Chunk) (is : List Instruction) : Prop where
  reads : Reads c 0 is c.code.size
  first : ∃ j ∈ is, j.address = 0
  falls : ∀ i ∈ is, i.opcode ≠ .jump → i.opcode ≠ .ret → ∃ j ∈ is, j.address = i.next
  jumps : ∀ i ∈ is, i.opcode.isJump → ∃ j ∈ is, i.target = j.address
  takes : ∀ i ∈ is, i.opcode.usesConstant → ∃ k, c.constantAt? i.operand = some k ∧
    (i.opcode ≠ .constant → ∃ s, k = .str s) ∧
      ∀ f, k = .function f → ∃ j ∈ is, j.address = f.entry

/-- What a program compiles to is linked. -/
theorem exists_linked {p : Program} {name : String} {c : Chunk} (h : compile p name = .ok c) :
    ∃ is, Linked c is := by
  have hcode : BodyCode c 0 c.code.size (stmtsDeclared ⟨⟨[], 0⟩, c⟩ 0 p.stmts) p.loops :=
    program_code (compile_layout h)
  obtain ⟨is, hbody, last, hlast, hlastop, hend⟩ := hcode
  have hlt := last.lt_next
  refine ⟨is, hbody.reads, hbody.reads.exists_first (by omega), ?_, ?_, ?_⟩
  · intro i hi _ hret
    exact hbody.exists_next hlast hlastop hend hi hret
  · intro i hi hjump
    obtain ⟨t, ht, ⟨hopen, -⟩ | ⟨⟨j, hj, rfl⟩, -⟩⟩ := hbody.jumps i hi hjump
    · cases hopen
    · exact ⟨j, hj, ht⟩
  · intro i hi hconstant
    obtain ⟨k, hk, hstr, hfunction⟩ := hbody.takes i hi hconstant
    refine ⟨k, hk, hstr, fun f hf => ?_⟩
    obtain ⟨d, hd, rfl⟩ := hfunction f hf
    -- The code of a function stands behind the jump over it.
    obtain ⟨skip, hskip, -, hentry, -⟩ := (hbody.framed d hd).skip
    obtain ⟨-, hregion, hstop⟩ := hbody.within d hd
    rcases hbody.reads.follows hskip with hnext | ⟨j, hj, heq⟩
    · omega
    · exact ⟨j, hj, heq.trans hentry⟩

section
variable {c : Chunk} {is : List Instruction} {i : Instruction}

namespace Linked

theorem items_eq (h : Linked c is) : c.items = is.map fun i => (i.address, i.item) := by
  refine Chunk.items_of_instructions? ?_
  rw [Chunk.instructions?, ← h.reads.instructionsFrom?_eq rfl, List.drop_zero]

theorem hasLine_iff (h : Linked c is) {a : Nat} : c.HasLine a ↔ ∃ j ∈ is, j.address = a := by
  simp only [Chunk.HasLine, h.items_eq, List.mem_map, Prod.mk.injEq]
  constructor
  · rintro ⟨_, j, hj, ha, -⟩
    exact ⟨j, hj, ha⟩
  · rintro ⟨j, hj, ha⟩
    exact ⟨_, j, hj, ha, rfl⟩

/-- Jumps lead to instructions. -/
theorem exists_jumpAt (h : Linked c is) (hi : i ∈ is) (hoperand : i.opcode.hasOperand = true)
    (hjump : i.opcode.isJump = true) :
    ∃ j ∈ is, i.target = j.address ∧ JumpAt c i.address i.opcode j.address := by
  obtain ⟨j, hj, ht⟩ := h.jumps i hi hjump
  have hlt := j.lt_next
  have hbounds := h.reads.bounds hj
  exact ⟨j, hj, ht, .of_at (h.reads.at_of_mem hi) hoperand ht (by omega)⟩

end Linked

end

/-! ## Threads at lines -/

/-- An address of a line, if the code of the unit is compiled. -/
def OnLine (i : Image) (a : Nat) : Prop :=
  (∃ p name, compile p name = .ok i.chunk) → i.chunk.HasLine a

/-- Nothing differs. Threads stand at lines where the code is compiled, and functions begin there. -/
def onLines : Correspondence where
  function f g := f = g ∧ OnLine f.image f.entry
  place i a j b := (i = j ∧ a = b) ∧ OnLine i a
  fresh _ _ := True
  lead _ := 0
  numbers := 0

theorem onLines_lasting : onLines.Lasting where
  functions := {
    name := fun h => congrArg Function.name h.1
    arity := fun h => congrArg Function.arity h.1
    sameCode := by
      rintro f _ f' _ ⟨rfl, -⟩ ⟨rfl, -⟩
      rfl }
  entry := by
    rintro f _ ⟨rfl, hline⟩
    exact ⟨⟨rfl, rfl⟩, hline⟩
  load _ _ c := by
    refine ⟨⟨rfl, rfl⟩, ?_⟩
    rintro ⟨p, name, hc⟩
    obtain ⟨is, hlinked⟩ := exists_linked hc
    exact hlinked.hasLine_iff.mpr hlinked.first
  next := id
  child _ _ := ⟨trivial, rfl⟩

section
variable {i j : Image} {a b : Nat} {is : List Instruction} {ins : Instruction}

/-- The instruction at a line of linked code leads to lines. -/
theorem Linked.meets (h : Linked i.chunk is) (hins : ins ∈ is) :
    Meets onLines i ins.address i ins.address := by
  have hplace {a : Nat} (ha : ∃ j ∈ is, j.address = a) : onLines.place i a i a :=
    ⟨⟨rfl, rfl⟩, fun _ => h.hasLine_iff.mpr ha⟩
  have hat := h.reads.at_of_mem hins
  have hop : OpAt i.chunk ins.address ins.opcode := hat.opcode
  have hfalls := h.falls ins hins
  have htakes := h.takes ins hins
  have hjumps := fun hoperand hjump => h.exists_jumpAt hins hoperand hjump
  have hconst := fun k hoperand => ConstAt.of_at (k := k) hat hoperand
  obtain ⟨a, op, w⟩ := ins
  dsimp only at hop hfalls htakes hjumps hconst ⊢
  cases op with
  | constant =>
    obtain ⟨k, hk, -, hfunction⟩ := htakes rfl
    have hvalue : (constantValue i k).Like onLines.function (constantValue i k) := by
      cases k with
      | null => exact .null
      | bool b => exact .bool b
      | number n => exact .number n
      | str s => exact .str s
      | function f => exact .function ⟨rfl, (hplace (hfunction f rfl)).2⟩
    exact meets_constant (hconst k rfl hk) (hconst k rfl hk) hvalue
      (hplace (hfalls nofun nofun))
  | getGlobal | setGlobal | classDef | method | getProperty | setProperty =>
    obtain ⟨k, hk, hstr, -⟩ := htakes rfl
    obtain ⟨s, rfl⟩ := hstr nofun
    exact meets_name (by trivial) (hconst _ rfl hk) (hconst _ rfl hk) (hplace (hfalls nofun nofun))
  | getLocal | setLocal | call | spawn | buildList | buildMap =>
    exact meets_op hop hop ⟨readIndex_both rfl, hplace (hfalls nofun nofun)⟩
  | jump =>
    obtain ⟨j, hj, -, hjump⟩ := hjumps rfl rfl
    exact meets_jump hjump hjump (hplace ⟨j, hj, rfl⟩)
  | jumpIfFalse | tryEnter =>
    obtain ⟨j, hj, -, hjump⟩ := hjumps rfl rfl
    exact meets_fork (by trivial) hjump hjump (hplace ⟨j, hj, rfl⟩) (hplace (hfalls nofun nofun))
  | ret => exact meets_ret hop hop
  | _ => exact meets_op hop hop (hplace (hfalls nofun nofun))

theorem onLines_meets (h : onLines.place i a j b) : Meets onLines i a j b := by
  obtain ⟨⟨rfl, rfl⟩, hline⟩ := h
  by_cases hcompiled : ∃ p name, compile p name = .ok i.chunk
  · have ⟨p, name, hc⟩ := hcompiled
    obtain ⟨is, hlinked⟩ := exists_linked hc
    obtain ⟨ins, hins, rfl⟩ := hlinked.hasLine_iff.mp (hline hcompiled)
    exact hlinked.meets hins
  · have hany : ∀ b, OnLine i b := fun _ hc => absurd hc hcompiled
    have hsame : SameUnit onLines i i :=
      ⟨rfl, fun b => ⟨⟨rfl, rfl⟩, hany b⟩, fun p => ⟨rfl, hany p.entry⟩⟩
    exact hsame.meets a

end

section
variable {host : Host} {code : Program → Chunk → Prop} {P : Pool} {c : Cell}

/-- All that comes of a new session stands at lines. -/
theorem Evolves.onLines (hhost : host.Respects onLines) (h : Evolves host code P) :
    P.Like onLines P := by
  induction h with
  | initial h => exact h.like rfl fun _ _ => ⟨trivial, rfl⟩
  | next _ hstep ih =>
    exact ih.step onLines_lasting.toSound hhost onLines_meets hstep fun _ _ =>
      onLines_lasting.stays _ _

/-- A thread that runs compiled code goes on at a line of its listing. -/
theorem Evolves.hasLine (hhost : host.Respects Machine.onLines) {p : Program} {name : String}
    (h : Evolves host code P) (hc : c ∈ P.cells) (hrunning : c.activity = .running)
    (hcompiled : compile p name = .ok c.thread.image.chunk) :
    c.thread.image.chunk.HasLine c.thread.ip := by
  have hactivity := (List.forall₂_same.mp (h.onLines hhost).cells c hc).activity
  rw [hrunning] at hactivity
  cases hactivity with
  | running hplace => exact hplace.2 ⟨p, name, hcompiled⟩

end

/-! ## What the lines of jumps show -/

/-- What the machine does at an address with a jump to `a`: it goes on at `a` when the jump is taken, or
arms a handler that begins there. -/
def JumpsTo (c : Chunk) (address : Nat) (op : Opcode) (a : Nat) : Prop :=
  ∀ host (t : Thread) w, t.image.chunk = c → t.ip = address →
    match op with
    | .jump => step host ⟨t, w⟩ = .running ⟨{ t with ip := a }, w⟩
    | .jumpIfFalse => ∀ st v, t.stack = st.push v → step host ⟨t, w⟩ =
        .running ⟨{ t with ip := if v.isFalsey then a else address + 2, stack := st }, w⟩
    | .tryEnter => step host ⟨t, w⟩ = .running
        ⟨{ t with
            ip := address + 2
            handler := some ⟨a, t.image, t.base, t.frames.size, t.stack.size⟩ }, w⟩
    | _ => True

theorem step_of_instruction {host : Host} {s s' : State} (h : instruction host s = .ok none s') :
    step host s = .running s' := by
  simp only [step, h]

theorem jumpsTo_of_jumpAt {c : Chunk} {address a : Nat} {op : Opcode} (h : JumpAt c address op a) :
    JumpsTo c address op a := by
  rintro host t w rfl rfl
  cases op with
  | jump => exact step_of_instruction (instruction_jump host h)
  | jumpIfFalse => exact fun st v hst => step_of_instruction (instruction_jumpIfFalse host h hst)
  | tryEnter => exact step_of_instruction (instruction_tryEnter host h)
  | _ => trivial

/-- The line of a jump shows where the machine goes. -/
theorem Linked.target_shown {c : Chunk} {is : List Instruction} (h : Linked c is) {a : Nat}
    {op : Opcode} {w : Word} (hitem : (a, Item.withOperand op w) ∈ c.items) (hjump : op.isJump = true) :
    ∃ b : Nat, Item.target? a (.withOperand op w) = some (b : Int) ∧ JumpsTo c a op b := by
  rw [h.items_eq] at hitem
  obtain ⟨⟨a, op', w'⟩, hi, heq⟩ := List.mem_map.mp hitem
  cases hoperand : op'.hasOperand with
  | false => simp [Instruction.item, hoperand] at heq
  | true =>
    simp only [Instruction.item, hoperand, if_true, Prod.mk.injEq, Item.withOperand.injEq] at heq
    obtain ⟨rfl, rfl, rfl⟩ := heq
    obtain ⟨j, -, ht, hat⟩ := h.exists_jumpAt hi hoperand hjump
    refine ⟨j.address, ?_, jumpsTo_of_jumpAt hat⟩
    rw [Item.target?, if_pos hjump]
    exact congrArg some ht

/-- A listing can be read. If no name is broken into lines and decoding does not end inside of an
instruction, the listing is a header and one line for each instruction or invalid word, and what the
lines show makes up the code, each at its address. And in compiled code, every address at which a
thread of a session goes on has a line, if natives make up no functions, and the line of a jump shows
where the machine goes when it takes the jump, or where the handler begins that it arms. -/
theorem listing_faithful (c : Chunk) :
    (c.OneLineNames → c.Whole → ∃ shown : List Shown,
      readListing? c.listing = some (c.name, shown) ∧
      shown.flatMap (fun s => s.item.words) = c.code.toList ∧
      ∀ s ∈ shown, s.item.Valid ∧ s.item.words <+: c.code.toList.drop s.address) ∧
    ∀ p name, compile p name = .ok c →
      (∀ host : Host, host.Respects onLines → ∀ P, Evolves host (fun _ _ => True) P →
        ∀ cell ∈ P.cells, cell.activity = .running → cell.thread.image.chunk = c →
          ∃ line ∈ c.listingLines.tail, ∃ s, readLine? line = some s ∧
            s.address = cell.thread.ip) ∧
      ∀ line ∈ c.listingLines.tail, ∃ s, readLine? line = some s ∧
        ∀ op w, s.item = .withOperand op w → op.isJump →
          ∃ a : Nat, s.target? = some (a : Int) ∧ JumpsTo c s.address op a := by
  refine ⟨fun hnames hwhole => ⟨_, readListing?_listing hnames, ?_, ?_⟩,
    fun p name hc => ⟨?_, ?_⟩⟩
  · rw [List.flatMap_map]
    exact hwhole.tiled.flatMap_words
  · simp only [List.forall_mem_map]
    exact fun e he => ⟨hwhole.tiled.valid he, (hwhole.tiled.words_at he).2⟩
  · rintro host hhost P hP cell hcell hrunning rfl
    obtain ⟨item, hitem⟩ := hP.hasLine hhost hcell hrunning hc
    exact ⟨_, List.mem_map_of_mem hitem, _, readLine?_line _ _ _, rfl⟩
  · intro line hline
    obtain ⟨is, hlinked⟩ := exists_linked hc
    obtain ⟨⟨a, item⟩, hitem, rfl⟩ := List.mem_map.mp hline
    refine ⟨_, readLine?_line _ _ _, ?_⟩
    rintro op w rfl hjump
    exact hlinked.target_shown hitem hjump

/-- A loop that is never entered: `while null: .` -/
def loopsNever : Program where
  stmts := [.whileLoop (.null ⟨6, 10⟩) ⟨[], ⟨10, 13⟩⟩ ⟨0, 13⟩]
  span := ⟨0, 13⟩

/-- Its code: the loop, and then null is returned. -/
def loopsNeverCode : Chunk where
  name := "main"
  code := #[1, 0, 14, 2, 15, -6, 1, 0, 0]
  constants := #[.null]

/-- The listing of the loop gives back its code, the session begins at its first line, and the line of
its last jump shows where it leads. -/
theorem listing_faithful_loopsNever :
    compile loopsNever "main" = .ok loopsNeverCode ∧
    (∃ shown : List Shown, readListing? loopsNeverCode.listing = some ("main", shown) ∧
      shown.flatMap (fun s => s.item.words) = [1, 0, 14, 2, 15, -6, 1, 0, 0]) ∧
    (∃ line ∈ loopsNeverCode.listingLines.tail, ∃ s, readLine? line = some s ∧ s.address = 0) ∧
    JumpsTo loopsNeverCode 4 .jump 0 := by
  have hcompiled : compile loopsNever "main" = .ok loopsNeverCode := by rfl
  have hnames : loopsNeverCode.OneLineNames := ⟨by decide, by simp [loopsNeverCode]⟩
  have hwhole : loopsNeverCode.Whole := by
    unfold Chunk.Whole
    decide
  obtain ⟨hread, hruns⟩ := listing_faithful loopsNeverCode
  obtain ⟨shown, hlisting, hwords, -⟩ := hread hnames hwhole
  obtain ⟨hlines, htargets⟩ := hruns loopsNever "main" hcompiled
  have hidle : Evolves (Session.hostWith {} none) (fun _ _ => True)
      ⟨[⟨{}, [], .main none, .idle⟩], {}⟩ := .initial (.mk nofun rfl rfl)
  have hbegun := hidle.next (.begin (p := loopsNever) (c := loopsNeverCode) trivial nofun)
  have hhost : (Session.hostWith {} none).Respects onLines :=
    Natives.respects_of_callForHost onLines_lasting.functions rfl
  refine ⟨hcompiled, ⟨shown, hlisting, hwords⟩,
    hlines _ hhost _ hbegun _ List.mem_cons_self rfl rfl, ?_⟩
  obtain ⟨s, hs, hjump⟩ := htargets "0004  JUMP               -6 -> 0000" (by decide +kernel)
  have hshown : readLine? "0004  JUMP               -6 -> 0000" =
      some ⟨4, .withOperand .jump (-6), some 0⟩ := by decide +kernel
  obtain rfl := Option.some.inj (hs.symm.trans hshown)
  obtain ⟨a, ha, hgoes⟩ := hjump .jump (-6) rfl rfl
  obtain rfl : a = 0 := by simpa using ha.symm
  exact hgoes

end DotScript.Machine
