import Mathlib.Data.List.Perm.Basic
import DotScript.Proofs.Text.Lines
import DotScript.TestFile.Verdict

/-!
# Verdicts are exact

What is written into a test file is what its run is compared with: `document` writes a program with
the lines it should print and the message it should fail with, and reading it gives these back,
`expectations_document`. So the test passes exactly if the run does that, `passes_iff_meets`.
-/

namespace DotScript.TestFile

open DotScript.Text DotScript.Files

/-! ## Writing test files -/

/-- The line that begins a section: its name between `===`. -/
def header (name : String) : String := "=== " ++ name ++ " ==="

/-- A line begins a section, with or without white space around it. -/
def IsHeader (line : String) : Prop := ∃ name ≠ "", trim line = header name

/-- A test file: the program, the lines it should print, in this order or in any, and the message it
should fail with. -/
def document (source : String) (unordered : Bool) (output : List String) (error? : Option String) :
    String :=
  source ++ joinLines (header (if unordered then "output unordered" else "output") :: output) ++
    match error? with
    | some message => joinLines [header "error"] ++ message
    | none => ""

/-- A text without carriage returns of which no line begins a section. -/
structure Inert (text : String) : Prop where
  carriageReturn : '\r' ∉ text.toList
  noHeader : ∀ l ∈ lines text, ¬ IsHeader l

/-- The text of a program before the first section: its last line is ended. -/
structure IsScript (text : String) : Prop extends Inert text where
  ended : ∃ body, text = body ++ "\n"

/-- A run fails with the message it should fail with, up to white space around it, or does not fail. -/
def EndsAs : Option String → Option String → Prop
  | some expected, some message => trim message = trim expected
  | none, none => True
  | _, _ => False

/-- What a run does is what it should do. -/
def Meets (unordered : Bool) (output : List String) (error? : Option String) (printed : List String)
    (failure : Option String) : Prop :=
  (if unordered then printed.Perm output else printed = output) ∧ EndsAs error? failure

/-! ## Reading test files -/

section
variable {line name : String}

theorem trim_of_sectionName? (h : sectionName? line = some name) :
    name ≠ "" ∧ trim line = header name := by
  simp only [sectionName?] at h
  split at h
  · next hheader =>
    cases h
    simp only [Bool.and_eq_true, List.isPrefixOf_iff_prefix, List.isSuffixOf_iff_suffix,
      decide_eq_true_eq] at hheader
    obtain ⟨⟨⟨rest, hrest⟩, init, hinit⟩, hlength⟩ := hheader
    have hopening : "=== ".toList.length = 4 := rfl
    have hclosing : " ===".toList.length = 4 := rfl
    have hinitLength : init.length + 4 = (trimChars line.toList).length := by
      rw [← hinit, List.length_append, hclosing]
    rcases List.append_eq_append_iff.mp (hrest.trans hinit.symm) with
      ⟨mid, hmid, -⟩ | ⟨between, hbetween, -⟩
    · -- The two ends do not meet, so there is a name between them.
      have hmidLength : mid.length + 8 = (trimChars line.toList).length := by
        rw [← hinitLength, hmid, List.length_append, hopening]
        omega
      have hname :
          ((trimChars line.toList).drop 4).take ((trimChars line.toList).length - 8) = mid := by
        rw [← hmidLength, Nat.add_sub_cancel, ← hinit, hmid, List.append_assoc,
          List.drop_left' hopening, List.take_left]
      rw [hname]
      refine ⟨fun hempty => ?_, ?_⟩
      · rw [String.ofList_eq_empty_iff] at hempty
        rw [hempty, List.length_nil] at hmidLength
        omega
      · rw [← String.toList_inj, trim, ← hinit, hmid]
        simp [header]
    · have hle := congrArg List.length hbetween
      rw [List.length_append, hopening] at hle
      omega
  · cases h

theorem sectionName?_of_trim (hname : name ≠ "") (h : trim line = header name) :
    sectionName? line = some name := by
  have hne : name.toList ≠ [] := by simpa using hname
  have hpos := List.length_pos_of_ne_nil hne
  have hchars : trimChars line.toList = "=== ".toList ++ (name.toList ++ " ===".toList) := by
    rw [← String.toList_inj, trim, String.toList_ofList] at h
    simp [h, header]
  have hlength : (trimChars line.toList).length = name.toList.length + 8 := by
    rw [hchars]
    simp
  have hopens : "=== ".toList <+: trimChars line.toList := ⟨_, hchars.symm⟩
  have hcloses : " ===".toList <:+ trimChars line.toList :=
    ⟨"=== ".toList ++ name.toList, by rw [hchars, List.append_assoc]⟩
  simp only [sectionName?]
  rw [if_pos]
  · rw [hlength, Nat.add_sub_cancel, hchars,
      show (4 : Nat) = "=== ".toList.length from rfl, List.drop_left, List.take_left,
      String.ofList_toList]
  · simp only [Bool.and_eq_true, List.isPrefixOf_iff_prefix, List.isSuffixOf_iff_suffix,
      decide_eq_true_eq]
    exact ⟨⟨hopens, hcloses⟩, by omega⟩

theorem isHeader_iff : IsHeader line ↔ (sectionName? line).isSome := by
  rw [Option.isSome_iff_exists]
  exact exists_congr fun name => ⟨fun h => sectionName?_of_trim h.1 h.2, trim_of_sectionName?⟩

instance : DecidablePred IsHeader := fun _ => decidable_of_iff _ isHeader_iff.symm

theorem sectionName?_eq_none (h : ¬ IsHeader line) : sectionName? line = none := by
  rwa [isHeader_iff, Bool.not_eq_true, Option.isSome_eq_false_iff, Option.isNone_iff_eq_none] at h

end

section
variable {name next : String} {body ls rest : List String}

/-- Lines that begin no section belong to the current one. -/
theorem sectionsFrom_append (h : ∀ l ∈ ls, ¬ IsHeader l) (name : String) (body rest : List String) :
    sectionsFrom name body (ls ++ rest) = sectionsFrom name (ls.reverse ++ body) rest := by
  induction ls generalizing body with
  | nil => rfl
  | cons l ls ih =>
    obtain ⟨hl, hls⟩ := List.forall_mem_cons.mp h
    rw [List.cons_append, sectionsFrom, sectionName?_eq_none hl]
    simp [ih hls]

theorem sectionsFrom_header {line : String} (h : sectionName? line = some next) (name : String)
    (body rest : List String) : sectionsFrom name body (line :: rest) =
      (name, joinLines body.reverse) :: sectionsFrom next [] rest := by
  rw [sectionsFrom, h]

theorem sectionsFrom_last (h : ∀ l ∈ ls, ¬ IsHeader l) (name : String) :
    sectionsFrom name [] ls = [(name, joinLines ls)] := by
  simpa [sectionsFrom] using sectionsFrom_append h name [] []

end

section
variable {source : String} {unordered : Bool} {output : List String} {error? : Option String}

theorem sectionName?_header (unordered : Bool) :
    sectionName? (header (if unordered then "output unordered" else "output")) =
      some (if unordered then "output unordered" else "output") := by
  cases unordered <;> decide

theorem isLine_header (unordered : Bool) :
    IsLine (header (if unordered then "output unordered" else "output")) := by
  cases unordered <;> exact ⟨by decide, by decide⟩

theorem IsScript.joinLines_lines (h : IsScript source) : joinLines (lines source) = source := by
  obtain ⟨body, rfl⟩ := h.ended
  have hbody : '\r' ∉ body.toList := by simpa using h.carriageReturn
  exact Text.joinLines_lines hbody

/-- The lines of a test file. -/
theorem lines_document (hsource : IsScript source)
    (houtput : ∀ l ∈ output, IsLine l) :
    lines (document source unordered output error?) =
      lines source ++ header (if unordered then "output unordered" else "output") :: (output ++
        match error? with
        | some message => header "error" :: lines message
        | none => []) := by
  have hlines : ∀ l ∈ lines source ++ header (if unordered then "output unordered" else "output") ::
      output, IsLine l := by
    intro l hl
    rcases List.mem_append.mp hl with hl | hl
    · exact isLine_of_mem_lines hsource.carriageReturn hl
    · rcases List.mem_cons.mp hl with rfl | hl
      · exact isLine_header unordered
      · exact houtput l hl
  have hdocument : document source unordered output error? =
      joinLines (lines source ++ header (if unordered then "output unordered" else "output") ::
        output) ++ match error? with
          | some message => joinLines [header "error"] ++ message
          | none => "" := by
    rw [joinLines_append, hsource.joinLines_lines]
    rfl
  rw [hdocument, lines_joinLines_append hlines]
  cases error? with
  | none => simp [lines, linesFrom]
  | some message =>
    have herror : ∀ l ∈ [header "error"], IsLine l := by
      intro l hl
      cases List.mem_singleton.mp hl
      exact ⟨by decide, by decide⟩
    simp [lines_joinLines_append herror]

/-- The sections of a test file are what was written into it. -/
theorem sections_document (hsource : IsScript source)
    (houtput : ∀ l ∈ output, IsLine l ∧ ¬ IsHeader l) (herror : ∀ message ∈ error?, Inert message) :
    sections (document source unordered output error?) =
      ("source", source) :: (if unordered then "output unordered" else "output", joinLines output) ::
        match error? with
        | some message => [("error", joinLines (lines message))]
        | none => [] := by
  have hplain : ∀ l ∈ output, ¬ IsHeader l := fun l hl => (houtput l hl).2
  rw [sections, lines_document hsource fun l hl => (houtput l hl).1,
    sectionsFrom_append hsource.noHeader, sectionsFrom_header (sectionName?_header unordered)]
  simp only [List.append_nil, List.reverse_reverse, hsource.joinLines_lines]
  cases error? with
  | none => rw [List.append_nil, sectionsFrom_last hplain]
  | some message =>
    have hmessage := sectionsFrom_last (herror message rfl).noHeader "error"
    have hheader : sectionName? (header "error") = some "error" := by decide
    rw [sectionsFrom_append hplain, sectionsFrom_header hheader, hmessage]
    simp

/-- Reading a test file gives back what was written into it. -/
theorem expectations_document (hsource : IsScript source)
    (houtput : ∀ l ∈ output, IsLine l ∧ ¬ IsHeader l) (herror : ∀ message ∈ error?, Inert message) :
    Expectations.ofText (document source unordered output error?) =
      ⟨source, some (trim (joinLines output)), unordered, error?.map trim⟩ := by
  rw [Expectations.ofText, sections_document hsource houtput herror]
  cases error? with
  | none => cases unordered <;> rfl
  | some message =>
    have htrim : trim (joinLines (lines message)) = trim message := by
      rcases joinLines_lines_cases (herror message rfl).carriageReturn with h | h
      · rw [h]
      · rw [h, trim_concat]
    cases unordered <;> simp [Expectations.store, htrim]

end

/-! ## Verdicts -/

/-- Lines are the same when sorted exactly if they are the same in some order. -/
theorem sortLines_eq_iff {ls ls' : List String} : sortLines ls = sortLines ls' ↔ ls'.Perm ls := by
  have hperm (ls : List String) : (sortLines ls).Perm ls := List.mergeSort_perm _ _
  have hle {a b : String} : (!decide (b.toList < a.toList)) = true ↔ ¬ b.toList < a.toList := by simp
  have hsorted (ls : List String) : (sortLines ls).Pairwise fun a b => ¬ b.toList < a.toList := by
    refine (List.pairwise_mergeSort (fun a b c => ?_) (fun a b => ?_) ls).imp hle.mp
    · rw [hle, hle, hle]
      exact List.le_trans
    · rw [Bool.or_eq_true, hle, hle]
      exact List.le_total a.toList b.toList
  constructor
  · intro h
    exact (hperm ls').symm.trans (h ▸ hperm ls)
  · intro h
    refine List.Perm.eq_of_pairwise (fun a b _ _ hab hba => ?_) (hsorted ls) (hsorted ls') ?_
    · exact String.toList_inj.mp (List.le_antisymm hab hba)
    · exact (hperm ls).trans (h.symm.trans (hperm ls').symm)

section
variable {e : Expectations} {error? : Option String}

theorem compared_eq_iff (e : Expectations) (output : String) (printed : List String) :
    (e.compared output printed).1 = (e.compared output printed).2 ↔
      if e.unordered then printed.Perm (lines output) else printed = lines output := by
  unfold Expectations.compared
  split
  · exact sortLines_eq_iff
  · exact eq_comm

theorem judgeError_isPassed (he : e.error? = error?.map trim) (failure : Option String) :
    (e.judgeError failure).isPassed ↔ EndsAs error? failure := by
  unfold Expectations.judgeError
  rw [he]
  rcases error? with _ | expected <;> rcases failure with _ | message
  · exact iff_of_true rfl trivial
  · exact iff_of_false Bool.false_ne_true id
  · exact iff_of_false Bool.false_ne_true id
  · simp only [Option.map_some, trim_trim, EndsAs]
    split
    · next heq => exact iff_of_true rfl heq.symm
    · next hne => exact iff_of_false Bool.false_ne_true (Ne.symm hne)

theorem judge_isPassed {output : String} (houtput : e.output? = some output)
    (he : e.error? = error?.map trim) (printed : List String) (failure : Option String) :
    (e.judge printed failure).isPassed ↔ Meets e.unordered (lines output) error? printed failure := by
  rw [Meets, ← compared_eq_iff, ← judgeError_isPassed he]
  simp only [Expectations.judge, houtput]
  split
  · next heq => exact (and_iff_right heq).symm
  · next hne => exact iff_of_false Bool.false_ne_true fun h => hne h.1

end

/-- A test file says exactly when its test passes. Its program is run as it was written; the test
passes if and only if the run prints the lines that it should print, in their order or in any, and
fails with the message that it should fail with, or does not fail if there is none. Whatever clock, net
and libraries answer, and in whatever order the spawned calls have printed their lines, this is the
verdict. -/
theorem passes_iff_meets (fuel : Nat) (o : Natives.Outside) (files : FileTree) (path source : String)
    (unordered : Bool) (output : List String) (error? : Option String)
    (hread : files.readText path = .ok (document source unordered output error?))
    (hsource : IsScript source) (houtput : ∀ l ∈ output, IsLine l ∧ ¬ IsHeader l)
    (hframed : Framed output) (herror : ∀ message ∈ error?, Inert message) :
    ∃ verdict : List String → Option String → Verdict,
      runFile fuel files path o =
        (execute fuel files ((Path.parent? path).getD "") ⟨path, source⟩ o).map
          (fun ((printed, failure), files) => (some ⟨path, verdict printed failure⟩, files)) ∧
      ∀ printed failure, (verdict printed failure).isPassed ↔
        Meets unordered output error? printed failure := by
  have hexpectations : Expectations.ofText (document source unordered output error?) = _ :=
    expectations_document hsource houtput herror
  refine ⟨Expectations.judge ⟨source, some (trim (joinLines output)), unordered, error?.map trim⟩,
    ?_, fun printed failure => ?_⟩
  · have hsupport : Expectations.isSupport
        ⟨source, some (trim (joinLines output)), unordered, error?.map trim⟩ = false := rfl
    simp only [runFile, hread, hexpectations, hsupport, Bool.false_eq_true, if_false]
    cases execute fuel files ((Path.parent? path).getD "") ⟨path, source⟩ o <;> rfl
  · rw [judge_isPassed rfl rfl,
      lines_trim_joinLines (fun l hl => (houtput l hl).1) hframed]

theorem readText_of_lookup {files : FileTree} {path text : String}
    (h : files.lookup path = .ok (.file text.toByteArray)) : files.readText path = .ok text := by
  have hvalid : String.fromUTF8? text.toByteArray = some text := dif_pos text.isValidUTF8
  simp only [FileTree.readText, FileTree.readBytes, h]
  change (match String.fromUTF8? text.toByteArray with
    | some text => Except.ok text
    | none => Except.error FileError.notText) = _
  rw [hvalid]

/-- A test of a program that prints two lines and then fails. -/
def printsTwo : String :=
  document "print 2\nprint 1\nprint m\n" true ["1", "2"] (some "undefined variable 'm'\n")

/-- It passes, though the lines are printed in the other order. -/
theorem passes_iff_meets_printsTwo :
    ∃ verdict files', verdict.isPassed ∧
      runFile 40 ⟨⟨[(["two.jhl"], .file printsTwo.toByteArray)]⟩⟩ "two.jhl" =
        some (some ⟨"two.jhl", verdict⟩, files') := by
  let files : FileTree := ⟨⟨[(["two.jhl"], .file printsTwo.toByteArray)]⟩⟩
  let source : Source := ⟨"two.jhl", "print 2\nprint 1\nprint m\n"⟩
  have hnul : "two.jhl".contains '\x00' = false := by rw [String.contains_char_eq]; decide
  have hrelative : Path.isAbsolute "two.jhl" = false := by decide +kernel
  have hparts : Path.split "two.jhl" = ["two.jhl"] := by decide +kernel
  have hread : files.readText "two.jhl" = .ok printsTwo := readText_of_lookup (by
    simp only [FileTree.lookup, FileTree.resolve, hnul, hrelative, hparts]
    rfl)
  have hlines : ∀ l ∈ ["1", "2"], IsLine l ∧ ¬ IsHeader l := by
    intro l hl
    simp only [List.mem_cons, List.not_mem_nil, or_false] at hl
    rcases hl with rfl | rfl <;> exact ⟨⟨by decide, by decide⟩, by decide⟩
  have hframed : Framed ["1", "2"] := by
    constructor <;> rintro l ⟨⟩ <;> exact ⟨_, rfl, by decide⟩
  have herror : ∀ message ∈ some "undefined variable 'm'\n", Inert message := by
    rintro _ ⟨⟩
    exact ⟨by decide, by decide⟩
  obtain ⟨verdict, hrun, hpassed⟩ := passes_iff_meets 40 .own files "two.jhl" source.text true
    ["1", "2"] (some "undefined variable 'm'\n") hread ⟨⟨by decide, by decide⟩, "print 2\nprint 1\nprint m", rfl⟩
    hlines hframed herror
  have hexecute : (execute 40 files ((Path.parent? "two.jhl").getD "") source).map (·.1) =
      some (["2", "1"], some "undefined variable 'm'") := by decide +kernel
  obtain ⟨⟨_, files'⟩, hexecute, rfl⟩ := Option.map_eq_some_iff.mp hexecute
  refine ⟨_, files', (hpassed ["2", "1"] (some "undefined variable 'm'")).mpr ?_, ?_⟩
  · have hmessage : trim "undefined variable 'm'" = trim "undefined variable 'm'\n" := by decide
    exact ⟨by decide, hmessage⟩
  · rw [hrun, hexecute]
    rfl

end DotScript.TestFile
