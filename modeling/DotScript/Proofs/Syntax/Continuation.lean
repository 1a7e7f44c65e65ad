import DotScript.CommandLine.Prompt
import DotScript.Proofs.Syntax.Recognition
import DotScript.Proofs.Syntax.Spelling

/-!
# Texts that can be continued

The prompt asks for another line exactly when the lines so far are no program but the beginning of
one: `isIncomplete_iff`. A text that fails otherwise fails in the same way with any lines behind it.
An open string literal is set apart: its failure is not taken for an incomplete text.
-/

namespace DotScript.Syntax

open DotScript.Text

/-- The last token of a text is a string literal that nothing closes. -/
def EndsInString (text : String) : Prop :=
  (tokens text).dropLast.getLast?.map Token.kind = some .unterminated

instance (text : String) : Decidable (EndsInString text) :=
  inferInstanceAs (Decidable (_ = _))

/-- What the message of an incomplete text ends with. -/
def foundEnd : List Char := "found end of file".toList

/-- Whether a text ends in such a way that none that ends with it ends with `foundEnd`. -/
def endsOtherwise (s : String) : Bool := !foundEnd.isSuffixOf s.toList && !s.toList.isSuffixOf foundEnd

theorem not_suffix_of_endsOtherwise {s t : String} (h : endsOtherwise t = true) :
    ¬ foundEnd <:+ (s ++ t).toList := by
  simp only [endsOtherwise, Bool.and_eq_true, Bool.not_eq_true', ← Bool.not_eq_true,
    List.isSuffixOf_iff_suffix] at h
  rw [String.toList_append]
  intro hsuffix
  rcases List.suffix_or_suffix_of_suffix hsuffix (List.suffix_append s.toList t.toList) with h' | h'
  · exact h.1 h'
  · exact h.2 h'

theorem endsOtherwise_name {k : TokenKind} (h : k ≠ .endOfFile) :
    endsOtherwise (", found " ++ k.name) = true := by
  have hnames : ∀ name ∈ ["identifier", "number", "string", "invalid character",
      "unterminated string"], endsOtherwise (", found " ++ name) = true := by decide +kernel
  cases k with
  | ident | number | str | invalid | unterminated => exact hnames _ (by simp [TokenKind.name])
  | keyword k => cases k <;> decide +kernel
  | symbol s => cases s <;> decide +kernel
  | endOfFile => exact absurd rfl h

theorem isIncomplete_iff_of_endsOtherwise {e : ParseError} (s t : String)
    (hfalse : e.isIncomplete = false) (hmessage : e.message = s ++ t)
    (ht : endsOtherwise t = true) : e.isIncomplete = true ↔ foundEnd <:+ e.message.toList := by
  rw [hfalse, hmessage]
  exact ⟨fun h => absurd h Bool.false_ne_true, fun h => absurd h (not_suffix_of_endsOtherwise ht)⟩

/-- The failures of incomplete texts are those whose message says that the end of file was found. -/
theorem isIncomplete_iff_message (e : ParseError) :
    e.isIncomplete = true ↔ foundEnd <:+ e.message.toList := by
  obtain ⟨cause, span⟩ := e
  cases cause with
  | expected what found =>
    by_cases hfound : found = .endOfFile
    · have hend : ", found " ++ found.name = ", " ++ "found end of file" := by
        rw [hfound]
        decide +kernel
      have hmessage : (ParseError.mk (.expected what found) span).message =
          "expected " ++ what ++ ", " ++ "found end of file" :=
        calc "expected " ++ what ++ ", found " ++ found.name
            = "expected " ++ what ++ (", found " ++ found.name) := String.append_assoc ..
          _ = "expected " ++ what ++ (", " ++ "found end of file") := congrArg _ hend
          _ = "expected " ++ what ++ ", " ++ "found end of file" := (String.append_assoc ..).symm
      rw [hmessage, String.toList_append]
      refine ⟨fun _ => List.suffix_append _ _, fun _ => ?_⟩
      rw [hfound]
      rfl
    · have hfalse : ParseError.isIncomplete ⟨.expected what found, span⟩ = false := by
        cases found <;> first | rfl | exact absurd rfl hfound
      exact isIncomplete_iff_of_endsOtherwise ("expected " ++ what) (", found " ++ found.name)
        hfalse (String.append_assoc ..) (endsOtherwise_name hfound)
  | invalidChar c =>
    exact isIncomplete_iff_of_endsOtherwise ("unexpected character '" ++ c.toString) "'" rfl rfl
      (by decide +kernel)
  | reserved k =>
    exact isIncomplete_iff_of_endsOtherwise ("'" ++ k.text) "' is reserved" rfl rfl
      (by decide +kernel)
  | unterminatedString =>
    exact isIncomplete_iff_of_endsOtherwise "" "unterminated string" rfl String.empty_append.symm
      (by decide +kernel)
  | exhausted =>
    exact isIncomplete_iff_of_endsOtherwise "" "nesting too deep" rfl String.empty_append.symm
      (by decide +kernel)

end DotScript.Syntax

namespace DotScript.CommandLine

open DotScript.Text DotScript.Syntax DotScript.Syntax.Automaton

section
variable {text : String} {ts : List Token} {eof : Span} (h : tokens text = ts ++ [⟨.endOfFile, eof⟩])
include h

theorem map_parse_eq_run : (parse text).map (fun _ => ()) = Automaton.run eof [] ts := by
  rw [parse_eq_run, h, ofTokens_append, runAt]

theorem exists_parse_eq_ok (hrun : Automaton.run eof [] ts = .ok ()) : ∃ p, parse text = .ok p := by
  have hmap := map_parse_eq_run h
  cases hparse : parse text with
  | ok p => exact ⟨p, rfl⟩
  | error e =>
    rw [hparse, hrun] at hmap
    cases hmap

theorem parse_eq_error_iff {e : ParseError} : parse text = .error e ↔ Automaton.run eof [] ts = .error e := by
  rw [← map_parse_eq_run h]
  cases parse text with
  | ok p => exact ⟨nofun, nofun⟩
  | error e' => exact ⟨fun he => congrArg _ (Except.error.inj he),
      fun he => congrArg _ (Except.error.inj he)⟩

end

/-- The tokens of a text that goes on behind a line break. -/
theorem tokens_continued {s : String} {ts : List Token} {eof : Span}
    (h : tokens s = ts ++ [⟨.endOfFile, eof⟩]) (hclosed : ∀ t ∈ ts, t.kind ≠ .unterminated)
    (t : String) :
    ∃ pos, tokens (s ++ "\n" ++ t) = ts ++ tokensFrom pos t.toList := by
  have hclosed' : ∀ t ∈ tokensFrom 0 s.toList, t.kind ≠ .unterminated := by
    intro u hu
    rw [show tokensFrom 0 s.toList = _ from h] at hu
    rcases List.mem_append.1 hu with hu | hu
    · exact hclosed u hu
    · obtain rfl := List.mem_singleton.1 hu
      exact TokenKind.noConfusion
  have hline : Layout false ['\n'] := .blank (by decide) .nil
  refine ⟨0 + byteLength s.toList + byteLength ['\n'], ?_⟩
  have happend := tokensFrom_append t.toList hclosed'
  have hbehind : tokensFrom (0 + byteLength s.toList) (['\n'] ++ t.toList) = _ :=
    tokensFrom_layout hline nofun _
  rw [show tokensFrom 0 s.toList = _ from h, List.dropLast_concat,
    show '\n' :: t.toList = ['\n'] ++ t.toList from rfl, hbehind] at happend
  rw [← happend, tokens, String.toList_append, String.toList_append, List.append_assoc]
  rfl

/-- The tokens that complete goals can be written down. -/
theorem exists_tokens_completion (gs : List Goal) (pos : Nat) :
    ∃ us eof, tokensFrom pos (spelled (completion gs)).toList = us ++ [⟨.endOfFile, eof⟩] ∧
      us.map Token.kind = completion gs := by
  obtain ⟨us, eof, hus, -, -⟩ := exists_tokensFrom pos (spelledChars (completion gs))
  rw [spelled, String.toList_ofList]
  refine ⟨us, eof, hus, ?_⟩
  have hlexable : ∀ k ∈ fillers, k.lexable = true := by decide
  have hdot : (completion gs).getLast? ≠ some (.symbol .dot) := fun hlast =>
    absurd (mem_fillers (List.mem_of_getLast? hlast)) (by decide)
  have hkinds := map_kind_tokensFrom_spelled (fun k hk => hlexable k (mem_fillers hk)) hdot pos
  rw [hus, List.map_append] at hkinds
  exact List.append_cancel_right hkinds

theorem exists_error_of_isIncomplete {s : String} (h : isIncomplete s = true) :
    ∃ e, parse s = .error e := by
  unfold isIncomplete at h
  cases hparse : parse s with
  | ok p =>
    rw [hparse] at h
    exact absurd h Bool.false_ne_true
  | error e => exact ⟨e, rfl⟩

/-- A text is incomplete if and only if it is no program and with something behind it is one. A text
that is neither a program nor incomplete fails with the same message at the same place whatever
comes behind it. -/
theorem isIncomplete_iff (s : String) (hs : ¬ EndsInString s) :
    (isIncomplete s = true ↔
      (∃ e, parse s = .error e) ∧ ∃ t p, parse (s ++ "\n" ++ t) = .ok p) ∧
    ∀ e, parse s = .error e → isIncomplete s = false →
      ∀ t, parse (s ++ "\n" ++ t) = .error e := by
  obtain ⟨ts, eof, htokens, hoccurs, hopen⟩ := exists_tokensFrom 0 s.toList
  have hts : ∀ t ∈ ts, t.kind ≠ .endOfFile := fun t ht => (hoccurs t ht).ne_endOfFile
  have hclosed := hopen (by rwa [EndsInString, tokens, htokens, List.dropLast_concat] at hs)
  rcases run_append hts [] with ⟨gs, hgs⟩ | ⟨e, he, hrun⟩
  · -- All tokens of the text are read, and what completes the goals left is a continuation.
    have hend : ∀ e, parse s = .error e → isIncomplete s = true := by
      intro e he
      have hrun := (parse_eq_error_iff htokens).1 he
      rw [← List.append_nil ts, hgs] at hrun
      rw [isIncomplete, he]
      exact isIncomplete_of_run_nil hrun
    have hcompletion : ∃ t p, parse (s ++ "\n" ++ t) = .ok p := by
      obtain ⟨pos, hcontinued⟩ := tokens_continued htokens hclosed (spelled (completion gs))
      obtain ⟨us, eof', hus, hkinds⟩ := exists_tokens_completion gs pos
      rw [hus, ← List.append_assoc] at hcontinued
      refine ⟨spelled (completion gs), exists_parse_eq_ok hcontinued ?_⟩
      rw [hgs]
      apply run_of_accepts
      rw [hkinds]
      exact accepts_completion gs
    refine ⟨⟨fun h => ⟨exists_error_of_isIncomplete h, hcompletion⟩, ?_⟩, ?_⟩
    · rintro ⟨⟨e, he⟩, -⟩
      exact hend e he
    · intro e he hfalse
      exact absurd ((hend e he).symm.trans hfalse) (by decide)
  · -- The text is rejected before its end, and then what follows does not matter.
    have hparse : parse s = .error e := by
      rw [parse_eq_error_iff htokens, ← List.append_nil ts]
      exact hrun eof []
    have hcontinued : ∀ t, parse (s ++ "\n" ++ t) = .error e := by
      intro t
      obtain ⟨pos, htokens'⟩ := tokens_continued htokens hclosed t
      obtain ⟨us, eof', hus, -, -⟩ := exists_tokensFrom pos t.toList
      rw [hus, ← List.append_assoc] at htokens'
      rw [parse_eq_error_iff htokens']
      exact hrun eof' us
    have hcomplete : isIncomplete s = false := by
      rw [isIncomplete, hparse]
      exact he
    refine ⟨⟨fun h => absurd (h.symm.trans hcomplete) (by decide), ?_⟩, ?_⟩
    · rintro ⟨-, t, p, hp⟩
      rw [hcontinued t] at hp
      cases hp
    · intro e' he' _
      obtain rfl := Except.error.inj (hparse.symm.trans he')
      exact hcontinued

/-- A call with an argument missing can be continued. -/
theorem isIncomplete_iff_openCall :
    isIncomplete "f(1," = true ∧ ∃ t p, parse ("f(1," ++ "\n" ++ t) = .ok p := by
  have hincomplete : isIncomplete "f(1," = true := by decide +kernel
  exact ⟨hincomplete, ((isIncomplete_iff "f(1," (by decide +kernel)).1.1 hincomplete).2⟩

end DotScript.CommandLine
