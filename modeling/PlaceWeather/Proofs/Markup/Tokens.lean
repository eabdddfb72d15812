import PlaceWeather.Markup.Token
import PlaceWeather.Proofs.Markup.Writing

/-!
# The tokens of fillings and texts

A filling gives blanks at most, and an escaped text gives its characters, with its line ends unified.
Each piece is begun and left in text, so pieces can be put together with `Mode.run_append_of`.
-/

namespace PlaceWeather.Markup

/-! ## Letters -/

theorem ne_of_isAlpha {c d : Char} (h : c.isAlpha = true) (hd : d.isAlpha = false) : c ≠ d := by
  rintro rfl
  rw [h] at hd
  cases hd

theorem isSpace_eq_false_of_isAlpha {c : Char} (h : c.isAlpha = true) : isSpace c = false := by
  have hblank := ne_of_isAlpha h (d := ' ') rfl
  have htab := ne_of_isAlpha h (d := '\t') rfl
  have hfeed := ne_of_isAlpha h (d := '\n') rfl
  have hreturn := ne_of_isAlpha h (d := '\r') rfl
  simp [isSpace, hblank, htab, hfeed, hreturn]

theorem isSpace_iff {c : Char} : isSpace c = true ↔ c = ' ' ∨ c = '\t' ∨ c = '\n' ∨ c = '\r' := by
  simp [isSpace, or_assoc]

theorem ne_of_isSpace {c d : Char} (h : isSpace c = true) (hd : isSpace d = false) : c ≠ d := by
  rintro rfl
  rw [h] at hd
  cases hd

/-! ## Characters that tokens stand for -/

/-- The character that a token of text stands for. -/
def Token.char? : Token → Option Char
  | .char c => some c
  | .reference name => Reference.resolve? name
  | _ => none

/-- Some tokens stand for the characters of a text. -/
def Spells (ts : List Token) (cs : List Char) : Prop := ts.map Token.char? = cs.map some

theorem Spells.append {ts us : List Token} {cs ds : List Char} (h : Spells ts cs)
    (hu : Spells us ds) : Spells (ts ++ us) (cs ++ ds) := by
  unfold Spells at *
  rw [List.map_append, List.map_append, h, hu]

/-! ## Fillings -/

namespace Mode

theorem run_append_of {first mid last : Mode} {cs ds : List Char} {ts us : List Token}
    (h : first.run cs = (mid, ts)) (hrest : mid.run ds = (last, us)) :
    first.run (cs ++ ds) = (last, ts ++ us) := by
  rw [run_append, h, hrest]

theorem run_cons_of {first mid last : Mode} {c : Char} {cs : List Char} {ts us : List Token}
    (h : first.step c = (mid, ts)) (hrest : mid.run cs = (last, us)) :
    first.run (c :: cs) = (last, ts ++ us) := by
  rw [run_cons, h, hrest]

theorem run_blank {c : Char} (h : isSpace c = true) (afterReturn : Bool) :
    ∃ last ts blanks, (text afterReturn).run [c] = (text last, ts) ∧ Spells ts blanks ∧
      blanks.all isSpace = true := by
  rcases isSpace_iff.mp h with rfl | rfl | rfl | rfl
  · exact ⟨false, _, [' '], rfl, rfl, rfl⟩
  · exact ⟨false, _, ['\t'], rfl, rfl, rfl⟩
  · -- A line feed behind a carriage return is dropped.
    cases afterReturn with
    | true => exact ⟨false, _, [], rfl, rfl, rfl⟩
    | false => exact ⟨false, _, ['\n'], rfl, rfl, rfl⟩
  · exact ⟨true, _, ['\n'], rfl, rfl, rfl⟩

/-- A comment goes on while its end does not come, also over the hyphens seen last. -/
theorem run_comment {body : List Char} {n : Nat} (hn : n ≤ 2)
    (h : ¬ ['-', '-', '>'] <:+: List.replicate n '-' ++ body) :
    ∃ m, m ≤ 2 ∧ (comment n).run body = (comment m, []) := by
  induction body generalizing n with
  | nil => exact ⟨n, hn, rfl⟩
  | cons c cs ih =>
      -- Of the hyphens before the rest, with `c` or without any, none completes an end.
      have hshort : ∀ k, k ≤ n + 1 → (c = '-' ∨ k = 0) →
          ¬ ['-', '-', '>'] <:+: List.replicate k '-' ++ cs := by
        intro k hk hc hinner
        refine h (hinner.trans (List.IsSuffix.isInfix ?_))
        rcases hc with rfl | rfl
        · refine ⟨List.replicate (n + 1 - k) '-', ?_⟩
          rw [← List.append_assoc, List.replicate_append_replicate, Nat.sub_add_cancel hk,
            List.replicate_succ', List.append_assoc]
          rfl
        · exact ⟨List.replicate n '-' ++ [c], by simp⟩
      by_cases hc : c = '-'
      · obtain ⟨m, hm, hrun⟩ := ih (Nat.min_le_left 2 (n + 1))
          (hshort _ (Nat.min_le_right 2 (n + 1)) (.inl hc))
        have hstep : (comment n).step c = (comment (min 2 (n + 1)), []) := by simp [step, hc]
        exact ⟨m, hm, run_cons_of hstep hrun⟩
      · have hnotEnd : ¬ (c = '>' ∧ n = 2) := by
          rintro ⟨rfl, rfl⟩
          exact h ⟨[], cs, rfl⟩
        obtain ⟨m, hm, hrun⟩ := ih (Nat.zero_le 2) (hshort 0 (Nat.zero_le _) (.inr rfl))
        have hstep : (comment n).step c = (comment 0, []) := by simp [step, hc, hnotEnd]
        exact ⟨m, hm, run_cons_of hstep hrun⟩

theorem run_comment_end {n : Nat} (hn : n ≤ 2) :
    (comment n).run ['-', '-', '>'] = (text false, []) := by
  have hcases : n = 0 ∨ n = 1 ∨ n = 2 := by omega
  rcases hcases with rfl | rfl | rfl <;> rfl

/-- An instruction goes on while its end does not come, also over the question mark seen last. -/
theorem run_instruction {body : List Char} {asked : Bool}
    (h : ¬ ['?', '>'] <:+: (if asked then ['?'] else []) ++ body) :
    ∃ last, (instruction asked).run body = (instruction last, []) := by
  induction body generalizing asked with
  | nil => exact ⟨asked, rfl⟩
  | cons c cs ih =>
      have hnotEnd : ¬ (c = '>' ∧ asked = true) := by
        rintro ⟨rfl, rfl⟩
        exact h ⟨[], cs, rfl⟩
      have hrest : ¬ ['?', '>'] <:+: (if c == '?' then ['?'] else []) ++ cs := by
        intro hinner
        refine h (hinner.trans (List.IsSuffix.isInfix ?_))
        by_cases hc : c = '?'
        · subst hc
          exact ⟨if asked then ['?'] else [], by simp⟩
        · exact ⟨(if asked then ['?'] else []) ++ [c], by simp [hc]⟩
      obtain ⟨last, hrun⟩ := ih hrest
      have hstep : (instruction asked).step c = (instruction (c == '?'), []) := by
        simp only [step, if_neg hnotEnd]
      exact ⟨last, run_cons_of hstep hrun⟩

/-- Behind its beginning an instruction goes up to its end. -/
theorem run_instructionStart {body : List Char} (hstart : body.head? ≠ some '>')
    (h : ¬ ['?', '>'] <:+: body) : instructionStart.run (body ++ ['?', '>']) = (text false, []) := by
  cases body with
  | nil => rfl
  | cons c cs =>
      have hc : c ≠ '>' := by
        rintro rfl
        exact hstart rfl
      have hrest : ¬ ['?', '>'] <:+: (if c == '?' then ['?'] else []) ++ cs := by
        intro hinner
        refine h (hinner.trans (List.IsSuffix.isInfix ?_))
        by_cases hc : c = '?'
        · exact ⟨[], by simp [hc]⟩
        · exact ⟨[c], by simp [hc]⟩
      obtain ⟨last, hrun⟩ := run_instruction hrest
      have hstep : instructionStart.step c = (instruction (c == '?'), []) := by
        simp only [step, if_neg hc]
      have hclose : (instruction last).run ['?', '>'] = (text false, []) := rfl
      exact run_append_of (run_cons_of hstep hrun) hclose

/-- Behind a filling the reader is in text again, and has seen blanks at most. -/
theorem run_filling {fill : List Char} (h : Filling fill) (afterReturn : Bool) :
    ∃ last ts blanks, (text afterReturn).run fill = (text last, ts) ∧ Spells ts blanks ∧
      blanks.all isSpace = true := by
  cases h with
  | blank hc => exact run_blank hc afterReturn
  | comment hbody =>
      have hopen : (text afterReturn).run ['<', '!', '-', '-'] = (comment 0, []) := rfl
      obtain ⟨m, hm, hrun⟩ := run_comment (Nat.zero_le 2) hbody
      exact ⟨false, [], [], run_append_of (run_append_of hopen hrun) (run_comment_end hm), rfl, rfl⟩
  | instruction hstart hbody =>
      have hopen : (text afterReturn).run ['<', '?'] = (instructionStart, []) := rfl
      rw [List.append_assoc]
      exact ⟨false, [], [], run_append_of hopen (run_instructionStart hstart hbody), rfl, rfl⟩

end Mode

/-! ## Texts -/

/-- The characters that are written as references. -/
def specialChars : List Char := ['&', '<', '>', '"', '\'']

theorem ne_lineEnd_of_mem_specialChars :
    ∀ c ∈ specialChars, c ≠ '\r' ∧ c ≠ '\n' ∧ c ≠ nextLine ∧ c ≠ lineSeparator := by
  intro c hc
  simp only [specialChars, List.mem_cons, List.not_mem_nil, or_false] at hc
  rcases hc with rfl | rfl | rfl | rfl | rfl <;> decide

/-- A character is written as itself, or as a reference to it whose name has letters only. -/
theorem escapeChar_cases (c : Char) :
    (Reference.escapeChar c = [c] ∧ c ∉ specialChars) ∨
      ∃ name, Reference.escapeChar c = '&' :: (name ++ [';']) ∧
        Reference.resolve? name = some c ∧ (∀ d ∈ name, d.isAlpha = true) ∧ c ∈ specialChars := by
  by_cases hc : c ∈ specialChars
  · right
    simp only [specialChars, List.mem_cons, List.not_mem_nil, or_false] at hc
    rcases hc with rfl | rfl | rfl | rfl | rfl
    · exact ⟨['a', 'm', 'p'], rfl, rfl, List.all_eq_true.mp rfl, by decide⟩
    · exact ⟨['l', 't'], rfl, rfl, List.all_eq_true.mp rfl, by decide⟩
    · exact ⟨['g', 't'], rfl, rfl, List.all_eq_true.mp rfl, by decide⟩
    · exact ⟨['q', 'u', 'o', 't'], rfl, rfl, List.all_eq_true.mp rfl, by decide⟩
    · exact ⟨['a', 'p', 'o', 's'], rfl, rfl, List.all_eq_true.mp rfl, by decide⟩
  · left
    refine ⟨?_, hc⟩
    simp only [specialChars, List.mem_cons, List.not_mem_nil, or_false, not_or] at hc
    obtain ⟨hand, hless, hgreater, hquote, hprime⟩ := hc
    unfold Reference.escapeChar
    rw [if_neg hand, if_neg hless, if_neg hgreater, if_neg hquote, if_neg hprime]

theorem escape_cons (c : Char) (cs : List Char) :
    Reference.escape (c :: cs) = Reference.escapeChar c ++ Reference.escape cs :=
  List.flatMap_cons

/-- Of the special characters an escaped text has only the one that begins references. -/
theorem not_mem_escape {d : Char} (hd : d ∈ specialChars) (hne : d ≠ '&') (cs : List Char) :
    d ∉ Reference.escape cs := by
  have hsemicolon : d ≠ ';' ∧ d.isAlpha = false := by
    simp only [specialChars, List.mem_cons, List.not_mem_nil, or_false] at hd
    rcases hd with rfl | rfl | rfl | rfl | rfl <;> decide
  induction cs with
  | nil => exact List.not_mem_nil
  | cons c cs ih =>
      rw [escape_cons, List.mem_append, not_or]
      refine ⟨?_, ih⟩
      rcases escapeChar_cases c with ⟨hself, hc⟩ | ⟨name, hname, -, hletters, -⟩
      · rw [hself, List.mem_singleton]
        rintro rfl
        exact hc hd
      · rw [hname]
        simp only [List.mem_cons, List.mem_append, List.not_mem_nil, or_false, not_or]
        refine ⟨hne, fun hmem => ?_, hsemicolon.1⟩
        rw [hletters d hmem] at hsemicolon
        cases hsemicolon.2

/-- A text with its line ends unified, `afterReturn` when a carriage return stands before it. -/
def lineEnds (afterReturn : Bool) : List Char → List Char
  | [] => []
  | c :: cs =>
    if c = '\r' then '\n' :: lineEnds true cs
    else if (c = '\n' ∨ c = nextLine) ∧ afterReturn then lineEnds false cs
    else if c = nextLine ∨ c = lineSeparator then '\n' :: lineEnds false cs
    else c :: lineEnds false cs

/-- Without carriage returns each of the other line ends is one line feed. -/
theorem lineEnds_eq_map {cs : List Char} (h : '\r' ∉ cs) :
    lineEnds false cs = cs.map fun c => if c = nextLine ∨ c = lineSeparator then '\n' else c := by
  induction cs with
  | nil => rfl
  | cons c cs ih =>
      rw [List.mem_cons, not_or] at h
      rw [lineEnds, if_neg (Ne.symm h.1), if_neg (by simp), ih h.2, List.map_cons]
      split <;> rfl

namespace Mode

/-- A character that is no markup gives its token at once. -/
theorem run_textChar {c : Char} (hc : c ∉ specialChars) (afterReturn : Bool) :
    (text afterReturn).run [c] =
      (text (ofTextChar afterReturn c).1, (ofTextChar afterReturn c).2) := by
  have hmark : c ≠ '<' := by
    rintro rfl
    exact hc (by decide)
  have hreference : c ≠ '&' := by
    rintro rfl
    exact hc (by decide)
  have hstep : (text afterReturn).step c =
      (text (ofTextChar afterReturn c).1, (ofTextChar afterReturn c).2) := by
    simp only [step, if_neg hmark, if_neg hreference]
  exact (run_cons_of hstep (run_nil _)).trans (by rw [List.append_nil])

/-- The name of a reference goes on with every letter. -/
theorem run_reference_of_letters {cs : List Char} (h : ∀ d ∈ cs, d.isAlpha = true)
    (seen : List Char) : (reference seen).run cs = (reference (cs.reverse ++ seen), []) := by
  induction cs generalizing seen with
  | nil => rfl
  | cons c cs ih =>
      have hc := h c List.mem_cons_self
      have hend : c ≠ ';' := ne_of_isAlpha hc rfl
      have hbroken : ¬ (c = '<' ∨ c = '&') :=
        not_or.mpr ⟨ne_of_isAlpha hc rfl, ne_of_isAlpha hc rfl⟩
      have hstep : (reference seen).step c = (reference (c :: seen), []) := by
        simp only [step, if_neg hend, if_neg hbroken]
      have hrest := ih (fun d hd => h d (List.mem_cons_of_mem _ hd)) (c :: seen)
      rw [List.reverse_cons, List.append_assoc]
      exact run_cons_of hstep hrest

theorem run_reference {name : List Char} (h : ∀ d ∈ name, d.isAlpha = true)
    (afterReturn : Bool) :
    (text afterReturn).run ('&' :: (name ++ [';'])) = (text false, [.reference name]) := by
  have hopen : (text afterReturn).step '&' = (reference [], []) := rfl
  have hclose : (reference (name.reverse ++ [])).run [';'] = (text false, [.reference name]) := by
    have hstep : (reference (name.reverse ++ [])).step ';' = (text false, [.reference name]) := by
      simp [step]
    exact run_cons_of hstep (run_nil _)
  exact run_cons_of hopen (run_append_of (run_reference_of_letters h []) hclose)

/-- Whether a character stands for itself or as a reference, its tokens spell it before the rest. -/
theorem run_escapeChar (c : Char) (afterReturn : Bool) :
    ∃ last ts, (text afterReturn).run (Reference.escapeChar c) = (text last, ts) ∧
      ∀ cs us, Spells us (lineEnds last cs) →
        Spells (ts ++ us) (lineEnds afterReturn (c :: cs)) := by
  rcases escapeChar_cases c with ⟨hself, hc⟩ | ⟨name, hname, hresolve, hletters, hc⟩
  · rw [hself]
    refine ⟨_, _, run_textChar hc afterReturn, ?_⟩
    intro cs us hus
    have hfeed : Spells [.char '\n'] ['\n'] := rfl
    have hchar : Spells [.char c] [c] := rfl
    unfold ofTextChar at hus ⊢
    rw [lineEnds]
    -- Reading and unifying distinguish the same four cases.
    split
    · rename_i hreturn
      rw [if_pos hreturn] at hus
      exact hfeed.append hus
    split
    · rename_i hreturn hdropped
      rw [if_neg hreturn, if_pos hdropped] at hus
      exact hus
    split
    · rename_i hreturn hdropped hend
      rw [if_neg hreturn, if_neg hdropped, if_pos hend] at hus
      exact hfeed.append hus
    · rename_i hreturn hdropped hend
      rw [if_neg hreturn, if_neg hdropped, if_neg hend] at hus
      exact hchar.append hus
  · rw [hname]
    refine ⟨_, _, run_reference hletters afterReturn, ?_⟩
    intro cs us hus
    have hchar : Spells [.reference name] [c] := by simp [Spells, Token.char?, hresolve]
    -- A reference never stands for a line end.
    have hkept := ne_lineEnd_of_mem_specialChars c hc
    rw [lineEnds, if_neg hkept.1, if_neg (by simp [hkept]), if_neg (by simp [hkept])]
    exact hchar.append hus

/-- An escaped text gives its characters, with its line ends unified. -/
theorem run_escape (cs : List Char) (afterReturn : Bool) :
    ∃ last ts, (text afterReturn).run (Reference.escape cs) = (text last, ts) ∧
      Spells ts (lineEnds afterReturn cs) := by
  induction cs generalizing afterReturn with
  | nil => exact ⟨afterReturn, [], rfl, rfl⟩
  | cons c cs ih =>
      obtain ⟨mid, ts, hfirst, hspells⟩ := run_escapeChar c afterReturn
      obtain ⟨last, us, hrest, hus⟩ := ih mid
      exact ⟨last, ts ++ us, run_append_of hfirst hrest, hspells cs us hus⟩

end Mode

end PlaceWeather.Markup
