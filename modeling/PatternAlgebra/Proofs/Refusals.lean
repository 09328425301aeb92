import PatternAlgebra.Proofs.Spanning

/-!
# Refusals that stay

A text that is refused by itself may be accepted where it has to span the input, as a closing bracket
and more text stand behind it there: the bracket closes what the text closed once too often, and a
class, an escape or the opening of a group goes on into what follows. No other refusal is undone:
neither a name, nor counts, nor a range, nor what a quantifier has to stand behind depends on what
comes after it, and an open bracket stays open (`compile_wholeInput_refused`).
-/

namespace PatternAlgebra

/-- Whether a closing bracket and more text behind an expression can undo its refusal. -/
def SyntaxError.mendable : SyntaxError → Bool
  | danglingBackslash | badGroup | unclosedClass | unmatchedClosing => true
  | badReference | reversedClassRange | reversedCounts | nothingToRepeat | unmatchedOpening
  | duplicateName _ | unknownName _ => false

theorem Except.map_eq_error {ε α β : Type} {x : Except ε α} {f : α → β} {e : ε} :
    x.map f = .error e ↔ x = .error e := by
  cases x <;> simp [Except.map]

/-! ## Tokens -/

/-- A name that cannot be read is not completed by a closing bracket behind the text. -/
theorem NameText.bracketedName?_closing {t : Text} (h : bracketedName? t = none) (more : Text) :
    bracketedName? (t ++ closeParen :: more) = none := by
  cases hread : bracketedName? (t ++ closeParen :: more) with
  | none => rfl
  | some found =>
    obtain ⟨name, rest⟩ := found
    obtain ⟨used, hsplit, hused, hname⟩ := bracketedName?_front hread
    -- What was read ends before the bracket, so it is a front of the text itself.
    obtain ⟨behind, rfl⟩ : ∃ behind, t = used ++ behind := by
      rcases List.append_eq_append_iff.1 hsplit with ⟨after, rfl, hrest⟩ | ⟨behind, ht, -⟩
      · cases after with
        | nil => exact ⟨[], by rw [List.append_nil, List.append_nil]⟩
        | cons u after =>
          obtain rfl := (List.cons.inj hrest).1
          exact absurd (List.mem_append_right _ List.mem_cons_self) hused
      · exact ⟨behind, ht⟩
    rw [hname] at h
    contradiction

/-- An opening is refused for what may stand behind it only. -/
theorem openingToken_error {t : Text} {e : SyntaxError} (h : openingToken t = .error e) : e = .badGroup := by
  unfold openingToken at h
  split at h
  · unfold groupOpening at h
    split at h
    · contradiction
    split at h
    · contradiction
    split at h
    · contradiction
    · split at h
      · contradiction
      · exact (Except.error.inj h).symm
    · exact (Except.error.inj h).symm
  · contradiction

theorem braceToken_refused {t : Text} {e : SyntaxError} (h : braceToken t = .error e) (more : Text) :
    braceToken (t ++ closeParen :: more) = .error e := by
  have hcounts := counts?_closing t more
  unfold braceToken at h ⊢
  split at h
  next least most after hread =>
    rw [hread] at hcounts
    rw [hcounts]
    split at h
    · contradiction
    next horder =>
      simp only [Option.map_some, if_neg horder]
      exact h
  · contradiction

section Texts

variable {named : Bool} {t : Text} {e : SyntaxError} (he : e.mendable = false) (more : Text)

include he

theorem classAtoms_refused (h : classAtoms named t = .error e) :
    classAtoms named (t ++ more) = .error e := by
  fun_induction classAtoms named t with
  | case1 =>
    obtain rfl := Except.error.inj h
    contradiction
  | case2 => contradiction
  | case3 =>
    obtain rfl := Except.error.inj h
    contradiction
  | case4 v after hk =>
    obtain ⟨rfl, rfl⟩ := hk
    exact h
  | case5 v after hk _ ih =>
    rw [List.cons_append, List.cons_append, classAtoms_escape hk, ih (Except.map_eq_error.1 h)]
    rfl
  | case6 u after hclose hescape ih =>
    rw [List.cons_append, classAtoms_unit hclose hescape, ih (Except.map_eq_error.1 h)]
    rfl

theorem classToken_refused (h : classToken named t = .error e) :
    classToken named (t ++ more) = .error e := by
  have hne : t ≠ [] := by
    rintro rfl
    obtain rfl := Except.error.inj h
    contradiction
  unfold classToken at h ⊢
  rw [classHead_append hne]
  split at h
  next e' hatoms =>
    obtain rfl := Except.error.inj h
    simp only [classAtoms_refused he more hatoms]
  next atoms after hatoms =>
    simp only [classAtoms_extend hatoms more]
    rw [Except.map_eq_error.1 h]
    rfl

theorem escapeToken_refused (h : escapeToken named t = .error e) :
    escapeToken named (t ++ closeParen :: more) = .error e := by
  cases t with
  | nil =>
    obtain rfl := Except.error.inj h
    contradiction
  | cons u t =>
    rw [List.cons_append]
    by_cases hk : (named && u == lowerK) = true
    · simp only [escapeToken, if_pos hk] at h ⊢
      split at h
      next after =>
        split at h
        · contradiction
        next hname =>
          rw [List.cons_append]
          simp only [NameText.bracketedName?_closing hname]
          exact h
      next hplain =>
        split
        next after heq =>
          cases t with
          | nil => exact absurd (List.cons.inj heq).1 (by decide)
          | cons v t =>
            obtain rfl := (List.cons.inj heq).1
            exact absurd rfl (hplain t)
        · exact h
    · simp only [escapeToken, if_neg hk] at h
      split at h <;> contradiction

theorem tokenFrom_refused {u : CodeUnit} (h : tokenFrom named u t = .error e) :
    tokenFrom named u (t ++ closeParen :: more) = .error e := by
  unfold tokenFrom at h ⊢
  split at h
  next hu => rw [if_pos hu]; exact escapeToken_refused he more h
  next hescape =>
    rw [if_neg hescape]
    split at h
    next hu =>
      obtain rfl := openingToken_error h
      contradiction
    next hopening =>
      rw [if_neg hopening]
      split at h
      next hu => rw [if_pos hu]; exact classToken_refused he _ h
      next hclass =>
        rw [if_neg hclass]
        split at h
        next hu => rw [if_pos hu]; exact braceToken_refused h more
        · contradiction

/-- A text that cannot be cut into tokens cannot be cut with a closing bracket behind it. -/
theorem tokens_refused (h : tokens named t = .error e) :
    tokens named (t ++ closeParen :: more) = .error e := by
  fun_induction tokens named t with
  | case1 => contradiction
  | case2 u rest e' htoken =>
    obtain rfl := Except.error.inj h
    exact tokens_error (tokenFrom_refused he more htoken)
  | case3 u rest token after htoken _ ih =>
    rw [List.cons_append, tokens_cons (tokenFrom_closing htoken more),
      ih (Except.map_eq_error.1 h)]
    rfl

theorem tokens_spanning_refused (h : tokens named t = .error e) :
    tokens named (Lowering.spanning t) = .error e := by
  obtain ⟨hstart, -⟩ := Pattern.lexes_inputAnchors named
  have hsplit : Lowering.spanning t = Lowering.inputStartText ++ [openParen, questionMark, colon] ++
      (t ++ closeParen :: Lowering.inputEndText) := by
    simp [Lowering.spanning, grouped]
  rw [hsplit, hstart.append .plainOpening, tokens_refused he _ h]
  rfl

theorem tokenize_spanning_refused (h : tokenize t = .error e) :
    tokenize (Lowering.spanning t) = .error e := by
  unfold tokenize at h ⊢
  split at h
  next e' hfound =>
    obtain rfl := Except.error.inj h
    rw [tokens_spanning_refused he hfound]
  next found hfound =>
    simp only [Program.tokens_spanning hfound, Program.any_opensNamed_spanningTokens]
    split at h
    next hnamed => rw [if_pos hnamed, tokens_spanning_refused he h]
    · contradiction

end Texts

/-! ## Expressions -/

namespace Reading

variable {resolve : Text → Option Nat} {r : Reading} {e : SyntaxError}

theorem step_within_error {t : Token} (h : r.step resolve t = .error e)
    (he : e ≠ .unmatchedClosing) (around : List (Option Nat × Level)) :
    (r.within around).step resolve t = .error e := by
  cases t with
  | one | assertion | bar | opening => contradiction
  | reference name =>
    rw [step] at h ⊢
    split at h
    · contradiction
    · exact h
  | closing =>
    obtain ⟨level, outer, opened⟩ := r
    cases outer with
    | nil => exact absurd (Except.error.inj h).symm he
    | cons bracket outer => contradiction
  | quantifier least most =>
    rw [step_quantifier_eq_error] at h ⊢
    exact h

/-- Within other brackets a reading fails where it failed, unless a bracket was closed too often. -/
theorem run_within_error {ts : List Token} (h : r.run resolve ts = .error e)
    (he : e ≠ .unmatchedClosing) (around : List (Option Nat × Level)) :
    (r.within around).run resolve ts = .error e := by
  induction ts generalizing r with
  | nil => contradiction
  | cons t ts ih =>
    rw [run] at h ⊢
    split at h
    next next hstep =>
      rw [step_within hstep around]
      exact ih h
    next e' hstep =>
      obtain rfl := Except.error.inj h
      rw [step_within_error hstep he around]

end Reading

namespace Program

variable {ts : List Token} {e : SyntaxError}

/-- Tokens that cannot be read cannot be read between brackets, unless one was closed too often. -/
theorem ofTokens_spanning_refused (h : ofTokens ts = .error e) (he : e ≠ .unmatchedClosing) :
    ofTokens (spanningTokens ts) = .error e := by
  unfold ofTokens at h ⊢
  simp only [numberedNames_spanningTokens, run_spanningTokens] at h ⊢
  split at h
  · exact h
  · split at h
    next e' hread =>
      obtain rfl := Except.error.inj h
      rw [Reading.run_within_error hread he spanningOuter]
      rfl
    next reading hread =>
      obtain ⟨level, outer, opened⟩ := reading
      cases outer with
      | nil => contradiction
      | cons bracket outer =>
        -- The bracket behind the text closes the innermost open one, and the outermost stays open.
        rw [Reading.run_within hread spanningOuter]
        cases outer <;> exact h

/-- A text that cannot be read as an expression cannot be read where it has to span the input, unless
what stands behind it there can undo the refusal. -/
theorem parse_spanning_refused {t : Text} (h : parse t = .error e) (he : e.mendable = false) :
    parse (Lowering.spanning t) = .error e := by
  unfold parse at h ⊢
  cases htokens : tokenize t with
  | error e' =>
    rw [htokens] at h
    obtain rfl := Except.error.inj h
    rw [tokenize_spanning_refused he htokens]
    rfl
  | ok ts =>
    rw [htokens] at h
    rw [tokenize_spanning htokens]
    refine ofTokens_spanning_refused h ?_
    rintro rfl
    contradiction

end Program

/-- A text that does not compile does not compile for the whole input either, and for the same reason,
unless what stands behind it there can undo the refusal. -/
theorem compile_wholeInput_refused {source : Text} {e : CompileError}
    (h : compile .anywhere source = .error e)
    (he : ∀ cause, e = .malformed source cause → cause.mendable = false) :
    compile .wholeInput source = .error e := by
  unfold compile at h ⊢
  split at h
  · exact h
  · cases hparse : Program.parse (engineText .anywhere source) with
    | ok p =>
      rw [hparse] at h
      contradiction
    | error cause =>
      rw [hparse] at h
      obtain rfl := Except.error.inj h
      show (Program.parse (Lowering.spanning (engineText .anywhere source))).mapError _ = _
      rw [Program.parse_spanning_refused hparse (he cause rfl)]
      rfl

/-- Texts that are refused by themselves only, for a closing bracket, an open class, a backslash at the
end and the opening of a group that ends too soon. -/
example :
    [utf16 "a)(?:b", utf16 "([", utf16 "a)b\\", utf16 "a)(?<![\\s\\S]"].all (fun t =>
      !(compile .anywhere t).toBool && (compile .wholeInput t).toBool) = true := by
  decide +kernel

end PatternAlgebra
