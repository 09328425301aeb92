import PatternAlgebra.Matching.Compile
import PatternAlgebra.Proofs.Extension
import PatternAlgebra.Proofs.Reading
import PatternAlgebra.Proofs.Tokens

/-!
# Expressions that span the input

A text that is to span the input is put into a group between two assertions. Whatever it is, if it
can be read by itself it can be read there, as the same expression with the same groups
(`compile_wholeInput`). A text that cannot be read by itself may become readable in this place;
nothing is said about such texts.
-/

namespace PatternAlgebra

open Lowering

/-! ## Reading within other brackets -/

namespace Reading

variable {resolve : Text → Option Nat} {r next : Reading}

/-- A reading with more levels around it. -/
def within (r : Reading) (around : List (Option Nat × Level)) : Reading :=
  { r with outer := r.outer ++ around }

theorem step_within {t : Token} (h : r.step resolve t = .ok next)
    (around : List (Option Nat × Level)) :
    (r.within around).step resolve t = .ok (next.within around) := by
  cases t with
  | one units | assertion anchor | bar =>
    obtain rfl := Except.ok.inj h
    rfl
  | reference name =>
    obtain ⟨index, hindex, rfl⟩ := step_reference_eq_ok.1 h
    exact step_reference_eq_ok.2 ⟨index, hindex, rfl⟩
  | opening grouping =>
    obtain rfl := Except.ok.inj h
    cases grouping <;> rfl
  | closing =>
    obtain ⟨level, outer, opened⟩ := r
    cases outer with
    | nil => contradiction
    | cons bracket outer =>
      obtain rfl := Except.ok.inj h
      rfl
  | quantifier least most =>
    obtain ⟨level, hlevel, rfl⟩ := step_quantifier_eq_ok.1 h
    exact step_quantifier_eq_ok.2 ⟨level, hlevel, rfl⟩

/-- Tokens that can be read take no notice of the levels around them. -/
theorem run_within {ts : List Token} (h : r.run resolve ts = .ok next)
    (around : List (Option Nat × Level)) :
    (r.within around).run resolve ts = .ok (next.within around) := by
  induction ts generalizing r with
  | nil =>
    obtain rfl := Except.ok.inj h
    rfl
  | cons t ts ih =>
    obtain ⟨mid, hstep, hrest⟩ := run_cons_eq_ok.1 h
    exact run_cons_eq_ok.2 ⟨_, step_within hstep around, ih hrest⟩

end Reading

/-! ## Programs -/

namespace Program

/-- A program that has to span the input. -/
def spanning (p : Program) : Program :=
  { p with regex := Regex.sequenceOf [.assertion .inputStart, p.regex, .assertion .inputEnd] }

/-- Tokens that have to span the input. -/
def spanningTokens (ts : List Token) : List Token :=
  Anchor.inputStart.tokens ++ .opening .plain :: (ts ++ .closing :: Anchor.inputEnd.tokens)

/-- What stands around tokens that have to span the input: an assertion on its start, read already. -/
def spanningOuter : List (Option Nat × Level) := [(none, ⟨[], [.assertion .inputStart], true⟩)]

theorem run_spanningTokens (resolve : Text → Option Nat) (ts : List Token) :
    Reading.run resolve {} (spanningTokens ts) =
      (Reading.run resolve (({} : Reading).within spanningOuter) ts).bind
        (·.run resolve (.closing :: Anchor.inputEnd.tokens)) :=
  Reading.run_append resolve _ ts _

/-- What a successful reading of tokens has gone through. -/
theorem ofTokens_eq_ok {ts : List Token} {p : Program} :
    ofTokens ts = .ok p ↔ p.names = numberedNames 0 ts ∧ repeatedName? p.names = none ∧
      ∃ level, Reading.run (p.names.lookup ·) {} ts = .ok ⟨level, [], p.groupCount⟩ ∧
        level.close = p.regex := by
  constructor
  · intro h
    unfold ofTokens at h
    simp only at h
    split at h
    · contradiction
    next hdistinct =>
      split at h
      · contradiction
      next reading hrun =>
        obtain ⟨level, outer, opened⟩ := reading
        cases outer with
        | cons bracket outer => contradiction
        | nil =>
          obtain rfl := Except.ok.inj h
          exact ⟨rfl, hdistinct, level, hrun, rfl⟩
  · obtain ⟨regex, names, groupCount⟩ := p
    rintro ⟨rfl, hdistinct, level, hrun, rfl⟩
    unfold ofTokens
    simp only at hrun hdistinct
    simp only [hrun, hdistinct]
    rfl

theorem numberedNames_append {rest : List Token} (h : ∀ n, numberedNames n rest = [])
    (ts : List Token) (n : Nat) : numberedNames n (ts ++ rest) = numberedNames n ts := by
  fun_induction numberedNames n ts with
  | case1 n => exact h n
  | case2 n name ts ih => exact congrArg ((name, n + 1) :: ·) ih
  | case3 n ts ih => exact ih
  | case4 n t ts hnamed hunnamed ih =>
    rw [List.cons_append, numberedNames]
    · exact ih
    · exact fun name heq => hnamed name heq
    · exact fun heq => hunnamed heq

theorem numberedNames_spanningTokens (ts : List Token) :
    numberedNames 0 (spanningTokens ts) = numberedNames 0 ts :=
  numberedNames_append (fun _ => rfl) ts 0

theorem ofTokens_spanningTokens {ts : List Token} {p : Program} (h : ofTokens ts = .ok p) :
    ofTokens (spanningTokens ts) = .ok p.spanning := by
  obtain ⟨hnames, hdistinct, level, hrun, hclose⟩ := ofTokens_eq_ok.1 h
  refine ofTokens_eq_ok.2 ⟨?_, hdistinct, ?_⟩
  · rw [numberedNames_spanningTokens]
    exact hnames
  · refine ⟨⟨[], [.assertion .inputEnd, level.close, .assertion .inputStart], true⟩, ?_, ?_⟩
    · show Reading.run (p.names.lookup ·) {} (spanningTokens ts) = _
      rw [run_spanningTokens, Reading.run_within hrun spanningOuter]
      rfl
    · rw [hclose]
      rfl

/-! ## Texts -/

theorem tokens_spanning {named : Bool} {t : Text} {ts : List Token} (h : tokens named t = .ok ts) :
    tokens named (Lowering.spanning t) = .ok (spanningTokens ts) := by
  obtain ⟨hstart, hend⟩ := Pattern.lexes_inputAnchors named
  have hbehind : tokens named (closeParen :: inputEndText) =
      .ok (.closing :: Anchor.inputEnd.tokens) := (Lexes.closing.append hend).tokens_eq
  have hbody : tokens named (t ++ closeParen :: inputEndText) =
      .ok (ts ++ .closing :: Anchor.inputEnd.tokens) := by
    rw [tokens_closing h, hbehind]
    rfl
  have hsplit : Lowering.spanning t =
      inputStartText ++ [openParen, questionMark, colon] ++ (t ++ closeParen :: inputEndText) := by
    simp [Lowering.spanning, grouped]
  rw [hsplit, hstart.append .plainOpening, hbody]
  rfl

theorem any_opensNamed_spanningTokens (ts : List Token) :
    (spanningTokens ts).any Token.opensNamed = ts.any Token.opensNamed := by
  have hbehind : (Token.closing :: Anchor.inputEnd.tokens).any Token.opensNamed = false := rfl
  show (ts ++ .closing :: Anchor.inputEnd.tokens).any Token.opensNamed = _
  rw [List.any_append, hbehind, Bool.or_false]

theorem tokenize_spanning {t : Text} {ts : List Token} (h : tokenize t = .ok ts) :
    tokenize (Lowering.spanning t) = .ok (spanningTokens ts) := by
  unfold tokenize at h ⊢
  split at h
  · contradiction
  next found hfound =>
    simp only [tokens_spanning hfound, any_opensNamed_spanningTokens]
    split at h
    next hnamed => rw [if_pos hnamed, tokens_spanning h]
    next hnamed => rw [if_neg hnamed, Except.ok.inj h]

/-- A text that is read as a program is read in the same way where it has to span the input. -/
theorem parse_spanning {t : Text} {p : Program} (h : parse t = .ok p) :
    parse (Lowering.spanning t) = .ok p.spanning := by
  unfold parse at h ⊢
  cases htokens : tokenize t with
  | error e =>
    rw [htokens] at h
    contradiction
  | ok ts =>
    rw [htokens] at h
    rw [tokenize_spanning htokens]
    exact ofTokens_spanningTokens h

end Program

/-- A text compiles if it declares the names it refers to and its engine text can be read. -/
theorem compile_eq_ok {scope : Scope} {source : Text} {p : Program} :
    compile scope source = .ok p ↔
      undeclaredName? source = none ∧ Program.parse (engineText scope source) = .ok p := by
  rw [compile]
  cases undeclaredName? source with
  | some name => simp
  | none =>
    cases Program.parse (engineText scope source) with
    | ok q =>
      show Except.ok q = Except.ok p ↔ _
      simp
    | error cause =>
      show Except.error (CompileError.malformed source cause) = Except.ok p ↔ _
      simp

/-- A text that compiles compiles for the whole input as well. -/
theorem compile_wholeInput {source : Text} {p : Program} (h : compile .anywhere source = .ok p) :
    compile .wholeInput source = .ok p.spanning := by
  obtain ⟨hdeclared, hparse⟩ := compile_eq_ok.1 h
  exact compile_eq_ok.2 ⟨hdeclared, Program.parse_spanning hparse⟩

end PatternAlgebra
