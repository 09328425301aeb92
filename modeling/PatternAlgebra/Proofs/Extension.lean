import PatternAlgebra.Proofs.Braces

/-!
# Texts with more text behind them

What has been read from the front of a text is read in the same way if more text stands behind it.
That needs the reading to have succeeded: an unfinished class, escape or name is completed by what
follows. A number and a brace are the exceptions, as they end where their digits end. So the text
that is to follow a whole expression begins with a closing bracket here (`tokens_closing`).
-/

namespace PatternAlgebra

/-! ## Names -/

namespace NameText

/-- What has been read is the front of the text. It holds no closing bracket and is read in the same
way whatever follows it. -/
def ReadsFront {α : Type} (read? : Text → Option (α × Text)) (t : Text) (a : α) (rest : Text) :
    Prop :=
  ∃ used, t = used ++ rest ∧ closeParen ∉ used ∧ ∀ more, read? (used ++ more) = some (a, more)

theorem closeParen_not_mem {digits : Text} {n : Nat} (h : hexNumber? digits = some n) :
    closeParen ∉ digits := by
  have hfold : ∀ (digits : Text) (start n : Nat),
      digits.foldlM (fun n u => (hexDigit? u).map (16 * n + ·)) start = some n →
        closeParen ∉ digits := by
    intro digits
    induction digits with
    | nil => exact fun _ _ _ => List.not_mem_nil
    | cons u digits ih =>
      intro start n h
      rw [List.foldlM_cons] at h
      obtain ⟨next, hnext, hrest⟩ := Option.bind_eq_some_iff.1 h
      obtain ⟨d, hd, -⟩ := Option.map_eq_some_iff.1 hnext
      have hu : closeParen ≠ u := by
        rintro rfl
        contradiction
      exact List.not_mem_cons_of_ne_of_not_mem hu (ih next n hrest)
  cases digits with
  | nil => contradiction
  | cons u digits => exact hfold _ _ _ h

theorem bracedChar?_front {t rest : Text} {c : Char} (h : bracedChar? t = some (c, rest)) :
    ReadsFront bracedChar? t c rest := by
  unfold bracedChar? at h
  split at h
  · contradiction
  next close after hdrop =>
    obtain ⟨d, hchar, hpair⟩ := Option.map_eq_some_iff.1 h
    obtain ⟨rfl, rfl⟩ := Prod.mk.inj hpair
    obtain ⟨n, hn, -⟩ := Option.bind_eq_some_iff.1 hchar
    obtain rfl : close = closeBrace := by
      have hhead := List.head?_dropWhile_not (· != closeBrace) t
      rw [hdrop] at hhead
      simpa using hhead
    have hinside : ∀ u ∈ t.takeWhile (· != closeBrace), (u != closeBrace) = true :=
      List.all_eq_true.1 List.all_takeWhile
    refine ⟨t.takeWhile (· != closeBrace) ++ [closeBrace], ?_, ?_, fun more => ?_⟩
    · rw [List.append_assoc, List.singleton_append, ← hdrop, List.takeWhile_append_dropWhile]
    · rw [List.mem_append, not_or]
      exact ⟨closeParen_not_mem hn, by decide⟩
    · unfold bracedChar?
      rw [List.append_assoc, List.dropWhile_append_of_pos hinside,
        List.takeWhile_append_of_pos hinside]
      show ((hexNumber? (t.takeWhile (· != closeBrace) ++ [])).bind charAt?).map _ = _
      rw [List.append_nil, hchar]
      rfl

theorem escapedUnit?_eq_some {t rest : Text} {u : CodeUnit} (h : escapedUnit? t = some (u, rest)) :
    ∃ a b c d, t = backslash :: lowerU :: a :: b :: c :: d :: rest ∧
      (hexNumber? [a, b, c, d]).map (·.toUInt16) = some u := by
  unfold escapedUnit? at h
  split at h
  next a b c d after =>
    obtain ⟨n, hn, hpair⟩ := Option.map_eq_some_iff.1 h
    obtain ⟨rfl, rfl⟩ := Prod.mk.inj hpair
    exact ⟨a, b, c, d, rfl, by rw [hn]; rfl⟩
  · contradiction

theorem escapedUnit?_front {t rest : Text} {u : CodeUnit} (h : escapedUnit? t = some (u, rest)) :
    ReadsFront escapedUnit? t u rest := by
  obtain ⟨a, b, c, d, rfl, hunit⟩ := escapedUnit?_eq_some h
  obtain ⟨n, hn, rfl⟩ := Option.map_eq_some_iff.1 hunit
  refine ⟨[backslash, lowerU, a, b, c, d], rfl, ?_, fun more => ?_⟩
  · have hescape : closeParen ∉ [backslash, lowerU] := by decide
    have hdigits := closeParen_not_mem hn
    exact fun hmem => (List.mem_append (s := [backslash, lowerU]).1 hmem).elim hescape hdigits
  · show (hexNumber? [a, b, c, d]).map (fun n => (n.toUInt16, more)) = _
    rw [hn]
    rfl

theorem plainUnit?_front {t rest : Text} {u : CodeUnit} (h : plainUnit? t = some (u, rest))
    (hu : u ≠ closeParen) : ReadsFront plainUnit? t u rest := by
  cases t with
  | nil => contradiction
  | cons v t =>
    obtain ⟨rfl, rfl⟩ := Prod.mk.inj (Option.some.inj h)
    exact ⟨[v], rfl, fun hmem => hu (List.mem_singleton.1 hmem).symm, fun _ => rfl⟩

theorem charFrom?_front {next? : Text → Option (CodeUnit × Text)}
    (hnext : ∀ {t rest : Text} {u : CodeUnit}, next? t = some (u, rest) → u ≠ closeParen →
      ReadsFront next? t u rest)
    {t rest : Text} {c : Char} (h : charFrom? next? t = some (c, rest)) (hc : c ≠ ')') :
    ReadsFront (charFrom? next?) t c rest := by
  unfold charFrom? at h
  split at h
  · contradiction
  next u after hu =>
    by_cases hhigh : Text.isHighSurrogate u = true
    · rw [if_pos hhigh] at h
      split at h
      · contradiction
      next low behind hlow =>
        split at h
        next hpaired =>
          obtain ⟨rfl, rfl⟩ := Prod.mk.inj (Option.some.inj h)
          obtain ⟨first, rfl, hfirst, hread⟩ := hnext hu (by rintro rfl; contradiction)
          obtain ⟨second, rfl, hsecond, hread'⟩ := hnext hlow (by rintro rfl; contradiction)
          refine ⟨first ++ second, by rw [List.append_assoc], ?_, fun more => ?_⟩
          · exact fun hmem => (List.mem_append.1 hmem).elim hfirst hsecond
          · rw [List.append_assoc]
            simp only [charFrom?, hread, hread', if_pos hhigh, if_pos hpaired]
        · contradiction
    · rw [if_neg hhigh] at h
      split at h
      · contradiction
      next hlow =>
        obtain ⟨rfl, rfl⟩ := Prod.mk.inj (Option.some.inj h)
        obtain ⟨used, rfl, hused, hread⟩ := hnext hu (by rintro rfl; exact hc rfl)
        refine ⟨used, rfl, hused, fun more => ?_⟩
        simp only [charFrom?, hread, if_neg hhigh, if_neg hlow]

theorem nameChar?_front {t rest : Text} {c : Char} (h : nameChar? t = some (c, rest))
    (hc : c ≠ ')') : ReadsFront nameChar? t c rest := by
  unfold nameChar? at h
  split at h
  next after =>
    obtain ⟨used, rfl, hused, hread⟩ := bracedChar?_front h
    refine ⟨backslash :: lowerU :: openBrace :: used, rfl, ?_, hread⟩
    have hescape : closeParen ∉ [backslash, lowerU, openBrace] := by decide
    exact fun hmem =>
      (List.mem_append (s := [backslash, lowerU, openBrace]).1 hmem).elim hescape hused
  next after hbrace =>
    obtain ⟨used, hsplit, hused, hread⟩ := charFrom?_front (fun h _ => escapedUnit?_front h) h hc
    refine ⟨used, hsplit, hused, fun more => ?_⟩
    -- An escape without a brace is complete, so its third unit stays where it is.
    obtain ⟨u, behind, hunit⟩ : ∃ u behind, escapedUnit? used = some (u, behind) := by
      have hnil := hread []
      rw [List.append_nil] at hnil
      cases hunit : escapedUnit? used with
      | none => simp [charFrom?, hunit] at hnil
      | some r => exact ⟨r.1, r.2, rfl⟩
    obtain ⟨a, b, c', d, rfl, -⟩ := escapedUnit?_eq_some hunit
    have hfirst : a ≠ openBrace := by
      rintro rfl
      exact hbrace _ (List.cons.inj hsplit).2
    unfold nameChar?
    split
    next heq => exact absurd (List.cons.inj (List.cons.inj (List.cons.inj heq).2).2).1 hfirst
    · exact hread more
    next hne => exact absurd rfl (hne _)
  next hescaped hplain =>
    obtain ⟨used, hsplit, hused, hread⟩ := charFrom?_front plainUnit?_front h hc
    refine ⟨used, hsplit, hused, fun more => ?_⟩
    cases used with
    | nil => cases hread []
    | cons u used =>
      have hu : u ≠ backslash := by
        rintro rfl
        exact hplain _ hsplit
      unfold nameChar?
      split
      next heq => exact absurd (List.cons.inj heq).1 hu
      next heq => exact absurd (List.cons.inj heq).1 hu
      · exact hread more

theorem nameTail?_front {t name rest : Text} (h : nameTail? t = some (name, rest)) :
    ReadsFront nameTail? t name rest := by
  induction t using nameTail?.induct generalizing name with
  | case1 t hn =>
    rw [nameTail?] at h
    split at h
    · contradiction
    next h' => exact absurd (hn.symm.trans h') (by simp)
  | case2 t after hc _ =>
    rw [nameTail?_close hc] at h
    obtain ⟨rfl, rfl⟩ := Prod.mk.inj (Option.some.inj h)
    obtain ⟨used, hsplit, hused, hread⟩ := nameChar?_front hc (by decide)
    exact ⟨used, hsplit, hused, fun more => nameTail?_close (hread more)⟩
  | case3 t c after hc _ hclose hcontinue ih =>
    rw [nameTail?_char hc hclose hcontinue] at h
    obtain ⟨⟨tail, behind⟩, htail, hpair⟩ := Option.map_eq_some_iff.1 h
    obtain ⟨rfl, rfl⟩ := Prod.mk.inj hpair
    obtain ⟨first, rfl, hfirst, hread⟩ := nameChar?_front hc (by rintro rfl; contradiction)
    obtain ⟨second, rfl, hsecond, hread'⟩ := ih htail
    refine ⟨first ++ second, by rw [List.append_assoc], ?_, fun more => ?_⟩
    · exact fun hmem => (List.mem_append.1 hmem).elim hfirst hsecond
    · rw [List.append_assoc, nameTail?_char (hread _) hclose hcontinue, hread']
      rfl
  | case4 t c after hc _ hclose hcontinue =>
    rw [nameTail?] at h
    split at h
    · contradiction
    next h' =>
      obtain ⟨rfl, rfl⟩ := Prod.mk.inj (Option.some.inj (hc.symm.trans h'))
      rw [if_neg hclose, if_neg hcontinue] at h
      contradiction

theorem bracketedName?_front {t name rest : Text} (h : bracketedName? t = some (name, rest)) :
    ReadsFront bracketedName? t name rest := by
  unfold bracketedName? at h
  split at h
  · contradiction
  next c after hc =>
    split at h
    next hbegin =>
      obtain ⟨⟨tail, behind⟩, htail, hpair⟩ := Option.map_eq_some_iff.1 h
      obtain ⟨rfl, rfl⟩ := Prod.mk.inj hpair
      obtain ⟨first, rfl, hfirst, hread⟩ := nameChar?_front hc (by rintro rfl; contradiction)
      obtain ⟨second, rfl, hsecond, hread'⟩ := nameTail?_front htail
      refine ⟨first ++ second, by rw [List.append_assoc], ?_, fun more => ?_⟩
      · exact fun hmem => (List.mem_append.1 hmem).elim hfirst hsecond
      · rw [List.append_assoc, bracketedName?, hread]
        simp only [if_pos hbegin, hread']
        rfl
    · contradiction

theorem bracketedName?_extend {t name rest : Text} (h : bracketedName? t = some (name, rest))
    (more : Text) : bracketedName? (t ++ more) = some (name, rest ++ more) := by
  obtain ⟨used, rfl, -, hread⟩ := bracketedName?_front h
  rw [List.append_assoc, hread]

end NameText

/-! ## Classes -/

theorem map_consAtom_extend {x y : Except SyntaxError (List ClassAtom × Text)} {a : ClassAtom}
    {atoms : List ClassAtom} {rest more : Text}
    (hxy : ∀ others, x = .ok (others, rest) → y = .ok (others, rest ++ more))
    (hx : x.map (consAtom a) = .ok (atoms, rest)) :
    y.map (consAtom a) = .ok (atoms, rest ++ more) := by
  obtain ⟨others, rfl⟩ := rest_of_map_consAtom hx
  obtain ⟨rfl, -⟩ := Prod.mk.inj (Except.ok.inj hx)
  rw [hxy others rfl]
  rfl

theorem classAtoms_extend {named : Bool} {t rest : Text} {atoms : List ClassAtom}
    (h : classAtoms named t = .ok (atoms, rest)) (more : Text) :
    classAtoms named (t ++ more) = .ok (atoms, rest ++ more) := by
  fun_induction classAtoms named t generalizing atoms with
  | case1 => contradiction
  | case2 after =>
    obtain ⟨rfl, rfl⟩ := Prod.mk.inj (Except.ok.inj h)
    exact classAtoms_close named _
  | case3 => contradiction
  | case4 => contradiction
  | case5 v after hk _ ih =>
    rw [List.cons_append, List.cons_append, classAtoms_escape hk]
    exact map_consAtom_extend (fun others => ih) h
  | case6 u after hclose hescape ih =>
    rw [List.cons_append, classAtoms_unit hclose hescape]
    exact map_consAtom_extend (fun others => ih) h

/-! ## Counts -/

theorem digitsFrom_closing (n : Nat) (t more : Text) :
    digitsFrom n (t ++ closeParen :: more) =
      ((digitsFrom n t).1, (digitsFrom n t).2 ++ closeParen :: more) := by
  induction t generalizing n with
  | nil => rfl
  | cons u t ih =>
    rw [List.cons_append, digitsFrom, digitsFrom]
    split
    · exact ih _
    · rfl

theorem number?_closing (t more : Text) :
    number? (t ++ closeParen :: more) =
      (number? t).map (fun r => (r.1, r.2 ++ closeParen :: more)) := by
  cases t with
  | nil => rfl
  | cons u t =>
    rw [List.cons_append, number?, number?]
    split
    · rw [digitsFrom_closing]
      rfl
    · rfl

/-- Whether a brace begins a quantifier does not depend on a closing bracket behind it. -/
theorem counts?_closing (t more : Text) :
    counts? (t ++ closeParen :: more) =
      (counts? t).map (fun r => (r.1, r.2 ++ closeParen :: more)) := by
  cases hread : number? t with
  | none =>
    have hextended : number? (t ++ closeParen :: more) = none := by rw [number?_closing, hread]; rfl
    simp [counts?, hread, hextended]
  | some r =>
    obtain ⟨least, rest⟩ := r
    have hextended :
        number? (t ++ closeParen :: more) = some (least, rest ++ closeParen :: more) := by
      rw [number?_closing, hread]
      rfl
    -- Behind the first number stands a brace, a comma, something else or nothing.
    rcases rest with _ | ⟨u, rest⟩
    · unfold counts?
      rw [hread, hextended]
      rfl
    by_cases hclose : u = closeBrace
    · subst hclose
      unfold counts?
      rw [hread, hextended]
      rfl
    by_cases hcomma : u = comma
    · subst hcomma
      rcases rest with _ | ⟨v, rest⟩
      · unfold counts?
        rw [hread, hextended]
        rfl
      by_cases hv : v = closeBrace
      · subst hv
        unfold counts?
        rw [hread, hextended]
        rfl
      have hsecond : number? (v :: (rest ++ closeParen :: more)) = _ :=
        number?_closing (v :: rest) more
      have hcomma : number? (t ++ closeParen :: more) =
          some (least, comma :: v :: (rest ++ closeParen :: more)) := hextended
      rw [counts?_of_comma hcomma hv, counts?_of_comma hread hv, hsecond]
      rcases number? (v :: rest) with _ | ⟨most, _ | ⟨w, after⟩⟩
      · rfl
      · rfl
      · by_cases hw : w = closeBrace
        · subst hw
          rfl
        · simp [hw]
    · simp [counts?, hread, hextended, hclose, hcomma]

/-! ## Tokens -/

/-- What the opening of a group or an assertion looks like. -/
theorem groupOpening_cases {t rest : Text} {token : Token}
    (h : groupOpening t = .ok (token, rest)) :
    (t = startAssertionTail ++ rest ∧ token = .assertion .inputStart) ∨
      (t = endAssertionTail ++ rest ∧ token = .assertion .inputEnd) ∨
      (t = colon :: rest ∧ token = .opening .plain) ∨
      ∃ name after, t = lessThan :: after ∧ NameText.bracketedName? after = some (name, rest) ∧
        token = .opening (.captured (some name)) := by
  have hbegins : ∀ tail : Text, tail.isPrefixOf t = true → t = tail ++ t.drop tail.length := by
    intro tail htail
    obtain ⟨after, rfl⟩ := List.isPrefixOf_iff_prefix.1 htail
    rw [List.drop_left]
  unfold groupOpening at h
  split at h
  next hstart =>
    obtain ⟨rfl, rfl⟩ := Prod.mk.inj (Except.ok.inj h)
    exact .inl ⟨hbegins _ hstart, rfl⟩
  split at h
  next hend =>
    obtain ⟨rfl, rfl⟩ := Prod.mk.inj (Except.ok.inj h)
    exact .inr (.inl ⟨hbegins _ hend, rfl⟩)
  split at h
  · obtain ⟨rfl, rfl⟩ := Prod.mk.inj (Except.ok.inj h)
    exact .inr (.inr (.inl ⟨rfl, rfl⟩))
  next after _ _ =>
    split at h
    next name behind hname =>
      obtain ⟨rfl, rfl⟩ := Prod.mk.inj (Except.ok.inj h)
      exact .inr (.inr (.inr ⟨name, after, rfl, hname, rfl⟩))
    · contradiction
  · contradiction

theorem groupOpening_extend {t rest : Text} {token : Token}
    (h : groupOpening t = .ok (token, rest)) (more : Text) :
    groupOpening (t ++ more) = .ok (token, rest ++ more) := by
  rcases groupOpening_cases h with
    ⟨rfl, rfl⟩ | ⟨rfl, rfl⟩ | ⟨rfl, rfl⟩ | ⟨name, after, rfl, hname, rfl⟩
  · rfl
  · rfl
  · rfl
  · exact groupOpening_named (NameText.bracketedName?_extend hname more)

theorem escapeToken_extend {named : Bool} {t rest : Text} {token : Token}
    (h : escapeToken named t = .ok (token, rest)) (more : Text) :
    escapeToken named (t ++ more) = .ok (token, rest ++ more) := by
  cases t with
  | nil => contradiction
  | cons u t =>
    rw [List.cons_append]
    by_cases hk : (named && u == lowerK) = true
    · simp only [escapeToken, if_pos hk] at h ⊢
      split at h
      next after =>
        split at h
        next name behind hname =>
          obtain ⟨rfl, rfl⟩ := Prod.mk.inj (Except.ok.inj h)
          rw [List.cons_append]
          simp only [NameText.bracketedName?_extend hname more]
        · contradiction
      · contradiction
    · simp only [escapeToken, if_neg hk] at h ⊢
      split at h
      · obtain ⟨rfl, rfl⟩ := Prod.mk.inj (Except.ok.inj h)
        rfl
      · obtain ⟨rfl, rfl⟩ := Prod.mk.inj (Except.ok.inj h)
        rfl

theorem classHead_append {t : Text} (h : t ≠ []) (more : Text) :
    classHead (t ++ more) = ((classHead t).1, (classHead t).2 ++ more) := by
  obtain ⟨u, t, rfl⟩ := List.exists_cons_of_ne_nil h
  by_cases hu : u = caret
  · subst hu
    rfl
  · have hplain : ∀ tail, classHead (u :: tail) = (false, u :: tail) :=
      fun tail => classHead_of_ne (by simpa using hu)
    rw [List.cons_append, hplain, hplain]
    rfl

theorem classToken_extend {named : Bool} {t rest : Text} {token : Token}
    (h : classToken named t = .ok (token, rest)) (more : Text) :
    classToken named (t ++ more) = .ok (token, rest ++ more) := by
  unfold classToken at h
  split at h
  · contradiction
  next atoms after hatoms =>
    have hne : t ≠ [] := by
      rintro rfl
      contradiction
    unfold classToken
    rw [classHead_append hne]
    simp only [classAtoms_extend hatoms more]
    cases hitems : ClassAtom.items atoms with
    | error e =>
      rw [hitems] at h
      contradiction
    | ok items =>
      rw [hitems] at h
      obtain ⟨rfl, rfl⟩ := Prod.mk.inj (Except.ok.inj h)
      rfl

theorem braceToken_closing {t rest : Text} {token : Token}
    (h : braceToken t = .ok (token, rest)) (more : Text) :
    braceToken (t ++ closeParen :: more) = .ok (token, rest ++ closeParen :: more) := by
  have hcounts := counts?_closing t more
  unfold braceToken at h ⊢
  split at h
  next least most after hread =>
    rw [hread] at hcounts
    rw [hcounts]
    split at h
    next horder =>
      obtain ⟨rfl, rfl⟩ := Prod.mk.inj (Except.ok.inj h)
      simp only [Option.map_some, if_pos horder]
    · contradiction
  next hread =>
    rw [hread] at hcounts
    rw [hcounts]
    obtain ⟨rfl, rfl⟩ := Prod.mk.inj (Except.ok.inj h)
    rfl

theorem openingToken_closing {t rest : Text} {token : Token}
    (h : openingToken t = .ok (token, rest)) (more : Text) :
    openingToken (t ++ closeParen :: more) = .ok (token, rest ++ closeParen :: more) := by
  by_cases hhead : t.head? = some questionMark
  · obtain ⟨t, rfl⟩ := List.head?_eq_some_iff.1 hhead
    exact groupOpening_extend h (closeParen :: more)
  · have hplain : ∀ s : Text, s.head? ≠ some questionMark →
        openingToken s = .ok (.opening (.captured none), s) := by
      intro s hs
      unfold openingToken
      split
      · exact absurd rfl hs
      · rfl
    rw [hplain t hhead] at h
    obtain ⟨rfl, rfl⟩ := Prod.mk.inj (Except.ok.inj h)
    refine hplain _ ?_
    cases t with
    | nil => show some closeParen ≠ some questionMark; decide
    | cons u t => exact hhead

/-- A token that has been cut stays the same with a closing bracket behind the text. -/
theorem tokenFrom_closing {named : Bool} {u : CodeUnit} {t rest : Text} {token : Token}
    (h : tokenFrom named u t = .ok (token, rest)) (more : Text) :
    tokenFrom named u (t ++ closeParen :: more) = .ok (token, rest ++ closeParen :: more) := by
  unfold tokenFrom at h ⊢
  split at h
  next hu => rw [if_pos hu]; exact escapeToken_extend h _
  next hescape =>
    rw [if_neg hescape]
    split at h
    next hu => rw [if_pos hu]; exact openingToken_closing h more
    next hopening =>
      rw [if_neg hopening]
      split at h
      next hu => rw [if_pos hu]; exact classToken_extend h _
      next hclass =>
        rw [if_neg hclass]
        split at h
        next hu => rw [if_pos hu]; exact braceToken_closing h more
        next hbrace =>
          rw [if_neg hbrace]
          obtain ⟨rfl, rfl⟩ := Prod.mk.inj (Except.ok.inj h)
          rfl

/-- A text that is cut into tokens is cut into the same ones where a closing bracket follows it. -/
theorem tokens_closing {named : Bool} {t : Text} {ts : List Token} (h : tokens named t = .ok ts)
    (more : Text) :
    tokens named (t ++ closeParen :: more) =
      (tokens named (closeParen :: more)).map (ts ++ ·) := by
  fun_induction tokens named t generalizing ts with
  | case1 =>
    obtain rfl := Except.ok.inj h
    exact (Except.map_nil_append _).symm
  | case2 => contradiction
  | case3 u rest token after htoken _ ih =>
    cases hafter : tokens named after with
    | error e =>
      rw [hafter] at h
      contradiction
    | ok others =>
      rw [hafter] at h
      obtain rfl := Except.ok.inj h
      rw [List.cons_append, tokens_cons (tokenFrom_closing htoken more), ih hafter]
      exact Except.map_map_append _ [token] others

end PatternAlgebra
