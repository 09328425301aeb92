import PatternAlgebra.Proofs.Braces
import PatternAlgebra.Regex.Parser

/-!
# Token lists that add items

A token list adds items when reading it leaves the brackets around it alone and puts its items behind
those of the branch at hand. Such lists can be put one after another and between brackets. A
quantifier changes the item before it, so what it does is stated for the items of such a list.
-/

namespace PatternAlgebra

/-- Whether what a token ends can be repeated. -/
def Token.repeatable : Token → Bool
  | .one _ | .reference _ | .closing => true
  | .assertion anchor => anchor == .inputEnd
  | .opening _ | .bar | .quantifier _ _ => false

/-- Whether what tokens end can be repeated; without tokens it is as it was before. -/
def repeatableAfter (before : Bool) (ts : List Token) : Bool :=
  ts.foldl (fun _ t => t.repeatable) before

theorem repeatableAfter_append (b : Bool) (s t : List Token) :
    repeatableAfter b (s ++ t) = repeatableAfter (repeatableAfter b s) t := List.foldl_append

theorem repeatableAfter_concat (b : Bool) (ts : List Token) (t : Token) :
    repeatableAfter b (ts ++ [t]) = t.repeatable := repeatableAfter_append b ts [t]

theorem repeatableAfter_map {α : Type} {f : α → Token} (hf : ∀ a, (f a).repeatable = true)
    {l : List α} (h : l ≠ []) (b : Bool) : repeatableAfter b (l.map f) = true := by
  induction l generalizing b with
  | nil => contradiction
  | cons a l ih =>
    cases l with
    | nil => exact hf a
    | cons a' l => exact ih (by simp) (f a).repeatable

/-- A level with more items, which these tokens end. -/
def Level.add (l : Level) (items : List Regex) (ts : List Token) : Level :=
  ⟨l.branches, items.reverse ++ l.items, repeatableAfter l.repeatable ts⟩

theorem Level.add_add (l : Level) (i j : List Regex) (s t : List Token) :
    (l.add i s).add j t = l.add (i ++ j) (s ++ t) := by
  simp only [Level.add, List.reverse_append, List.append_assoc, repeatableAfter_append]

/-- What is alone between its brackets is a sequence of its items. -/
theorem Level.close_add (items : List Regex) (ts : List Token) :
    (Level.add {} items ts).close = Regex.sequenceOf items := by
  show Regex.sequenceOf (items.reverse ++ []).reverse = _
  rw [List.append_nil, List.reverse_reverse]

/-- Reading the tokens adds items, which may depend on the number of groups before them, and opens
so many groups. -/
def Adds (resolve : Text → Option Nat) (ts : List Token) (items : Nat → List Regex) (count : Nat) :
    Prop :=
  ∀ r : Reading, r.run resolve ts =
    .ok ⟨r.level.add (items r.opened) ts, r.outer, r.opened + count⟩

namespace Adds

variable {resolve : Text → Option Nat} {s t ts : List Token} {i j items : Nat → List Regex}
  {m n count : Nat}

theorem nil : Adds resolve [] (fun _ => []) 0 := fun _ => rfl

theorem append (hs : Adds resolve s i m) (ht : Adds resolve t j n) :
    Adds resolve (s ++ t) (fun k => i k ++ j (k + m)) (m + n) := by
  intro r
  rw [Reading.run_append, hs r]
  show Reading.run resolve _ t = _
  rw [ht]
  show Except.ok (Reading.mk _ _ _) = .ok (Reading.mk _ _ _)
  rw [Level.add_add, Nat.add_assoc]

theorem one (units : UnitSet) : Adds resolve [.one units] (fun _ => [.one units]) 0 :=
  fun _ => rfl

theorem assertion (a : Anchor) : Adds resolve [.assertion a] (fun _ => [.assertion a]) 0 :=
  fun _ => rfl

theorem reference {name : Text} {index : Nat} (h : resolve name = some index) :
    Adds resolve [.reference name] (fun _ => [.reference index]) 0 := by
  intro r
  rw [Reading.run, Reading.step, h]
  rfl

theorem map_one (sets : List UnitSet) :
    Adds resolve (sets.map .one) (fun _ => sets.map .one) 0 := by
  induction sets with
  | nil => exact nil
  | cons set sets ih => exact (one set).append ih

/-- What is read as a whole has no bracket left open. -/
theorem finish_run (h : Adds resolve ts items count) :
    ∃ r, Reading.run resolve {} ts = .ok r ∧ r.finish = .ok (Regex.sequenceOf (items 0)) ∧
      r.opened = count := by
  refine ⟨⟨Level.add {} (items 0) ts, [], 0 + count⟩, h {}, ?_, Nat.zero_add count⟩
  show Except.ok (Level.close _) = _
  rw [Level.close_add]

end Adds

/-! ## Brackets -/

/-- Between brackets the tokens are read as this expression, and open so many groups. -/
def Encloses (resolve : Text → Option Nat) (ts : List Token) (body : Nat → Regex) (count : Nat) :
    Prop :=
  ∀ outer opened, ∃ level,
    Reading.run resolve ⟨{}, outer, opened⟩ ts = .ok ⟨level, outer, opened + count⟩ ∧
      level.close = body opened

theorem Adds.encloses {resolve : Text → Option Nat} {ts : List Token} {items : Nat → List Regex}
    {count : Nat} (h : Adds resolve ts items count) :
    Encloses resolve ts (fun k => Regex.sequenceOf (items k)) count :=
  fun outer opened => ⟨_, h ⟨{}, outer, opened⟩, Level.close_add (items opened) ts⟩

namespace Encloses

variable {resolve : Text → Option Nat} {ts : List Token} {body : Nat → Regex} {count : Nat}

theorem grouped (h : Encloses resolve ts body count) :
    Adds resolve (.opening .plain :: (ts ++ [.closing])) (fun k => [body k]) count := by
  intro r
  obtain ⟨level, hrun, hclose⟩ := h ((none, r.level) :: r.outer) r.opened
  show Reading.run resolve ⟨{}, (none, r.level) :: r.outer, r.opened⟩ (ts ++ [.closing]) = _
  rw [Reading.run_append, hrun]
  show Except.ok (Reading.mk (r.level.push level.close true) _ _) = _
  rw [hclose, Level.add, ← List.cons_append, repeatableAfter_concat]
  rfl

theorem captured (h : Encloses resolve ts body count) (name : Option Text) :
    Adds resolve (.opening (.captured name) :: (ts ++ [.closing]))
      (fun k => [.capture (k + 1) (body (k + 1))]) (count + 1) := by
  intro r
  obtain ⟨level, hrun, hclose⟩ := h ((some (r.opened + 1), r.level) :: r.outer) (r.opened + 1)
  show Reading.run resolve ⟨{}, (some (r.opened + 1), r.level) :: r.outer, r.opened + 1⟩
    (ts ++ [.closing]) = _
  rw [Reading.run_append, hrun]
  show Except.ok (Reading.mk (r.level.push (.capture (r.opened + 1) level.close) true) _ _) = _
  rw [hclose, Level.add, ← List.cons_append, repeatableAfter_concat, Nat.add_assoc,
    Nat.add_comm 1 count]
  rfl

end Encloses

/-- Branches with bars between them. The branches before them are as good as read. -/
theorem run_bars {resolve : Text → Option Nat} {α : Type} {f : α → List Token}
    {g : α → List Regex} (hf : ∀ a, Adds resolve (f a) (fun _ => g a) 0) (a : α) (others : List α)
    (branches : List Regex) (outer : List (Option Nat × Level)) (opened : Nat) :
    ∃ level, Reading.run resolve ⟨⟨branches, [], false⟩, outer, opened⟩
        ([Token.bar].intercalate ((a :: others).map f)) = .ok ⟨level, outer, opened⟩ ∧
      level.close = branches.foldl (fun others first => .choice first others)
        (Regex.choiceOf (Regex.sequenceOf (g a)) (others.map (fun b => Regex.sequenceOf (g b)))) := by
  induction others generalizing a branches with
  | nil =>
    refine ⟨⟨branches, (g a).reverse ++ [], repeatableAfter false (f a)⟩, ?_, ?_⟩
    · rw [List.map_cons, List.map_nil, List.intercalate_singleton, hf]
      rfl
    · rw [Level.close, Level.branch, List.append_nil, List.reverse_reverse]
      rfl
  | cons b others ih =>
    obtain ⟨level, hrun, hclose⟩ := ih b (Regex.sequenceOf (g a) :: branches)
    refine ⟨level, ?_, hclose⟩
    rw [List.map_cons, List.map_cons, List.intercalate_cons_cons, List.append_assoc,
      Reading.run_append, hf]
    show Reading.run resolve ⟨⟨Regex.sequenceOf ((g a).reverse ++ []).reverse :: branches, [], false⟩,
      outer, opened⟩ _ = _
    rw [List.append_nil, List.reverse_reverse]
    exact hrun

theorem encloses_bars {resolve : Text → Option Nat} {α : Type} {f : α → List Token}
    {g : α → List Regex} (hf : ∀ a, Adds resolve (f a) (fun _ => g a) 0) (a : α) (others : List α) :
    Encloses resolve ([Token.bar].intercalate ((a :: others).map f))
      (fun _ => Regex.choiceOf (Regex.sequenceOf (g a))
        (others.map (fun b => Regex.sequenceOf (g b)))) 0 :=
  fun outer opened => run_bars hf a others [] outer opened

/-! ## Quantifiers -/

/-- Items with one more token behind them: a quantifier takes the last item, and what matches a unit
is an item of its own. -/
def extendItems (items : List Regex) : Token → List Regex
  | .one units => items ++ [.one units]
  | .quantifier least most =>
    items.dropLast ++ (items.getLast?.map (fun item => Regex.loop item least most)).toList
  | _ => items

/-- Whether the tokens are units and quantifiers, each quantifier behind what can be repeated. -/
def quantifiersApply (before : Bool) : List Token → Bool
  | [] => true
  | .one _ :: ts => quantifiersApply true ts
  | .quantifier _ _ :: ts => before && quantifiersApply false ts
  | _ => false

theorem ne_nil_of_extendItems {items : List Regex} (h : items ≠ []) (t : Token) :
    extendItems items t ≠ [] := by
  rw [← List.dropLast_concat_getLast h]
  cases t <;> simp [extendItems]

theorem extendItems_quantifier (items : List Regex) (last : Regex) (least : Nat)
    (most : Option Nat) :
    extendItems (items ++ [last]) (.quantifier least most) = items ++ [.loop last least most] := by
  simp [extendItems]

/-- Units and quantifiers behind some items leave the items before these alone. -/
theorem run_extend {resolve : Text → Option Nat} (ts : List Token) (r : Reading)
    {items before : List Regex} (hitems : r.level.items = items.reverse ++ before) (hne : items ≠ [])
    (happly : quantifiersApply r.level.repeatable ts = true) :
    r.run resolve ts =
      .ok ⟨⟨r.level.branches, (ts.foldl extendItems items).reverse ++ before,
        repeatableAfter r.level.repeatable ts⟩, r.outer, r.opened⟩ := by
  obtain ⟨⟨branches, levelItems, repeatable⟩, outer, opened⟩ := r
  induction ts generalizing items levelItems repeatable with
  | nil =>
    obtain rfl : levelItems = _ := hitems
    rfl
  | cons t ts ih =>
    have hextend := ne_nil_of_extendItems hne t
    cases t with
    | one units =>
      rw [Reading.run]
      refine ih hextend _ true ?_ happly
      show Regex.one units :: levelItems = _
      rw [show levelItems = _ from hitems, extendItems, List.reverse_append]
      rfl
    | quantifier least most =>
      obtain ⟨rfl, happly⟩ := Bool.and_eq_true_iff.1 happly
      obtain ⟨init, last, rfl⟩ : ∃ init last, items = init ++ [last] :=
        ⟨_, _, (List.dropLast_concat_getLast hne).symm⟩
      rw [List.reverse_append] at hitems
      obtain rfl : levelItems = last :: (init.reverse ++ before) := hitems
      rw [Reading.run]
      refine ih hextend _ false ?_ happly
      rw [extendItems_quantifier, List.reverse_append]
      rfl
    | assertion | reference | opening | closing | bar => contradiction

/-- A quantifier needs an item: what can be repeated is there. -/
theorem items_ne_nil_of_step {resolve : Text → Option Nat} {r next : Reading} {t : Token}
    (h : r.step resolve t = .ok next) : next.level.repeatable = true → next.level.items ≠ [] := by
  cases t with
  | one units | assertion anchor =>
    obtain rfl := Except.ok.inj h
    exact fun _ => List.cons_ne_nil _ _
  | reference name =>
    obtain ⟨index, -, rfl⟩ := Reading.step_reference_eq_ok.1 h
    exact fun _ => List.cons_ne_nil _ _
  | opening grouping =>
    obtain rfl := Except.ok.inj h
    cases grouping <;> exact fun hr => absurd hr Bool.false_ne_true
  | closing =>
    change r.leave = .ok next at h
    unfold Reading.leave at h
    split at h
    · contradiction
    · obtain rfl := Except.ok.inj h
      exact fun _ => List.cons_ne_nil _ _
  | bar =>
    obtain rfl := Except.ok.inj h
    exact fun hr => absurd hr Bool.false_ne_true
  | quantifier least most =>
    obtain ⟨level, hlevel, rfl⟩ := Reading.step_quantifier_eq_ok.1 h
    unfold Level.quantify at hlevel
    split at hlevel
    · obtain rfl := Except.ok.inj hlevel
      exact fun hr => absurd hr Bool.false_ne_true
    · contradiction

theorem items_ne_nil_of_run {resolve : Text → Option Nat} {ts : List Token} {r next : Reading}
    (hr : r.level.repeatable = true → r.level.items ≠ []) (h : r.run resolve ts = .ok next) :
    next.level.repeatable = true → next.level.items ≠ [] := by
  induction ts generalizing r with
  | nil =>
    obtain rfl := Except.ok.inj h
    exact hr
  | cons t ts ih =>
    obtain ⟨mid, hstep, hrest⟩ := Reading.run_cons_eq_ok.1 h
    exact ih (items_ne_nil_of_step hstep) hrest

namespace Adds

variable {resolve : Text → Option Nat} {ts qs : List Token} {items : Nat → List Regex} {count : Nat}

/-- Tokens that can be repeated add an item. -/
theorem items_ne_nil (h : Adds resolve ts items count) (hts : repeatableAfter false ts = true)
    (k : Nat) : items k ≠ [] := by
  have hne := items_ne_nil_of_run (r := ⟨{}, [], k⟩) (fun hr => absurd hr Bool.false_ne_true)
    (h _) hts
  intro hk
  apply hne
  show (items k).reverse ++ [] = []
  rw [hk]
  rfl

/-- Quantifiers behind tokens that can be repeated. -/
theorem extend (h : Adds resolve ts items count) (hts : ∀ b, repeatableAfter b ts = true)
    (hqs : quantifiersApply true qs = true) :
    Adds resolve (ts ++ qs) (fun k => qs.foldl extendItems (items k)) count := by
  intro r
  rw [Reading.run_append, h r]
  show Reading.run resolve _ qs = _
  have happly : quantifiersApply (r.level.add (items r.opened) ts).repeatable qs = true := by
    show quantifiersApply (repeatableAfter _ ts) qs = true
    rw [hts, hqs]
  rw [run_extend qs _ rfl (h.items_ne_nil (hts false) r.opened) happly]
  show Except.ok (Reading.mk ⟨_, _, repeatableAfter (repeatableAfter _ ts) qs⟩ _ _) = _
  rw [← repeatableAfter_append]
  rfl

end Adds

end PatternAlgebra
