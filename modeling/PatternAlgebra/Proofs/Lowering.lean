import PatternAlgebra.Pattern.Expression
import PatternAlgebra.Regex.Lowering
import PatternAlgebra.Regex.NameScan

/-!
# Lowering part by part

A text that does not end in an unpaired backslash is lowered independently of what follows it. The
text of a pattern never ends in one, whatever its literals, classes and names hold, so it is lowered
node by node. References are found behind unpaired backslashes as well, so the texts that lowering
leaves alone are those that refer to nothing.
-/

namespace PatternAlgebra

namespace Lowering

/-- Whether a text ends in a backslash that quotes nothing. -/
def endsQuoting : Text → Bool
  | [] => false
  | u :: rest =>
    if u = backslash then
      match rest with
      | [] => true
      | _ :: after => endsQuoting after
    else endsQuoting rest

@[simp] theorem endsQuoting_nil : endsQuoting [] = false := rfl

@[simp] theorem endsQuoting_unit {u : CodeUnit} (h : u ≠ backslash) (rest : Text) :
    endsQuoting (u :: rest) = endsQuoting rest := by
  rw [endsQuoting.eq_def]
  simp [h]

@[simp] theorem endsQuoting_escape (u : CodeUnit) (rest : Text) :
    endsQuoting (backslash :: u :: rest) = endsQuoting rest := by
  simp [endsQuoting]

/-- A text with no unpaired backslash at its end is lowered by itself. -/
theorem lower_append {t : Text} (h : endsQuoting t = false) (rest : Text) :
    lower (t ++ rest) = lower t ++ lower rest := by
  induction t using endsQuoting.induct with
  | case1 => rfl
  | case2 => simp [endsQuoting] at h
  | case3 v after ih =>
    rw [endsQuoting_escape] at h
    simp [ih h]
  | case4 u after hu ih =>
    rw [endsQuoting_unit hu] at h
    simp [hu, ih h]

/-- What a backslash quotes begins no reference, but for `k`. -/
theorem references_quoted {u : CodeUnit} (hk : u ≠ lowerK) (rest : Text) :
    NameScan.references (backslash :: u :: rest) = NameScan.references rest := by
  have hnone : NameScan.referenceTail? (u :: rest) = none := by
    unfold NameScan.referenceTail?
    split
    next h => exact absurd (List.cons.inj h).1 hk
    · rfl
  rw [NameScan.references_escape hnone]
  rfl

theorem endsQuoting_append {t : Text} (h : endsQuoting t = false) (rest : Text) :
    endsQuoting (t ++ rest) = endsQuoting rest := by
  induction t using endsQuoting.induct with
  | case1 => rfl
  | case2 => simp [endsQuoting] at h
  | case3 v after ih =>
    rw [endsQuoting_escape] at h
    simp [ih h]
  | case4 u after hu ih =>
    rw [endsQuoting_unit hu] at h
    simp [hu, ih h]

theorem endsQuoting_flatMap {α : Type} {f : α → Text} {l : List α}
    (h : ∀ a ∈ l, endsQuoting (f a) = false) : endsQuoting (l.flatMap f) = false := by
  induction l with
  | nil => rfl
  | cons a l ih =>
    rw [List.flatMap_cons, endsQuoting_append (h a List.mem_cons_self)]
    exact ih (fun b hb => h b (List.mem_cons_of_mem a hb))

theorem lower_flatMap {α : Type} {f : α → Text} {l : List α}
    (h : ∀ a ∈ l, endsQuoting (f a) = false) :
    lower (l.flatMap f) = l.flatMap (fun a => lower (f a)) := by
  induction l with
  | nil => rfl
  | cons a l ih =>
    rw [List.flatMap_cons, List.flatMap_cons, lower_append (h a List.mem_cons_self),
      ih (fun b hb => h b (List.mem_cons_of_mem a hb))]

/-- A last unit that is no backslash leaves nothing unpaired. -/
theorem endsQuoting_concat {u : CodeUnit} (hu : u ≠ backslash) (t : Text) :
    endsQuoting (t ++ [u]) = false := by
  induction t using endsQuoting.induct with
  | case1 => simp [hu]
  | case2 => simp
  | case3 v after ih => simp [ih]
  | case4 w after hw ih => simp [hw, ih]

/-! ## Texts that lowering leaves as they are -/

/-- A text that lowering leaves alone and that refers to no name, wherever it stands. -/
structure Inert (t : Text) : Prop where
  endsQuoting : endsQuoting t = false
  lower : lower t = t
  references : ∀ rest, NameScan.references (t ++ rest) = NameScan.references rest

namespace Inert

theorem nil : Inert [] := ⟨rfl, rfl, fun _ => rfl⟩

theorem append {s t : Text} (hs : Inert s) (ht : Inert t) : Inert (s ++ t) := by
  constructor
  · rw [endsQuoting_append hs.endsQuoting, ht.endsQuoting]
  · rw [lower_append hs.endsQuoting, hs.lower, ht.lower]
  · intro rest
    rw [List.append_assoc, hs.references, ht.references]

theorem unit {u : CodeUnit} (hu : u ≠ backslash) : Inert [u] :=
  ⟨by simp [hu], by simp [hu], fun rest => NameScan.references_unit hu rest⟩

theorem cons {u : CodeUnit} (hu : u ≠ backslash) {t : Text} (ht : Inert t) : Inert (u :: t) :=
  (unit hu).append ht

theorem escape {u : CodeUnit} (hA : u ≠ upperA) (hz : u ≠ lowerZ) (hk : u ≠ lowerK) :
    Inert [backslash, u] := by
  constructor
  · simp
  · simp [lowerEscape, hA, hz]
  · exact fun rest => references_quoted hk rest

theorem of_forall_ne {t : Text} (h : ∀ u ∈ t, u ≠ backslash) : Inert t := by
  induction t with
  | nil => exact nil
  | cons u t ih =>
    exact cons (h u List.mem_cons_self) (ih (fun v hv => h v (List.mem_cons_of_mem u hv)))

theorem flatMap {α : Type} {f : α → Text} {l : List α} (h : ∀ a ∈ l, Inert (f a)) :
    Inert (l.flatMap f) := by
  induction l with
  | nil => exact nil
  | cons a l ih =>
    rw [List.flatMap_cons]
    exact (h a List.mem_cons_self).append (ih (fun b hb => h b (List.mem_cons_of_mem a hb)))

theorem lower_append {t : Text} (h : Inert t) (rest : Text) :
    Lowering.lower (t ++ rest) = t ++ Lowering.lower rest := by
  rw [Lowering.lower_append h.endsQuoting, h.lower]

end Inert

end Lowering

open Lowering

theorem isMetacharacter_backslash : isMetacharacter backslash = true := by decide

theorem inert_escapeUnit (u : CodeUnit) : Inert (escapeUnit u) := by
  unfold escapeUnit
  split
  next h =>
    refine .escape ?_ ?_ ?_ <;>
    · rintro rfl
      revert h
      decide
  next h =>
    refine .unit ?_
    rintro rfl
    exact h isMetacharacter_backslash

theorem inert_escapeText (t : Text) : Inert (escapeText t) :=
  .flatMap (fun u _ => inert_escapeUnit u)

theorem inert_escapeInClass (u : CodeUnit) : Inert (escapeInClass [u]) := by
  rw [escapeInClass_singleton]
  split
  next h =>
    refine .escape ?_ ?_ ?_ <;>
    · rintro rfl
      revert h
      decide
  next h =>
    refine .unit ?_
    rintro rfl
    exact h (by decide)

theorem inert_classBody (r : CharRange) : Inert r.classBody :=
  (inert_escapeInClass r.first).append (.cons (by decide) (inert_escapeInClass r.last))

theorem inert_intercalate {separator : CodeUnit} (hs : separator ≠ backslash) {ts : List Text}
    (h : ∀ t ∈ ts, Inert t) : Inert ([separator].intercalate ts) := by
  induction ts with
  | nil => exact .nil
  | cons t ts ih =>
    cases ts with
    | nil => simpa using h t List.mem_cons_self
    | cons t' ts =>
      rw [List.intercalate_cons_cons]
      have hrest := ih (fun t ht => h t (List.mem_cons_of_mem _ ht))
      simpa using (h t List.mem_cons_self).append (.cons hs hrest)

theorem inert_grouped {t : Text} (h : Inert t) : Inert (grouped t) :=
  .cons (by decide) (.cons (by decide) (.cons (by decide) (h.append (.unit (by decide)))))

theorem inert_choiceText (first : Text) (others : List Text) : Inert (choiceText first others) := by
  cases others with
  | nil => exact inert_escapeText first
  | cons second others =>
    refine inert_grouped (inert_intercalate (by decide) (fun t ht => ?_))
    obtain ⟨s, _, rfl⟩ := List.mem_map.1 ht
    exact inert_escapeText s

end PatternAlgebra
