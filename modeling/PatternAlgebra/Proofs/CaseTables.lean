import Mathlib.Data.List.Induction
import Mathlib.Data.List.Nodup
import PatternAlgebra.Proofs.Tally

/-!
# Reports on cases in tables

The cases of a table are the given ones with each input once, where it came first and with the
answer that came last. A table of properties has the same cases in another order: first the inputs
that are written indices, ascending, then all others. Reports on the two therefore differ in order
only (`tables_agree`), and where no input comes twice the table is the list of cases itself, so that
a report is the same for every container but for the order of its results (`runAll_perm`).
-/

namespace PatternAlgebra

/-! ## Indices -/

/-- A text that is an index: a number below the limit, as it is written. -/
def IsIndex (t : Text) : Prop := ∃ n < 4294967295, t = decimalText n

theorem digitUnit_of_isDigit {u : CodeUnit} (h : Text.isDigit u = true) :
    u.toNat - 0x30 < 10 ∧ digitUnit (u.toNat - 0x30) = u := by
  have hunit : ∀ d < 10, digitUnit d = (0x30 + d).toUInt16 := by decide
  simp only [Text.isDigit, Bool.and_eq_true, decide_eq_true_eq, UInt16.le_iff_toNat_le] at h
  have h30 : UInt16.toNat 0x30 = 0x30 := rfl
  have h39 : UInt16.toNat 0x39 = 0x39 := rfl
  have hlt : u.toNat - 0x30 < 10 := by omega
  have hback : 0x30 + (u.toNat - 0x30) = u.toNat := by omega
  refine ⟨hlt, ?_⟩
  rw [hunit _ hlt, hback]
  exact UInt16.ofNat_toNat

/-- Digits behind a number other than zero are its further digits. -/
theorem decimalText_of_digitsFrom {t : Text} {k n : Nat} (hk : k ≠ 0)
    (h : digitsFrom k t = (n, [])) : decimalText n = decimalText k ++ t := by
  induction t generalizing k with
  | nil =>
    obtain rfl := (Prod.mk.inj h).1
    rw [List.append_nil]
  | cons u t ih =>
    by_cases hu : Text.isDigit u = true
    · rw [digitsFrom_digit hu] at h
      obtain ⟨hlt, hunit⟩ := digitUnit_of_isDigit hu
      have hdiv : (10 * k + (u.toNat - 0x30)) / 10 = k := by omega
      have hmod : (10 * k + (u.toNat - 0x30)) % 10 = u.toNat - 0x30 := by omega
      rw [ih (by omega) h, decimalText_of_le (by omega), hdiv, hmod, hunit, List.append_assoc,
        List.singleton_append]
    · rw [digitsFrom, if_neg hu] at h
      exact absurd (Prod.mk.inj h).2 (List.cons_ne_nil u t)

/-- A number other than zero begins with another digit. -/
theorem head?_decimalText {n : Nat} (hn : n ≠ 0) : (decimalText n).head? ≠ some 0x30 := by
  induction n using Nat.strongRecOn with
  | ind n ih =>
    by_cases h : n < 10
    · have hunit : ∀ d < 10, d ≠ 0 → digitUnit d ≠ 0x30 := by decide
      rw [decimalText_of_lt h]
      exact fun hhead => hunit n h hn (Option.some.inj hhead)
    · obtain ⟨u, t, htext, -⟩ := decimalText_eq_cons (n / 10)
      have hfront := ih (n / 10) (by omega) (by omega)
      rw [htext] at hfront
      rw [decimalText_of_le (by omega), htext]
      exact hfront

/-- A number without leading zeros is written as it was read. -/
theorem eq_decimalText_of_number? {t : Text} {n : Nat} (h : number? t = some (n, []))
    (hzero : t.head? = some 0x30 → t.length = 1) : t = decimalText n := by
  cases t with
  | nil => contradiction
  | cons u t =>
    by_cases hu : Text.isDigit u = true
    · rw [number?, if_pos hu, Option.some.injEq] at h
      obtain ⟨hlt, hunit⟩ := digitUnit_of_isDigit hu
      by_cases hd : u.toNat - 0x30 = 0
      · -- A first zero is the whole text.
        rw [hd] at h hunit
        have hu0 : u = 0x30 := hunit.symm
        have hlength : (u :: t).length = 1 := hzero (by rw [hu0]; rfl)
        obtain rfl : t = [] := List.length_eq_zero_iff.1 (by simpa using hlength)
        obtain rfl : 0 = n := (Prod.mk.inj h).1
        rw [hu0]
        rfl
      · rw [decimalText_of_digitsFrom hd h, decimalText_of_lt hlt, hunit, List.singleton_append]
    · rw [number?, if_neg hu] at h
      contradiction

/-- The texts that are read as an index are those that an index is written as. -/
theorem index?_eq_some {t : Text} {n : Nat} :
    index? t = some n ↔ n < 4294967295 ∧ t = decimalText n := by
  constructor
  · intro h
    unfold index? at h
    split at h
    next m hm =>
      rw [Option.ite_none_right_eq_some, Option.some.injEq] at h
      obtain ⟨⟨hlimit, hzero⟩, rfl⟩ := h
      exact ⟨hlimit, eq_decimalText_of_number? hm hzero⟩
    · contradiction
  · intro h
    obtain ⟨hlimit, rfl⟩ := h
    have hread : number? (decimalText n ++ []) = some (n, []) := number?_decimalText n rfl
    have hzero : (decimalText n).head? = some 0x30 → (decimalText n).length = 1 := by
      intro hhead
      by_cases hn : n = 0
      · rw [hn]
        rfl
      · exact absurd hhead (head?_decimalText hn)
    rw [List.append_nil] at hread
    unfold index?
    rw [hread]
    exact if_pos ⟨hlimit, hzero⟩

theorem isSome_index? {t : Text} : (index? t).isSome = true ↔ IsIndex t := by
  rw [Option.isSome_iff_exists]
  exact exists_congr (fun n => index?_eq_some)

instance : DecidablePred IsIndex := fun _ => decidable_of_iff _ isSome_index?

namespace Cases

/-! ## Cases set one after another -/

theorem set_of_not_mem {input : Text} {cases : Cases} (h : input ∉ cases.map Prod.fst)
    (expected : Bool) : cases.set input expected = cases ++ [(input, expected)] := by
  induction cases with
  | nil => rfl
  | cons case cases ih =>
    obtain ⟨i, e⟩ := case
    obtain ⟨hi, hrest⟩ := not_or.1 (mt List.mem_cons.2 h)
    rw [set, if_neg (fun heq => hi heq.symm), ih hrest, List.cons_append]

theorem ofTable_concat (pairs : Cases) (pair : Text × Bool) :
    ofTable (pairs ++ [pair]) = (ofTable pairs).set pair.1 pair.2 := by
  rw [ofTable, List.foldl_append]
  rfl

/-- Cases whose inputs are distinct are a table as they are. -/
theorem ofTable_of_nodup {pairs : Cases} (h : (pairs.map Prod.fst).Nodup) :
    ofTable pairs = pairs := by
  induction pairs using List.reverseRecOn with
  | nil => rfl
  | append_singleton pairs pair ih =>
    rw [List.map_append, List.nodup_append] at h
    obtain ⟨hfront, -, hnew⟩ := h
    have hpair : pair.1 ∉ pairs.map Prod.fst :=
      fun hmem => hnew _ hmem _ (List.mem_singleton_self _) rfl
    rw [ofTable_concat, ih hfront, set_of_not_mem hpair]

/-- The indices of a table of properties, in ascending order. -/
def sortedIndices (pairs : Cases) : Cases :=
  ((ofTable pairs).filter (fun case => IsIndex case.1)).mergeSort indexAtMost

theorem ofProperties_eq (pairs : Cases) :
    ofProperties pairs =
      sortedIndices pairs ++ (ofTable pairs).filter (fun case => ¬ IsIndex case.1) := by
  have hsome : ∀ case : Text × Bool,
      (index? case.1).isSome = decide (IsIndex case.1) := by
    intro case
    rw [Bool.eq_iff_iff, isSome_index?, decide_eq_true_iff]
  have hnone : ∀ case : Text × Bool,
      (index? case.1).isNone = decide (¬ IsIndex case.1) := by
    intro case
    rw [decide_not, ← hsome, Option.not_isSome]
  simp only [ofProperties, hsome, hnone]
  rfl

/-- Tables of properties hold the cases of a table. -/
theorem ofProperties_perm (pairs : Cases) : (ofProperties pairs).Perm (ofTable pairs) := by
  have hsplit := List.filter_append_perm (fun case => decide (IsIndex case.1)) (ofTable pairs)
  simp only [← decide_not] at hsplit
  rw [ofProperties_eq]
  exact ((List.mergeSort_perm _ _).append_right _).trans hsplit

/-- A leading zero makes a number no index. -/
example :
    (ofProperties [(utf16 "b", true), (utf16 "10", true), (utf16 "01", false), (utf16 "2", true),
      (utf16 "b", false)]).map Prod.fst = [utf16 "2", utf16 "10", utf16 "b", utf16 "01"] := by
  cbv

end Cases

/-- Where no input comes twice, a container gives back the pairs that were put into it, be it in
another order. -/
theorem Container.entries_perm {container : Container}
    (h : (container.given.map Prod.fst).Nodup) : container.entries.Perm container.given := by
  cases container with
  | pairs given => exact .refl given
  | table given => exact .of_eq (Cases.ofTable_of_nodup h)
  | properties given =>
    exact (Cases.ofProperties_perm given).trans (.of_eq (Cases.ofTable_of_nodup h))

namespace Report

variable {source : Text} {program : Program}

/-- Where no input comes twice, it makes no difference to the counts what the cases are handed over
in, and none to the results but in their order. -/
theorem runAll_perm (h : compile .anywhere source = .ok program) {container : Container}
    (hnodup : (container.given.map Prod.fst).Nodup) (options : MatchOptions) :
    ∃ r s : Report, runAll source container options = .ok r ∧
      run source container.given options = .ok s ∧ r.results.Perm s.results ∧
      r.total = s.total ∧ r.passed = s.passed ∧ r.failed = s.failed ∧
      r.allPassed = s.allPassed := by
  have hperm := (Container.entries_perm hnodup).map (fun case =>
    CaseResult.of case.1 case.2 (program.firstMatch case.1 options).isSome)
  exact ⟨_, _, run_of_compile h _ options, run_of_compile h _ options, hperm, counts_of_perm hperm⟩

end Report

end PatternAlgebra
