import DocumentQuery.Alias
import Mathlib.Data.List.Nodup
import Mathlib.Data.List.Perm.Subperm
import Mathlib.Data.Nat.Find
/-!
# Fresh aliases

The candidates for an alias differ in lower case, because a number after a text
is not touched by lower-casing and does not change what goes before it: a digit
is no letter, so even a final sigma stays final. Nothing else about lower case is
needed, so this is said of all functions that keep digits (`Text.KeepsDigits`).
Of `n + 1` candidates one is therefore free when `n` aliases are taken, and
`fresh` finds it (`isTaken_fresh`), passing over no free candidate before it
(`isFirstFree_fresh`). Aliases that are made fresh one after the other never
collide, which is what `Distinct` says of a list.
-/

namespace DocumentQuery

/-! ## Lower case before a number -/

namespace Text

/-- A property of digits is decided by going through the ten of them. -/
@[elab_as_elim]
theorem of_isDigit {P : Char → Prop} (hall : ∀ n < 58, 48 ≤ n → P (Char.ofNat n)) {c : Char}
    (h : c.isDigit = true) : P c := by
  simp only [Char.isDigit, Bool.and_eq_true, decide_eq_true_eq] at h
  have hlo : 48 ≤ c.toNat := h.1
  have hhi : c.toNat ≤ 57 := h.2
  have hc := hall c.toNat (by omega) hlo
  rwa [Char.ofNat_toNat] at hc

/-- A digit is not passed over between letters, is no letter, and is its own
small letter. -/
theorem isDigit_facts {c : Char} (h : c.isDigit = true) :
    isCaseIgnorable c = false ∧ isCased c = false ∧ lowerChar c = c ∧ c ≠ 'İ' ∧ c ≠ 'Σ' := by
  refine of_isDigit ?_ h
  decide +kernel

theorem meetsCased_append_digits (text digits : List Char)
    (h : ∀ c ∈ digits, c.isDigit = true) :
    meetsCased (text ++ digits) = meetsCased text := by
  unfold meetsCased
  rw [List.dropWhile_append]
  cases hrest : text.dropWhile isCaseIgnorable with
  | cons c rest => simp
  | nil =>
      cases digits with
      | nil => simp
      | cons d digits =>
          obtain ⟨hignorable, hcased, -⟩ := isDigit_facts (h d (by simp))
          simp [hignorable, hcased]

theorem lowerAfter_digits (before digits : List Char)
    (h : ∀ c ∈ digits, c.isDigit = true) : lowerAfter before digits = digits := by
  induction digits generalizing before with
  | nil => rfl
  | cons d digits ih =>
      obtain ⟨-, -, hlower, hdotted, hsigma⟩ := isDigit_facts (h d (by simp))
      have hrest := ih (d :: before) fun c hc => h c (by simp [hc])
      simp [lowerAfter, hdotted, hsigma, hlower, hrest]

theorem lowerAfter_append_digits (before text digits : List Char)
    (h : ∀ c ∈ digits, c.isDigit = true) :
    lowerAfter before (text ++ digits) = lowerAfter before text ++ digits := by
  induction text generalizing before with
  | nil => simpa using lowerAfter_digits before digits h
  | cons c text ih =>
      have hsigma : lowerSigma before (text ++ digits) = lowerSigma before text := by
        unfold lowerSigma
        rw [meetsCased_append_digits text digits h]
      simp only [List.cons_append, lowerAfter, ih, hsigma]
      split
      · rfl
      · split <;> rfl

theorem isDigit_of_mem_number {n : Nat} {c : Char} (h : c ∈ (toString n).toList) :
    c.isDigit = true := by
  rw [Nat.toString_eq_ofList_toDigits, String.toList_ofList] at h
  exact Nat.isDigit_of_mem_toDigits (by decide) (by decide) h

/-- Digits after `base` stay as they are, and do not change what `base` becomes. -/
def KeepsDigits (lower : String → String) (base : String) : Prop :=
  ∀ digits : List Char, (∀ c ∈ digits, c.isDigit = true) →
    lower (base ++ String.ofList digits) = lower base ++ String.ofList digits

theorem keepsDigits_lowercase (base : String) : KeepsDigits lowercase base := by
  intro digits hdigits
  have hlist := lowerAfter_append_digits [] base.toList digits hdigits
  apply String.toList_injective
  simpa only [lowercase, String.toList_append, String.toList_ofList] using hlist

theorem KeepsDigits.append_number {lower : String → String} {base : String}
    (h : KeepsDigits lower base) (n : Nat) :
    lower (base ++ toString n) = lower base ++ toString n := by
  have hnumber := h (toString n).toList fun _ => isDigit_of_mem_number
  rwa [String.ofList_toList] at hnumber

end Text

namespace Alias

/-! ## The candidates differ -/

section Candidates

variable {lower : String → String} {base : String}

/-- The lower case of a candidate is that of the base with the digits of the
number. -/
theorem toList_lower_candidate (h : Text.KeepsDigits lower base) (n : Nat) :
    (lower (candidate base n)).toList =
      (lower base).toList ++
        match n with
        | 0 => []
        | n + 1 => Nat.toDigits 10 n := by
  cases n with
  | zero => simp [candidate]
  | succ n =>
      rw [candidate, h.append_number]
      simp

theorem lower_candidate_injective (h : Text.KeepsDigits lower base) :
    Function.Injective fun n => lower (candidate base n) := by
  intro m n hequal
  have hlist := congrArg String.toList hequal
  simp only [toList_lower_candidate h] at hlist
  have hdigits := List.append_cancel_left hlist
  cases m with
  | zero =>
      cases n with
      | zero => rfl
      | succ n => exact absurd hdigits.symm Nat.toDigits_ne_nil
  | succ m =>
      cases n with
      | zero => exact absurd hdigits Nat.toDigits_ne_nil
      | succ n =>
          have hvalue := congrArg (Nat.ofDigitChars 10 · 0) hdigits
          simp only [Nat.ofDigitChars_ten_toDigits] at hvalue
          rw [hvalue]

/-! ## One of them is free -/

/-- Whether an alias agrees with one of a list after `lower`. -/
def isTakenBy (lower : String → String) (taken : List String) (aliasName : String) : Bool :=
  taken.any fun other => lower other == lower aliasName

theorem isTakenBy_lowercase (taken : List String) :
    isTakenBy Text.lowercase taken = isTaken taken := rfl

theorem isTakenBy_iff (taken : List String) (aliasName : String) :
    isTakenBy lower taken aliasName = true ↔ lower aliasName ∈ taken.map lower := by
  simp [isTakenBy]

theorem isTakenBy_eq_false_iff (taken : List String) (aliasName : String) :
    isTakenBy lower taken aliasName = false ↔ lower aliasName ∉ taken.map lower := by
  rw [← isTakenBy_iff, Bool.not_eq_true]

/-- As many candidates as there are taken aliases, and one more, cannot all be
taken. -/
theorem exists_free_candidate (h : Text.KeepsDigits lower base) (taken : List String) :
    ∃ n ≤ taken.length, isTakenBy lower taken (candidate base n) = false := by
  by_contra hnone
  have hall : ∀ n ≤ taken.length, isTakenBy lower taken (candidate base n) = true := by
    intro n hn
    by_contra hfree
    exact hnone ⟨n, hn, by simpa using hfree⟩
  have hnodup : ((List.range (taken.length + 1)).map fun n => lower (candidate base n)).Nodup :=
    List.Nodup.map (lower_candidate_injective h) List.nodup_range
  have hsubset : ((List.range (taken.length + 1)).map fun n => lower (candidate base n)) ⊆
      taken.map lower := by
    intro name hname
    obtain ⟨n, hn, rfl⟩ := List.mem_map.mp hname
    exact (isTakenBy_iff taken _).mp (hall n (by simpa [Nat.lt_succ_iff] using hn))
  have hlength := (hnodup.subperm hsubset).length_le
  simp only [List.length_map, List.length_range] at hlength
  omega

theorem exists_first_free_candidate (h : Text.KeepsDigits lower base) (taken : List String) :
    ∃ n ≤ taken.length, isTakenBy lower taken (candidate base n) = false ∧
      ∀ m < n, isTakenBy lower taken (candidate base m) = true := by
  obtain ⟨k, hk, hfree⟩ := exists_free_candidate h taken
  have hexists : ∃ n, isTakenBy lower taken (candidate base n) = false := ⟨k, hfree⟩
  have hle : Nat.find hexists ≤ k := Nat.find_min' hexists hfree
  refine ⟨Nat.find hexists, Nat.le_trans hle hk, Nat.find_spec hexists, ?_⟩
  intro m hm
  rw [← Bool.not_eq_false]
  exact Nat.find_min hexists hm

end Candidates

theorem isTaken_iff (taken : List String) (aliasName : String) :
    isTaken taken aliasName = true ↔
      Text.lowercase aliasName ∈ taken.map Text.lowercase :=
  isTakenBy_iff taken aliasName

theorem isTaken_eq_false_iff (taken : List String) (aliasName : String) :
    isTaken taken aliasName = false ↔
      Text.lowercase aliasName ∉ taken.map Text.lowercase :=
  isTakenBy_eq_false_iff taken aliasName

/-- The search goes on to the first free candidate, if that is in its reach. -/
theorem firstFree_eq_candidate {taken : List String} {base : String} {n count tried : Nat}
    (hfrom : tried ≤ n) (hto : n ≤ tried + count)
    (hfree : isTaken taken (candidate base n) = false)
    (htaken : ∀ m < n, isTaken taken (candidate base m) = true) :
    firstFree taken base count tried = candidate base n := by
  induction count generalizing tried with
  | zero =>
      obtain rfl : tried = n := by omega
      rfl
  | succ count ih =>
      rcases Nat.eq_or_lt_of_le hfrom with rfl | hlater
      · rw [firstFree, if_neg (Bool.eq_false_iff.mp hfree)]
      · rw [firstFree, if_pos (htaken tried hlater)]
        exact ih hlater (by omega)

theorem fresh_eq_candidate {taken : List String} {base : String} {n : Nat}
    (hn : n ≤ taken.length) (hfree : isTaken taken (candidate base n) = false)
    (htaken : ∀ m < n, isTaken taken (candidate base m) = true) :
    fresh base taken = candidate base n :=
  firstFree_eq_candidate (Nat.zero_le n) (by omega) hfree htaken

/-- `aliasName` is the first of the candidates made from `base` that is free. -/
def IsFirstFree (taken : List String) (base aliasName : String) : Prop :=
  ∃ n, aliasName = candidate base n ∧ isTaken taken aliasName = false ∧
    ∀ m < n, isTaken taken (candidate base m) = true

theorem isFirstFree_fresh (base : String) (taken : List String) :
    IsFirstFree taken base (fresh base taken) := by
  obtain ⟨n, hn, hfree, htaken⟩ :=
    exists_first_free_candidate (Text.keepsDigits_lowercase base) taken
  rw [isTakenBy_lowercase] at hfree htaken
  have hfresh := fresh_eq_candidate hn hfree htaken
  exact ⟨n, hfresh, by rwa [hfresh], htaken⟩

theorem isTaken_fresh (base : String) (taken : List String) :
    isTaken taken (fresh base taken) = false := by
  obtain ⟨-, -, hfree, -⟩ := isFirstFree_fresh base taken
  exact hfree

/-! ## Aliases that do not collide -/

/-- No two of the aliases collide. -/
def Distinct (aliases : List String) : Prop :=
  (aliases.map Text.lowercase).Nodup

theorem distinct_nil : Distinct [] := by
  simp [Distinct]

theorem distinct_append_singleton (aliases : List String) (aliasName : String) :
    Distinct (aliases ++ [aliasName]) ↔
      Distinct aliases ∧ isTaken aliases aliasName = false := by
  rw [isTaken_eq_false_iff]
  simp only [Distinct, List.map_append, List.map_cons, List.map_nil]
  rw [← List.concat_eq_append, List.nodup_concat, and_comm]

theorem Distinct.append_fresh {aliases : List String} (h : Distinct aliases) (base : String) :
    Distinct (aliases ++ [fresh base aliases]) :=
  (distinct_append_singleton aliases _).mpr ⟨h, isTaken_fresh base aliases⟩

end Alias

end DocumentQuery
