import DocumentQuery.Proofs.Alias
import Mathlib.Algebra.Group.Nat.Defs
/-!
# The search for an alias

`fresh` knows how many candidates it may have to pass over. A search that does
not know this tries one candidate after the other until one is free
(`Search.trial`), and counts in signed words of 32 bits. It could go on for ever
or run out of numbers, and does neither: it is over after one trial more than
there are taken candidates before the first free one, and finds that one
(`search_ends_at_first_free`). For this the lower case need not be known; it is
enough that it keeps digits. With the lower case of aliases, what is found is
`fresh`.
-/

namespace DocumentQuery

namespace Alias

/-- Where a search stands: the candidate that is tried next, and the number that
the candidate after it gets. -/
structure Search where
  current : String
  number : Int32

namespace Search

/-- What a trial leads to. -/
inductive Trial where
  | found (aliasName : String)
  | next (search : Search)
  /-- There is no number after the last. -/
  | outOfNumbers

/-- The search before the first trial. -/
def start (base : String) : Search :=
  ⟨base, 0⟩

/-- Tries the current candidate, and makes the next one if it is taken. -/
def trial (isTaken : String → Bool) (base : String) (search : Search) : Trial :=
  if isTaken search.current then
    if search.number = Int32.maxValue then .outOfNumbers
    else .next ⟨base ++ toString search.number, search.number + 1⟩
  else .found search.current

/-- The search is over after so many trials, with an alias. -/
inductive Finds (isTaken : String → Bool) (base : String) : Search → Nat → String → Prop where
  | found {search : Search} {aliasName : String}
      (h : search.trial isTaken base = .found aliasName) : Finds isTaken base search 1 aliasName
  | next {search later : Search} {trials : Nat} {aliasName : String}
      (h : search.trial isTaken base = .next later)
      (hlater : Finds isTaken base later trials aliasName) :
      Finds isTaken base search (trials + 1) aliasName

variable {isTaken : String → Bool} {base : String}

theorem Finds.unique {search : Search} {m n : Nat} {a b : String}
    (ha : search.Finds isTaken base m a) (hb : search.Finds isTaken base n b) :
    m = n ∧ a = b := by
  induction ha generalizing n with
  | found h =>
      cases hb with
      | found hfound =>
          rw [h] at hfound
          exact ⟨rfl, Trial.found.inj hfound⟩
      | next hnext hlater =>
          rw [h] at hnext
          exact absurd hnext (by simp)
  | next h hlater ih =>
      cases hb with
      | found hfound =>
          rw [h] at hfound
          exact absurd hfound (by simp)
      | next hnext hrest =>
          rw [h] at hnext
          obtain rfl := Trial.next.inj hnext
          obtain ⟨rfl, rfl⟩ := ih hrest
          exact ⟨rfl, rfl⟩

/-! ## The candidates that are tried -/

/-- The search after `n` candidates that were taken. -/
def passed (base : String) (n : Nat) : Search :=
  ⟨candidate base n, Int32.ofNat n⟩

theorem trial_passed_of_free {n : Nat} (h : isTaken (candidate base n) = false) :
    (passed base n).trial isTaken base = .found (candidate base n) := by
  simp [trial, passed, h]

theorem trial_passed_of_taken {n : Nat} (h : isTaken (candidate base n) = true)
    (hn : n + 1 < 2 ^ 31) :
    (passed base n).trial isTaken base = .next (passed base (n + 1)) := by
  have hnumber : (Int32.ofNat n).toInt = n := Int32.toInt_ofNat_of_lt (by omega)
  -- a number that has one after it is not the last
  have hlast : Int32.ofNat n ≠ Int32.maxValue := by
    intro hmax
    rw [hmax, Int32.toInt_maxValue] at hnumber
    omega
  have htext : toString (Int32.ofNat n) = toString n := by
    rw [show toString (Int32.ofNat n) = toString (Int32.ofNat n).toInt from rfl, hnumber]
    rfl
  have hcurrent : isTaken (passed base n).current = true := h
  rw [trial, if_pos hcurrent, passed, if_neg hlast, htext, passed, candidate, Int32.ofNat_add]
  rfl

/-- The trials from some candidate on up to the first that is free. -/
theorem finds_passed {n count tried : Nat} (hn : n < 2 ^ 31) (hcount : tried + count = n)
    (hfree : isTaken (candidate base n) = false)
    (htaken : ∀ m < n, isTaken (candidate base m) = true) :
    (passed base tried).Finds isTaken base (count + 1) (candidate base n) := by
  -- by induction on the candidates that are still to be passed over
  induction count generalizing tried with
  | zero =>
      obtain rfl : tried = n := by omega
      exact .found (trial_passed_of_free hfree)
  | succ count ih =>
      have hnow : isTaken (candidate base tried) = true := htaken tried (by omega)
      exact .next (trial_passed_of_taken hnow (by omega)) (ih (by omega))

theorem finds_start_iff {n : Nat} (hn : n < 2 ^ 31)
    (hfree : isTaken (candidate base n) = false)
    (htaken : ∀ m < n, isTaken (candidate base m) = true) (trials : Nat) (aliasName : String) :
    (start base).Finds isTaken base trials aliasName ↔
      trials = n + 1 ∧ aliasName = candidate base n := by
  have hfinds : (start base).Finds isTaken base (n + 1) (candidate base n) :=
    finds_passed hn (Nat.zero_add n) hfree htaken
  constructor
  · exact fun h => h.unique hfinds
  · rintro ⟨rfl, rfl⟩
    exact hfinds

end Search

/-! ## The first that is free -/

/-- With fewer than `2 ^ 31` aliases taken, the search is over after at most one
trial more than there are aliases taken, and finds the first candidate that agrees
with none of them in lower case. Of lower case it is used only that it keeps digits
after the base. With the lower case of aliases, the fresh alias is found. -/
theorem search_ends_at_first_free {lower : String → String} {base : String}
    {taken : List String} (hlower : Text.KeepsDigits lower base)
    (hfew : taken.length < 2 ^ 31) :
    ∃ n ≤ taken.length,
      (∀ trials aliasName,
        (Search.start base).Finds (isTakenBy lower taken) base trials aliasName ↔
          trials = n + 1 ∧ aliasName = candidate base n) ∧
      lower (candidate base n) ∉ taken.map lower ∧
      (∀ m < n, lower (candidate base m) ∈ taken.map lower) ∧
      (lower = Text.lowercase → fresh base taken = candidate base n) := by
  obtain ⟨n, hn, hfree, htaken⟩ := exists_first_free_candidate hlower taken
  refine ⟨n, hn, Search.finds_start_iff (by omega) hfree htaken,
    (isTakenBy_eq_false_iff taken _).mp hfree,
    fun m hm => (isTakenBy_iff taken _).mp (htaken m hm), ?_⟩
  rintro rfl
  rw [isTakenBy_lowercase] at hfree htaken
  exact fresh_eq_candidate hn hfree htaken

/-- Two of three aliases are in the way, one of them with a number already. -/
theorem search_ends_at_first_free_numbered :
    Text.KeepsDigits Text.lowercase "c" ∧ ["C", "x", "c0"].length < 2 ^ 31 ∧
      (Search.start "c").Finds (isTakenBy Text.lowercase ["C", "x", "c0"]) "c" 3 "c1" := by
  have hlower := Text.keepsDigits_lowercase "c"
  have hfew : ["C", "x", "c0"].length < 2 ^ 31 := by decide
  obtain ⟨n, hn, hfinds, -, -, hfresh⟩ := search_ends_at_first_free hlower hfew
  have hname : candidate "c" n = "c1" := (hfresh rfl).symm.trans (by decide +kernel)
  have hn2 : n = 2 :=
    (by decide : ∀ n ≤ 3, candidate "c" n = "c1" → n = 2) n hn hname
  subst hn2
  exact ⟨hlower, hfew, (hfinds 3 "c1").mpr ⟨rfl, hname.symm⟩⟩

end Alias

end DocumentQuery
