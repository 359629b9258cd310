import DocumentQuery.Text.LetterCase
/-!
# Aliases

The query language does not tell aliases apart that agree in lower case. A new
alias is made from a base by trying the base itself, then the base with 0, 1, …
after it. Of `n + 1` candidates that differ in lower case at most `n` can be
taken by `n` aliases, so the search may stop there.
-/

namespace DocumentQuery.Alias

def collide (a b : String) : Bool :=
  Text.lowercase a == Text.lowercase b

def isTaken (taken : List String) (aliasName : String) : Bool :=
  taken.any fun other => collide other aliasName

def candidate (base : String) : Nat → String
  | 0 => base
  | n + 1 => base ++ toString n

/-- The first candidate from number `tried` on that is not taken, of `count`
many; the one after them if all are taken. -/
def firstFree (taken : List String) (base : String) : (count tried : Nat) → String
  | 0, tried => candidate base tried
  | count + 1, tried =>
    if isTaken taken (candidate base tried) then firstFree taken base count (tried + 1)
    else candidate base tried

/-- An alias made from `base` that collides with none of the taken ones. -/
def fresh (base : String) (taken : List String) : String :=
  firstFree taken base taken.length 0

@[simp] theorem collide_refl (a : String) : collide a a = true := by
  simp [collide]

theorem collide_comm (a b : String) : collide a b = collide b a :=
  BEq.comm

theorem fresh_of_not_taken {base : String} {taken : List String}
    (free : isTaken taken base = false) : fresh base taken = base := by
  cases taken with
  | nil => rfl
  | cons other rest => simp [fresh, firstFree, candidate, free]

end DocumentQuery.Alias
