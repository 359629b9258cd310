import DocumentQuery.Json.Value
/-!
# Equality of JSON values

Two values are the same when they differ only in the order of the fields of
objects and in the sign of zero. Each value has a canonical form: the fields
sorted by name, the last value kept where a name is repeated, and zero without
sign. Two values are the same exactly when their canonical forms are equal
(`same_iff`), so sameness is an equivalence.
-/

namespace DocumentQuery.Json

mutual

def identical : Json → Json → Bool
  | .null, .null => true
  | .bool a, .bool b => a == b
  | .number a, .number b => decide (a = b)
  | .string a, .string b => a == b
  | .array a, .array b => identicalItems a b
  | .object a, .object b => identicalFields a b
  | _, _ => false

def identicalItems : List Json → List Json → Bool
  | [], [] => true
  | a :: as, b :: bs => identical a b && identicalItems as bs
  | _, _ => false

def identicalFields : List (String × Json) → List (String × Json) → Bool
  | [], [] => true
  | (k, a) :: as, (l, b) :: bs => k == l && identical a b && identicalFields as bs
  | _, _ => false

end

mutual

theorem eq_of_identical : ∀ {a b : Json}, identical a b = true → a = b
  | .null, b, h => by cases b <;> simp_all [identical]
  | .bool _, b, h => by cases b <;> simp_all [identical]
  | .number _, b, h => by cases b <;> simp_all [identical]
  | .string _, b, h => by cases b <;> simp_all [identical]
  | .array as, b, h => by
    cases b with
    | array bs => exact congrArg _ (eq_of_identicalItems h)
    | _ => simp [identical] at h
  | .object as, b, h => by
    cases b with
    | object bs => exact congrArg _ (eq_of_identicalFields h)
    | _ => simp [identical] at h

theorem eq_of_identicalItems :
    ∀ {as bs : List Json}, identicalItems as bs = true → as = bs
  | [], bs, h => by cases bs <;> simp_all [identicalItems]
  | a :: as, [], h => by simp [identicalItems] at h
  | a :: as, b :: bs, h => by
    simp only [identicalItems, Bool.and_eq_true] at h
    rw [eq_of_identical h.1, eq_of_identicalItems h.2]

theorem eq_of_identicalFields :
    ∀ {as bs : List (String × Json)}, identicalFields as bs = true → as = bs
  | [], bs, h => by cases bs <;> simp_all [identicalFields]
  | (k, a) :: as, [], h => by simp [identicalFields] at h
  | (k, a) :: as, (l, b) :: bs, h => by
    simp only [identicalFields, Bool.and_eq_true, beq_iff_eq] at h
    rw [h.1.1, eq_of_identical h.1.2, eq_of_identicalFields h.2]

end

mutual

theorem identical_refl : ∀ a : Json, identical a a = true
  | .null => rfl
  | .bool _ => by simp [identical]
  | .number _ => by simp [identical]
  | .string _ => by simp [identical]
  | .array as => identicalItems_refl as
  | .object as => identicalFields_refl as

theorem identicalItems_refl : ∀ as : List Json, identicalItems as as = true
  | [] => rfl
  | a :: as => by simp [identicalItems, identical_refl a, identicalItems_refl as]

theorem identicalFields_refl : ∀ as : List (String × Json), identicalFields as as = true
  | [] => rfl
  | (k, a) :: as => by simp [identicalFields, identical_refl a, identicalFields_refl as]

end

theorem identical_iff {a b : Json} : identical a b = true ↔ a = b :=
  ⟨eq_of_identical, fun h => h ▸ identical_refl a⟩

instance : DecidableEq Json := fun _ _ => decidable_of_iff _ identical_iff

/-- Puts a field into a list that is sorted by name. A field of that name which
is already there stays. -/
def insertField (name : String) (value : Json) : List (String × Json) → List (String × Json)
  | [] => [(name, value)]
  | (k, v) :: rest =>
    if name = k then (k, v) :: rest
    else if name < k then (name, value) :: (k, v) :: rest
    else (k, v) :: insertField name value rest

mutual

def canonical : Json → Json
  | .null => .null
  | .bool b => .bool b
  | .number (.integer n) => .number (.integer n)
  | .number (.float x) => .number (.float x.unsignedZero)
  | .string s => .string s
  | .array items => .array (canonicalItems items)
  | .object fields => .object (canonicalFields fields)

def canonicalItems : List Json → List Json
  | [] => []
  | item :: rest => item.canonical :: canonicalItems rest

/-- The canonical fields of an object: sorted by name, and of the fields of one
name the last. -/
def canonicalFields : List (String × Json) → List (String × Json)
  | [] => []
  | (name, value) :: rest => insertField name value.canonical (canonicalFields rest)

end

/-- Whether two values are the same up to the order of fields and the sign of
zero. -/
def same (a b : Json) : Bool :=
  decide (a.canonical = b.canonical)

theorem same_iff {a b : Json} : same a b = true ↔ a.canonical = b.canonical := by
  simp [same]

@[simp] theorem same_refl (a : Json) : same a a = true := by
  simp [same]

end DocumentQuery.Json
