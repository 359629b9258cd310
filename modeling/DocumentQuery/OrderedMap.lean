/-!
# Insertion-ordered maps

An `OrderedMap κ α` lists its entries in the order in which their keys were
first inserted. Inserting under a present key replaces the value where it
stands. The entries are kept as a plain list and are not required to have
different keys: a map read from outside may repeat a key, and `duplicate?`
finds the first repetition. Look-up always answers for the first entry of a
key.
-/

namespace DocumentQuery

/-- Entries in order of first insertion. -/
structure OrderedMap (κ α : Type) where
  entries : List (κ × α)

namespace OrderedMap

variable {κ α : Type}

def empty : OrderedMap κ α := ⟨[]⟩

def keys (map : OrderedMap κ α) : List κ :=
  map.entries.map Prod.fst

def values (map : OrderedMap κ α) : List α :=
  map.entries.map Prod.snd

def size (map : OrderedMap κ α) : Nat :=
  map.entries.length

def isEmpty (map : OrderedMap κ α) : Bool :=
  map.entries.isEmpty

variable [DecidableEq κ]

/-- Puts `value` under `key` in a list of entries: in place of the first entry
of that key, else at the end. The value that was replaced is returned. -/
def insertEntry (key : κ) (value : α) : List (κ × α) → Option α × List (κ × α)
  | [] => (none, [(key, value)])
  | (k, v) :: rest =>
    if k = key then (some v, (k, value) :: rest)
    else
      let (old, rest') := insertEntry key value rest
      (old, (k, v) :: rest')

def insert (map : OrderedMap κ α) (key : κ) (value : α) : Option α × OrderedMap κ α :=
  let (old, entries) := insertEntry key value map.entries
  (old, ⟨entries⟩)

def insertAll (map : OrderedMap κ α) : List (κ × α) → OrderedMap κ α
  | [] => map
  | (key, value) :: rest => insertAll (map.insert key value).2 rest

def ofList (pairs : List (κ × α)) : OrderedMap κ α :=
  empty.insertAll pairs

def lookupEntry (key : κ) : List (κ × α) → Option α
  | [] => none
  | (k, v) :: rest => if k = key then some v else lookupEntry key rest

def get? (map : OrderedMap κ α) (key : κ) : Option α :=
  lookupEntry key map.entries

def contains (map : OrderedMap κ α) (key : κ) : Bool :=
  (map.get? key).isSome

/-- The first key of a list that occurs in `seen` or earlier in the list. -/
def firstRepeated (seen : List κ) : List κ → Option κ
  | [] => none
  | key :: rest => if key ∈ seen then some key else firstRepeated (key :: seen) rest

/-- The key of the earliest entry that repeats the key of an entry before it. -/
def duplicate? (map : OrderedMap κ α) : Option κ :=
  firstRepeated [] map.keys

@[simp] theorem insertAll_nil (map : OrderedMap κ α) : map.insertAll [] = map := rfl

theorem insertAll_cons (map : OrderedMap κ α) (key : κ) (value : α) (rest : List (κ × α)) :
    map.insertAll ((key, value) :: rest) = (map.insert key value).2.insertAll rest := rfl

@[simp] theorem get?_empty (key : κ) : (empty : OrderedMap κ α).get? key = none := rfl

end OrderedMap

end DocumentQuery
