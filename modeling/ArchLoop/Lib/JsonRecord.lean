import Mathlib.Tactic.Common

/-!
# `ArchLoop.Lib.JsonRecord`: JSON values, and the objects among them as records

A `Record` is a JSON object as a JavaScript program sees it: a finite map from keys to
values. It is a list of entries in which the first entry of a key counts, so `merge` puts the
entries of the later object in front. `get` goes through `set`, `merge` and `erase` by
`get_set`, `get_merge` and `get_erase`; two records are told apart by `get` alone.

`Json.same` compares two values entry by entry, which decides whether they are equal.
-/

set_option autoImplicit false

namespace ArchLoop.Lib

/-- A JSON value. Numbers are whole. -/
inductive Json where
  | null
  | bool (b : Bool)
  | num (n : Int)
  | str (text : String)
  | arr (items : List Json)
  | obj (entries : List (String × Json))

/-- The entries of a JSON object. Of several entries with one key the first one counts. -/
abbrev Record : Type := List (String × Json)

namespace Json

/-- The entries of an object; any other value has none. -/
def entries : Json → Record
  | obj entries => entries
  | _ => []

/-- The text of a string. -/
def text? : Json → Option String
  | str text => some text
  | _ => none

/-- The value counts as true in a condition. -/
def truthy : Json → Bool
  | null => false
  | bool b => b
  | num n => n != 0
  | str text => text != ""
  | arr _ => true
  | obj _ => true

end Json

namespace Record

/-- The value of the key. -/
def get (r : Record) (key : String) : Option Json :=
  List.lookup key r

/-- The record with the key set to the value. -/
def set (r : Record) (key : String) (value : Json) : Record :=
  (key, value) :: r

/-- The record with the entries of `patch` set. -/
def merge (r patch : Record) : Record :=
  patch ++ r

/-- The record without the keys. -/
def erase (r : Record) (keys : List String) : Record :=
  r.filter fun entry => entry.1 ∉ keys

/-- The keys of the record. -/
def keys (r : Record) : List String :=
  r.map Prod.fst

variable {r patch : Record} {key k : String} {value : Json} {ks : List String}

@[simp] theorem get_nil : get [] key = none := rfl

theorem get_cons {entry : String × Json} :
    get (entry :: r) k = if k = entry.1 then some entry.2 else r.get k := by
  by_cases h : k = entry.1
  · rw [h, if_pos rfl, get, List.lookup_cons, beq_self_eq_true]
  · rw [if_neg h, get, List.lookup_cons, beq_false_of_ne h]
    rfl

@[simp] theorem get_set : (r.set key value).get k = if k = key then some value else r.get k :=
  get_cons

@[simp] theorem get_merge : (r.merge patch).get k = (patch.get k).or (r.get k) := by
  simp [get, merge, List.lookup_append]

@[simp] theorem get_erase : (r.erase ks).get k = if k ∈ ks then none else r.get k := by
  induction r with
  | nil => simp [erase]
  | cons entry r ih =>
    by_cases hmem : entry.1 ∈ ks
    · have hdrop : erase (entry :: r) ks = erase r ks := by simp [erase, hmem]
      rw [hdrop, ih, get_cons]
      by_cases hk : k = entry.1
      · simp [hk, hmem]
      · simp [hk]
    · have hkeep : erase (entry :: r) ks = entry :: erase r ks := by simp [erase, hmem]
      rw [hkeep, get_cons, ih, get_cons]
      by_cases hk : k = entry.1
      · simp [hk, hmem]
      · simp [hk]

theorem mem_keys : k ∈ r.keys ↔ r.get k ≠ none := by
  induction r with
  | nil => simp [keys]
  | cons entry r ih =>
    rw [get_cons, keys, List.map_cons, List.mem_cons]
    by_cases hk : k = entry.1
    · simp [hk]
    · rw [if_neg hk, ← ih]
      simp [hk, keys]

end Record

/-! ### Decidable equality -/

mutual

/-- The values are the same, entry by entry and in the same order. -/
def Json.same : Json → Json → Bool
  | .null, .null => true
  | .bool a, .bool b => a = b
  | .num a, .num b => a = b
  | .str a, .str b => a = b
  | .arr a, .arr b => sameItems a b
  | .obj a, .obj b => sameEntries a b
  | _, _ => false

def Json.sameItems : List Json → List Json → Bool
  | [], [] => true
  | a :: as, b :: bs => a.same b && sameItems as bs
  | _, _ => false

def Json.sameEntries : List (String × Json) → List (String × Json) → Bool
  | [], [] => true
  | a :: as, b :: bs => a.1 = b.1 && a.2.same b.2 && sameEntries as bs
  | _, _ => false

end

mutual

theorem Json.same_self : (a : Json) → a.same a = true
  | .null => rfl
  | .bool _ => decide_eq_true rfl
  | .num _ => decide_eq_true rfl
  | .str _ => decide_eq_true rfl
  | .arr a => sameItems_self a
  | .obj a => sameEntries_self a

theorem Json.sameItems_self : (a : List Json) → sameItems a a = true
  | [] => rfl
  | a :: as => by rw [sameItems, same_self a, sameItems_self as]; rfl

theorem Json.sameEntries_self : (a : List (String × Json)) → sameEntries a a = true
  | [] => rfl
  | a :: as => by rw [sameEntries, same_self a.2, sameEntries_self as]; simp

end

mutual

theorem Json.eq_of_same : (a b : Json) → a.same b = true → a = b
  | .null, b, h => by cases b <;> first | rfl | cases h
  | .bool _, b, h => by
    cases b with
    | bool _ => exact congrArg _ (of_decide_eq_true h)
    | _ => cases h
  | .num _, b, h => by
    cases b with
    | num _ => exact congrArg _ (of_decide_eq_true h)
    | _ => cases h
  | .str _, b, h => by
    cases b with
    | str _ => exact congrArg _ (of_decide_eq_true h)
    | _ => cases h
  | .arr a, b, h => by
    cases b with
    | arr b => exact congrArg _ (eq_of_sameItems a b h)
    | _ => cases h
  | .obj a, b, h => by
    cases b with
    | obj b => exact congrArg _ (eq_of_sameEntries a b h)
    | _ => cases h

theorem Json.eq_of_sameItems : (a b : List Json) → sameItems a b = true → a = b
  | [], b, h => by
    cases b with
    | nil => rfl
    | cons => cases h
  | a :: as, b, h => by
    cases b with
    | nil => cases h
    | cons b bs =>
      obtain ⟨hhead, htail⟩ := (Bool.and_eq_true _ _).mp h
      rw [eq_of_same a b hhead, eq_of_sameItems as bs htail]

theorem Json.eq_of_sameEntries :
    (a b : List (String × Json)) → sameEntries a b = true → a = b
  | [], b, h => by
    cases b with
    | nil => rfl
    | cons => cases h
  | a :: as, b, h => by
    cases b with
    | nil => cases h
    | cons b bs =>
      obtain ⟨hhead, htail⟩ := (Bool.and_eq_true _ _).mp h
      obtain ⟨hkey, hvalue⟩ := (Bool.and_eq_true _ _).mp hhead
      rw [Prod.ext (of_decide_eq_true hkey) (eq_of_same a.2 b.2 hvalue),
        eq_of_sameEntries as bs htail]

end

instance : DecidableEq Json := fun a b =>
  decidable_of_iff (a.same b = true) ⟨Json.eq_of_same a b, fun h => h ▸ Json.same_self a⟩

end ArchLoop.Lib
