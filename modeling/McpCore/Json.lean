import Mathlib.Data.List.Basic

/-!
# JSON values

`serde_json::Value` as the crate uses it.  An object is a map ordered by key;
it is a list of members here, and `insert` puts a member at its key's place,
replacing the one that was there.
-/

namespace McpCore

/-- `serde_json::Number`: an integer, or a float by its bits. -/
inductive Number where
  | int (n : Int)
  | float (bits : UInt64)
deriving DecidableEq

/-- `serde_json::Value`. -/
inductive Value where
  | null
  | bool (b : Bool)
  | number (n : Number)
  | string (s : String)
  | array (elements : List Value)
  | object (members : List (String × Value))

namespace Value

/-- `Value::get` with a key: nothing on anything but an object. -/
def get (key : String) : Value → Option Value
  | .object members => members.lookup key
  | _ => none

def asStr : Value → Option String
  | .string s => some s
  | _ => none

def isObject : Value → Bool
  | .object _ => true
  | _ => false

def isArray : Value → Bool
  | .array _ => true
  | _ => false

/-- `Map::insert`. -/
def insert (key : String) (value : Value) : List (String × Value) → List (String × Value)
  | [] => [(key, value)]
  | (k, v) :: members =>
      if key < k then (key, value) :: (k, v) :: members
      else if key = k then (key, value) :: members
      else (k, v) :: insert key value members

/-- The object of a `json!` literal, its members inserted in turn. -/
def obj (members : List (String × Value)) : Value :=
  .object (members.foldl (fun object member => insert member.1 member.2 object) [])

/-- `object[key] = value`. -/
def set (object : Value) (key : String) (value : Value) : Value :=
  match object with
  | .object members => .object (insert key value members)
  | other => other

section Lookup

variable {key key' : String} {value : Value}

theorem lookup_insert (members : List (String × Value)) :
    (insert key value members).lookup key' =
      if key' = key then some value else members.lookup key' := by
  induction members with
  | nil =>
      by_cases h : key' = key
      · simp [insert, h]
      · simp [insert, h, List.lookup_cons, beq_false_of_ne h]
  | cons member members ih =>
      obtain ⟨k, v⟩ := member
      unfold insert
      split
      · by_cases h : key' = key
        · simp [h]
        · simp [h, List.lookup_cons, beq_false_of_ne h]
      · split
        · rename_i hk
          subst k
          by_cases h : key' = key
          · simp [h]
          · simp [h, List.lookup_cons, beq_false_of_ne h]
        · rename_i hk
          rw [List.lookup_cons, ih, List.lookup_cons]
          by_cases h : key' = k
          · have hne : k ≠ key := fun heq => hk heq.symm
            simp [h, hne]
          · simp [beq_false_of_ne h]

theorem lookup_foldl_insert (members object : List (String × Value)) :
    (members.foldl (fun object member => insert member.1 member.2 object) object).lookup key' =
      (members.reverse.lookup key').or (object.lookup key') := by
  induction members generalizing object with
  | nil =>
      simp
  | cons member members ih =>
      obtain ⟨k, v⟩ := member
      rw [List.foldl_cons, ih, lookup_insert, List.reverse_cons, List.lookup_append]
      by_cases h : key' = k
      · simp [h]
      · simp [h, List.lookup_cons, beq_false_of_ne h]

/-- Of members with one key, the last is the object's. -/
theorem get_obj (members : List (String × Value)) :
    (obj members).get key = members.reverse.lookup key := by
  rw [obj, get, lookup_foldl_insert]
  simp

theorem get_set {object : Value} (hobject : object.isObject = true) :
    (object.set key value).get key' = if key' = key then some value else object.get key' := by
  cases object with
  | object members => exact lookup_insert members
  | _ => cases hobject

theorem isObject_set {object : Value} (hobject : object.isObject = true) :
    (object.set key value).isObject = true := by
  cases object with
  | object members => rfl
  | _ => cases hobject

@[simp] theorem isObject_obj (members : List (String × Value)) :
    (obj members).isObject = true := by
  rfl

end Lookup

end Value

end McpCore
