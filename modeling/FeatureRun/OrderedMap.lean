/-!
# Finite maps that remember the order of their keys

A map from keys to values whose keys stand in the order in which they were first inserted. Inserting
a key again replaces its value and leaves it in its place. `get?` is the view of a map; the lemmas
say what each operation does to it and to the order of the keys.
-/
set_option autoImplicit false

namespace FeatureRun

structure OrderedMap (κ ν : Type) where
  entries : List (κ × ν)
  nodup_keys : (entries.map Prod.fst).Nodup

namespace OrderedMap

variable {κ ν : Type}

def empty : OrderedMap κ ν := ⟨[], List.nodup_nil⟩

instance : Inhabited (OrderedMap κ ν) := ⟨empty⟩

def keys (m : OrderedMap κ ν) : List κ := m.entries.map Prod.fst

def values (m : OrderedMap κ ν) : List ν := m.entries.map Prod.snd

def size (m : OrderedMap κ ν) : Nat := m.entries.length

variable [DecidableEq κ]

/-- The value of the first entry with a key. -/
def find? (k : κ) : List (κ × ν) → Option ν
  | [] => none
  | (a, v) :: es => if a = k then some v else find? k es

def get? (m : OrderedMap κ ν) (k : κ) : Option ν := find? k m.entries

def contains (m : OrderedMap κ ν) (k : κ) : Bool := (m.get? k).isSome

/-- Replaces the value of a key in its place, or puts the key at the end. -/
def put (k : κ) (v : ν) : List (κ × ν) → List (κ × ν)
  | [] => [(k, v)]
  | (a, w) :: es => if a = k then (k, v) :: es else (a, w) :: put k v es

theorem keys_put (k : κ) (v : ν) (es : List (κ × ν)) :
    (put k v es).map Prod.fst =
      if k ∈ es.map Prod.fst then es.map Prod.fst else es.map Prod.fst ++ [k] := by
  induction es with
  | nil => simp [put]
  | cons e es ih =>
    obtain ⟨a, w⟩ := e
    by_cases h : a = k
    · simp [put, h]
    · have hk : ¬k = a := fun e => h e.symm
      simp only [put, h, if_false, List.map_cons, ih, List.mem_cons, hk, false_or]
      split <;> simp

theorem nodup_put {k : κ} {v : ν} {es : List (κ × ν)} (h : (es.map Prod.fst).Nodup) :
    ((put k v es).map Prod.fst).Nodup := by
  rw [keys_put]
  split
  · exact h
  · rename_i hk
    rw [List.nodup_append]
    exact ⟨h, by simp, by grind⟩

def insert (m : OrderedMap κ ν) (k : κ) (v : ν) : OrderedMap κ ν :=
  ⟨put k v m.entries, nodup_put m.nodup_keys⟩

def erase (m : OrderedMap κ ν) (k : κ) : OrderedMap κ ν :=
  ⟨m.entries.filter (·.1 ≠ k), (m.nodup_keys).sublist (List.filter_sublist.map _)⟩

/-- The entries with a property. -/
def filter (m : OrderedMap κ ν) (p : κ → ν → Bool) : OrderedMap κ ν :=
  ⟨m.entries.filter fun e => p e.1 e.2, (m.nodup_keys).sublist (List.filter_sublist.map _)⟩

/-- Inserts entries one after another; of several with one key the last counts. -/
def insertAll (m : OrderedMap κ ν) (es : List (κ × ν)) : OrderedMap κ ν :=
  es.foldl (fun m e => m.insert e.1 e.2) m

def ofList (es : List (κ × ν)) : OrderedMap κ ν := empty.insertAll es

/-- Values by their keys, those with one key in the order in which they come. -/
def groupByKey (key : ν → κ) (vs : List ν) : OrderedMap κ (List ν) :=
  vs.foldl (fun m v => m.insert (key v) ((m.get? (key v)).getD [] ++ [v])) empty

theorem find?_put (k a : κ) (v : ν) (es : List (κ × ν)) :
    find? a (put k v es) = if a = k then some v else find? a es := by
  induction es with
  | nil => by_cases h : k = a <;> simp [put, find?, h, eq_comm]
  | cons e es ih =>
    obtain ⟨b, w⟩ := e
    by_cases hb : b = k
    · by_cases h : k = a <;> simp [put, find?, hb, h, eq_comm]
    · by_cases h : b = a
      · subst h; simp [put, find?, hb]
      · simp [put, find?, hb, h, ih]

@[simp] theorem get?_empty (a : κ) : (empty : OrderedMap κ ν).get? a = none := rfl

theorem get?_insert (m : OrderedMap κ ν) (k a : κ) (v : ν) :
    (m.insert k v).get? a = if a = k then some v else m.get? a := find?_put k a v m.entries

theorem keys_insert (m : OrderedMap κ ν) (k : κ) (v : ν) :
    (m.insert k v).keys = if k ∈ m.keys then m.keys else m.keys ++ [k] := keys_put k v m.entries

theorem get?_groupByKey (key : ν → κ) (vs : List ν) (a : κ) :
    ((groupByKey key vs).get? a).getD [] = vs.filter fun v => key v = a := by
  -- what has been put under a key before is followed by the values that are still to come
  suffices h : ∀ m : OrderedMap κ (List ν),
      ((vs.foldl (fun m v => m.insert (key v) ((m.get? (key v)).getD [] ++ [v])) m).get? a).getD [] =
        (m.get? a).getD [] ++ vs.filter fun v => key v = a from h empty
  induction vs with
  | nil => simp
  | cons v vs ih =>
    intro m
    rw [List.foldl_cons, ih, get?_insert, List.filter_cons]
    by_cases h : a = key v
    · simp [h]
    · simp [h, Ne.symm h]

theorem find?_filter_ne (k a : κ) (es : List (κ × ν)) :
    find? a (es.filter (·.1 ≠ k)) = if a = k then none else find? a es := by
  induction es with
  | nil => simp [find?]
  | cons e es ih =>
    obtain ⟨b, w⟩ := e
    rw [List.filter_cons]
    by_cases hb : b = k
    · subst hb
      by_cases h : a = b
      · simpa [h] using ih
      · have h' : ¬b = a := fun e => h e.symm
        simpa [find?, h, h'] using ih
    · by_cases h : b = a
      · subst h; simp [find?, hb]
      · simpa [find?, hb, h] using ih

theorem get?_erase (m : OrderedMap κ ν) (k a : κ) :
    (m.erase k).get? a = if a = k then none else m.get? a := find?_filter_ne k a m.entries

end OrderedMap
end FeatureRun
