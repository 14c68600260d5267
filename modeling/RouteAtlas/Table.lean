/-!
# Tables in insertion order

A table binds distinct keys to values and remembers the order in which the keys first came.
Rebinding a key keeps its place. The view is `Table.entries`; `get?` after `put` and the keys after
`put` are stated beside the operations.
-/

namespace RouteAtlas

/-- Distinct keys with their values, in the order in which the keys first came. -/
structure Table (κ α : Type) where
  /-- The bindings, oldest key first. -/
  entries : List (κ × α)
  /-- No key is bound twice. -/
  distinct : (entries.map Prod.fst).Nodup
deriving Repr

namespace Table

variable {κ α : Type}

instance [DecidableEq κ] [DecidableEq α] : DecidableEq (Table κ α) := fun a b =>
  decidable_of_iff (a.entries = b.entries) (by cases a; cases b; simp)

/-- The table without bindings. -/
def empty : Table κ α := ⟨[], List.nodup_nil⟩

instance : EmptyCollection (Table κ α) := ⟨empty⟩

instance : Inhabited (Table κ α) := ⟨empty⟩

/-- The bound keys, oldest first. -/
def keys (t : Table κ α) : List κ := t.entries.map Prod.fst

/-- The values, in the order of their keys. -/
def values (t : Table κ α) : List α := t.entries.map Prod.snd

/-- The number of bindings. -/
def size (t : Table κ α) : Nat := t.entries.length

/-- Whether nothing is bound. -/
def isEmpty (t : Table κ α) : Bool := t.entries.isEmpty

/-! ## Looking up and binding -/

variable [DecidableEq κ]

/-- The value of the first pair with key `k`. -/
def lookup (k : κ) : List (κ × α) → Option α
  | [] => none
  | (k', a) :: rest => if k' = k then some a else lookup k rest

/-- Gives the pair with key `k` the value `a` where it stands, or adds the pair at the end. -/
def assign (k : κ) (a : α) : List (κ × α) → List (κ × α)
  | [] => [(k, a)]
  | (k', a') :: rest => if k' = k then (k, a) :: rest else (k', a') :: assign k a rest

theorem mem_keys_assign {k x : κ} {a : α} {l : List (κ × α)} :
    x ∈ (assign k a l).map Prod.fst ↔ x = k ∨ x ∈ l.map Prod.fst := by
  induction l with
  | nil => simp [assign]
  | cons p rest ih =>
    by_cases h : p.1 = k
    · simp [assign, h]
    · rw [assign, if_neg h, List.map_cons, List.mem_cons, ih, List.map_cons, List.mem_cons]
      constructor
      · rintro (h | h | h) <;> simp [h]
      · rintro (h | h | h) <;> simp [h]

theorem nodup_assign {k : κ} {a : α} {l : List (κ × α)} (h : (l.map Prod.fst).Nodup) :
    ((assign k a l).map Prod.fst).Nodup := by
  induction l with
  | nil => simp [assign]
  | cons p rest ih =>
    rw [List.map_cons, List.nodup_cons] at h
    by_cases hk : p.1 = k
    · simpa [assign, hk] using h
    · rw [assign, if_neg hk, List.map_cons, List.nodup_cons]
      refine ⟨fun hm => ?_, ih h.2⟩
      rcases mem_keys_assign.mp hm with hp | hp
      · exact hk hp
      · exact h.1 hp

/-- The value bound to `k`, if any. -/
def get? (t : Table κ α) (k : κ) : Option α := lookup k t.entries

/-- Whether `k` is bound. -/
def contains (t : Table κ α) (k : κ) : Bool := (t.get? k).isSome

/-- Binds `k` to `a`; a key that was bound before keeps its place. -/
def put (t : Table κ α) (k : κ) (a : α) : Table κ α :=
  ⟨assign k a t.entries, nodup_assign t.distinct⟩

/-- Drops the binding of `k`, if any. -/
def erase (t : Table κ α) (k : κ) : Table κ α where
  entries := t.entries.filter fun p => p.1 ≠ k
  distinct := t.distinct.sublist (List.filter_sublist.map _)

/-- Binds the pairs of a list in turn: a repeated key keeps its first place and takes its last
value. -/
def putAll (t : Table κ α) (pairs : List (κ × α)) : Table κ α :=
  pairs.foldl (fun t p => t.put p.1 p.2) t

/-- The table of a list of pairs. -/
def ofList (pairs : List (κ × α)) : Table κ α := empty.putAll pairs

/-- The bindings of `t` overridden and extended by those of `u`. -/
def merge (t u : Table κ α) : Table κ α := t.putAll u.entries

/-! ## What an operation does to a look-up -/

theorem lookup_assign {k x : κ} {a : α} {l : List (κ × α)} :
    lookup x (assign k a l) = if k = x then some a else lookup x l := by
  induction l with
  | nil => simp [assign, lookup]
  | cons p rest ih =>
    by_cases hk : p.1 = k
    · by_cases hx : k = x <;> simp [assign, lookup, hk, hx]
    · rw [assign, if_neg hk, lookup, lookup, ih]
      by_cases hx : p.1 = x
      · rw [if_pos hx, if_pos hx, if_neg fun h => hk (hx.trans h.symm)]
      · rw [if_neg hx, if_neg hx]

@[simp]
theorem get?_empty (k : κ) : (empty : Table κ α).get? k = none := rfl

theorem get?_put (t : Table κ α) (k x : κ) (a : α) :
    (t.put k a).get? x = if k = x then some a else t.get? x :=
  lookup_assign

@[simp]
theorem get?_put_self (t : Table κ α) (k : κ) (a : α) : (t.put k a).get? k = some a := by
  rw [get?_put, if_pos rfl]

theorem mem_keys_put {t : Table κ α} {k x : κ} {a : α} :
    x ∈ (t.put k a).keys ↔ x = k ∨ x ∈ t.keys :=
  mem_keys_assign

end Table

end RouteAtlas
