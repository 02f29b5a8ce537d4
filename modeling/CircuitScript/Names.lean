/-!
Finite sets of names and maps between names, both kept in ascending order of code points, which is
the order in which they are written out.
-/
namespace CircuitScript

/-- A set of names, listed in ascending order. -/
structure NameSet where
  toList : List String
  deriving DecidableEq, Repr, Inhabited

namespace NameSet

def empty : NameSet := ⟨[]⟩

/-- Puts a name into its place in an ascending list, once. -/
def place (name : String) : List String → List String
  | [] => [name]
  | other :: rest =>
    if name = other then other :: rest
    else if name < other then name :: other :: rest
    else other :: place name rest

def insert (names : NameSet) (name : String) : NameSet := ⟨place name names.toList⟩

def contains (names : NameSet) (name : String) : Bool := names.toList.contains name

def ofList (list : List String) : NameSet := list.foldl insert empty

theorem mem_place {x name : String} {list : List String} :
    x ∈ place name list ↔ x = name ∨ x ∈ list := by
  induction list with
  | nil => simp [place]
  | cons other rest ih =>
    unfold place
    split
    · next h => subst h; simp
    · split
      · simp
      · simp only [List.mem_cons, ih]
        constructor <;> rintro (h | h | h) <;> simp [h]

@[simp] theorem contains_insert (names : NameSet) (name x : String) :
    (names.insert name).contains x = (x == name || names.contains x) := by
  rw [Bool.eq_iff_iff]
  simp [contains, insert, mem_place]

@[simp] theorem contains_empty (x : String) : empty.contains x = false := by
  simp [contains, empty]

end NameSet

/-- A map from names, listed in ascending order of the keys. -/
structure Dict (α : Type) where
  entries : List (String × α)
  deriving DecidableEq, Repr, Inhabited

namespace Dict

variable {α : Type}

def empty : Dict α := ⟨[]⟩

/-- Puts an entry into its place in an ascending list, over any entry of the same key. -/
def place (key : String) (value : α) : List (String × α) → List (String × α)
  | [] => [(key, value)]
  | entry :: rest =>
    if key = entry.1 then (key, value) :: rest
    else if key < entry.1 then (key, value) :: entry :: rest
    else entry :: place key value rest

def insert (dict : Dict α) (key : String) (value : α) : Dict α := ⟨place key value dict.entries⟩

def get? (dict : Dict α) (key : String) : Option α := dict.entries.lookup key

def hasKey (dict : Dict α) (key : String) : Bool := (dict.get? key).isSome

def hasValue [BEq α] (dict : Dict α) (value : α) : Bool :=
  dict.entries.any fun entry => entry.2 == value

def ofList (list : List (String × α)) : Dict α :=
  list.foldl (fun dict entry => dict.insert entry.1 entry.2) empty

theorem lookup_place (key : String) (value : α) (x : String) (list : List (String × α)) :
    (place key value list).lookup x = if x = key then some value else list.lookup x := by
  induction list with
  | nil => grind [place]
  | cons entry rest ih => grind [place]

@[simp] theorem get?_insert (dict : Dict α) (key : String) (value : α) (x : String) :
    (dict.insert key value).get? x = if x = key then some value else dict.get? x :=
  lookup_place key value x dict.entries

@[simp] theorem get?_empty (x : String) : (empty : Dict α).get? x = none := rfl

end Dict

/-- A map from names to names. -/
abbrev NameMap := Dict String

end CircuitScript
