import RouteAtlas.Table

/-!
# File trees

A tree of folders, files and symbolic links. A place in it is named by the names that lead there
from the top, without following links; following them is the matter of paths.

Names are texts. A file system may hold names whose bytes are no UTF-8; such trees are left out.
-/

namespace RouteAtlas

/-- What stands at a place of a file tree. -/
inductive Tree where
  | file (bytes : List UInt8)
  /-- A symbolic link to the path that is written in it. -/
  | link (target : String)
  /-- A folder with its entries, under distinct names. -/
  | folder (entries : List (String × Tree))
deriving Inhabited, Repr

namespace Tree

/-- The names that lead to a place from the top. -/
abbrev Location := List String

/-- Whether it is a folder. -/
def isFolder : Tree → Bool
  | folder _ => true
  | _ => false

/-- Whether it is a file. -/
def isFile : Tree → Bool
  | file _ => true
  | _ => false

/-- The entries of a folder; nothing else has any. -/
def entries : Tree → List (String × Tree)
  | folder es => es
  | _ => []

/-- The entry of a folder with a name. -/
def child? (t : Tree) (name : String) : Option Tree := Table.lookup name t.entries

/-- What stands at a place, if anything does. -/
def at? (t : Tree) : Location → Option Tree
  | [] => some t
  | name :: rest => (t.child? name).bind fun c => c.at? rest

/-- Puts something at a place. Folders on the way are made where there is nothing; below a file or a
link nothing can be put. -/
def put (new : Tree) : Location → Tree → Tree
  | [], _ => new
  | name :: rest, folder es =>
    folder (Table.assign name (put new rest ((Table.lookup name es).getD (folder []))) es)
  | _ :: _, t => t

/-- Takes away what stands at a place. The top stays. -/
def remove : Location → Tree → Tree
  | [name], folder es => folder (es.filter fun e => e.1 ≠ name)
  | name :: rest, folder es =>
    match Table.lookup name es with
    | some c => folder (Table.assign name (remove rest c) es)
    | none => folder es
  | _, t => t

theorem at?_nil (t : Tree) : t.at? [] = some t := rfl

theorem at?_cons (t : Tree) (name : String) (rest : Location) :
    t.at? (name :: rest) = (t.child? name).bind fun c => c.at? rest := rfl

theorem at?_append (t : Tree) (l m : Location) :
    t.at? (l ++ m) = (t.at? l).bind fun c => c.at? m := by
  induction l generalizing t with
  | nil => rfl
  | cons name rest ih =>
    rw [List.cons_append, at?_cons, at?_cons]
    cases t.child? name with
    | none => rfl
    | some c => exact ih c

mutual

/-- The number of links in the tree. -/
def linkCount : Tree → Nat
  | file _ => 0
  | link _ => 1
  | folder es => linkCountIn es

/-- The number of links in the entries of a folder. -/
def linkCountIn : List (String × Tree) → Nat
  | [] => 0
  | (_, t) :: rest => linkCount t + linkCountIn rest

end

end Tree

end RouteAtlas
