import RouteAtlas.Proofs.Project
import RouteAtlas.Watch.Change

/-!
# Edits of single files

An edit makes a file, writes it anew, takes it away or moves it, and the operating system tells of it.
Whatever is seen elsewhere stays as it is (`Edit.edited`).
-/

namespace RouteAtlas

namespace Tree

/-- The path to a place. -/
def pathTo (l : Location) : String := Path.toString ⟨.root, l⟩

/-- A file below a folder is made, written anew, taken away or moved, with what the operating system
says of it. -/
inductive Edit (root : Location) (fs : Tree) : Watch.Event → Tree → Prop
  | created {above : Location} {name : String} (bytes : List UInt8) (hname : IsName name)
      (hfree : Free fs (root ++ above) name)
      (hnone : fs.sightAt? (root ++ above ++ [name]) = none) :
      Edit root fs (.created (pathTo (root ++ above ++ [name])))
        (put (.file bytes) (root ++ above ++ [name]) fs)
  | modified {above : Location} {name : String} {old : List UInt8} (bytes : List UInt8)
      (hold : fs.sightAt? (root ++ above ++ [name]) = some (.file old)) :
      Edit root fs (.modified (pathTo (root ++ above ++ [name])))
        (put (.file bytes) (root ++ above ++ [name]) fs)
  | deleted {above : Location} {name : String} {old : List UInt8}
      (hold : fs.sightAt? (root ++ above ++ [name]) = some (.file old)) :
      Edit root fs (.deleted (pathTo (root ++ above ++ [name])))
        (remove (root ++ above ++ [name]) fs)
  | moved {above above' : Location} {name name' : String} {bytes : List UInt8}
      (hold : fs.sightAt? (root ++ above ++ [name]) = some (.file bytes)) (hname : IsName name')
      (hfree : Free fs (root ++ above') name') :
      Edit root fs
        (.moved (pathTo (root ++ above ++ [name])) (pathTo (root ++ above' ++ [name'])))
        (put (.file bytes) (root ++ above' ++ [name']) (remove (root ++ above ++ [name]) fs))

/-- What changes keep, and where they change anything. -/
structure Edited (root : Location) (fs : Tree) (changes : List Watch.FileChange) (fs' : Tree) :
    Prop where
  project : IsProject fs' root
  elsewhere : ∀ m, fs'.sightAt? m = fs.sightAt? m ∨ ∃ change ∈ changes, change.path = pathTo m
  known : ∀ change ∈ changes, ∃ q, AreNames (root ++ q) ∧ change.path = pathTo (root ++ q)

namespace Edited

variable {root : Location} {fs fs' fs'' : Tree} {changes more : List Watch.FileChange}

theorem trans (h : Edited root fs changes fs') (h' : Edited root fs' more fs'') :
    Edited root fs (changes ++ more) fs'' where
  project := h'.project
  elsewhere := by
    intro m
    rcases h'.elsewhere m with hsame | ⟨change, hmem, hpath⟩
    · rcases h.elsewhere m with hsame' | ⟨change, hmem, hpath⟩
      · exact Or.inl (hsame.trans hsame')
      · exact Or.inr ⟨change, List.mem_append_left _ hmem, hpath⟩
    · exact Or.inr ⟨change, List.mem_append_right _ hmem, hpath⟩
  known := by
    intro change hmem
    rcases List.mem_append.mp hmem with hmem | hmem
    · exact h.known change hmem
    · exact h'.known change hmem

/-- One place changes, and its path is told. -/
theorem single {above : Location} {name : String} {s : Option Sight} (hproject : IsProject fs' root)
    (hnames : AreNames (root ++ above ++ [name]))
    (hsight : ∀ m, fs'.sightAt? m = if m = root ++ above ++ [name] then s else fs.sightAt? m)
    (kind : Watch.ChangeKind) :
    Edited root fs [⟨pathTo (root ++ above ++ [name]), kind⟩] fs' where
  project := hproject
  elsewhere := by
    intro m
    by_cases hm : m = root ++ above ++ [name]
    · exact Or.inr ⟨_, List.mem_singleton_self _, hm ▸ rfl⟩
    · exact Or.inl (by rw [hsight, if_neg hm])
  known := by
    intro change hchange
    rw [List.mem_singleton.mp hchange]
    refine ⟨above ++ [name], ?_, ?_⟩
    · rw [← List.append_assoc]
      exact hnames
    · rw [← List.append_assoc]

theorem put (h : IsProject fs root) {above : Location} {name : String}
    (hfree : Free fs (root ++ above) name) (hname : IsName name) (bytes : List UInt8)
    (kind : Watch.ChangeKind) :
    Edited root fs [⟨pathTo (root ++ above ++ [name]), kind⟩]
      (put (.file bytes) (root ++ above ++ [name]) fs) := by
  have hnames := (h.names_of_sight hfree.parent).append (List.forall_mem_singleton.mpr hname)
  refine single ?_ hnames (sightAt?_put hfree bytes) kind
  rw [List.append_assoc] at hnames ⊢
  exact h.put (by simp) hnames.right bytes

theorem remove (h : IsProject fs root) {above : Location} {name : String} {old : List UInt8}
    (hold : fs.sightAt? (root ++ above ++ [name]) = some (.file old)) :
    Edited root fs [⟨pathTo (root ++ above ++ [name]), .deleted⟩]
      (remove (root ++ above ++ [name]) fs) := by
  have hnames : AreNames (root ++ above ++ [name]) := by
    rw [List.append_assoc] at hold ⊢
    exact h.names_of_sight hold
  refine single ?_ hnames (sightAt?_remove (.of_file hold)) .deleted
  rw [List.append_assoc]
  exact h.remove (by simp)

end Edited

theorem Edit.edited {root : Location} {fs fs' : Tree} {e : Watch.Event} (h : IsProject fs root)
    (he : Edit root fs e fs') : Edited root fs e.changes fs' := by
  cases he with
  | created bytes hname hfree hnone => exact .put h hfree hname bytes .created
  | @modified above name old bytes hold =>
    have hname : IsName name := by
      rw [List.append_assoc] at hold
      exact (h.names_of_sight hold).right.right name (List.mem_singleton_self name)
    exact .put h (.of_file hold) hname bytes .modified
  | deleted hold => exact .remove h hold
  | @moved above above' name name' bytes hold hname hfree =>
    -- a move is a deletion and then a creation
    have hchanges : (Watch.Event.moved (pathTo (root ++ above ++ [name]))
        (pathTo (root ++ above' ++ [name']))).changes =
          [⟨pathTo (root ++ above ++ [name]), .deleted⟩] ++
            [⟨pathTo (root ++ above' ++ [name']), .created⟩] := by
      simp [Watch.Event.changes, pathTo, isEmpty_toString]
    have hgone := Edited.remove h hold
    rw [hchanges]
    exact hgone.trans (.put hgone.project (hfree.remove (.of_file hold) hold) hname bytes .created)

end Tree

end RouteAtlas
