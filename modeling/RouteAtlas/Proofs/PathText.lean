import Mathlib.Data.List.Basic
import RouteAtlas.Tree.Walk

/-!
# Paths from the top, as texts

A path from the top that is made of proper names is read back from its text, by the reader of paths
(`Path.ofString_toString`) as by the walker of file trees (`Tree.steps_toString`).
-/

namespace RouteAtlas

/-- A name that an entry of a folder may have. -/
def IsName (s : String) : Prop :=
  s ≠ "" ∧ s ≠ "." ∧ s ≠ ".." ∧ '/' ∉ s.toList ∧ '\x00' ∉ s.toList

instance (s : String) : Decidable (IsName s) := inferInstanceAs (Decidable (_ ∧ _))

/-- Names that lead from one place to another. -/
def AreNames (names : List String) : Prop := ∀ s ∈ names, IsName s

instance (names : List String) : Decidable (AreNames names) :=
  inferInstanceAs (Decidable (∀ s ∈ names, IsName s))

namespace AreNames

theorem append {names more : List String} (h : AreNames names) (hmore : AreNames more) :
    AreNames (names ++ more) := by
  intro s hs
  rcases List.mem_append.mp hs with hs | hs
  · exact h s hs
  · exact hmore s hs

theorem right {names more : List String} (h : AreNames (names ++ more)) : AreNames more :=
  fun s hs => h s (List.mem_append_right _ hs)

end AreNames

namespace Path

/-! ## Pieces -/

theorem pieces_of_slashless {a : List Char} (h : '/' ∉ a) : pieces a = [a] := by
  induction a with
  | nil => rfl
  | cons c a ih =>
    obtain ⟨hc, ha⟩ := List.ne_and_not_mem_of_not_mem_cons h
    rw [pieces, if_neg (Ne.symm hc), ih ha]

theorem pieces_append_slash {a : List Char} (h : '/' ∉ a) (b : List Char) :
    pieces (a ++ '/' :: b) = a :: pieces b := by
  induction a with
  | nil => rfl
  | cons c a ih =>
    obtain ⟨hc, ha⟩ := List.ne_and_not_mem_of_not_mem_cons h
    rw [List.cons_append, pieces, if_neg (Ne.symm hc), ih ha]

theorem pieces_intercalate {parts : List (List Char)} (hne : parts ≠ [])
    (h : ∀ p ∈ parts, '/' ∉ p) : pieces (List.intercalate ['/'] parts) = parts := by
  induction parts with
  | nil => exact absurd rfl hne
  | cons p parts ih =>
    obtain ⟨hp, hparts⟩ := List.forall_mem_cons.mp h
    cases parts with
    | nil =>
      rw [List.intercalate_singleton]
      exact pieces_of_slashless hp
    | cons q parts =>
      rw [List.intercalate_cons_cons, List.append_assoc, List.singleton_append,
        pieces_append_slash hp, ih (List.cons_ne_nil _ _) hparts]

theorem pieces_ne_nil (a : List Char) : pieces a ≠ [] := by
  cases a with
  | nil => simp [pieces]
  | cons c a =>
    rw [pieces]
    split
    · simp
    · split <;> simp

theorem mem_of_mem_pieces {s piece : List Char} (hpiece : piece ∈ pieces s) :
    ∀ c ∈ piece, c ∈ s := by
  induction s generalizing piece with
  | nil =>
    rw [pieces, List.mem_singleton] at hpiece
    subst hpiece
    exact fun c hc => hc
  | cons d s ih =>
    rw [pieces] at hpiece
    split at hpiece
    · rcases List.mem_cons.mp hpiece with rfl | hpiece
      · exact fun c hc => absurd hc List.not_mem_nil
      · exact fun c hc => List.mem_cons_of_mem _ (ih hpiece c hc)
    · cases hpieces : pieces s with
      | nil => exact absurd hpieces (pieces_ne_nil s)
      | cons first more =>
        rw [hpieces] at hpiece
        rcases List.mem_cons.mp hpiece with rfl | hpiece
        · intro c hc
          rcases List.mem_cons.mp hc with rfl | hc
          · exact List.mem_cons_self
          · exact List.mem_cons_of_mem _ (ih (hpieces ▸ List.mem_cons_self) c hc)
        · intro c hc
          exact List.mem_cons_of_mem _ (ih (hpieces ▸ List.mem_cons_of_mem _ hpiece) c hc)

theorem pieces_append (a b : List Char) : pieces (a ++ '/' :: b) = pieces a ++ pieces b := by
  induction a with
  | nil => rfl
  | cons c a ih =>
    rw [List.cons_append, pieces, pieces, ih]
    split
    · rfl
    · cases hpieces : pieces a with
      | nil => exact absurd hpieces (pieces_ne_nil a)
      | cons piece more => rfl

/-! ## One more name -/

theorem intercalate_append_singleton {names : List String} (hne : names ≠ []) (name : String) :
    String.intercalate "/" (names ++ [name]) = String.intercalate "/" names ++ "/" ++ name := by
  induction names with
  | nil => exact absurd rfl hne
  | cons first names ih =>
    cases names with
    | nil => simp [String.intercalate_cons_cons]
    | cons second names =>
      have hmore := ih (List.cons_ne_nil _ _)
      rw [List.cons_append] at hmore
      rw [List.cons_append, List.cons_append, String.intercalate_cons_cons, hmore,
        String.intercalate_cons_cons]
      simp only [String.append_assoc]

theorem toList_toString_append {p : Path} (hne : p.names ≠ []) (name : String) :
    (toString (p.append [name])).toList = (toString p).toList ++ '/' :: name.toList := by
  have hmore : (p.append [name]).names ≠ [] := by simp [append]
  rw [toString, toString, if_neg (fun h => hmore h.2), if_neg (fun h => hne h.2)]
  show (p.anchor.text ++ String.intercalate "/" (p.names ++ [name])).toList = _
  rw [intercalate_append_singleton hne]
  simp

/-- The text of a path ends with its last name. -/
theorem exists_toList_toString_append (p : Path) (name : String) :
    ∃ front, (toString (p.append [name])).toList = front ++ name.toList := by
  by_cases hne : p.names = []
  · refine ⟨p.anchor.text.toList, ?_⟩
    rw [toString, if_neg (by simp [append])]
    simp [append, hne]
  · exact ⟨(toString p).toList ++ ['/'], by simp [toList_toString_append hne]⟩

/-! ## Paths from the top -/

variable {names : List String}

theorem toList_toString (names : List String) :
    (toString ⟨.root, names⟩).toList = '/' :: List.intercalate ['/'] (names.map String.toList) := by
  rw [toString, if_neg (by simp), String.toList_append, String.toList_intercalate]
  simp [Anchor.text]

theorem size_intercalate (h : names ≠ []) :
    (String.intercalate "/" names).utf8ByteSize + 1 =
      (String.join names).utf8ByteSize + names.length := by
  induction names with
  | nil => exact absurd rfl h
  | cons name rest ih =>
    rw [String.join_cons, String.utf8ByteSize_append, List.length_cons]
    cases rest with
    | nil => simp
    | cons next rest =>
      have hrest := ih (List.cons_ne_nil _ _)
      have hslash : "/".utf8ByteSize = 1 := rfl
      rw [String.intercalate_cons_cons, String.utf8ByteSize_append, String.utf8ByteSize_append,
        hslash]
      omega

/-- A path is as long as its names, with a slash for each. -/
theorem size_toString (h : names ≠ []) :
    (toString ⟨.root, names⟩).utf8ByteSize = (String.join names).utf8ByteSize + names.length := by
  have hslash : Anchor.root.text.utf8ByteSize = 1 := rfl
  rw [toString, if_neg (by simp), String.utf8ByteSize_append, hslash, Nat.add_comm,
    size_intercalate h]

/-- A path is no shorter than one above it. -/
theorem size_toString_le (names more : List String) :
    (toString ⟨.root, names⟩).utf8ByteSize ≤ (toString ⟨.root, names ++ more⟩).utf8ByteSize := by
  by_cases hmore : more = []
  · simp [hmore]
  · have hlength := List.length_pos_iff.mpr hmore
    rw [size_toString (by simp [hmore] : names ++ more ≠ []), String.join_append,
      String.utf8ByteSize_append, List.length_append]
    by_cases hnames : names = []
    · -- the top is a slash, and there is one before the first name
      subst hnames
      have htop : (toString ⟨.root, []⟩).utf8ByteSize = 1 := rfl
      omega
    · rw [size_toString hnames]
      omega

theorem slashless_of_names (h : AreNames names) : ∀ p ∈ names.map String.toList, '/' ∉ p := by
  intro p hp
  obtain ⟨s, hs, rfl⟩ := List.mem_map.mp hp
  exact (h s hs).2.2.2.1

/-- The pieces between the slashes of a path. The text starts with a slash, so that the first piece is
empty. -/
theorem pieces_toString (h : AreNames names) :
    pieces (toString ⟨.root, names⟩).toList =
      [] :: if names = [] then [[]] else names.map String.toList := by
  rw [toList_toString, pieces, if_pos rfl]
  by_cases hnames : names = []
  · rw [if_pos hnames, hnames]
    rfl
  · rw [if_neg hnames, pieces_intercalate (mt List.map_eq_nil_iff.mp hnames) (slashless_of_names h)]

theorem nonempty_of_names (h : AreNames names) {keep : List Char → Bool}
    (hkeep : ∀ s, IsName s → keep s.toList = true) (hdrop : keep [] = false) :
    ((pieces (toString ⟨.root, names⟩).toList).filter keep).map String.ofList = names := by
  have hall : (names.map String.toList).filter keep = names.map String.toList := by
    refine List.filter_eq_self.mpr fun p hp => ?_
    obtain ⟨s, hs, rfl⟩ := List.mem_map.mp hp
    exact hkeep s (h s hs)
  have hself : (names.map String.toList).map String.ofList = names := by
    rw [List.map_map]
    exact List.map_id'' (fun s => String.ofList_toList) names
  rw [pieces_toString h, List.filter_cons_of_neg (by simp [hdrop])]
  by_cases hnames : names = []
  · simp [hnames, hdrop]
  · rw [if_neg hnames, hall, hself]

theorem anchorOf_toString (h : AreNames names) : anchorOf (toString ⟨.root, names⟩).toList = .root := by
  rw [toList_toString]
  cases names with
  | nil => rfl
  | cons s names =>
    obtain ⟨hne, -, -, hslash, -⟩ := h s List.mem_cons_self
    cases hs : s.toList with
    | nil => exact absurd (String.toList_eq_nil_iff.mp hs) hne
    | cons c rest =>
      have hc : c ≠ '/' := by
        intro he
        rw [hs, he] at hslash
        exact hslash List.mem_cons_self
      obtain ⟨more, hmore⟩ : ∃ more, List.intercalate ['/'] ((s :: names).map String.toList) =
          c :: more := by
        cases names with
        | nil => exact ⟨rest, by simp [hs]⟩
        | cons s' names =>
          refine ⟨rest ++ ['/'] ++ List.intercalate ['/'] ((s' :: names).map String.toList), ?_⟩
          simp [hs, List.intercalate_cons_cons]
      rw [hmore]
      unfold anchorOf
      split
      · rfl
      · rename_i heq
        cases heq
        exact absurd rfl hc
      · rfl
      · rename_i hroot
        exact absurd rfl (hroot _)

/-- A path of names is read back from its text. -/
theorem ofString_toString (h : AreNames names) :
    ofString (toString ⟨.root, names⟩) = ⟨.root, names⟩ := by
  have hnames : namesOf (toString ⟨.root, names⟩).toList = names := by
    refine nonempty_of_names h (fun s hs => ?_) rfl
    have hempty : s.toList ≠ [] := fun he => hs.1 (String.toList_eq_nil_iff.mp he)
    have hdot : s.toList ≠ ['.'] := fun he => hs.2.1 (String.toList_injective he)
    simp [hempty, hdot]
  rw [ofString, anchorOf_toString h, hnames]

theorem toString_inj {more : List String} (h : AreNames names) (hmore : AreNames more) :
    toString ⟨.root, names⟩ = toString ⟨.root, more⟩ ↔ names = more := by
  constructor
  · intro heq
    have hpath := ofString_toString h
    rw [heq, ofString_toString hmore] at hpath
    cases hpath
    rfl
  · rintro rfl
    rfl

end Path

namespace Tree

variable {names : List String}

theorem notMem_intercalate {c : Char} (hc : c ≠ '/') {parts : List (List Char)}
    (h : ∀ part ∈ parts, c ∉ part) : c ∉ List.intercalate ['/'] parts := by
  induction parts with
  | nil => simp
  | cons part parts ih =>
    obtain ⟨hpart, hparts⟩ := List.forall_mem_cons.mp h
    cases parts with
    | nil => simpa using hpart
    | cons part' parts =>
      have hrest := ih hparts
      simp [List.intercalate_cons_cons, hpart, hc, hrest]

theorem isAddress_toString (h : AreNames names) : isAddress (Path.toString ⟨.root, names⟩) = true := by
  have hnull : '\x00' ∉ List.intercalate ['/'] (names.map String.toList) := by
    refine notMem_intercalate (by decide) fun part hpart => ?_
    obtain ⟨s, hs, rfl⟩ := List.mem_map.mp hpart
    exact (h s hs).2.2.2.2
  rw [isAddress, Path.toList_toString]
  simpa using hnull

theorem startOf_toString (here : Location) (names : List String) :
    startOf here (Path.toString ⟨.root, names⟩) = [] := by
  rw [startOf, Path.toList_toString]
  rfl

/-- The text of a path below the top does not end in a slash. -/
theorem getLast?_toString (hne : names ≠ []) (h : AreNames names) :
    (Path.toString ⟨.root, names⟩).toList.getLast? ≠ some '/' := by
  rw [Path.toList_toString]
  induction names with
  | nil => exact absurd rfl hne
  | cons s names ih =>
    obtain ⟨hs, hnames⟩ := List.forall_mem_cons.mp h
    cases names with
    | nil =>
      rw [List.map_singleton, List.intercalate_singleton]
      intro hlast
      have hempty : s.toList ≠ [] := fun he => hs.1 (String.toList_eq_nil_iff.mp he)
      rw [List.getLast?_cons_of_ne_nil hempty] at hlast
      exact hs.2.2.2.1 (List.mem_of_getLast? hlast)
    | cons s' names =>
      have hrest := ih (List.cons_ne_nil _ _) hnames
      rw [List.map_cons, List.map_cons, List.intercalate_cons_cons, List.append_assoc,
        List.singleton_append, ← List.cons_append, List.getLast?_append_cons]
      exact hrest

/-- A walk takes the names of a path; at the top, where there are none, it takes an empty one. -/
theorem steps_toString (h : AreNames names) :
    steps (Path.toString ⟨.root, names⟩) = if names = [] then [""] else names := by
  have hnames : (((Path.pieces (Path.toString ⟨.root, names⟩).toList).filter (· ≠ [])).map
      String.ofList) = names := by
    refine Path.nonempty_of_names h (fun s hs => ?_) rfl
    have hempty : s.toList ≠ [] := fun he => hs.1 (String.toList_eq_nil_iff.mp he)
    simp [hempty]
  rw [steps, hnames]
  by_cases hne : names = []
  · subst hne
    rfl
  · rw [if_neg hne, if_neg (getLast?_toString hne h)]

/-! ## Walks by one more name -/

theorem steps_of_getLast {path : String} (h : path.toList.getLast? ≠ some '/') :
    steps path = ((Path.pieces path.toList).filter (· ≠ [])).map String.ofList := by
  rw [steps, if_neg h]

theorem ne_empty_of_mem_steps {path : String} (h : path.toList.getLast? ≠ some '/') :
    ∀ s ∈ steps path, s ≠ "" := by
  intro s hs
  rw [steps_of_getLast h] at hs
  obtain ⟨piece, hpiece, rfl⟩ := List.mem_map.mp hs
  have hne : piece ≠ [] := by simpa using (List.mem_filter.mp hpiece).2
  intro hempty
  exact hne (by rw [← String.toList_ofList (l := piece), hempty]; rfl)

/-- The text of a path with a last name does not end in a slash. -/
theorem getLast?_toString_append {name : String} (hname : name.toList ≠ []) (hslash : '/' ∉ name.toList)
    (p : Path) : (Path.toString (p.append [name])).toList.getLast? ≠ some '/' := by
  obtain ⟨front, hfront⟩ := Path.exists_toList_toString_append p name
  rw [hfront, List.getLast?_append_of_ne_nil _ hname]
  intro hlast
  exact hslash (List.mem_of_getLast? hlast)

/-- A walk by a path with one more name takes that name last. -/
theorem steps_toString_append {p : Path} (hne : p.names ≠ [])
    (hp : (Path.toString p).toList.getLast? ≠ some '/') {name : String} (hname : name.toList ≠ [])
    (hslash : '/' ∉ name.toList) :
    steps (Path.toString (p.append [name])) = steps (Path.toString p) ++ [name] := by
  rw [steps_of_getLast hp, steps_of_getLast (getLast?_toString_append hname hslash p),
    Path.toList_toString_append hne, Path.pieces_append, Path.pieces_of_slashless hslash,
    List.filter_append, List.map_append, List.filter_cons_of_pos (by simpa using hname)]
  simp

theorem startOf_toString_append {p : Path} (hne : p.names ≠ [])
    (hp : (Path.toString p).toList ≠ []) (here : Location) (name : String) :
    startOf here (Path.toString (p.append [name])) = startOf here (Path.toString p) := by
  rw [startOf, startOf, Path.toList_toString_append hne, List.head?_append_of_ne_nil _ hp]

end Tree

end RouteAtlas
