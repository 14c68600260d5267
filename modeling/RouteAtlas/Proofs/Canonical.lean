import RouteAtlas.Proofs.Project
import RouteAtlas.Proofs.Walking

/-!
# Canonical forms of paths to folders

A walk follows each link where it meets it; the search for a canonical form opens each link once and
then knows where it leads. Where the walk comes to a folder the search comes to the same one
(`Tree.resolve_of_locate`): it meets no link while that link is open, since a link that needs itself
has no end, and it never opens more links than there are.
-/

namespace RouteAtlas.Tree

variable {fs : Tree} {here next there mid : Location} {name target : String}
  {names rest : List String}

/-! ## Where names lead -/

/-- The names of a path as they are written, empty ones between slashes among them. -/
def namesOf (path : String) : List String := (Path.pieces path.toList).map String.ofList

/-- The names lead from one folder to another, by this number of links, where each link leads to a
folder itself. -/
inductive Comes (fs : Tree) : Location → List String → Location → Nat → Prop
  | done {here : Location} : Comes fs here [] here 0
  | turn {here next there : Location} {name : String} {rest : List String} {n : Nat}
      (hname : Turns here name next) (hrest : Comes fs next rest there n) :
      Comes fs here (name :: rest) there n
  | enter {here there : Location} {name : String} {rest : List String} {n : Nat}
      (hname : Enters name) (hfolder : fs.sightAt? (here ++ [name]) = some .folder)
      (hrest : Comes fs (here ++ [name]) rest there n) : Comes fs here (name :: rest) there n
  | follow {here mid there : Location} {name target : String} {rest : List String} {m n : Nat}
      (hname : Enters name) (hlink : fs.sightAt? (here ++ [name]) = some (.link target))
      (htarget : Comes fs (startOf here target) (namesOf target) mid m)
      (hrest : Comes fs mid rest there n) : Comes fs here (name :: rest) there (m + n + 1)

theorem Turns.not_enters (h : Turns here name next) : ¬ Enters name := by
  intro henter
  cases h with
  | stay h => exact h.elim henter.nonempty henter.not_dot
  | up => exact henter.not_up rfl

theorem Turns.unique {next' : Location} (h : Turns here name next) (h' : Turns here name next') :
    next = next' := by
  cases h with
  | stay h =>
    cases h' with
    | stay => rfl
    | up => exact absurd h (by decide)
  | up =>
    cases h' with
    | stay h => exact absurd h (by decide)
    | up => rfl

/-- Names lead to one folder only, in one way. -/
theorem Comes.unique {n n' : Nat} {there' : Location} (h : Comes fs here names there n)
    (h' : Comes fs here names there' n') : there = there' ∧ n = n' := by
  induction h generalizing there' n' with
  | done =>
    cases h'
    exact ⟨rfl, rfl⟩
  | turn hname hrest ih =>
    cases h' with
    | turn hname' hrest' =>
      rw [hname.unique hname'] at ih
      exact ih hrest'
    | enter hname' => exact absurd hname' hname.not_enters
    | follow hname' => exact absurd hname' hname.not_enters
  | enter hname hfolder hrest ih =>
    cases h' with
    | turn hname' => exact absurd hname hname'.not_enters
    | enter hname' hfolder' hrest' => exact ih hrest'
    | follow hname' hlink' => cases hfolder.symm.trans hlink'
  | follow hname hlink htarget hrest ihtarget ihrest =>
    cases h' with
    | turn hname' => exact absurd hname hname'.not_enters
    | enter hname' hfolder' => cases hlink.symm.trans hfolder'
    | follow hname' hlink' htarget' hrest' =>
      cases hlink.symm.trans hlink'
      obtain ⟨rfl, rfl⟩ := ihtarget htarget'
      obtain ⟨rfl, rfl⟩ := ihrest hrest'
      exact ⟨rfl, rfl⟩

theorem Comes.split {more : List String} {n : Nat} (h : Comes fs here (names ++ more) there n) :
    ∃ mid m k, Comes fs here names mid m ∧ Comes fs mid more there k := by
  induction names generalizing here n with
  | nil => exact ⟨here, 0, n, .done, h⟩
  | cons name rest ih =>
    rw [List.cons_append] at h
    cases h with
    | turn hname hrest =>
      obtain ⟨mid, m, k, hfirst, hmore⟩ := ih hrest
      exact ⟨mid, m, k, .turn hname hfirst, hmore⟩
    | enter hname hfolder hrest =>
      obtain ⟨mid, m, k, hfirst, hmore⟩ := ih hrest
      exact ⟨mid, m, k, .enter hname hfolder hfirst, hmore⟩
    | follow hname hlink htarget hrest =>
      obtain ⟨mid, m, k, hfirst, hmore⟩ := ih hrest
      exact ⟨mid, _, k, .follow hname hlink htarget hfirst, hmore⟩

/-- Empty names and single dots change nothing. -/
def Counts (name : String) : Bool := name ≠ "" && name ≠ "."

theorem comes_filter_iff {n : Nat} :
    Comes fs here (names.filter Counts) there n ↔ Comes fs here names there n := by
  constructor
  · intro h
    induction names generalizing here n with
    | nil => exact h
    | cons name rest ih =>
      by_cases hname : Counts name = true
      · rw [List.filter_cons_of_pos hname] at h
        cases h with
        | turn hturn hrest => exact .turn hturn (ih hrest)
        | enter henter hfolder hrest => exact .enter henter hfolder (ih hrest)
        | follow henter hlink htarget hrest => exact .follow henter hlink htarget (ih hrest)
      · rw [List.filter_cons_of_neg hname] at h
        have hstay : name = "" ∨ name = "." := by
          simp only [Counts, Bool.and_eq_true, decide_eq_true_eq] at hname
          by_cases hempty : name = ""
          · exact Or.inl hempty
          · exact Or.inr (by_contra fun hdot => hname ⟨hempty, hdot⟩)
        exact .turn (.stay hstay) (ih h)
  · intro h
    induction h with
    | done => exact .done
    | @turn here next there name rest n hname hrest ih =>
      by_cases hcounts : Counts name = true
      · rw [List.filter_cons_of_pos hcounts]
        exact .turn hname ih
      · rw [List.filter_cons_of_neg hcounts]
        cases hname with
        | stay => exact ih
        | up => exact absurd rfl hcounts
    | enter hname hfolder hrest ih =>
      rw [List.filter_cons_of_pos (by simp [Counts, hname.nonempty, hname.not_dot])]
      exact .enter hname hfolder ih
    | follow hname hlink htarget hrest ihtarget ihrest =>
      rw [List.filter_cons_of_pos (by simp [Counts, hname.nonempty, hname.not_dot])]
      exact .follow hname hlink htarget ihrest

theorem comes_congr {names' : List String} (h : names.filter Counts = names'.filter Counts) {n : Nat} :
    Comes fs here names there n ↔ Comes fs here names' there n := by
  rw [← comes_filter_iff, h, comes_filter_iff]

/-- Leaving out pieces that do not count leaves the names that count. -/
theorem filter_counts_map {keep : List Char → Bool} (hkeep : ∀ p, keep p = false → p = [] ∨ p = ['.'])
    (pieces : List (List Char)) :
    ((pieces.filter keep).map String.ofList).filter Counts =
      (pieces.map String.ofList).filter Counts := by
  induction pieces with
  | nil => rfl
  | cons piece more ih =>
    cases hpiece : keep piece with
    | true =>
      rw [List.filter_cons_of_pos hpiece, List.map_cons, List.map_cons]
      simp only [List.filter_cons, ih]
    | false =>
      have hcounts : Counts (String.ofList piece) = false := by
        rcases hkeep piece hpiece with rfl | rfl <;> rfl
      rw [List.filter_cons_of_neg (by simp [hpiece]), List.map_cons,
        List.filter_cons_of_neg (by simp [hcounts]), ih]

theorem filter_steps (path : String) :
    (steps path).filter Counts = (namesOf path).filter Counts := by
  have hnames : (((Path.pieces path.toList).filter (· ≠ [])).map String.ofList).filter Counts =
      (namesOf path).filter Counts := by
    refine filter_counts_map (fun piece hpiece => ?_) _
    exact Or.inl (by simpa using hpiece)
  rw [steps]
  split
  · rw [List.filter_append, hnames]
    exact List.append_nil _
  · exact hnames

/-! ## The walk -/

theorem comes_of_stroll {place : Location} {es : List (String × Tree)}
    (h : stroll fs .target here names = .place (.taken place (.folder es))) :
    Comes fs here names place 0 := by
  induction names generalizing here with
  | nil =>
    rw [stroll] at h
    split at h
    · cases h
      exact .done
    · contradiction
  | cons name rest ih =>
    rcases turns_or_enters here name with ⟨next, hturn⟩ | henter | hlong
    · rw [stroll_turn hturn] at h
      exact .turn hturn (ih h)
    · rw [stroll_enter henter, if_neg (by simp)] at h
      split at h
      · split at h <;> cases h
      · rename_i es' hes'
        exact .enter henter (sightAt?_of_at hes') (ih h)
      · rw [if_neg (by simp)] at h
        contradiction
      · split at h <;> cases h
    · rw [hlong] at h
      contradiction

theorem comes_of_stroll_link {above : Location} {left : List String} {n : Nat}
    (h : stroll fs .target here names = .link above target left)
    (hleft : Comes fs (startOf above target) (steps target ++ left) there n) :
    ∃ k, Comes fs here names there k := by
  induction names generalizing here with
  | nil =>
    rw [stroll] at h
    split at h <;> contradiction
  | cons name rest ih =>
    rcases turns_or_enters here name with ⟨next, hturn⟩ | henter | hlong
    · rw [stroll_turn hturn] at h
      obtain ⟨k, hrest⟩ := ih h
      exact ⟨k, .turn hturn hrest⟩
    · rw [stroll_enter henter, if_neg (by simp)] at h
      split at h
      · split at h <;> cases h
      · rename_i es hes
        obtain ⟨k, hrest⟩ := ih h
        exact ⟨k, .enter henter (sightAt?_of_at hes) hrest⟩
      · rename_i target' htarget'
        rw [if_neg (by simp)] at h
        cases h
        obtain ⟨mid, m, k, htarget, hrest⟩ := hleft.split
        exact ⟨_, .follow henter (sightAt?_of_at htarget')
          ((comes_congr (filter_steps target)).mp htarget) hrest⟩
      · split at h <;> cases h
    · rw [hlong] at h
      contradiction

/-- A walk that ends in a folder has come there. -/
theorem comes_of_walk {budget : Nat} {es : List (String × Tree)}
    (h : walk fs .target budget here names = .ok (.taken there (.folder es))) :
    ∃ n, Comes fs here names there n := by
  refine walk_induction (motive := fun _ here names => ∃ n, Comes fs here names there n) ?_ ?_ h
  · intro budget here names hstroll
    exact ⟨0, comes_of_stroll hstroll⟩
  · rintro budget here names above target left hstroll ⟨n, hleft⟩
    exact comes_of_stroll_link hstroll hleft

/-! ## The links of a tree -/

mutual

/-- The places of the links in what stands at a place. -/
def linksIn (place : Location) : Tree → List Location
  | file _ => []
  | link _ => [place]
  | folder es => linksAmong place es

/-- The places of the links among the entries of the folder at a place. -/
def linksAmong (place : Location) : List (String × Tree) → List Location
  | [] => []
  | (name, t) :: rest => linksIn (place ++ [name]) t ++ linksAmong place rest

end

mutual

theorem length_linksIn (place : Location) : ∀ t, (linksIn place t).length = linkCount t
  | file _ => rfl
  | link _ => rfl
  | folder es => length_linksAmong place es

theorem length_linksAmong (place : Location) : ∀ es, (linksAmong place es).length = linkCountIn es
  | [] => rfl
  | (name, t) :: rest => by
    rw [linksAmong, List.length_append, length_linksIn, length_linksAmong place rest, linkCountIn]

end

theorem linksIn_subset_linksAmong {place : Location} {es : List (String × Tree)} {t : Tree}
    (h : (name, t) ∈ es) : ∀ l ∈ linksIn (place ++ [name]) t, l ∈ linksAmong place es := by
  induction es with
  | nil => contradiction
  | cons e es ih =>
    intro l hl
    rw [linksAmong, List.mem_append]
    rcases List.mem_cons.mp h with rfl | h
    · exact Or.inl hl
    · exact Or.inr (ih h l hl)

/-- A link that is seen in a tree is among its links. -/
theorem mem_linksIn {t : Tree} {place l : Location} (h : t.sightAt? l = some (.link target)) :
    place ++ l ∈ linksIn place t := by
  induction l generalizing t place with
  | nil =>
    cases t with
    | link target' =>
      rw [List.append_nil]
      exact List.mem_singleton_self place
    | file bytes => cases h
    | folder es => cases h
  | cons name rest ih =>
    cases t with
    | file bytes => cases h
    | link target' => cases h
    | folder es =>
      rw [sightAt?_folder_cons] at h
      obtain ⟨c, hc, hrest⟩ := Option.bind_eq_some_iff.mp h
      have hmem : place ++ [name] ++ rest ∈ linksAmong place es :=
        linksIn_subset_linksAmong (Table.mem_of_lookup hc) _ (ih hrest)
      rw [List.append_assoc] at hmem
      exact hmem

theorem countP_lt_of_mem {α : Type} {p q : α → Bool} {l : List α} {a : α} (ha : a ∈ l)
    (hp : p a = false) (hq : q a = true) (hpq : ∀ x, p x = true → q x = true) :
    l.countP p < l.countP q := by
  induction l with
  | nil => contradiction
  | cons x l ih =>
    have hmono : l.countP p ≤ l.countP q := List.countP_mono_left fun x _ hx => hpq x hx
    rcases List.mem_cons.mp ha with rfl | ha
    · rw [List.countP_cons_of_neg (by simp [hp]), List.countP_cons_of_pos hq]
      omega
    · have hless := ih ha
      by_cases hx : p x = true
      · rw [List.countP_cons_of_pos hx, List.countP_cons_of_pos (hpq x hx)]
        omega
      · rw [List.countP_cons_of_neg hx]
        exact Nat.lt_of_lt_of_le hless (by rw [List.countP_cons]; omega)

/-! ## The search -/

/-- The link at a place leads to a folder, by this number of further links. -/
def Linked (fs : Tree) (place l : Location) (m : Nat) : Prop :=
  ∃ above name target, place = above ++ [name] ∧ fs.sightAt? place = some (.link target) ∧
    Comes fs (startOf above target) (namesOf target) l m

theorem Linked.unique {place l l' : Location} {m m' : Nat} (h : Linked fs place l m)
    (h' : Linked fs place l' m') : l = l' ∧ m = m' := by
  obtain ⟨above, name, target, rfl, hlink, hcomes⟩ := h
  obtain ⟨above', name', target', hplace, hlink', hcomes'⟩ := h'
  obtain ⟨rfl, -⟩ := List.append_inj' hplace rfl
  cases hlink.symm.trans hlink'
  exact hcomes.unique hcomes'

/-- What a search that has got so far knows is right: the links that are closed lead where it says, each
link that is open needs at least `n` more links to be followed, and links that have not been met may
still be opened. -/
structure Holds (fs : Tree) (seen : Seen) (n budget : Nat) : Prop where
  closed : ∀ place l, seen.get? place = some (some l) → ∃ m, Linked fs place l m
  opened : ∀ place, seen.get? place = some none → ∃ l m, Linked fs place l m ∧ n ≤ m
  room : (linksIn [] fs).countP (fun place => (seen.get? place).isNone) ≤ budget

theorem search_turn (h : Turns here name next) (seen : Seen) (tasks : List Task) :
    search fs seen here (.name name :: tasks) = search fs seen next tasks := by
  rw [search]
  cases h with
  | stay h => rw [if_pos (by simpa using h)]
  | up => rw [if_neg (by decide), if_pos rfl]

theorem search_folder (h : Enters name) (hfolder : fs.sightAt? (here ++ [name]) = some .folder)
    (seen : Seen) (tasks : List Task) :
    search fs seen here (.name name :: tasks) = search fs seen (here ++ [name]) tasks := by
  obtain ⟨es, hes⟩ := exists_folder_of_sight hfolder
  rw [search, if_neg (by simp [h.nonempty, h.not_dot]), if_neg h.not_up]
  simp only [hes]

/-- A link is opened unless it has been met. -/
theorem search_link (h : Enters name) (hlink : fs.sightAt? (here ++ [name]) = some (.link target))
    (seen : Seen) (tasks : List Task) :
    search fs seen here (.name name :: tasks) =
      match seen.get? (here ++ [name]) with
      | none => .opening seen here (here ++ [name]) target tasks
      | some none => .loop (here ++ [name]) tasks
      | some (some known) => search fs seen known tasks := by
  rw [search, if_neg (by simp [h.nonempty, h.not_dot]), if_neg h.not_up]
  cases hseen : seen.get? (here ++ [name]) with
  | none => simp only [at?_of_sight_link hlink, hseen]
  | some known? => cases known? <;> simp only [at?_of_sight_link hlink, hseen]

theorem search_close {place : Location} (seen : Seen) (tasks : List Task) :
    search fs seen here (.close place :: tasks) =
      search fs (seen.put place (some here)) here tasks := by
  rw [search]

theorem settle_congr {seen seen' : Seen} {here' : Location} {tasks tasks' : List Task}
    (h : search fs seen here tasks = search fs seen' here' tasks') (budget : Nat) :
    settle fs budget seen here tasks = settle fs budget seen' here' tasks' := by
  cases budget <;> rw [settle, settle, h]

theorem settle_opening {seen : Seen} {above place : Location} {tasks rest : List Task}
    (h : search fs seen here tasks = .opening seen above place target rest) (budget : Nat) :
    settle fs (budget + 1) seen here tasks =
      settle fs budget (seen.put place none) (startOf above target)
        ((namesOf target).map .name ++ .close place :: rest) := by
  rw [settle, h]
  have hnames : namesIn target = (namesOf target).map .name := by
    rw [namesIn, namesOf, List.map_map]
    rfl
  rw [← hnames]

namespace Holds

variable {seen : Seen} {n budget : Nat} {place : Location}

theorem mono {k : Nat} (h : Holds fs seen n budget) (hk : k ≤ n) : Holds fs seen k budget where
  closed := h.closed
  opened place hplace := by
    obtain ⟨l, m, hlinked, hm⟩ := h.opened place hplace
    exact ⟨l, m, hlinked, Nat.le_trans hk hm⟩
  room := h.room

/-- A link that has not been met may be opened, before anything that needs fewer links than it. -/
theorem put_open {m : Nat} {l : Location} (h : Holds fs seen n budget)
    (hplace : seen.get? place = none) (hlinked : Linked fs place l m) (hm : m ≤ n) :
    ∃ budget', budget = budget' + 1 ∧ Holds fs (seen.put place none) m budget' := by
  have hmem : place ∈ linksIn [] fs := by
    obtain ⟨-, -, target, -, hlink, -⟩ := hlinked
    have hmem : [] ++ place ∈ linksIn [] fs := mem_linksIn hlink
    rwa [List.nil_append] at hmem
  have hless : (linksIn [] fs).countP (fun q => ((seen.put place none).get? q).isNone) <
      (linksIn [] fs).countP (fun q => (seen.get? q).isNone) := by
    refine countP_lt_of_mem hmem (by simp) (by simp [hplace]) fun q hq => ?_
    rw [Table.get?_put] at hq
    split at hq
    · cases hq
    · exact hq
  have hroom := h.room
  obtain ⟨budget', rfl⟩ : ∃ budget', budget = budget' + 1 := ⟨budget - 1, by omega⟩
  refine ⟨budget', rfl, ?_, ?_, by omega⟩
  · intro q known hq
    rw [Table.get?_put] at hq
    split at hq
    · cases hq
    · exact h.closed q known hq
  · intro q hq
    rw [Table.get?_put] at hq
    split at hq
    · rename_i heq
      subst heq
      exact ⟨l, m, hlinked, Nat.le_refl m⟩
    · obtain ⟨l', m', hlinked', hm'⟩ := h.opened q hq
      exact ⟨l', m', hlinked', Nat.le_trans hm hm'⟩

/-- A link is closed when it is known where it leads. -/
theorem put_closed {m : Nat} {l : Location} (h : Holds fs seen n budget)
    (hlinked : Linked fs place l m) : Holds fs (seen.put place (some l)) n budget where
  closed q known hq := by
    rw [Table.get?_put] at hq
    split at hq
    · rename_i heq
      subst heq
      cases hq
      exact ⟨m, hlinked⟩
    · exact h.closed q known hq
  opened q hq := by
    rw [Table.get?_put] at hq
    split at hq
    · cases hq
    · exact h.opened q hq
  room := by
    refine Nat.le_trans (List.countP_mono_left fun q _ hq => ?_) h.room
    rw [Table.get?_put] at hq
    split at hq
    · cases hq
    · exact hq

/-- What is known of the open links stays so while no more are open. -/
theorem of_opened {seen' : Seen} {k budget' : Nat} (h : Holds fs seen n budget)
    (h' : Holds fs seen' k budget')
    (hopened : ∀ place, seen'.get? place = some none → seen.get? place = some none) :
    Holds fs seen' n budget' where
  closed := h'.closed
  opened place hplace := h.opened place (hopened place hplace)
  room := h'.room

end Holds

/-- The search comes to where the names lead, and goes on from there. -/
theorem settle_names {n : Nat} (h : Comes fs here names there n) {budget : Nat} {seen : Seen}
    (hseen : Holds fs seen n budget) (tasks : List Task) :
    ∃ budget' seen', Holds fs seen' n budget' ∧
      (∀ place, seen'.get? place = some none → seen.get? place = some none) ∧
      settle fs budget seen here (names.map .name ++ tasks) =
        settle fs budget' seen' there tasks := by
  induction h generalizing budget seen tasks with
  | done => exact ⟨budget, seen, hseen, fun _ h => h, rfl⟩
  | turn hname hrest ih =>
    obtain ⟨budget', seen', hseen', hopened, hsettle⟩ := ih hseen tasks
    exact ⟨budget', seen', hseen', hopened,
      (settle_congr (search_turn hname seen _) budget).trans hsettle⟩
  | enter hname hfolder hrest ih =>
    obtain ⟨budget', seen', hseen', hopened, hsettle⟩ := ih hseen tasks
    exact ⟨budget', seen', hseen', hopened,
      (settle_congr (search_folder hname hfolder seen _) budget).trans hsettle⟩
  | @follow here mid there name target rest m n hname hlink htarget hrest ihtarget ihrest =>
    have hlinked : Linked fs (here ++ [name]) mid m := ⟨here, name, target, rfl, hlink, htarget⟩
    have hsearch := search_link hname hlink seen (rest.map .name ++ tasks)
    cases hplace : seen.get? (here ++ [name]) with
    | none =>
      rw [hplace] at hsearch
      obtain ⟨budget₀, rfl, hopen⟩ := hseen.put_open hplace hlinked (by omega)
      obtain ⟨budget₁, seen₁, hseen₁, hopened₁, hsettle₁⟩ :=
        ihtarget hopen (.close (here ++ [name]) :: (rest.map .name ++ tasks))
      -- The link is closed again, so that no link is open that was not before.
      have hclosed : ∀ place, (seen₁.put (here ++ [name]) (some mid)).get? place = some none →
          seen.get? place = some none := by
        intro place h
        rw [Table.get?_put] at h
        split at h
        · cases h
        · rename_i hne
          have hbefore := hopened₁ place h
          rwa [Table.get?_put, if_neg hne] at hbefore
      have hseen₂ := hseen.of_opened (hseen₁.put_closed hlinked) hclosed
      obtain ⟨budget', seen', hseen', hopened', hsettle'⟩ := ihrest (hseen₂.mono (by omega)) tasks
      refine ⟨budget', seen', hseen₂.of_opened hseen' hopened', fun place h =>
        hclosed place (hopened' place h), ?_⟩
      calc settle fs (budget₀ + 1) seen here ((name :: rest).map .name ++ tasks)
          = settle fs budget₀ (seen.put (here ++ [name]) none) (startOf here target)
              ((namesOf target).map .name ++ .close (here ++ [name]) :: (rest.map .name ++ tasks)) :=
            settle_opening hsearch budget₀
        _ = settle fs budget₁ seen₁ mid (.close (here ++ [name]) :: (rest.map .name ++ tasks)) :=
            hsettle₁
        _ = settle fs budget₁ (seen₁.put (here ++ [name]) (some mid)) mid
              (rest.map .name ++ tasks) := settle_congr (search_close seen₁ _) budget₁
        _ = settle fs budget' seen' there tasks := hsettle'
    | some known? =>
      cases known? with
      | none =>
        -- Inside of itself the link would need fewer links than it does.
        obtain ⟨l, k, hopen, hk⟩ := hseen.opened _ hplace
        have hcount := (hlinked.unique hopen).2
        omega
      | some known =>
        rw [hplace] at hsearch
        obtain ⟨k, hknown⟩ := hseen.closed _ _ hplace
        obtain ⟨rfl, -⟩ := hlinked.unique hknown
        obtain ⟨budget', seen', hseen', hopened', hsettle'⟩ := ihrest (hseen.mono (by omega)) tasks
        exact ⟨budget', seen', hseen.of_opened hseen' hopened', hopened',
          (settle_congr hsearch budget).trans hsettle'⟩

theorem holds_empty (fs : Tree) (n : Nat) : Holds fs .empty n fs.linkCount where
  closed place l h := by cases h
  opened place h := by cases h
  room := by
    rw [← length_linksIn [] fs]
    exact List.countP_le_length

/-- The canonical form is the path to where the names lead. -/
theorem canonical_of_comes {p : Path} {n : Nat}
    (h : Comes fs (if p.isAbsolute then [] else here) p.names there n) :
    fs.canonical here p = ⟨.root, there⟩ := by
  obtain ⟨budget, seen, -, -, hsettle⟩ := settle_names h (holds_empty fs n) []
  rw [List.append_nil] at hsettle
  rw [canonical, hsettle]
  cases budget <;> rw [settle] <;> rfl

/-! ## Paths to folders -/

/-- No link stands on the way to what is no link itself. -/
theorem clear_of_sight {l : Location} {s : Sight} (h : fs.sightAt? l = some s)
    (hs : ∀ target, s ≠ .link target) : Clear fs [] l := by
  rintro m ⟨more, rfl⟩ target htarget
  rw [List.nil_append] at htarget
  have hlink := sightAt?_of_at htarget
  by_cases hmore : more = []
  · subst hmore
    rw [List.append_nil, hlink] at h
    exact hs target (Option.some.inj h).symm
  · cases (sightAt?_of_append hmore h).symm.trans hlink

theorem clear_of_folder {l : Location} (h : fs.sightAt? l = some .folder) : Clear fs [] l :=
  clear_of_sight h fun target => by simp

theorem isAddress_ofString {path : String} (h : isAddress path = true) :
    isAddress (Path.ofString path).toString = true := by
  have hpath : '\x00' ∉ path.toList := by simpa [isAddress] using h
  have hnames : ∀ piece ∈ (Path.ofString path).names.map String.toList, '\x00' ∉ piece := by
    intro chars hchars hnull
    obtain ⟨name, hname, rfl⟩ := List.mem_map.mp hchars
    obtain ⟨piece, hpiece, rfl⟩ := List.mem_map.mp hname
    rw [String.toList_ofList] at hnull
    exact hpath (Path.mem_of_mem_pieces (List.mem_filter.mp hpiece).1 _ hnull)
  have hanchor : ∀ a : Anchor, '\x00' ∉ a.text.toList := by
    intro a
    cases a <;> decide
  rw [isAddress, Path.toString]
  split
  · decide
  · rw [String.toList_append, String.toList_intercalate]
    simpa using ⟨hanchor _, notMem_intercalate (by decide) hnames⟩

theorem anchorOf_eq_none_iff (s : List Char) : Path.anchorOf s = .none ↔ s.head? ≠ some '/' := by
  unfold Path.anchorOf
  split
  · simp
  · simp
  · simp
  · rename_i hslash
    cases s with
    | nil => simp
    | cons c rest =>
      have hne : c ≠ '/' := by
        rintro rfl
        exact hslash rest rfl
      simp [hne]

/-- A path to a folder has the path of the folder as its canonical form. -/
theorem resolve_of_locate {path : String} {l : Location} {es : List (String × Tree)}
    (haddress : isAddress path = true) (hl : AreNames l)
    (h : fs.locate .target here path = .ok (.taken l (.folder es))) :
    fs.resolve here (Path.ofString path) = .ok ⟨.root, l⟩ := by
  obtain ⟨hwalk, -⟩ := locate_eq_walk h
  obtain ⟨n, hcomes⟩ := comes_of_walk hwalk
  have hfolder : fs.sightAt? l = some .folder := (leads_of_walk_folder hwalk).1
  have hnames : (Path.ofString path).names.filter Counts = (steps path).filter Counts := by
    rw [filter_steps]
    refine filter_counts_map (fun piece hpiece => ?_) _
    simp only [Bool.and_eq_false_iff, decide_eq_false_iff_not, not_not] at hpiece
    exact hpiece
  have hstart : (if (Path.ofString path).isAbsolute then [] else here) = startOf here path := by
    have habsolute : (Path.ofString path).isAbsolute = true ↔ path.toList.head? = some '/' := by
      show (Path.anchorOf path.toList != .none) = true ↔ _
      rw [bne_iff_ne, ne_eq, anchorOf_eq_none_iff, not_not]
    rw [startOf, if_congr habsolute rfl rfl]
  have hcanonical : fs.canonical here (Path.ofString path) = ⟨.root, l⟩ := by
    refine canonical_of_comes (n := n) ?_
    rw [hstart, comes_congr hnames]
    exact hcomes
  rw [resolve, isAddress_ofString haddress, if_pos rfl, hcanonical]
  dsimp only
  split
  · rename_i hreach
    exact absurd hreach (reach_clear hl (clear_of_folder hfolder) [])
  · rfl

end RouteAtlas.Tree
