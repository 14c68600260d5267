import RouteAtlas.Proofs.LowerCase
import RouteAtlas.Snapshot.Query

/-!
# What a query selects

A query selects by its lower case. A query that stands in the name, the url or the label of a route is found
there if its sigmas have the form there that they have in the query, and a longer query that holds it so
selects nothing more (`select_parts_iff`). The queries that are found wherever they stand are the steady
ones: a query that ends a word with a capital sigma is not found in a word that goes on after the sigma
(`not_select_of_cut`).
-/

namespace RouteAtlas

namespace Route

/-- The texts of a route in which a query is looked for. -/
def shown (p : FileRecord × Route) : List String := [p.2.name, p.2.url, p.1.label]

theorem matches_iff {p : FileRecord × Route} {query : String} :
    p.2.matches p.1 query = true ↔
      ∃ text ∈ shown p, (Text.lower query).toList <:+: (Text.lower text).toList := by
  simp only [Route.matches, shown, Bool.or_eq_true, Text.isPartOf_iff, List.mem_cons, List.not_mem_nil,
    or_false, exists_eq_or_imp, exists_eq_left, or_assoc]

/-- The empty query is in every text. -/
theorem matches_empty (p : FileRecord × Route) : p.2.matches p.1 "" = true := by
  rw [matches_iff]
  exact ⟨p.2.name, List.mem_cons_self, List.nil_infix⟩

end Route

namespace Snapshot

open Text (Keeps Steady lowerWithin toList_lower)

variable {s : Snapshot} {p : FileRecord × Route} {query : String}

/-! ## One query -/

theorem select_some (s : Snapshot) (query : String) :
    s.select (some query) = s.routes.filter fun p => p.2.matches p.1 query := by
  unfold select
  by_cases hempty : query.isEmpty = true
  · obtain rfl : query = "" := String.isEmpty_iff.mp hempty
    have hall : ∀ p ∈ s.routes, p.2.matches p.1 "" = true := fun p _ => Route.matches_empty p
    rw [List.filter_eq_self.mpr hall]
    rfl
  · simp only [hempty, Bool.false_eq_true, if_false]

theorem mem_select_iff :
    p ∈ s.select (some query) ↔ p ∈ s.routes ∧
      ∃ text ∈ Route.shown p, (Text.lower query).toList <:+: (Text.lower text).toList := by
  rw [select_some, List.mem_filter, Route.matches_iff]

/-- A query is found where it stands, if its sigmas have the same form there. -/
theorem mem_select_of_keeps {before after : List Char} (hkeeps : Keeps before after query.toList)
    (hp : p ∈ s.routes) {text : String} (htext : text ∈ Route.shown p)
    (hpart : text.toList = before ++ query.toList ++ after) : p ∈ s.select (some query) := by
  refine mem_select_iff.mpr ⟨hp, text, htext, ?_⟩
  rw [toList_lower, toList_lower, hpart]
  exact hkeeps.lowerWithin_infix

/-- A query selects what a longer one selects, if its sigmas have the same form in the longer one. -/
theorem mem_select_of_longer {before after : List Char} (hkeeps : Keeps before after query.toList)
    {longer : String} (hlonger : longer.toList = before ++ query.toList ++ after)
    (hp : p ∈ s.select (some longer)) : p ∈ s.select (some query) := by
  obtain ⟨hroute, text, htext, hfound⟩ := mem_select_iff.mp hp
  refine mem_select_iff.mpr ⟨hroute, text, htext, List.IsInfix.trans ?_ hfound⟩
  rw [toList_lower, toList_lower, hlonger]
  exact hkeeps.lowerWithin_infix

/-! ## All texts with the query in them -/

/-- A snapshot with one route of a name. -/
def named (name : String) : Snapshot :=
  { records := .ofList [("shop/urls.py", ⟨"shop/urls.py", [⟨"/", name⟩], List.cons_ne_nil _ _⟩)] }

/-- The route of the snapshot. -/
def namedRoute (name : String) : FileRecord × Route :=
  (⟨"shop/urls.py", [⟨"/", name⟩], List.cons_ne_nil _ _⟩, ⟨"/", name⟩)

theorem mem_routes_named (name : String) : namedRoute name ∈ (named name).routes :=
  List.mem_singleton_self _

/-- A query with a sigma can find the route by its name only. -/
theorem mem_select_named (hsigma : 'Σ' ∈ query.toList) {name : String}
    (h : namedRoute name ∈ (named name).select (some query)) :
    lowerWithin [] [] query.toList <:+: lowerWithin [] [] name.toList := by
  obtain ⟨-, text, htext, hfound⟩ := mem_select_iff.mp h
  obtain ⟨c, hc, hform⟩ := Text.exists_sigma hsigma [] []
  rw [toList_lower, toList_lower] at hfound
  have hshown : Route.shown (namedRoute name) = [name, "/", FileKey.label "shop/urls.py"] := rfl
  have hnone : ∀ other ∈ ["/", FileKey.label "shop/urls.py"],
      'σ' ∉ lowerWithin [] [] other.toList ∧ 'ς' ∉ lowerWithin [] [] other.toList := by
    decide +kernel
  rw [hshown] at htext
  rcases List.mem_cons.mp htext with rfl | hother
  · exact hfound
  · rcases hform with rfl | rfl
    · exact absurd (hfound.subset hc) (hnone text hother).1
    · exact absurd (hfound.subset hc) (hnone text hother).2

theorem mem_select_self (name : String) : namedRoute name ∈ (named name).select (some name) :=
  mem_select_iff.mpr ⟨mem_routes_named name, name, List.mem_cons_self, List.infix_refl _⟩

/-- A query that is found in every name with the query in it is steady. -/
theorem steady_of_select (h : ∀ name : String, query.toList <:+: name.toList →
    namedRoute name ∈ (named name).select (some query)) : Steady query.toList := by
  by_cases hsigma : 'Σ' ∈ query.toList
  swap
  · exact Text.steady_of_notMem hsigma
  refine Text.steady_of_infix fun before after => ?_
  have hname : (String.ofList (before ++ query.toList ++ after)).toList =
      before ++ query.toList ++ after := String.toList_ofList
  have hpart : query.toList <:+: (String.ofList (before ++ query.toList ++ after)).toList := by
    rw [hname]
    exact ⟨before, after, rfl⟩
  have hfound := mem_select_named hsigma (h _ hpart)
  rwa [hname] at hfound

/-- The queries that are found wherever they stand, and that select whatever a longer query selects, are
those whose sigmas keep their form whatever is written around them. Any other query is found where its
sigmas keep their form, and selects what a longer query selects in which they do. -/
theorem select_parts_iff (query : String) :
    ((∀ (s : Snapshot), ∀ p ∈ s.routes, ∀ text ∈ Route.shown p, query.toList <:+: text.toList →
        p ∈ s.select (some query)) ↔ Steady query.toList) ∧
    ((∀ (s : Snapshot) (longer : String), query.toList <:+: longer.toList →
        ∀ p ∈ s.select (some longer), p ∈ s.select (some query)) ↔ Steady query.toList) ∧
    ∀ before after, Keeps before after query.toList → ∀ s : Snapshot,
      (∀ p ∈ s.routes, ∀ text ∈ Route.shown p, text.toList = before ++ query.toList ++ after →
        p ∈ s.select (some query)) ∧
      ∀ longer : String, longer.toList = before ++ query.toList ++ after →
        ∀ p ∈ s.select (some longer), p ∈ s.select (some query) := by
  refine ⟨⟨?_, ?_⟩, ⟨?_, ?_⟩, ?_⟩
  · intro h
    refine steady_of_select fun name hname => ?_
    exact h (named name) (namedRoute name) (mem_routes_named name) name List.mem_cons_self hname
  · rintro hsteady s p hp text htext ⟨before, after, hpart⟩
    exact mem_select_of_keeps (hsteady before after) hp htext hpart.symm
  · intro h
    refine steady_of_select fun name hname => ?_
    exact h (named name) name hname (namedRoute name) (mem_select_self name)
  · rintro hsteady s longer ⟨before, after, hlonger⟩ p hp
    exact mem_select_of_longer (hsteady before after) hlonger.symm hp
  · intro before after hkeeps s
    exact ⟨fun p hp text htext hpart => mem_select_of_keeps hkeeps hp htext hpart,
      fun longer hlonger p hp => mem_select_of_longer hkeeps hlonger hp⟩

/-- A query that ends in a sigma finds the word that ends there, and a longer query finds no more. -/
theorem select_parts_street :
    namedRoute "ΟΔΟΣ ΑΘΗΝΑ" ∈ (named "ΟΔΟΣ ΑΘΗΝΑ").select (some "ΟΔΟΣ") := by
  have hkeeps : Keeps [] [' ', 'Α', 'Θ', 'Η', 'Ν', 'Α'] "ΟΔΟΣ".toList := by
    rw [← Text.lowerWithin_eq_iff]
    decide +kernel
  obtain ⟨-, -, hplace⟩ := select_parts_iff "ΟΔΟΣ"
  exact (hplace _ _ hkeeps (named "ΟΔΟΣ ΑΘΗΝΑ")).1 _ (mem_routes_named _) _ List.mem_cons_self
    (by decide +kernel)

/-- A query that ends in a sigma loses a word that goes on after the sigma, and typing the next letter
brings it back. -/
theorem not_select_of_cut :
    namedRoute "ΜΕΣΗ" ∈ (named "ΜΕΣΗ").routes ∧ "ΜΕΣ".toList <:+: "ΜΕΣΗ".toList ∧
      namedRoute "ΜΕΣΗ" ∉ (named "ΜΕΣΗ").select (some "ΜΕΣ") ∧
      namedRoute "ΜΕΣΗ" ∈ (named "ΜΕΣΗ").select (some "ΜΕΣΗ") := by
  refine ⟨mem_routes_named _, by decide +kernel, ?_, mem_select_self _⟩
  intro h
  exact absurd (mem_select_named (by decide +kernel) h) (by decide +kernel)

end Snapshot

end RouteAtlas
