import RouteAtlas.Proofs.Declaration
import RouteAtlas.Proofs.JsonEscape
import RouteAtlas.Proofs.Resolution

/-!
# Quotes in snippets

Neither a name nor a namespace that is read from a text holds a quote, so the quotes of a snippet of the
default template are those of the template: the reference is what stands between the two single ones, and
the name is what stands before the first double one (`QuotesRoute`). Name and reference can be read back
from the snippet (`default_quotes_route`).
-/

namespace RouteAtlas

open Urlconf (IsQuote)

/-! ## What is read holds no quotes -/

namespace Urlconf

/-- Some text declares the route. -/
def Declared (route : Route) : Prop := ∃ blockOnly text, route ∈ (read blockOnly text).routes

/-- Every namespace in the table is bound to its key by some text. -/
def BoundByTexts (namespaces : Table String String) : Prop :=
  ∀ key space, namespaces.get? key = some space →
    ∃ text : String, (⟨key, space⟩ : Binding) ∈ bindingsIn text.toList

theorem unquoted_of_mem_routesIn {s : List Char} {route : Route} (h : route ∈ routesIn s) :
    ∀ c ∈ route.name.toList, ¬ IsQuote c := by
  have hleft : Text.Leftmost Declares s (routesIn s) := leftmost_iff_routesIn.mpr rfl
  exact hleft.forall_mem (fun s route rest h => h.unquoted.2) route h

theorem Declared.unquoted {route : Route} (h : Declared route) :
    ∀ c ∈ route.name.toList, ¬ IsQuote c := by
  obtain ⟨blockOnly, text, hroute⟩ := h
  rw [read, routesOf] at hroute
  cases blockOnly with
  | false => exact unquoted_of_mem_routesIn hroute
  | true =>
    cases hblock : block? text.toList with
    | none =>
      rw [hblock] at hroute
      contradiction
    | some block =>
      rw [hblock] at hroute
      exact unquoted_of_mem_routesIn hroute

theorem BoundByTexts.unquoted {namespaces : Table String String} (h : BoundByTexts namespaces)
    {key space : String} (hspace : namespaces.get? key = some space) :
    ∀ c ∈ space.toList, ¬ IsQuote c := by
  obtain ⟨text, hbinding⟩ := h key space hspace
  exact (quotable_of_mem_bindingsIn hbinding).2

/-- A reference to a declared route holds no quotes. -/
theorem reference_unquoted {route : Route} {namespaces : Table String String} (hroute : Declared route)
    (hbound : BoundByTexts namespaces) (key : String) :
    ∀ c ∈ (Snippet.reference key route.name namespaces).toList, ¬ IsQuote c := by
  rw [Snippet.reference]
  cases hspace : namespaces.get? key with
  | none => exact hroute.unquoted
  | some space =>
    have hqualified : (space ++ ":" ++ route.name).toList = space.toList ++ ':' :: route.name.toList := by
      simp
    intro c hc
    rw [hqualified] at hc
    rcases List.mem_append.mp hc with hc | hc
    · exact hbound.unquoted hspace c hc
    · rcases List.mem_cons.mp hc with rfl | hc
      · exact isQuote_eq_false_iff.mp (by decide)
      · exact hroute.unquoted c hc

end Urlconf

/-- Over any run of an index, the namespaces of its snapshot are bound by texts. -/
theorem Machine.Chronicle.boundByTexts {σ ω : Type} [DecidableEq ω] {blockOnly : Bool}
    {scans : List (List Scan.Reading)} {m : Machine σ ω} (h : Chronicle blockOnly scans m) :
    Urlconf.BoundByTexts m.index.snapshot.namespaces := by
  intro key space hspace
  rw [h.get?_namespaces, Inclusion.lastValue_pair_eq_some_iff] at hspace
  obtain ⟨before, i, after, hsplit, hkey, hspace, -⟩ := hspace
  obtain ⟨readings, -, hi⟩ := List.mem_flatMap.mp (hsplit ▸ List.mem_append_right _ List.mem_cons_self :
    i ∈ inclusions scans)
  obtain ⟨⟨path, result⟩, -, hi⟩ := List.mem_flatMap.mp hi
  cases result with
  | error f => contradiction
  | ok text =>
    refine ⟨text, ?_⟩
    rw [Inclusion.bindingsIn_eq, ← hkey, ← hspace]
    exact List.mem_map_of_mem hi

namespace Snippet

/-! ## Marks in a line -/

variable {mark : Char}

/-- A text is cut at its first mark in one way. -/
theorem eq_of_first_mark {u v a b : List Char} (hu : mark ∉ u) (ha : mark ∉ a)
    (h : u ++ mark :: v = a ++ mark :: b) : u = a ∧ v = b := by
  rcases List.append_eq_append_iff.mp h with ⟨z, rfl, hz⟩ | ⟨z, rfl, hz⟩
  · cases z with
    | nil => exact ⟨(List.append_nil u).symm, (List.cons.inj hz).2⟩
    | cons c z => exact absurd (by simp [(List.cons.inj hz).1]) ha
  · cases z with
    | nil => exact ⟨List.append_nil a, (List.cons.inj hz).2.symm⟩
    | cons c z => exact absurd (by simp [(List.cons.inj hz).1]) hu

/-- In a text with two marks there is one text between them. -/
theorem eq_of_two_marks {u v w a r b : List Char} (htwo : (u ++ mark :: (v ++ mark :: w)).count mark = 2)
    (h : u ++ mark :: (v ++ mark :: w) = a ++ mark :: (r ++ mark :: b)) : v = r := by
  have hnone : ∀ {u v w : List Char}, (u ++ mark :: (v ++ mark :: w)).count mark = 2 →
      mark ∉ u ∧ mark ∉ v := by
    intro u v w htwo
    simp only [List.count_append, List.count_cons_self] at htwo
    exact ⟨List.count_eq_zero.mp (by omega), List.count_eq_zero.mp (by omega)⟩
  obtain ⟨hu, hv⟩ := hnone htwo
  obtain ⟨ha, hr⟩ := hnone (h ▸ htwo)
  obtain ⟨-, hrest⟩ := eq_of_first_mark hu ha h
  exact (eq_of_first_mark hv hr hrest).1

/-! ## The snippet of the default template -/

/-- The snippet of the default template. -/
def defaultLine (name reference : String) : String :=
  "const url_" ++ name ++ " = \"\x7b% url '" ++ reference ++ "' %\x7d\";"

theorem fill_default (name reference : String) :
    Template.default.fill name reference = .plain (defaultLine name reference) := by
  have hcodes : (Template.default.pieces.map (Template.fillPiece name reference)).flatMap
      WideText.codes = (WideText.plain (defaultLine name reference)).codes := by
    simp [Template.default, Template.fillPiece, WideText.codes, defaultLine]
  have hplain : (WideText.plain (defaultLine name reference)).Settled := trivial
  rw [Template.fill, WideText.concat, hcodes, hplain.ofCodes_codes]

/-- A line with two double and two single quotes that quotes a reference between the single ones, and
gives a name between its first word and what comes before the double ones. -/
structure QuotesRoute (line name reference : List Char) : Prop where
  double : line.count '"' = 2
  single : line.count '\'' = 2
  reference_iff : ∀ r, (∃ a b, line = a ++ '\'' :: (r ++ '\'' :: b)) ↔ r = reference
  name_iff : ∀ n, (∃ b, '"' ∉ n ∧ line = "const url_".toList ++ n ++ " = ".toList ++ '"' :: b) ↔ n = name

theorem quotesRoute_defaultLine {name reference : String} (hname : ∀ c ∈ name.toList, ¬ IsQuote c)
    (hreference : ∀ c ∈ reference.toList, ¬ IsQuote c) :
    QuotesRoute (defaultLine name reference).toList name.toList reference.toList := by
  have hdouble : (defaultLine name reference).toList =
      "const url_".toList ++ name.toList ++ " = ".toList ++ '"' :: ("\x7b% url '".toList ++
        reference.toList ++ "' %\x7d\";".toList) := by
    simp [defaultLine]
  have hsingle : (defaultLine name reference).toList =
      ("const url_".toList ++ name.toList ++ " = \"\x7b% url ".toList) ++ '\'' ::
        (reference.toList ++ '\'' :: " %\x7d\";".toList) := by
    simp [defaultLine]
  have hnone : ∀ {s : List Char}, (∀ c ∈ s, ¬ IsQuote c) → s.count '"' = 0 ∧ s.count '\'' = 0 := by
    intro s hs
    exact ⟨List.count_eq_zero.mpr fun h => hs _ h (Or.inr rfl),
      List.count_eq_zero.mpr fun h => hs _ h (Or.inl rfl)⟩
  have htwo : (defaultLine name reference).toList.count '\'' = 2 := by
    simp [hsingle, hnone hname, hnone hreference]
  refine ⟨by simp [hdouble, hnone hname, hnone hreference], htwo, fun r => ⟨?_, ?_⟩, fun n => ⟨?_, ?_⟩⟩
  · rintro ⟨a, b, h⟩
    rw [hsingle] at h htwo
    exact (eq_of_two_marks htwo h).symm
  · rintro rfl
    exact ⟨_, _, hsingle⟩
  · rintro ⟨b, hn, h⟩
    have hfront : ∀ {n : List Char}, '"' ∉ n → '"' ∉ "const url_".toList ++ n ++ " = ".toList := by
      intro n hn
      simpa using hn
    rw [hdouble] at h
    have hname' : '"' ∉ name.toList := List.count_eq_zero.mp (hnone hname).1
    obtain ⟨hsame, -⟩ := eq_of_first_mark (hfront hname') (hfront hn) h
    exact (List.append_cancel_left (List.append_cancel_right hsame)).symm
  · rintro rfl
    exact ⟨_, List.count_eq_zero.mp (hnone hname).1, hdouble⟩

/-- A snippet of the default template has no quotes but those of the template: the text between the single
ones is the reference, and the text before the double ones gives the name, so both can be read back. This
is so for every route that a text declares, and for every table of namespaces that texts bind, such as that
of an index after any run. -/
theorem default_quotes_route {σ ω : Type} [DecidableEq ω] :
    (∀ (blockOnly : Bool) (scans : List (List Scan.Reading)) (m : Machine σ ω),
      Machine.Chronicle blockOnly scans m → Urlconf.BoundByTexts m.index.snapshot.namespaces) ∧
    (∀ route namespaces, Urlconf.Declared route → Urlconf.BoundByTexts namespaces → ∀ path,
      ∃ line, renderForFile .default path route namespaces = .plain line ∧
        QuotesRoute line.toList route.name.toList
          (reference (FileKey.subpath path) route.name namespaces).toList) ∧
    ∀ route route' namespaces namespaces', Urlconf.Declared route → Urlconf.Declared route' →
      Urlconf.BoundByTexts namespaces → Urlconf.BoundByTexts namespaces' → ∀ path path',
      renderForFile .default path route namespaces =
        renderForFile .default path' route' namespaces' →
      route.name = route'.name ∧
        reference (FileKey.subpath path) route.name namespaces =
          reference (FileKey.subpath path') route'.name namespaces' := by
  have hquotes : ∀ route namespaces, Urlconf.Declared route → Urlconf.BoundByTexts namespaces →
      ∀ path, QuotesRoute
        (defaultLine route.name (reference (FileKey.subpath path) route.name namespaces)).toList
        route.name.toList (reference (FileKey.subpath path) route.name namespaces).toList :=
    fun route namespaces hroute hbound path =>
      quotesRoute_defaultLine hroute.unquoted (Urlconf.reference_unquoted hroute hbound _)
  refine ⟨fun blockOnly scans m h => h.boundByTexts, ?_, ?_⟩
  · intro route namespaces hroute hbound path
    exact ⟨_, fill_default _ _, hquotes route namespaces hroute hbound path⟩
  · intro route route' namespaces namespaces' hroute hroute' hbound hbound' path path' hsame
    rw [renderForFile, renderForFile, render, render, fill_default, fill_default,
      WideText.plain.injEq] at hsame
    have hfirst := hquotes route namespaces hroute hbound path
    have hsecond := hquotes route' namespaces' hroute' hbound' path'
    rw [← hsame] at hsecond
    -- what is read from one line is both the one and the other
    have hname := (hsecond.name_iff _).mp ((hfirst.name_iff _).mpr rfl)
    have hreference := (hsecond.reference_iff _).mp ((hfirst.reference_iff _).mpr rfl)
    exact ⟨String.toList_inj.mp hname, String.toList_inj.mp hreference⟩

/-- A name with a piece of the snippet in it, in a file with a namespace. -/
theorem default_quotes_route_odd :
    ∃ line, renderForFile .default "/srv/blog/urls.py" ⟨"x/", "a = \x7b% url b"⟩
        Machine.Chronicle.vanished.index.snapshot.namespaces = .plain line ∧
      QuotesRoute line.toList "a = \x7b% url b".toList "new:a = \x7b% url b".toList := by
  obtain ⟨hruns, hquotes, -⟩ := @default_quotes_route Bool Unit _
  have hbound := hruns true _ _ Machine.Chronicle.chronicle_vanished
  have hroute : Urlconf.Declared ⟨"x/", "a = \x7b% url b"⟩ :=
    ⟨false, "path('x/', v, name='a = \x7b% url b')", by decide +kernel⟩
  obtain ⟨line, hline, hline'⟩ := hquotes _ _ hroute hbound "/srv/blog/urls.py"
  have hreference : reference (FileKey.subpath "/srv/blog/urls.py") "a = \x7b% url b"
      Machine.Chronicle.vanished.index.snapshot.namespaces = "new:a = \x7b% url b" := by
    decide +kernel
  rw [hreference] at hline'
  exact ⟨line, hline, hline'⟩

end Snippet

end RouteAtlas
