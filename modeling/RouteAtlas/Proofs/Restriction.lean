import RouteAtlas.Proofs.Block
import RouteAtlas.Proofs.Continuation

/-!
# Restricted and unrestricted reading

A scan that is restricted to the block starts where the unrestricted one may not stop: a declaration that
begins before the block can run into it. Once both scans come to one place of the block they go on alike,
up to the closing bracket that ends the restricted text (`restricted_continues`).
-/

namespace RouteAtlas.Text

variable {α : Type} {read? : Recogniser α}

/-- A scan comes from a text to a place further on, with the values that it reads on the way. -/
inductive Reaches (read? : Recogniser α) : List Char → List α → List Char → Prop where
  | here (s : List Char) : Reaches read? s [] s
  | skip {c : Char} {s place : List Char} {values : List α} (h : read? (c :: s) = none)
      (hr : Reaches read? s values place) : Reaches read? (c :: s) values place
  | take {s rest place : List Char} {a : α} {values : List α} (h : read? s = some (a, rest))
      (hr : Reaches read? rest values place) : Reaches read? s (a :: values) place

/-- A scan reads a value that begins before the end `t` of its text and ends inside `t`. -/
def Straddles (read? : Recogniser α) (s t : List Char) : Prop :=
  ∃ values place a rest, Reaches read? s values place ∧ read? place = some (a, rest) ∧
    t.length < place.length ∧ rest.length < t.length

namespace Reaches

variable {s t place : List Char} {values : List α}

theorem length_le (consumes : read?.Consumes) (h : Reaches read? s values place) :
    place.length ≤ s.length := by
  induction h with
  | here => exact Nat.le_refl _
  | skip _ _ ih => exact Nat.le_succ_of_le ih
  | take h _ ih => exact Nat.le_trans ih (Nat.le_of_lt (consumes _ _ _ h))

/-- A scan finds what it reads on its way to a place and what it finds from there. -/
theorem occurrences_eq (consumes : read?.Consumes) (h : Reaches read? s values place) :
    occurrences read? consumes s = values ++ occurrences read? consumes place := by
  induction h with
  | here => rfl
  | skip h _ ih => rw [occurrences_cons_of_none h, ih]
  | take h _ ih => rw [occurrences_of_some h, ih, List.cons_append]

/-- A scan that stops at a place reads nothing across it. -/
theorem not_straddles (consumes : read?.Consumes) (h : Reaches read? s values t) :
    ¬ Straddles read? s t := by
  rintro ⟨values', place, a, rest, hplace, hread, hbefore, hafter⟩
  -- the scan is determined, so that both ways agree until one of them ends
  induction h generalizing values' with
  | here s =>
    have hle := hplace.length_le consumes
    omega
  | skip h hr ih =>
    cases hplace with
    | here => rw [hread] at h; exact absurd h (by simp)
    | skip _ hplace => exact ih values' hplace hbefore hafter
    | take h' _ => rw [h'] at h; exact absurd h (by simp)
  | take h hr ih =>
    cases hplace with
    | here =>
      obtain ⟨rfl, rfl⟩ := Prod.mk.inj (Option.some.inj (hread.symm.trans h))
      have hle := hr.length_le consumes
      omega
    | skip h' _ => rw [h'] at h; exact absurd h (by simp)
    | take h' hplace =>
      obtain ⟨rfl, rfl⟩ := Prod.mk.inj (Option.some.inj (h'.symm.trans h))
      exact ih _ hplace hbefore hafter

end Reaches

theorem Straddles.skip {c : Char} {s t : List Char} (h : read? (c :: s) = none)
    (hs : Straddles read? s t) : Straddles read? (c :: s) t := by
  obtain ⟨values, place, a, rest, hplace, hread⟩ := hs
  exact ⟨values, place, a, rest, .skip h hplace, hread⟩

theorem Straddles.take {s t rest : List Char} {a : α} (h : read? s = some (a, rest))
    (hs : Straddles read? rest t) : Straddles read? s t := by
  obtain ⟨values, place, a', rest', hplace, hread⟩ := hs
  exact ⟨a :: values, place, a', rest', .take h hplace, hread⟩

/-- A scan stops at every end of its text that it reads nothing across. -/
theorem exists_reaches (consumes : read?.Consumes)
    (hsuffix : ∀ s a rest, read? s = some (a, rest) → rest <:+ s) {s t : List Char} (ht : t <:+ s)
    (h : ¬ Straddles read? s t) : ∃ values, Reaches read? s values t := by
  -- induction on the length: the scan goes on after a value, or one character further
  induction hn : s.length using Nat.strongRecOn generalizing s with
  | _ n ih =>
    rcases Nat.eq_or_lt_of_le ht.length_le with hlength | hlt
    · obtain rfl := ht.eq_of_length hlength
      exact ⟨[], .here t⟩
    · cases hread : read? s with
      | some found =>
        obtain ⟨a, rest⟩ := found
        have hrest : t.length ≤ rest.length := by
          by_contra hinside
          exact h ⟨[], s, a, rest, .here s, hread, hlt, Nat.lt_of_not_le hinside⟩
        have ht' := List.suffix_of_suffix_length_le ht (hsuffix _ _ _ hread) hrest
        obtain ⟨values, hvalues⟩ :=
          ih _ (hn ▸ consumes _ _ _ hread) ht' (fun hs => h (hs.take hread)) rfl
        exact ⟨a :: values, .take hread hvalues⟩
      | none =>
        cases s with
        | nil => exact absurd hlt (Nat.not_lt_zero _)
        | cons c s =>
          have ht' : t <:+ s := by
            rcases List.suffix_cons_iff.mp ht with rfl | ht'
            · exact absurd hlt (Nat.lt_irrefl _)
            · exact ht'
          obtain ⟨values, hvalues⟩ :=
            ih s.length (by rw [← hn]; simp) ht' (fun hs => h (hs.skip hread)) rfl
          exact ⟨values, .skip hread hvalues⟩

end RouteAtlas.Text

namespace RouteAtlas.Urlconf

open Declaration (NameCut read?_consumes)

/-- What follows a declaration is an end of the text. -/
theorem Declares.suffix {s rest : List Char} {route : Route} (h : Declares s route rest) : rest <:+ s := by
  have hbegins : ∀ {url t}, Declaration.Begins s url t → t <:+ s := by
    rintro url t ⟨u, handler, ⟨b₁, b₂, b₃, w, -, -, -, -, rfl⟩, -, -, -, rfl⟩
    rw [← List.append_assoc]
    exact List.suffix_append _ _
  cases h with
  | named hb hn =>
    obtain ⟨b₁, b₂, b₃, w, -, -, -, -, rfl⟩ := hn
    exact (List.suffix_append _ _).trans (hbegins hb)
  | bare hb hn => exact hbegins hb

/-- Where both scans have come to one place of the block, they go on alike. -/
theorem continues_of_reaches {s block post place : List Char} {before dropped : List Route}
    (hfull : Text.Reaches Declaration.read? s before (place ++ post))
    (hblock : Text.Reaches Declaration.read? block dropped place) :
    ∃ kept later, routesIn block = dropped ++ kept ∧ routesIn s = before ++ later ∧
      Text.Continues NameCut kept later := by
  have hkept := hblock.occurrences_eq read?_consumes
  have hlater := hfull.occurrences_eq read?_consumes
  have hcontinues := Declaration.steadfast_nameCut.continues read?_consumes place post
  exact ⟨_, _, hkept, hlater, hcontinues⟩

/-- The routes of the block are consecutive routes of the whole text, apart from the last one, which may
have lost its name to the closing bracket, unless a declaration that begins before the block ends inside
or behind it. Even then this holds from any place of the block on to which both scans come. Without a
block there are no routes. -/
theorem restricted_continues (text : String) :
    (block? text.toList = none → (read true text).routes = []) ∧
      ∀ pre block post, Block.Frames text.toList pre block post →
        (¬ Text.Straddles Declaration.read? text.toList (block ++ post) →
          ∃ before later, (read false text).routes = before ++ later ∧
            Text.Continues NameCut (read true text).routes later) ∧
        ∀ place before dropped,
          Text.Reaches Declaration.read? text.toList before (place ++ post) →
          Text.Reaches Declaration.read? block dropped place →
          ∃ kept later, (read true text).routes = dropped ++ kept ∧
            (read false text).routes = before ++ later ∧ Text.Continues NameCut kept later := by
  have hfull : (read false text).routes = routesIn text.toList := rfl
  refine ⟨routes_of_no_block, ?_⟩
  intro pre block post hframes
  rw [routes_of_block hframes.block?_eq_some, hfull]
  constructor
  · intro hstraddles
    -- the full scan comes to the block, where the restricted one starts
    have hend : block ++ post <:+ text.toList := ⟨pre, hframes.text.symm⟩
    have hsuffix : ∀ s route rest, Declaration.read? s = some (route, rest) → rest <:+ s := by
      intro s route rest h
      exact (Declaration.read?_eq_some_iff.mp h).suffix
    obtain ⟨before, hbefore⟩ := Text.exists_reaches read?_consumes hsuffix hend hstraddles
    obtain ⟨kept, later, hkept, hlater, hcontinues⟩ := continues_of_reaches hbefore (.here block)
    obtain rfl : kept = routesIn block := hkept.symm
    exact ⟨before, later, hlater, hcontinues⟩
  · intro place before dropped hplace hdropped
    exact continues_of_reaches hplace hdropped

/-- A closing bracket in a handler takes the name away from the last route, and a declaration that runs
into the block takes the place of those in it. -/
theorem restricted_not_sublist :
    ¬ (read true "urlpatterns = [path('a/', views[0], name='a')]").routes.Sublist
        (read false "urlpatterns = [path('a/', views[0], name='a')]").routes ∧
      ¬ (read true "path('x', urlpatterns = [path('a', b)]").routes.Sublist
        (read false "path('x', urlpatterns = [path('a', b)]").routes := by
  have hcut : (read true "urlpatterns = [path('a/', views[0], name='a')]").routes = [⟨"a/", ""⟩] := by
    cbv
  have hwhole : (read false "urlpatterns = [path('a/', views[0], name='a')]").routes = [⟨"a/", "a"⟩] := by
    cbv
  have hinner : (read true "path('x', urlpatterns = [path('a', b)]").routes = [⟨"a", ""⟩] := by cbv
  have houter : (read false "path('x', urlpatterns = [path('a', b)]").routes = [⟨"x", ""⟩] := by cbv
  rw [hcut, hwhole, hinner, houter]
  decide

theorem restricted_continues_cut :
    (read true "").routes = [] ∧
      ∃ before later, (read false "path('x', v)\nurlpatterns = [path('a/', views[0], name='a')]").routes =
          before ++ later ∧
        Text.Continues NameCut
          (read true "path('x', v)\nurlpatterns = [path('a/', views[0], name='a')]").routes later := by
  have hframes : Block.Frames "path('x', v)\nurlpatterns = [path('a/', views[0], name='a')]".toList
      "path('x', v)\n".toList "urlpatterns = [path('a/', views[0]".toList ", name='a')]".toList :=
    ⟨Block.headless_of_notMem (by decide), ⟨"urlpatterns = [".toList, "path('a/', views[0".toList,
      ⟨[' '], [' '], by decide, by decide, rfl⟩, by decide +kernel, rfl⟩, rfl⟩
  have hread : Declaration.read? "path('x', v)\nurlpatterns = [path('a/', views[0], name='a')]".toList =
      some (⟨"x", ""⟩, ')' :: '\n' ::
        ("urlpatterns = [path('a/', views[0]".toList ++ ", name='a')]".toList)) := by cbv
  have hreaches := Text.Reaches.take hread (.skip (by cbv) (.skip (by cbv) (.here _)))
  obtain ⟨-, hblock⟩ :=
    restricted_continues "path('x', v)\nurlpatterns = [path('a/', views[0], name='a')]"
  obtain ⟨hstraddles, -⟩ := hblock _ _ _ hframes
  exact ⟨(restricted_continues "").1 (by decide), hstraddles (hreaches.not_straddles read?_consumes)⟩

end RouteAtlas.Urlconf
