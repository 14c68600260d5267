import RouteAtlas.Proofs.Declaration
import RouteAtlas.Proofs.Include
import RouteAtlas.Proofs.Layout
import RouteAtlas.Proofs.Table
import RouteAtlas.Proofs.WordFree

/-!
# Reading what was written

Reading a routing module gives back the items that it was written from, whatever they were laid out
like. What keeps the two searches in step with the items is that nothing can start between them: what
a match leaves over of its item is free of the word that starts the next match
(`Text.occurrences_append_of_free`), and what a match consumes may hold anything.
-/

namespace RouteAtlas.Urlconf.Layout

open Text (Free isBlank)

/-! ## Pieces that are free of a word -/

/-- Blanks are free of a word that starts with no blank. -/
theorem free_gap {w : Char} {word : List Char} (hw : isBlank w = false) (g : Gap) :
    Free (w :: word) g := by
  refine Free.of_notMem fun hmem => ?_
  rw [g.property w hmem] at hw
  exact absurd hw (by simp)

/-- A blank stands in no word without blanks. -/
theorem gap_notMem {word : List Char} (hword : word.all (!isBlank ·) = true) (g : Gap) :
    ∀ c ∈ g.val, c ∉ word := by
  intro c hc hmem
  have hblank := List.all_eq_true.mp hword c hmem
  rw [g.property c hc] at hblank
  exact absurd hblank (by simp)

/-- A quoted text is free of a word without quotes that does not stand in it. -/
theorem Literal.free {w : Char} {word : List Char} {l : Literal} (hl : ¬ w :: word <:+: l.body)
    (hword : ∀ c ∈ w :: word, ¬ IsQuote c) : Free (w :: word) l.text := by
  have hopening : Free (w :: word) [l.opening] := by
    refine Free.of_notMem fun hmem => hword w (by simp) ?_
    rw [List.mem_singleton.mp hmem]
    exact l.opening_quote
  have hclosing : l.closing ∉ w :: word := fun hmem => hword _ hmem l.closing_quote
  have hlast : Free (w :: word) [l.closing] := by
    refine Free.of_notMem fun hmem => hclosing ?_
    rw [← List.mem_singleton.mp hmem]
    simp
  exact hopening.append (Free.append_of_stop hl hlast ⟨_, rfl, hclosing⟩)

theorem pathWord_unquoted : ∀ c ∈ pathWord, ¬ IsQuote c := by
  simp [pathWord, IsQuote]

theorem includeWord_unquoted : ∀ c ∈ includeWord, ¬ IsQuote c := by
  simp [includeWord, IsQuote]

/-- A quoted text that is not empty is read back. -/
theorem Literal.quoted {l : Literal} (h : l.body ≠ []) : Quoted l.body l.text :=
  ⟨l.opening, l.closing, l.opening_quote, l.closing_quote, ⟨h, l.unquoted⟩, rfl⟩

/-! ## What the route of an item leaves over -/

/-- The characters before the word of a route that its keyword has. -/
def Keyword.before : Keyword → List Char
  | .path => []
  | .rePath => ['r', 'e', '_']

/-- The text of a route from its word to the comma after its url. -/
def Opening.core (o : Opening) : List Char :=
  pathWord ++ o.afterKeyword ++ ['('] ++ o.beforeUrl ++ o.url.text ++ o.afterUrl ++ [',']

theorem Opening.text_eq (o : Opening) : o.text = o.keyword.before ++ o.core := by
  cases h : o.keyword <;> simp [Opening.text, Opening.core, Keyword.text, Keyword.before, pathWord, h]

theorem Opening.opens (o : Opening) (rest : List Char) :
    Declaration.Opens (o.core ++ rest) o.url.body rest :=
  ⟨o.afterKeyword, o.beforeUrl, o.afterUrl, o.url.text, o.afterKeyword.property, o.beforeUrl.property,
    o.afterUrl.property, Literal.quoted o.url_nonempty, rfl⟩

/-- A blank belongs to a handler. -/
theorem gap_unbroken (g : Gap) : ∀ c ∈ g.val, c ≠ ',' ∧ c ≠ ')' := fun c hc =>
  Declaration.isHandler_iff.mp (Shape.blank_isHandler (g.property c hc))

theorem declaration_read?_eq_none {s : List Char} (h : ¬ pathWord <+: s) :
    Declaration.read? s = none := by
  have hword : word? ['p', 'a', 't', 'h'] s = none := word?_eq_none_iff.mpr h
  rw [Declaration.read?, Declaration.head?, hword]
  rfl

theorem routesIn_append_of_free {t : List Char} (h : Free pathWord t) (rest : List Char) :
    routesIn (t ++ rest) = routesIn rest :=
  Text.occurrences_append_of_free (fun _ => declaration_read?_eq_none) h rest

/-- A route that is declared after an opening is found, and the search goes on after it. -/
theorem routesIn_opening_append {o : Opening} {t residue rest : List Char} {route : Route}
    (hd : Declares (o.core ++ t) route (residue ++ rest)) (hr : Free pathWord residue) :
    routesIn (o.text ++ t) = route :: routesIn rest := by
  have hbefore : Free pathWord o.keyword.before := by
    cases o.keyword <;> exact Free.of_notMem (by simp [Keyword.before])
  rw [o.text_eq, List.append_assoc, routesIn_append_of_free hbefore, routesIn,
    Text.occurrences_of_some (Declaration.read?_eq_some_iff.mpr hd), ← routesIn,
    routesIn_append_of_free hr]

/-- A declaration begins with every opening that handler characters and a comma or a closing
parenthesis follow. -/
theorem Opening.begins {o : Opening} {run t : List Char} (hne : run ≠ [])
    (hrun : ∀ c ∈ run, c ≠ ',' ∧ c ≠ ')') (ht : ∀ c ∈ t.head?, c = ',' ∨ c = ')') :
    Declaration.Begins (o.core ++ (run ++ t)) o.url.body t :=
  ⟨run ++ t, run, o.opens _, hne, hrun, ht, rfl⟩

theorem Naming.names (n : Naming) (rest : List Char) :
    Declaration.Names (n.text ++ rest) n.name.body rest :=
  ⟨n.beforeKeyword, n.afterKeyword, n.beforeName, n.name.text, n.beforeKeyword.property,
    n.afterKeyword.property, n.beforeName.property, Literal.quoted n.name_nonempty, rfl⟩

/-- The handler of a plain route with the blanks around it. -/
def Plain.run (p : Plain) : List Char := p.beforeHandler ++ p.handler ++ p.afterHandler

theorem Plain.run_nonempty (p : Plain) : p.run ≠ [] := by
  simp [Plain.run, p.handler_nonempty]

theorem Plain.run_unbroken (p : Plain) : ∀ c ∈ p.run, c ≠ ',' ∧ c ≠ ')' := by
  intro c hc
  rcases List.mem_append.mp hc with hc | hc
  · rcases List.mem_append.mp hc with hc | hc
    · exact gap_unbroken _ c hc
    · exact p.handler_unbroken c hc
  · exact gap_unbroken _ c hc

/-- The route of a plain item is found, and the search goes on after the item. -/
theorem Plain.routesIn_append (p : Plain) (rest : List Char) :
    routesIn (p.text ++ rest) = (Item.plain p).route :: routesIn rest := by
  have hend : Free pathWord [')'] := Free.of_notMem (by simp)
  cases hn : p.naming with
  | some n =>
    have htext : p.text ++ rest =
        p.opening.text ++ (p.run ++ (n.text ++ ((p.beforeEnd ++ [')']) ++ rest))) := by
      simp [Plain.text, Plain.namingText, Plain.run, hn]
    have hstop : ∀ c ∈ (n.text ++ ((p.beforeEnd ++ [')']) ++ rest)).head?, c = ',' ∨ c = ')' := by
      rintro c ⟨⟩
      exact Or.inl rfl
    have hd := Declares.named (p.opening.begins p.run_nonempty p.run_unbroken hstop) (n.names _)
    rw [htext, routesIn_opening_append hd ((free_gap (by decide) _).append hend), Item.route, hn]
  | none =>
    -- the blanks before the end belong to the handler
    have htext : p.text ++ rest = p.opening.text ++ ((p.run ++ p.beforeEnd) ++ ([')'] ++ rest)) := by
      simp [Plain.text, Plain.namingText, Plain.run, hn]
    have hrun : ∀ c ∈ p.run ++ p.beforeEnd, c ≠ ',' ∧ c ≠ ')' := by
      intro c hc
      rcases List.mem_append.mp hc with hc | hc
      · exact p.run_unbroken c hc
      · exact gap_unbroken _ c hc
    have hne : p.run ++ p.beforeEnd.val ≠ [] := by simp [p.run_nonempty]
    have hstop : ∀ c ∈ ([')'] ++ rest).head?, c = ',' ∨ c = ')' := by
      rintro c ⟨⟩
      exact Or.inr rfl
    have hbare : ∀ name after, ¬ Declaration.Names ([')'] ++ rest) name after := by
      rintro name after ⟨b₁, b₂, b₃, w, -, -, -, -, h⟩
      simp at h
    have hd := Declares.bare (p.opening.begins hne hrun hstop) hbare
    rw [htext, routesIn_opening_append hd hend, Item.route, hn]

/-! ## Includes -/

/-- No character of a quoted text that is not between the quotes breaks a run. -/
theorem Literal.mem_text {l : Literal} {c : Char} (hc : c ∈ l.text) : IsQuote c ∨ c ∈ l.body := by
  rcases List.mem_cons.mp hc with rfl | hc
  · exact Or.inl l.opening_quote
  · rcases List.mem_append.mp hc with hc | hc
    · exact Or.inr hc
    · rw [List.mem_singleton.mp hc]
      exact Or.inl l.closing_quote

theorem IsQuote.unbroken {c : Char} (h : IsQuote c) : c ≠ ',' ∧ c ≠ ')' := by
  rcases h with rfl | rfl <;> decide

/-- The handler of an include runs from its word to the comma after the module. -/
theorem Included.run_unbroken (i : Included) :
    ∀ c ∈ i.beforeInclude ++ i.nameText, c ≠ ',' ∧ c ≠ ')' := by
  intro c hc
  simp only [Included.nameText, List.mem_append] at hc
  have hword : ∀ c ∈ includeWord, c ≠ ',' ∧ c ≠ ')' := by simp [includeWord]
  have hparen : ∀ c ∈ ['('], c ≠ ',' ∧ c ≠ ')' := by simp
  rcases hc with hc | ((((((hc | hc) | hc) | hc) | hc) | hc) | hc) | hc
  · exact gap_unbroken _ c hc
  · exact hword c hc
  · exact gap_unbroken _ c hc
  · exact hparen c hc
  · exact gap_unbroken _ c hc
  · exact hparen c hc
  · exact gap_unbroken _ c hc
  · rcases Literal.mem_text hc with hq | hbody
    · exact IsQuote.unbroken hq
    · exact i.name_unbroken c hbody
  · exact gap_unbroken _ c hc

/-- What follows the module in an include is no name of a route: a quote comes first. -/
theorem Included.not_names (i : Included) (rest name after : List Char) :
    ¬ Declaration.Names (i.appText ++ rest) name after := by
  suffices h : Declaration.name? (i.appText ++ rest) = none from
    Declaration.name?_eq_none_iff.mp h name after
  have htext : i.appText ++ rest =
      ',' :: (i.beforeApp ++ i.app.opening :: (i.app.body ++ i.app.closing :: (i.afterApp ++
        ')' :: rest))) := by
    simp [Included.appText, Literal.text]
  have hn : 'n' ≠ i.app.opening := by
    intro h
    have hq := i.app.opening_quote
    rw [← h] at hq
    exact absurd hq (by simp [IsQuote])
  rw [htext, Declaration.name?]
  simp [word?, wordAfterBlanks?, skipBlanks_append i.beforeApp.property,
    skipBlanks_cons_of_not_blank i.app.opening_quote.not_blank, hn]

/-- What the route of an include leaves over: the search for routes goes on at the comma after the
module. -/
def Included.residue (i : Included) : List Char :=
  i.appText ++ i.spaceText ++ i.afterSpace ++ [')'] ++ i.beforeEnd ++ [')']

/-- What the route of an include leaves over holds no word of a route. -/
theorem Included.residue_free (i : Included) : Free pathWord i.residue := by
  have hgap : ∀ g : Gap, Free pathWord g := free_gap (by decide)
  have hmark : ∀ c : Char, c ≠ 'p' → Free pathWord [c] := fun c hc =>
    Free.of_notMem (by simpa using Ne.symm hc)
  have happ : Free pathWord i.appText :=
    ((((hmark ',' (by decide)).append (hgap _)).append
      (Literal.free i.app_noPath pathWord_unquoted)).append (hgap _)).append (hmark ')' (by decide))
  -- the keyword of the namespace starts like the word of a route and goes on differently
  have hkeyword : Free pathWord
      (['n', 'a', 'm', 'e', 's', 'p', 'a', 'c', 'e'] ++ (i.afterKeyword.val ++ ['='])) := by
    exact Free.append_run_of_stop (by decide) (gap_notMem (by decide) i.afterKeyword)
      (hmark '=' (by decide)) ⟨'=', rfl, by decide⟩
  have hspace : Free pathWord i.spaceText := by
    have h := ((((((hgap i.afterPair).append (hmark ',' (by decide))).append
      (hgap i.beforeKeyword)).append hkeyword).append (hgap i.beforeSpace)).append
      (Literal.free i.space_noPath pathWord_unquoted))
    simpa [Included.spaceText] using h
  exact ((((happ.append hspace).append (hgap _)).append (hmark ')' (by decide))).append
    (hgap _)).append (hmark ')' (by decide))

/-- The route of an include is found, and the search goes on after the item. -/
theorem Included.routesIn_append (i : Included) (rest : List Char) :
    routesIn (i.text ++ rest) = (Item.included i).route :: routesIn rest := by
  have htext : i.text ++ rest =
      i.opening.text ++ ((i.beforeInclude ++ i.nameText) ++ (i.residue ++ rest)) := by
    simp [Included.text, Included.residue]
  have hne : i.beforeInclude.val ++ i.nameText ≠ [] := by
    simp [Included.nameText, includeWord]
  have hstop : ∀ c ∈ (i.residue ++ rest).head?, c = ',' ∨ c = ')' := by
    rintro c ⟨⟩
    exact Or.inl rfl
  have hbare : ∀ name after, ¬ Declaration.Names (i.residue ++ rest) name after := by
    intro name after
    simp only [Included.residue, List.append_assoc]
    exact i.not_names _ name after
  have hd := Declares.bare (i.opening.begins hne i.run_unbroken hstop) hbare
  rw [htext, routesIn_opening_append hd i.residue_free, Item.route]

/-! ## What the include of an item leaves over -/

theorem include_read?_eq_none {s : List Char} (h : ¬ includeWord <+: s) :
    Include.read? s = none := by
  have hword : word? ['i', 'n', 'c', 'l', 'u', 'd', 'e'] s = none := word?_eq_none_iff.mpr h
  rw [Include.read?, Include.head?, hword]
  rfl

theorem bindingsIn_append_of_free {t : List Char} (h : Free includeWord t) (rest : List Char) :
    bindingsIn (t ++ rest) = bindingsIn rest :=
  Text.occurrences_append_of_free (fun _ => include_read?_eq_none) h rest

theorem free_include_gap (g : Gap) : Free includeWord g := free_gap (by decide) g

theorem free_include_mark {c : Char} (hc : c ≠ 'i') : Free includeWord [c] :=
  Free.of_notMem (by simpa using Ne.symm hc)

theorem Opening.free_include (o : Opening) : Free includeWord o.text := by
  have hkeyword : Free includeWord o.keyword.text := by
    cases o.keyword <;> exact Free.of_notMem (by decide)
  exact (((((hkeyword.append (free_include_gap _)).append (free_include_mark (by decide))).append
    (free_include_gap _)).append (Literal.free o.url_noInclude includeWord_unquoted)).append
    (free_include_gap _)).append (free_include_mark (by decide))

theorem Naming.free_include (n : Naming) : Free includeWord n.text := by
  have hkeyword : Free includeWord ['n', 'a', 'm', 'e'] := Free.of_notMem (by decide)
  exact ((((((free_include_mark (by decide)).append (free_include_gap _)).append hkeyword).append
    (free_include_gap _)).append (free_include_mark (by decide))).append (free_include_gap _)).append
    (Literal.free n.name_noInclude includeWord_unquoted)

/-- No include starts in a plain route. -/
theorem Plain.free_include (p : Plain) : Free includeWord p.text := by
  have hnaming : Free includeWord p.namingText := by
    rw [Plain.namingText]
    split
    · exact Naming.free_include _
    · exact Free.nil _
  have hend : Free includeWord (p.beforeEnd.val ++ [')']) :=
    (free_include_gap _).append (free_include_mark (by decide))
  have hstop : ∃ c ∈ (p.namingText ++ (p.beforeEnd.val ++ [')'])).head?, c ∉ includeWord := by
    rw [Plain.namingText]
    split
    · exact ⟨',', rfl, by decide⟩
    · cases hb : p.beforeEnd.val with
      | nil => exact ⟨')', rfl, by decide⟩
      | cons c b => exact ⟨c, rfl, gap_notMem (by decide) p.beforeEnd c (by simp [hb])⟩
  have hhandler := Free.append_run_of_stop p.handler_noInclude
    (gap_notMem (by decide) p.afterHandler) (hnaming.append hend) hstop
  have h := (p.opening.free_include.append (free_include_gap p.beforeHandler)).append hhandler
  simpa [Plain.text] using h

/-- The namespace of an include is found, and the search goes on after the item. -/
theorem Included.bindingsIn_append (i : Included) (rest : List Char) :
    bindingsIn (i.text ++ rest) =
      ⟨moduleKey (String.ofList i.name.body), String.ofList i.space.body⟩ :: bindingsIn rest := by
  let pair : List Char := i.beforeApp ++ i.app.text ++ i.afterApp
  let after : List Char := i.afterSpace ++ [')'] ++ i.beforeEnd ++ [')']
  have htext : i.text ++ rest = (i.opening.text ++ i.beforeInclude) ++
      (i.nameText ++ [','] ++ (pair ++ [')'] ++ (i.spaceText ++ (after ++ rest)))) := by
    simp [Included.text, Included.appText, pair, after]
  have hpair : ')' ∉ pair := by
    have hgap : ∀ g : Gap, ')' ∉ g.val := fun g hc => (gap_unbroken g _ hc).2 rfl
    simp only [pair, List.mem_append, not_or]
    refine ⟨⟨hgap _, fun hc => ?_⟩, hgap _⟩
    rcases Literal.mem_text hc with hq | hbody
    · exact (IsQuote.unbroken hq).2 rfl
    · exact i.app_unbroken hbody
  have hbinds : Binds (i.nameText ++ [','] ++ (pair ++ [')'] ++ (i.spaceText ++ (after ++ rest))))
      ⟨moduleKey (String.ofList i.name.body), String.ofList i.space.body⟩ (after ++ rest) :=
    .mk
      ⟨i.afterInclude, i.beforePair, i.beforeName, i.afterName, i.name.text, i.afterInclude.property,
        i.beforePair.property, i.beforeName.property, i.afterName.property,
        Literal.quoted i.name_nonempty, rfl⟩
      ⟨pair, hpair, rfl⟩
      ⟨i.afterPair, i.beforeKeyword, i.afterKeyword, i.beforeSpace, i.space.text,
        i.afterPair.property, i.beforeKeyword.property, i.afterKeyword.property,
        i.beforeSpace.property, Literal.quoted i.space_nonempty, rfl⟩
  have hafter : Free includeWord after :=
    (((free_include_gap _).append (free_include_mark (by decide))).append
      (free_include_gap _)).append (free_include_mark (by decide))
  rw [htext, bindingsIn_append_of_free (i.opening.free_include.append (free_include_gap _)),
    bindingsIn, Text.occurrences_of_some (Include.read?_eq_some_iff.mpr hbinds), ← bindingsIn,
    bindingsIn_append_of_free hafter]

/-! ## Whole modules -/

/-- The routes of items are found, and the search goes on after them. -/
theorem routesIn_lines_append (items : List Item) (rest : List Char) :
    routesIn (lines items ++ rest) = items.map Item.route ++ routesIn rest := by
  have hend : ∀ s, routesIn ([',', '\n'] ++ s) = routesIn s :=
    routesIn_append_of_free (Free.of_notMem (by decide))
  induction items with
  | nil => rfl
  | cons item items ih =>
    have hlines : lines (item :: items) ++ rest =
        item.text ++ ([',', '\n'] ++ (lines items ++ rest)) := by
      simp [lines]
    have hitem : ∀ s, routesIn (item.text ++ s) = item.route :: routesIn s := by
      cases item with
      | plain p => exact p.routesIn_append
      | included i => exact i.routesIn_append
    rw [hlines, hitem, hend, ih]
    rfl

/-- The namespaces that items bind are found, and the search goes on after them. -/
theorem bindingsIn_lines_append (items : List Item) (rest : List Char) :
    bindingsIn (lines items ++ rest) = items.filterMap Item.binding? ++ bindingsIn rest := by
  have hend : ∀ s, bindingsIn ([',', '\n'] ++ s) = bindingsIn s :=
    bindingsIn_append_of_free (Free.of_notMem (by decide))
  induction items with
  | nil => rfl
  | cons item items ih =>
    have hlines : lines (item :: items) ++ rest =
        item.text ++ ([',', '\n'] ++ (lines items ++ rest)) := by
      simp [lines]
    rw [hlines]
    cases item with
    | plain p =>
      have htext : (Item.plain p).text = p.text := rfl
      rw [htext, bindingsIn_append_of_free p.free_include, hend, ih]
      rfl
    | included i =>
      have htext : (Item.included i).text = i.text := rfl
      rw [htext, i.bindingsIn_append, hend, ih]
      rfl

/-- The characters before the items of a module. -/
def start : List Char := ['u', 'r', 'l', 'p', 'a', 't', 't', 'e', 'r', 'n', 's', ' ', '=', ' ', '[']

/-- The word before the items starts no route: it goes on differently. -/
theorem free_path_start : Free pathWord start := by
  have hpatterns : Free pathWord (['p', 'a', 't', 't', 'e', 'r', 'n', 's'] ++ [' ', '=', ' ', '[']) :=
    Free.append_of_stop (by simp [pathWord, List.infix_cons_iff])
      (Free.of_notMem (by decide)) ⟨' ', rfl, by decide⟩
  exact (Free.of_notMem (by decide) : Free pathWord ['u', 'r', 'l']).append hpatterns

theorem free_include_start : Free includeWord start := Free.of_notMem (by decide)

theorem toList_file (items : List Item) : (file items).toList = start ++ (lines items ++ [']']) := by
  have hstart : "urlpatterns = [".toList = start := by simp [start]
  have hfile : (file items).toList = "urlpatterns = [".toList ++ lines items ++ [']'] :=
    String.toList_ofList
  rw [hfile, hstart, List.append_assoc]

theorem routesIn_file (items : List Item) : routesIn (file items).toList = items.map Item.route := by
  have hend : Free pathWord [']'] := Free.of_notMem (by decide)
  have hlast : routesIn [']'] = [] :=
    (routesIn_append_of_free hend []).trans (Text.occurrences_nil _ _)
  rw [toList_file, routesIn_append_of_free free_path_start, routesIn_lines_append, hlast,
    List.append_nil]

theorem bindingsIn_file (items : List Item) :
    bindingsIn (file items).toList = items.filterMap Item.binding? := by
  have hend : Free includeWord [']'] := Free.of_notMem (by decide)
  have hlast : bindingsIn [']'] = [] :=
    (bindingsIn_append_of_free hend []).trans (Text.occurrences_nil _ _)
  rw [toList_file, bindingsIn_append_of_free free_include_start, bindingsIn_lines_append, hlast,
    List.append_nil]

/-- Reading a module gives one route for each of its items, in order, and binds the namespaces of its
includes: the modules stand in the order in which they are first included, and the last include of a
module wins. -/
theorem read_file (items : List Item) :
    (Urlconf.read false (file items)).routes = items.map Item.route ∧
      bindingsIn (file items).toList = items.filterMap Item.binding? ∧
      (Urlconf.read false (file items)).namespaces.keys =
        ((items.filterMap Item.binding?).map Binding.key).eraseDups ∧
      ∀ key, (Urlconf.read false (file items)).namespaces.get? key =
        (((items.filterMap Item.binding?).filter fun b => b.key = key).getLast?).map
          Binding.space := by
  refine ⟨routesIn_file items, bindingsIn_file items, ?_, fun key => ?_⟩
  · show (namespacesIn (file items).toList).keys = _
    rw [namespacesIn, Table.keys_ofList, bindingsIn_file, List.map_map]
    rfl
  · show (namespacesIn (file items).toList).get? key = _
    rw [namespacesIn, Table.get?_ofList, bindingsIn_file, Table.lastValue, List.filter_map,
      List.getLast?_map, Option.map_map]
    rfl

end RouteAtlas.Urlconf.Layout
