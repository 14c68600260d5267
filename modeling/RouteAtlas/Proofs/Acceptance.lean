import RouteAtlas.Proofs.FloatSign
import RouteAtlas.Proofs.Opening

/-!
# What accepted settings are good for

Settings that are accepted from a JSON object have workers and a template to work with. But of the ignored
list nothing is looked at except that it is a list, and seconds that are no number pass because they are
not below zero (`Settings.Accepted`). An item of the list that is a list or an object makes everything fail
that looks up a name in it (`Settings.usable_iff`); any other item that is no text is never found, and does
no harm.
-/

namespace RouteAtlas

open RouteAtlas.Tree (Location TooLong)

/-! ## JSON objects as settings -/

namespace Json

/-- What an object gives for an entry of a section. -/
def given? (data : Json) (part key : String) : Option Json := (data.member? part).bind (·.member? key)

/-- The list of ignored names has an item that is no text. -/
def IgnoresOther (data : Json) : Prop :=
  ∃ items, data.given? "scanning" "ignored" = some (.list items) ∧ ∃ v ∈ items, ∀ w, v ≠ .text w

/-- The list of ignored names has an item that is a list or an object. -/
def IgnoresNested (data : Json) : Prop :=
  ∃ items, data.given? "scanning" "ignored" = some (.list items) ∧
    ∃ v ∈ items, (∃ parts, v = .list parts) ∨ ∃ members, v = .object members

/-- The seconds that a watcher waits are no number. -/
def WaitsForNone (data : Json) : Prop :=
  ∃ x, data.given? "watching" "debounce_seconds" = some (.float x) ∧ x.isNaN = true

end Json

namespace Value

theorem ofJsonItems_eq_map (items : List Json) : ofJsonItems items = items.map ofJson := by
  induction items with
  | nil => rfl
  | cons v items ih => rw [ofJsonItems, ih, List.map_cons]

theorem ofJson_eq_text_iff {v : Json} : (∃ w, ofJson v = .text w) ↔ ∃ w, v = .text w := by
  cases v <;> simp [ofJson]

/-- A JSON value can be looked up unless it is a list or an object. -/
theorem unkeyed?_ofJson_iff {v : Json} :
    (ofJson v).unkeyed? = Option.none ↔
      ¬ ((∃ parts, v = .list parts) ∨ ∃ members, v = .object members) := by
  cases v <;> simp [ofJson, unkeyed?]

end Value

namespace Settings

variable {s : Settings} {source : Source} {data entries : List (Value × Value)} {name key : String}

/-- The entries of an object are looked up by their names. -/
theorem entry?_ofJsonMembers (name : String) (members : List (WideText × Json)) :
    entry? name (Value.ofJsonMembers members) =
      ((Json.object members).member? name).map Value.ofJson := by
  induction members with
  | nil => rfl
  | cons m members ih =>
    obtain ⟨w, v⟩ := m
    have hsame : Value.sameKey (.text w) (.text name) = (w == .plain name) := rfl
    rw [ entry?, Json.member?] at ih ⊢
    rw [Value.ofJsonMembers, List.find?_cons, hsame, Table.lookup]
    by_cases hw : w = .plain name
    · rw [if_pos hw, beq_iff_eq.mpr hw]
      rfl
    · rw [if_neg hw, beq_eq_false_iff_ne.mpr hw]
      exact ih

/-- What an object gives for an entry is what stands in the section. -/
theorem entry?_of_section {members : List (WideText × Json)}
    (h : sectionOf source (Value.ofJsonMembers members) name = .ok entries) (key : String) :
    entry? key entries = ((Json.object members).given? name key).map Value.ofJson := by
  unfold sectionOf at h
  rw [entry?_ofJsonMembers] at h
  unfold Json.given?
  cases hmember : (Json.object members).member? name with
  | none =>
    rw [hmember] at h
    cases h
    rfl
  | some v =>
    rw [hmember] at h
    cases v with
    | object entries' =>
      cases h
      exact entry?_ofJsonMembers key entries'
    | _ => cases h

/-! ## What is accepted -/

/-- The settings that an object gives, where it gives any, and what is checked of them. -/
structure Accepted (data : Json) (s : Settings) : Prop where
  ignored : data.given? "scanning" "ignored" = none ∧ s.ignored = ({} : Settings).ignored ∨
    ∃ items, data.given? "scanning" "ignored" = some (.list items) ∧
      s.ignored = Value.ofJsonItems items
  seconds : data.given? "watching" "debounce_seconds" = none ∧ s.debounce = ({} : Settings).debounce ∨
    data.given? "watching" "debounce_seconds" = some (.float s.debounce) ∨
    ∃ n, data.given? "watching" "debounce_seconds" = some (.int n) ∧
      Numeral.floatOfInt? n = some s.debounce
  maxWorkers : 1 ≤ s.maxWorkers
  template : ∃ t, Template.ofWide s.template = .ok t
  debounce : ¬ s.debounce < 0

/-- A whole number of seconds that is accepted is rounded. -/
theorem floatOfInt?_of_seconds {n : Int} {x : Float} (h : seconds? (.int n) = some (.ok x)) :
    Numeral.floatOfInt? n = some x := by
  simp only [seconds?, number?, Value.whole?, Option.map_some, Option.some.injEq] at h
  cases hrounded : Numeral.floatOfInt? n with
  | some y =>
    rw [hrounded] at h
    cases h
    rfl
  | none =>
    rw [hrounded] at h
    cases h

theorem accepted_of_ofJson {members : List (WideText × Json)}
    (h : ofJson source (.object members) = .ok s) : Accepted (.object members) s := by
  rw [ofJson] at h
  simp only [ofEntries, bind_eq_ok_iff] at h
  obtain ⟨scanning, hscanning, snippet, -, watching, hwatching, fileName, -, ignored, hignored,
    blockOnly, -, maxWorkers, -, template, -, seconds, hseconds, debounce, rfl, hcheck⟩ := h
  obtain ⟨rfl, hworkers, hdebounce, htemplate⟩ := check_eq_ok_iff.mp hcheck
  rw [entryOf_eq_ok_iff, entry?_of_section hscanning] at hignored
  rw [entryOf_eq_ok_iff, entry?_of_section hwatching] at hseconds
  refine ⟨?_, ?_, hworkers, htemplate, hdebounce⟩
  · rcases hignored with ⟨hnone, hdefault⟩ | ⟨v, hgiven, haccept⟩
    · exact Or.inl ⟨Option.map_eq_none_iff.mp hnone, hdefault⟩
    · obtain ⟨j, hj, rfl⟩ := Option.map_eq_some_iff.mp hgiven
      cases j with
      | list items =>
        cases haccept
        exact Or.inr ⟨items, hj, rfl⟩
      | _ => cases haccept
  · rcases hseconds with ⟨hnone, hdefault⟩ | ⟨v, hgiven, haccept⟩
    · exact Or.inl ⟨Option.map_eq_none_iff.mp hnone, Except.ok.inj hdefault⟩
    · obtain ⟨j, hj, rfl⟩ := Option.map_eq_some_iff.mp hgiven
      cases j with
      | float x =>
        cases haccept
        exact Or.inr (Or.inl hj)
      | int n =>
        exact Or.inr (Or.inr ⟨n, hj, floatOfInt?_of_seconds haccept⟩)
      | _ => cases haccept

namespace Accepted

variable {data : Json}

/-- A property of JSON values holds of all ignored items if it holds of all that are given. -/
theorem forall_ignored_iff (h : Accepted data s) {P : Value → Prop}
    (hdefault : ∀ v ∈ ({} : Settings).ignored, P v) :
    (∀ v ∈ s.ignored, P v) ↔
      ∀ items, data.given? "scanning" "ignored" = some (.list items) → ∀ v ∈ items, P (.ofJson v) := by
  rcases h.ignored with ⟨hnone, hsettings⟩ | ⟨items, hgiven, hsettings⟩
  · rw [hsettings, hnone]
    simpa using hdefault
  · rw [hsettings, hgiven, Value.ofJsonItems_eq_map]
    simp

theorem texts_iff (h : Accepted data s) :
    (∀ v ∈ s.ignored, ∃ w, v = .text w) ↔ ¬ data.IgnoresOther := by
  have hdefault : ∀ v ∈ ({} : Settings).ignored, ∃ w, v = .text w := by
    intro v hv
    obtain ⟨name, -, rfl⟩ := List.mem_map.mp hv
    exact ⟨_, rfl⟩
  rw [h.forall_ignored_iff hdefault]
  simp [Json.IgnoresOther, Value.ofJson_eq_text_iff]

theorem unkeyed?_iff (h : Accepted data s) :
    (∀ v ∈ s.ignored, v.unkeyed? = none) ↔ ¬ data.IgnoresNested := by
  have hdefault : ∀ v ∈ ({} : Settings).ignored, v.unkeyed? = none := by
    intro v hv
    obtain ⟨name, -, rfl⟩ := List.mem_map.mp hv
    rfl
  rw [h.forall_ignored_iff hdefault]
  simp [Json.IgnoresNested, Value.unkeyed?_ofJson_iff]

theorem nonneg_iff (h : Accepted data s) : 0 ≤ s.debounce ↔ ¬ data.WaitsForNone := by
  rw [Numeral.nonneg_iff, and_iff_left h.debounce]
  rcases h.seconds with ⟨hnone, hsettings⟩ | hgiven | ⟨n, hgiven, hrounded⟩
  · refine iff_of_true ?_ ?_
    · rw [hsettings]
      decide +kernel
    · rintro ⟨x, hx, -⟩
      rw [hnone] at hx
      cases hx
  · rw [← Bool.not_eq_true]
    refine not_congr ⟨fun hnan => ⟨_, hgiven, hnan⟩, ?_⟩
    rintro ⟨x, hx, hnan⟩
    rw [hgiven] at hx
    cases hx
    exact hnan
  · refine iff_of_true (Numeral.isNaN_of_floatOfInt? hrounded) ?_
    rintro ⟨x, hx, -⟩
    rw [hgiven] at hx
    cases hx

end Accepted

end Settings

/-! ## What settings are used for -/

namespace Workspace

/-- Nothing that a workspace is asked fails because of its settings. A refresh and a watcher never fail
while there is a folder at the root; whether a path concerns the workspace, which is what a watcher asks,
can only be unknown for a path that has no canonical form. -/
structure Works (w : Workspace) (root : Location) : Prop where
  refresh : ∀ fs here, fs.sightAt? root = some .folder → ∃ scan, (w.refresh fs here).2.2 = .ok scan
  watch : ∀ fs here, ∃ watcher, Workspace.watch { fs, here, workspace := w } = .ok watcher ∧
    ∀ s path, watcher.handling.accept s path = s.workspace.concerns s.fs s.here path
  concerns : ∀ fs here path f, w.concerns fs here path = .error f →
    fs.resolve here (Path.ofString path) = .error f

theorem works_of_ignoredNames {w : Workspace} {root : Location} {ignored : List String}
    (hroot : AreNames root) (hshort : ¬ TooLong root) (hw : w.root = ⟨.root, root⟩)
    (hignored : w.settings.ignoredNames = .ok ignored) : Works w root where
  refresh fs here hfolder :=
    ⟨_, (refresh_of_ok (modules_directory hroot hfolder hshort hw hignored)).2⟩
  watch fs here := by
    obtain ⟨h, hhandling, hh⟩ := exists_handling hignored
    refine ⟨⟨w.root, (WatchOptions.ofSettings w.settings).recursive, h,
      { world := { fs, here, workspace := w } }, false⟩, ?_, hh.accept⟩
    simp only [Workspace.watch, hhandling, bind, Except.bind]
    rfl
  concerns fs here path f h := by
    simp only [Workspace.concerns, hignored, bind, Except.bind, pure, Except.pure] at h
    split at h
    · cases h
    split at h
    · cases h
    · rename_i hresolve
      cases h
      exact hresolve
    · split at h <;> cases h

end Workspace

namespace Settings

variable {s : Settings} {source : Source}

/-- A project can be opened with the settings wherever a path leads to a folder, whose own path is not too
long to be followed, and nothing that it is asked then fails because of them. -/
def Usable (s : Settings) : Prop :=
  ∀ (fs : Tree) (here root : Location) (path : String) (es : List (String × Tree)),
    Tree.isAddress path = true → AreNames root → ¬ TooLong root →
    fs.locate .target here path = .ok (.taken root (.folder es)) →
    ∃ w, Workspace.openAt fs here (Path.ofString path) (some s) = .ok w ∧ w.settings = s ∧
      w.Works root

theorem ignoredNames_of_watch {site : Workspace.Site} {watcher : Watch.Watcher Workspace.Site}
    (h : Workspace.watch site = .ok watcher) :
    ∃ ignored, site.workspace.settings.ignoredNames = .ok ignored := by
  obtain ⟨handling, hhandling, -⟩ := bind_eq_ok_iff.mp h
  obtain ⟨filter, hfilter, -⟩ := bind_eq_ok_iff.mp hhandling
  obtain ⟨ignored, hignored, -⟩ := bind_eq_ok_iff.mp hfilter
  exact ⟨ignored, hignored⟩

/-- What a project cannot be used with is an ignored list in which nothing can be looked up. -/
theorem usable_iff (ht : ∃ t, Template.ofWide s.template = .ok t) :
    s.Usable ↔ ∀ v ∈ s.ignored, v.unkeyed? = none := by
  rw [← exists_namesIn_iff]
  constructor
  · intro h
    obtain ⟨w, -, rfl, hworks⟩ :=
      h (.folder []) [] [] "/" [] (by decide) (by decide) (by decide) rfl
    obtain ⟨watcher, hwatch, -⟩ := hworks.watch (.folder []) []
    exact ignoredNames_of_watch hwatch
  · rintro ⟨ignored, hignored⟩ fs here root path es haddress hroot hshort hfolder
    obtain ⟨t, ht⟩ := ht
    exact ⟨_, Workspace.openAt_given haddress hroot hfolder ht, rfl,
      Workspace.works_of_ignoredNames hroot hshort rfl hignored⟩

/-- What is taken for granted of accepted settings. That the name of routing modules is a text and the
choice of the block a truth value is in their types. -/
structure Sound (s : Settings) : Prop where
  ignored : ∀ v ∈ s.ignored, ∃ w, v = .text w
  maxWorkers : 1 ≤ s.maxWorkers
  template : ∃ t, Template.ofWide s.template = .ok t
  debounce : 0 ≤ s.debounce
  usable : s.Usable

/-- Settings that are accepted from an object always have workers and a template. They are as they should
be if and only if every ignored name that is given is a text and the seconds that are given are a number;
projects can be used with them if and only if no list and no object is given as an ignored name. -/
theorem sound_iff_of_ofJson {members : List (WideText × Json)}
    (h : ofJson source (.object members) = .ok s) :
    1 ≤ s.maxWorkers ∧ (∃ t, Template.ofWide s.template = .ok t) ∧
      ((∀ v ∈ s.ignored, ∃ w, v = .text w) ↔ ¬ (Json.object members).IgnoresOther) ∧
      (0 ≤ s.debounce ↔ ¬ (Json.object members).WaitsForNone) ∧
      (s.Usable ↔ ¬ (Json.object members).IgnoresNested) ∧
      (s.Sound ↔ ¬ (Json.object members).IgnoresOther ∧ ¬ (Json.object members).WaitsForNone) := by
  have haccepted := accepted_of_ofJson h
  have husable : s.Usable ↔ ¬ (Json.object members).IgnoresNested := by
    rw [usable_iff haccepted.template, haccepted.unkeyed?_iff]
  refine ⟨haccepted.maxWorkers, haccepted.template, haccepted.texts_iff, haccepted.nonneg_iff, husable,
    fun hsound => ⟨haccepted.texts_iff.mp hsound.ignored, haccepted.nonneg_iff.mp hsound.debounce⟩, ?_⟩
  rintro ⟨hother, hnone⟩
  refine ⟨haccepted.texts_iff.mpr hother, haccepted.maxWorkers, haccepted.template,
    haccepted.nonneg_iff.mpr hnone, husable.mpr ?_⟩
  rintro ⟨items, hgiven, v, hv, ⟨parts, rfl⟩ | ⟨members, rfl⟩⟩
  · exact hother ⟨items, hgiven, _, hv, by simp⟩
  · exact hother ⟨items, hgiven, _, hv, by simp⟩

theorem template_default : ∃ t, Template.ofWide ({} : Settings).template = .ok t :=
  ⟨.default, Template.ofText_defaultText⟩

/-- Settings with a list of ignored names. -/
def ignoring (items : List Json) : List (WideText × Json) :=
  [("scanning", .object [("ignored", .list items)])]

theorem ofJson_ignoring (source : Source) (items : List Json) :
    ofJson source (.object (ignoring items)) = .ok { ignored := Value.ofJsonItems items } := by
  have hread : ofJson source (.object (ignoring items)) =
      check source { ignored := Value.ofJsonItems items } := rfl
  have hworkers : 1 ≤ ({} : Settings).maxWorkers := by decide
  have hdebounce : ¬ ({} : Settings).debounce < 0 := by decide +kernel
  rw [hread, check_eq_ok_iff]
  exact ⟨rfl, hworkers, hdebounce, template_default⟩

/-- A number in the list does no harm, though it is no text. -/
theorem usable_ignoring_number :
    ∃ s, ofJson none (.object (ignoring [.text "dist", .int 7])) = .ok s ∧ s.Usable ∧ ¬ s.Sound := by
  have haccepted := ofJson_ignoring none [.text "dist", .int 7]
  have hgiven : (Json.object (ignoring [.text "dist", .int 7])).given? "scanning" "ignored" =
      some (.list [.text "dist", .int 7]) := rfl
  obtain ⟨-, -, -, -, husable, hsound⟩ := sound_iff_of_ofJson haccepted
  refine ⟨_, haccepted, husable.mpr ?_, fun h => (hsound.mp h).1 ⟨_, hgiven, .int 7, by simp, by simp⟩⟩
  rintro ⟨items, hitems, v, hv, hnested⟩
  rw [hgiven] at hitems
  cases hitems
  simp only [List.mem_cons, List.not_mem_nil, or_false] at hv
  rcases hv with rfl | rfl <;> simp at hnested

/-- A list in the list is accepted, and no project can be used then. Seconds that are no number are
accepted, too. -/
theorem not_usable_ignoring_list :
    (∃ s, ofJson none (.object (ignoring [.list [.text "x"]])) = .ok s ∧ ¬ s.Usable ∧ ¬ s.Sound) ∧
      ∃ s, ofJson none (.object [("watching", .object [("debounce_seconds", .float (0 / 0))])]) = .ok s ∧
        ¬ 0 ≤ s.debounce ∧ ¬ s.Sound := by
  constructor
  · have hjson := ofJson_ignoring none [.list [.text "x"]]
    have haccepted := accepted_of_ofJson hjson
    have hunusable : ¬ Usable { ignored := Value.ofJsonItems [.list [.text "x"]] } := by
      rw [usable_iff haccepted.template, haccepted.unkeyed?_iff, not_not]
      exact ⟨_, rfl, .list [.text "x"], List.mem_cons_self, Or.inl ⟨_, rfl⟩⟩
    exact ⟨_, hjson, hunusable, fun h => hunusable h.usable⟩
  · have hbelow : ¬ (0 : Float) ≤ 0 / 0 := by decide +kernel
    refine ⟨{ debounce := 0 / 0 }, ?_, hbelow, fun h => hbelow h.debounce⟩
    have hread : ofJson none (.object [("watching", .object [("debounce_seconds", .float (0 / 0))])]) =
        check none { debounce := 0 / 0 } := rfl
    rw [hread, check_eq_ok_iff]
    exact ⟨rfl, by decide, by decide +kernel, template_default⟩

end Settings

end RouteAtlas
