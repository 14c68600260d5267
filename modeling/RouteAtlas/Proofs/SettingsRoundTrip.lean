import RouteAtlas.Proofs.SettingsFaults
import RouteAtlas.Proofs.Walking

/-!
# Loading what was saved

Settings that a project can work with are read back from the JSON text that writes them
(`Settings.ofJson_toJson`), and the text is found again in the file it was written to, whatever links
lead there (`Settings.get_stored`). So loading undoes saving (`Settings.load_save`).
-/

namespace RouteAtlas.Settings

open Json (ItemsFit MembersFit Legible ReadsBack mostDigits)

/-- A project can work with the settings, and the ignored names are texts. -/
structure Valid (s : Settings) : Prop where
  fileName : s.fileName.Settled
  ignored : ∀ v ∈ s.ignored, ∃ w : WideText, v = .text w ∧ w.Settled
  maxWorkers : 1 ≤ s.maxWorkers
  template : s.template.Settled
  accepted : ∃ t, Template.ofWide s.template = .ok t
  debounce : 0 ≤ s.debounce

/-! ## Through the JSON value -/

variable {s : Settings} {source : Source} {fs fs' : Tree} {here : Tree.Location} {root p : Path}

/-- Reading an arrangement takes every setting from where it stands, and checks them. -/
theorem ofJson_arrange (source : Source) (fileName template : WideText) (items : List Json)
    (blockOnly : Bool) (maxWorkers : Int) (debounce : Float) :
    ofJson source (arrange Json.record (.text version) (.text fileName) (.list items)
      (.bool blockOnly) (.int maxWorkers) (.text template) (.float debounce)) =
    check source
      ⟨fileName, Value.ofJsonItems items, blockOnly, maxWorkers, template, debounce⟩ := rfl

theorem check_of_valid (source : Source) (h : s.Valid) : check source s = .ok s :=
  check_eq_ok_iff.mpr ⟨rfl, h.maxWorkers, Numeral.not_lt_of_nonneg h.debounce, h.accepted⟩

/-- Texts are read back from a list of texts. -/
theorem ofJsonItems_writtenItems {items : List Value} {written : List Json}
    (hitems : ∀ v ∈ items, ∃ w : WideText, v = .text w ∧ w.Settled)
    (h : Value.writtenItems items = .ok written) (room : Nat) :
    Value.ofJsonItems written = items ∧ ItemsFit room written := by
  induction items generalizing written with
  | nil =>
    cases h
    exact ⟨rfl, trivial⟩
  | cons v items ih =>
    obtain ⟨⟨w, rfl, hw⟩, hmore⟩ := List.forall_mem_cons.mp hitems
    rw [Value.writtenItems] at h
    obtain ⟨first, hfirst, h⟩ := bind_eq_ok_iff.mp h
    obtain ⟨rest, hrest, h⟩ := bind_eq_ok_iff.mp h
    cases hfirst
    cases h
    obtain ⟨hback, hfit⟩ := ih hmore hrest
    exact ⟨by rw [Value.ofJsonItems, hback]; rfl, hw, hfit⟩

theorem writtenNumber_eq_ok {n m : Int} (h : Value.writtenNumber n = .ok m) :
    m = n ∧ (Nat.toDigits 10 n.natAbs).length ≤ mostDigits := by
  unfold Value.writtenNumber at h
  split at h
  · contradiction
  · rename_i hdigits
    cases h
    exact ⟨rfl, Nat.not_lt.mp hdigits⟩

theorem toJson_eq_ok {v : Json} (h : s.toJson = .ok v) :
    ∃ items, Value.writtenItems s.ignored = .ok items ∧
      (Nat.toDigits 10 s.maxWorkers.natAbs).length ≤ mostDigits ∧
      v = arrange Json.record (.text version) (.text s.fileName) (.list items) (.bool s.blockOnly)
        (.int s.maxWorkers) (.text s.template) (.float s.debounce) := by
  unfold toJson at h
  obtain ⟨items, hitems, h⟩ := bind_eq_ok_iff.mp h
  obtain ⟨n, hn, h⟩ := bind_eq_ok_iff.mp h
  obtain ⟨rfl, hdigits⟩ := writtenNumber_eq_ok hn
  cases h
  exact ⟨items, hitems, hdigits, rfl⟩

/-- Every part of an arrangement fits. -/
theorem fits_arrange {fileName template : WideText} {items : List Json} {blockOnly : Bool}
    {maxWorkers : Int} {debounce : Float} (hfileName : fileName.Settled) (hitems : ItemsFit 0 items)
    (hdigits : (Nat.toDigits 10 maxWorkers.natAbs).length ≤ mostDigits)
    (htemplate : template.Settled) (hdebounce : Legible debounce) :
    (arrange Json.record (.text version) (.text fileName) (.list items) (.bool blockOnly)
      (.int maxWorkers) (.text template) (.float debounce)).Fits 3 := by
  have hscanning : MembersFit 1 [("file_name", .text fileName), ("ignored", .list items),
      ("urlpatterns_only", .bool blockOnly), ("max_workers", .int maxWorkers)] :=
    ⟨trivial, hfileName, trivial, ⟨by decide, hitems⟩, trivial, trivial, trivial, hdigits, trivial⟩
  have hsnippet : MembersFit 1 [("template", .text template)] := ⟨trivial, htemplate, trivial⟩
  have hwatching : MembersFit 1 [("debounce_seconds", .float debounce)] :=
    ⟨trivial, hdebounce, trivial⟩
  have hnames : ([.plain "version", .plain "scanning", .plain "snippet", .plain "watching"] :
      List WideText).Nodup := by decide
  have hentries : ([.plain "file_name", .plain "ignored", .plain "urlpatterns_only",
      .plain "max_workers"] : List WideText).Nodup := by decide
  exact ⟨by decide, hnames, trivial, trivial, trivial, ⟨by decide, hentries, hscanning⟩, trivial,
    ⟨by decide, List.nodup_singleton _, hsnippet⟩, trivial,
    ⟨by decide, List.nodup_singleton _, hwatching⟩, trivial⟩

/-- Reading the JSON value of settings gives them back. -/
theorem ofJson_toJson (source : Source) (hs : s.Valid) (hdebounce : ReadsBack s.debounce) {v : Json}
    (h : s.toJson = .ok v) : v.Fits 3 ∧ ofJson source v = .ok s := by
  obtain ⟨items, hitems, hdigits, rfl⟩ := toJson_eq_ok h
  obtain ⟨hback, hfit⟩ := ofJsonItems_writtenItems hs.ignored hitems 0
  refine ⟨fits_arrange hs.fileName hfit hdigits hs.template
    (Json.legible_of_nonneg hs.debounce hdebounce), ?_⟩
  rw [ofJson_arrange, hback]
  exact check_of_valid source hs

/-! ## Through the file -/

/-- What was written to the file of a project is found there. -/
theorem get_stored (h : stored fs here root s = .ok fs') :
    ∃ text, s.text = .ok text ∧
      fs'.get here (toString (storePath root)) = .ok (.file text.toUTF8.toList) := by
  unfold stored at h
  obtain ⟨made, hmade, h⟩ := bind_eq_ok_iff.mp h
  obtain ⟨text, htext, hwrite⟩ := bind_eq_ok_iff.mp h
  have hfolderName : storeFolder.toList ≠ [] ∧ '/' ∉ storeFolder.toList := by decide
  have hfileName : "config.json".toList ≠ [] ∧ '/' ∉ "config.json".toList := by decide
  have hparent : (storePath root).parent = root.append [storeFolder] := by
    simp [storePath, Path.parent, Path.append]
  have hpath : storePath root = (root.append [storeFolder]).append ["config.json"] := by
    simp [storePath, Path.append]
  have hne : (root.append [storeFolder]).names ≠ [] := by simp [Path.append]
  have hempty : (root.append [storeFolder]).toString.toList ≠ [] := by
    obtain ⟨front, hfront⟩ := Path.exists_toList_toString_append root storeFolder
    simp [hfront, hfolderName.1]
  have hlast := Tree.getLast?_toString_append hfolderName.1 hfolderName.2 root
  -- The folder was made first, so that its path leads somewhere.
  rw [hparent] at hmade
  obtain ⟨before, hfolder⟩ := Tree.exists_makeFolder hmade
  obtain ⟨place, hleads⟩ := Tree.leads_of_makeFolder hfolder (Tree.ne_empty_of_mem_steps hlast)
  have hsteps := Tree.steps_toString_append hne hlast hfileName.1 hfileName.2
  rw [← Tree.startOf_toString_append hne hempty here "config.json"] at hleads
  refine ⟨text, htext, ?_⟩
  rw [hpath] at hwrite ⊢
  exact Tree.get_writeFile hwrite hsteps ⟨"config.json", List.mem_cons_self, by decide⟩ hleads

theorem save_eq_ok (h : save fs here root s = .ok (fs', p)) : stored fs here root s = .ok fs' := by
  unfold save at h
  split at h
  · cases h
    assumption
  · contradiction

/-- Saved settings are loaded by a reader that has room for three open brackets. -/
theorem load_of_save {most : Nat} (hmost : 3 ≤ most) (hs : s.Valid) (hdebounce : ReadsBack s.debounce)
    (h : save fs here root s = .ok (fs', p)) : load fs' here root most = .ok s := by
  obtain ⟨text, htext, hfile⟩ := get_stored (save_eq_ok h)
  obtain ⟨v, hv, htext⟩ := bind_eq_ok_iff.mp htext
  cases htext
  obtain ⟨hfit, hback⟩ := ofJson_toJson (some (toString (storePath root))) hs hdebounce hv
  have hdecode := Source.decode_toUTF8 (Json.arePlain_line hfit)
  rw [load_of_file hfile, storedJson_of_text hfile hdecode, Json.read_line hfit hmost]
  exact hback

/-- Saved settings are loaded as they were, through the text of their file. -/
theorem load_save (hs : s.Valid) (hdebounce : ReadsBack s.debounce)
    (h : save fs here root s = .ok (fs', p)) : load fs' here root = .ok s :=
  load_of_save (by decide) hs hdebounce h

/-- Settings with texts that have to be escaped. -/
def escaped : Settings :=
  { fileName := "\"\\\t\u00e9\u2028.py"
    ignored := [.text "\x07", .text "dist/😀", .text (.unpaired [0xD83D])]
    debounce := 0.5 }

theorem valid_escaped : escaped.Valid where
  fileName := trivial
  ignored := by
    intro v hv
    simp only [escaped, List.mem_cons, List.not_mem_nil, or_false] at hv
    rcases hv with rfl | rfl | rfl
    · exact ⟨_, rfl, trivial⟩
    · exact ⟨_, rfl, trivial⟩
    · exact ⟨_, rfl, by decide, by decide, List.isChain_singleton _⟩
  maxWorkers := by decide
  template := trivial
  accepted := ⟨_, rfl⟩
  debounce := by decide +kernel

theorem readsBack_half : ReadsBack 0.5 := by
  have htext : Numeral.floatText Numeral.json 0.5 = "0.5" := by decide +kernel
  intro w hw
  rw [htext] at hw
  cases hw
  decide +kernel

/-- A project whose folder of settings is a link. -/
def linked : Tree := .folder [("elsewhere", .folder []), (storeFolder, .link "elsewhere")]

/-- Settings are saved and loaded through the link. -/
theorem load_save_linked :
    ∃ fs' p, save linked [] ⟨.root, []⟩ escaped = .ok (fs', p) ∧
      load fs' [] ⟨.root, []⟩ = .ok escaped := by
  obtain ⟨fs', p, h⟩ : ∃ fs' p, save linked [] ⟨.root, []⟩ escaped = .ok (fs', p) := ⟨_, _, rfl⟩
  exact ⟨fs', p, h, load_save valid_escaped readsBack_half h⟩

end RouteAtlas.Settings
