import RouteAtlas.CommandLine.Command
import RouteAtlas.Proofs.JsonText

/-!
# How loading settings can fail

Settings that are stored in a file are read step by step: the bytes, the JSON text, the sections, the
entries, and last the settings as a whole. Nearly every step that fails gives a report for the user.
The exceptions are the limits of JSON texts and whole numbers of seconds that are too large
(`Settings.Escapes`).
-/

namespace RouteAtlas

theorem Numeral.floatOfInt?_of_endless {n : Nat} (hn : 10 ^ 400 ≤ n) : floatOfInt? n = none := by
  have hdigits : ¬ (Nat.toDigits 10 n).length ≤ 400 := by
    rw [Nat.length_toDigits_le_iff (by decide) (by decide)]
    exact Nat.not_lt.mpr hn
  have hlength : (toString n).length = (Nat.toDigits 10 n).length := by
    rw [← String.length_toList, Nat.toString_eq_ofList_toDigits, String.toList_ofList]
  have hne : n ≠ 0 := Nat.ne_of_gt (Nat.lt_of_lt_of_le (Nat.pow_pos (by decide)) hn)
  have hnegative : ¬ (n : Int) < 0 := by omega
  have hfloat : floatOfDecimal (decide ((n : Int) < 0)) (n : Int).natAbs 0 = 1 / 0 := by
    unfold floatOfDecimal
    rw [Int.natAbs_natCast]
    simp only [decide_eq_true_eq, if_neg hnegative, if_neg hne]
    rw [if_pos]
    rw [hlength]
    omega
  have hinf : (1 / 0 : Float).isInf = true := by decide +kernel
  unfold floatOfInt?
  rw [hfloat]
  simp only [hinf, if_true]

namespace Settings

variable {source : Source} {data entries : List (Value × Value)} {name key : String}

/-! ## Sections and entries -/

/-- The section of a name has these entries; a section that is missing has none. -/
def HasSection (data : List (Value × Value)) (name : String) (entries : List (Value × Value)) :
    Prop :=
  entry? name data = none ∧ entries = [] ∨ entry? name data = some (.mapping false entries)

/-- The entry of a key has the right type, unless it is missing. -/
def Fits {α : Type} (entries : List (Value × Value)) (key : String) (accept : Value → Option α) :
    Prop :=
  ∀ v, entry? key entries = some v → (accept v).isSome

/-- The fault is a report about the configuration. -/
def IsRefusal (f : Fault) : Prop := ∃ r behind, f = .report r behind ∧ r.kind = .configuration

theorem isRefusal_refusal (source : Source) (message : String) :
    IsRefusal (refusal source message) := ⟨_, _, rfl, rfl⟩

theorem sectionOf_eq_ok_iff : sectionOf source data name = .ok entries ↔ HasSection data name entries := by
  unfold sectionOf HasSection
  cases entry? name data with
  | none => simp [eq_comm]
  | some v =>
    cases v with
    | mapping readOnly entries' => cases readOnly <;> simp
    | _ => simp

theorem isRefusal_of_sectionOf {f : Fault} (h : sectionOf source data name = .error f) :
    IsRefusal f := by
  unfold sectionOf at h
  split at h
  · exact absurd h (by simp)
  · exact absurd h (by simp)
  · cases h
    exact isRefusal_refusal _ _

variable {α : Type} {accept : Value → Option α} {fallback : α}

theorem entryOf_eq_ok_iff {a : α} :
    entryOf source entries key accept fallback = .ok a ↔
      entry? key entries = none ∧ a = fallback ∨ ∃ v, entry? key entries = some v ∧ accept v = some a := by
  unfold entryOf
  cases entry? key entries with
  | none => simp [eq_comm]
  | some v => cases haccept : accept v <;> simp [haccept]

theorem exists_entryOf_eq_ok_iff (source : Source) (fallback : α) :
    (∃ a, entryOf source entries key accept fallback = .ok a) ↔ Fits entries key accept := by
  unfold entryOf Fits
  cases entry? key entries with
  | none => simp
  | some v => cases h : accept v <;> simp [h]

theorem fits_of_entryOf {a : α} (h : entryOf source entries key accept fallback = .ok a) :
    Fits entries key accept :=
  (exists_entryOf_eq_ok_iff source fallback).mp ⟨a, h⟩

theorem isRefusal_of_entryOf {f : Fault} (h : entryOf source entries key accept fallback = .error f) :
    IsRefusal f := by
  unfold entryOf at h
  split at h
  · exact absurd h (by simp)
  · split at h
    · exact absurd h (by simp)
    · cases h
      exact isRefusal_refusal _ _

/-- Settings pass the check with enough workers, seconds that are not below zero and a template. -/
theorem check_eq_ok_iff {s s' : Settings} : check source s = .ok s' ↔
    s' = s ∧ 1 ≤ s.maxWorkers ∧ ¬ s.debounce < 0 ∧ ∃ t, Template.ofWide s.template = .ok t := by
  unfold check
  split
  · rename_i hworkers
    simp [Int.not_le.mpr hworkers]
  split
  · rename_i hdebounce
    simp [hdebounce]
  · rename_i hworkers hdebounce
    cases htemplate : Template.ofWide s.template with
    | ok t => simp [hdebounce, Int.not_lt.mp hworkers, eq_comm]
    | error e => simp

theorem isRefusal_of_check {s : Settings} {f : Fault} (h : check source s = .error f) :
    IsRefusal f := by
  unfold check at h
  split at h
  · cases h
    exact isRefusal_refusal _ _
  · split at h
    · cases h
      exact isRefusal_refusal _ _
    · split at h
      · exact absurd h (by simp)
      · cases h
        exact isRefusal_refusal _ _

/-- Seconds are no number exactly if they are a whole number beyond every floating-point number. -/
theorem entryOf_seconds_eq_iff {debounce : Float} {f : Fault} :
    entryOf source entries key seconds? (.ok debounce) = .ok (.error f) ↔
      f = .intTooLarge ∧ ∃ v n, entry? key entries = some v ∧ number? v = some n ∧
        Numeral.floatOfInt? n = none := by
  unfold entryOf
  cases entry? key entries with
  | none => simp
  | some v =>
    have hseconds : seconds? v = some (.error f) ↔
        f = .intTooLarge ∧ ∃ n, number? v = some n ∧ Numeral.floatOfInt? n = none := by
      cases v with
      | float x => simp [seconds?, number?, Value.whole?]
      | _ =>
        simp only [seconds?, Option.map_eq_some_iff]
        constructor
        · rintro ⟨n, hn, hlarge⟩
          cases hfloat : Numeral.floatOfInt? n with
          | some x => simp [hfloat] at hlarge
          | none =>
            rw [hfloat] at hlarge
            cases hlarge
            exact ⟨rfl, n, hn, hfloat⟩
        · rintro ⟨rfl, n, hn, hfloat⟩
          exact ⟨n, hn, by rw [hfloat]⟩
    dsimp only
    cases haccept : seconds? v with
    | none =>
      rw [haccept] at hseconds
      simpa using hseconds
    | some seconds =>
      rw [haccept] at hseconds
      simpa using hseconds

/-! ## The whole -/

/-- Everything that is read before the seconds of a watcher has its right type, and these are a whole
number beyond every floating-point number. -/
inductive Overflows (data : List (Value × Value)) : Prop
  | intro {scanning snippet watching : List (Value × Value)} {v : Value} {n : Int}
      (hscanning : HasSection data "scanning" scanning)
      (hsnippet : HasSection data "snippet" snippet)
      (hwatching : HasSection data "watching" watching)
      (hfileName : Fits scanning "file_name" Value.text?)
      (hignored : Fits scanning "ignored" items?)
      (hblockOnly : Fits scanning "urlpatterns_only" truth?)
      (hmaxWorkers : Fits scanning "max_workers" number?)
      (htemplate : Fits snippet "template" Value.text?)
      (hdebounce : entry? "debounce_seconds" watching = some v)
      (hnumber : number? v = some n)
      (hlarge : Numeral.floatOfInt? n = none)

/-- Entries are refused with a report, unless the seconds are too large a number. -/
theorem ofEntries_eq_error {f : Fault} (h : ofEntries source data = .error f) :
    IsRefusal f ∨ f = .intTooLarge ∧ Overflows data := by
  simp only [ofEntries, bind_eq_error_iff] at h
  rcases h with h | ⟨scanning, hscanning, h | ⟨snippet, hsnippet, h | ⟨watching, hwatching, h⟩⟩⟩
  · exact Or.inl (isRefusal_of_sectionOf h)
  · exact Or.inl (isRefusal_of_sectionOf h)
  · exact Or.inl (isRefusal_of_sectionOf h)
  rcases h with h | ⟨fileName, hfileName, h | ⟨ignored, hignored, h | ⟨blockOnly, hblockOnly, h⟩⟩⟩
  · exact Or.inl (isRefusal_of_entryOf h)
  · exact Or.inl (isRefusal_of_entryOf h)
  · exact Or.inl (isRefusal_of_entryOf h)
  rcases h with h | ⟨maxWorkers, hmaxWorkers, h | ⟨template, htemplate, h | ⟨seconds, hseconds, h⟩⟩⟩
  · exact Or.inl (isRefusal_of_entryOf h)
  · exact Or.inl (isRefusal_of_entryOf h)
  · exact Or.inl (isRefusal_of_entryOf h)
  rcases h with rfl | ⟨debounce, rfl, h⟩
  · obtain ⟨rfl, v, n, hdebounce, hnumber, hlarge⟩ := entryOf_seconds_eq_iff.mp hseconds
    exact Or.inr ⟨rfl, sectionOf_eq_ok_iff.mp hscanning, sectionOf_eq_ok_iff.mp hsnippet,
      sectionOf_eq_ok_iff.mp hwatching, fits_of_entryOf hfileName,
      fits_of_entryOf hignored, fits_of_entryOf hblockOnly,
      fits_of_entryOf hmaxWorkers, fits_of_entryOf htemplate,
      hdebounce, hnumber, hlarge⟩
  · exact Or.inl (isRefusal_of_check h)

theorem ofEntries_of_overflows (source : Source) (h : Overflows data) :
    ofEntries source data = .error .intTooLarge := by
  obtain ⟨hscanning, hsnippet, hwatching, hfileName, hignored, hblockOnly, hmaxWorkers, htemplate,
    hdebounce, hnumber, hlarge⟩ := h
  obtain ⟨fileName, hfileName⟩ := (exists_entryOf_eq_ok_iff source ({} : Settings).fileName).mpr hfileName
  obtain ⟨ignored, hignored⟩ := (exists_entryOf_eq_ok_iff source ({} : Settings).ignored).mpr hignored
  obtain ⟨blockOnly, hblockOnly⟩ := (exists_entryOf_eq_ok_iff source ({} : Settings).blockOnly).mpr hblockOnly
  obtain ⟨maxWorkers, hmaxWorkers⟩ := (exists_entryOf_eq_ok_iff source ({} : Settings).maxWorkers).mpr hmaxWorkers
  obtain ⟨template, htemplate⟩ := (exists_entryOf_eq_ok_iff source ({} : Settings).template).mpr htemplate
  have hseconds : entryOf source _ "debounce_seconds" seconds? (.ok ({} : Settings).debounce) =
      .ok (.error .intTooLarge) :=
    entryOf_seconds_eq_iff.mpr ⟨rfl, _, _, hdebounce, hnumber, hlarge⟩
  simp only [ofEntries, bind_eq_error_iff]
  refine Or.inr ⟨_, sectionOf_eq_ok_iff.mpr hscanning, Or.inr ⟨_, sectionOf_eq_ok_iff.mpr hsnippet,
    Or.inr ⟨_, sectionOf_eq_ok_iff.mpr hwatching, ?_⟩⟩⟩
  refine Or.inr ⟨_, hfileName, Or.inr ⟨_, hignored, Or.inr ⟨_, hblockOnly, ?_⟩⟩⟩
  exact Or.inr ⟨_, hmaxWorkers, Or.inr ⟨_, htemplate, Or.inr ⟨_, hseconds, Or.inl rfl⟩⟩⟩

/-! ## Stored settings -/

/-- The bytes of stored settings make loading fail without a report: they are a JSON text beyond the
limits of reading, where `most` brackets may be open, or their seconds are too large a number. -/
def Escapes (most : Nat) (bytes : List UInt8) : Prop :=
  ∃ text, Source.decode bytes = .ok text ∧
    ((∃ r, Json.read text most = .error r ∧ r ≠ .malformed) ∨
      ∃ members, Json.read text most = .ok (.object members) ∧
        Overflows (Value.ofJsonMembers members))

variable {most : Nat} {fs : Tree} {here : Tree.Location} {root : Path} {bytes : List UInt8}

theorem storedJson_of_undecodable {path : String} {f : Fault}
    (h : fs.get here path = .ok (.file bytes)) (hbytes : Source.decode bytes = .error f) :
    storedJson fs here path most = .error f := by
  unfold storedJson Source.textAt
  simp only [h, hbytes, bind, Except.bind]

theorem storedJson_of_text {path text : String} (h : fs.get here path = .ok (.file bytes))
    (hbytes : Source.decode bytes = .ok text) :
    storedJson fs here path most = (Json.read text most).mapError Fault.ofJson := by
  unfold storedJson Source.textAt
  simp only [h, hbytes, bind, Except.bind]

theorem hasFile_of_file {path : String} (h : fs.get here path = .ok (.file bytes)) :
    fs.hasFile here path = .ok true := by
  unfold Tree.get at h
  unfold Tree.hasFile Tree.holds
  split at h
  · rename_i haddress
    rw [if_pos haddress]
    cases hreach : fs.reach here path with
    | error e =>
      rw [hreach] at h
      exact absurd h (by simp)
    | ok t =>
      rw [hreach] at h
      cases h
      rfl
  · exact absurd h (by simp)

theorem load_of_file (h : fs.get here (toString (storePath root)) = .ok (.file bytes)) :
    load fs here root most =
      match storedJson fs here (toString (storePath root)) most with
      | .ok data => ofJson (some (toString (storePath root))) data
      | .error f =>
        .error (if isReadFault f then unreadable (toString (storePath root)) f else f) := by
  unfold load
  dsimp only
  rw [hasFile_of_file h]
  rfl

theorem isReadFault_of_decode {f : Fault} (h : Source.decode bytes = .error f) :
    isReadFault f = true := by
  unfold Source.decode at h
  split at h
  · exact absurd h (by simp)
  · cases h
    rfl

theorem isReadFault_ofJson_iff (r : Json.Refusal) :
    isReadFault (Fault.ofJson r) = true ↔ r = .malformed := by
  cases r <;> simp [Fault.ofJson, isReadFault]

theorem isRefusal_unreadable (path : String) (f : Fault) : IsRefusal (unreadable path f) :=
  ⟨_, _, rfl, rfl⟩

/-- Where nothing in the stored bytes escapes, they give settings or a report. -/
theorem isRefusal_of_load (h : fs.get here (toString (storePath root)) = .ok (.file bytes))
    (hbytes : ¬ Escapes most bytes) {f : Fault} (hload : load fs here root most = .error f) :
    IsRefusal f := by
  rw [load_of_file h] at hload
  cases hdecode : Source.decode bytes with
  | error f' =>
    rw [storedJson_of_undecodable h hdecode] at hload
    cases hload
    rw [if_pos (isReadFault_of_decode hdecode)]
    exact isRefusal_unreadable _ f'
  | ok text =>
    rw [storedJson_of_text h hdecode] at hload
    cases hjson : Json.read text most with
    | error r =>
      have hr : r = .malformed := Decidable.byContradiction fun hr =>
        hbytes ⟨text, hdecode, Or.inl ⟨r, hjson, hr⟩⟩
      rw [hjson, Except.mapError] at hload
      cases hload
      rw [if_pos ((isReadFault_ofJson_iff r).mpr hr)]
      exact isRefusal_unreadable _ _
    | ok v =>
      rw [hjson, Except.mapError] at hload
      cases v with
      | object members =>
        have hsmall : ¬ Overflows (Value.ofJsonMembers members) := fun hlarge =>
          hbytes ⟨text, hdecode, Or.inr ⟨members, hjson, hlarge⟩⟩
        exact (ofEntries_eq_error hload).resolve_right fun hlarge => hsmall hlarge.2
      | _ =>
        cases hload
        exact isRefusal_refusal _ _

/-- Where something escapes, loading fails with a fault that is no report at all. -/
theorem exists_fault_of_escapes (h : fs.get here (toString (storePath root)) = .ok (.file bytes))
    (hbytes : Escapes most bytes) :
    ∃ f, load fs here root most = .error f ∧ ∀ r behind, f ≠ .report r behind := by
  rw [load_of_file h]
  obtain ⟨text, hdecode, ⟨r, hjson, hr⟩ | ⟨members, hjson, hlarge⟩⟩ := hbytes
  · rw [storedJson_of_text h hdecode, hjson, Except.mapError]
    refine ⟨Fault.ofJson r, ?_, fun report behind heq => ?_⟩
    · simp only [if_neg (mt (isReadFault_ofJson_iff r).mp hr)]
    · cases r <;> exact absurd heq (by simp [Fault.ofJson])
  · rw [storedJson_of_text h hdecode, hjson, Except.mapError]
    exact ⟨_, ofEntries_of_overflows _ hlarge, by simp⟩

end Settings

namespace CommandLine

open Settings (Escapes Fits IsRefusal Overflows load storePath)

variable {most : Nat} {fs : Tree} {here : Tree.Location} {root : Path} {bytes : List UInt8}

/-- A command whose project does not load ends with the fault of loading. -/
theorem runScanned_of_error {path : String} {f : Fault}
    (hroot : fs.resolve here (Path.ofString path) = .ok root)
    (hload : load fs here root most = .error f) (command : Printed → Workspace → Progress) :
    runScanned most fs here path command = .ended (endWith fs {} f) := by
  have hopen : Workspace.openAt fs here (Path.ofString path) none most = .error f := by
    unfold Workspace.openAt
    simp only [hroot, hload, bind, Except.bind]
  unfold runScanned
  rw [hopen]

/-- A command tells the user what is wrong with the configuration and ends with exit code 1. -/
def Reports (fs : Tree) (p : Progress) : Prop :=
  ∃ r : Report, r.kind = .configuration ∧
    p = .ended ⟨fs, ({} : Printed).warn ("Error: " ++ r.formatted), .failed⟩

/-- Whatever the bytes of stored settings are, and however many brackets may be open when they are read,
loading them gives settings or a report about the configuration, and each command shows this report and
ends with a failure, exactly if the bytes are no JSON text beyond the limits of reading and their seconds
are no whole number beyond every floating-point number. -/
theorem load_settles_iff (h : fs.get here (toString (storePath root)) = .ok (.file bytes)) :
    ((∀ f, load fs here root most = .error f → IsRefusal f) ↔ ¬ Escapes most bytes) ∧
      ∀ path f command, fs.resolve here (Path.ofString path) = .ok root →
        load fs here root most = .error f →
        (Reports fs (runScanned most fs here path command) ↔ ¬ Escapes most bytes) := by
  constructor
  · constructor
    · intro hsettles hbytes
      obtain ⟨f, hload, hf⟩ := Settings.exists_fault_of_escapes h hbytes
      obtain ⟨r, behind, rfl, -⟩ := hsettles f hload
      exact hf r behind rfl
    · intro hbytes f hload
      exact Settings.isRefusal_of_load h hbytes hload
  · intro path f command hroot hload
    rw [runScanned_of_error hroot hload]
    constructor
    · intro hreports hbytes
      obtain ⟨f', hload', hf⟩ := Settings.exists_fault_of_escapes h hbytes
      cases hload.symm.trans hload'
      obtain ⟨r, -, hend⟩ := hreports
      unfold endWith at hend
      split at hend
      · exact hf _ _ rfl
      · exact absurd hend (by simp)
    · intro hbytes
      obtain ⟨r, behind, rfl, hr⟩ := Settings.isRefusal_of_load h hbytes hload
      exact ⟨r, hr, rfl⟩

/-! ### Two projects with bad settings -/

/-- A project at the top of the tree with these bytes as its settings. -/
def projectWith (bytes : List UInt8) : Tree :=
  .folder [(Settings.storeFolder, .folder [("config.json", .file bytes)])]

/-- Settings that are no text are told to the user. -/
theorem reports_undecodable :
    (∀ f, load (projectWith [0xff]) [] ⟨.root, []⟩ = .error f → IsRefusal f) ∧
      ∀ command, Reports (projectWith [0xff])
        (runScanned Json.mostOpen (projectWith [0xff]) [] "/" command) := by
  have hfile : (projectWith [0xff]).get [] (toString (storePath ⟨.root, []⟩)) = .ok (.file [0xff]) := by
    rfl
  have hbytes : ¬ Escapes Json.mostOpen [0xff] := by
    rintro ⟨text, hdecode, -⟩
    have hrefused : Text.Utf8.decode [0xff] = .error ⟨0, 1, .invalidStart⟩ := by rfl
    rw [Source.decode, hrefused] at hdecode
    exact absurd hdecode (by simp)
  obtain ⟨hsettles, hreports⟩ := load_settles_iff hfile
  exact ⟨hsettles.mpr hbytes, fun command => (hreports "/" _ command rfl rfl).mpr hbytes⟩

/-- Settings with a number of seconds that has 401 digits. -/
def endless : Json :=
  .object [("watching", .object [("debounce_seconds", .int (10 ^ 400 : Nat))])]

theorem fits_endless : endless.Fits 2 := by
  have hdigits : (Nat.toDigits 10 (10 ^ 400)).length ≤ Json.mostDigits := by
    rw [Nat.length_toDigits_le_iff (by decide) (by decide)]
    exact Nat.pow_lt_pow_right (m := 400) (n := Json.mostDigits) (a := 10) (by decide) (by decide)
  refine ⟨by decide, List.pairwise_singleton _ _, trivial,
    ⟨by decide, List.pairwise_singleton _ _, trivial, ?_, trivial⟩, trivial⟩
  rw [Json.Fits, Int.natAbs_natCast]
  exact hdigits

/-- They make loading fail with a fault that is no report. -/
theorem not_isRefusal_endless :
    ∃ f, load (projectWith endless.pretty.toUTF8.toList) [] ⟨.root, []⟩ = .error f ∧
      ¬ IsRefusal f := by
  have hfile : (projectWith endless.pretty.toUTF8.toList).get [] (toString (storePath ⟨.root, []⟩)) =
      .ok (.file endless.pretty.toUTF8.toList) := rfl
  have hoverflows : Overflows (Value.ofJsonMembers
      [("watching", .object [("debounce_seconds", .int (10 ^ 400 : Nat))])]) := by
    have hnone : ∀ key, Settings.entry? key ([] : List (Value × Value)) = none := fun _ => rfl
    exact ⟨.inl ⟨rfl, rfl⟩, .inl ⟨rfl, rfl⟩, .inr rfl, by simp [Fits, hnone], by simp [Fits, hnone],
      by simp [Fits, hnone], by simp [Fits, hnone], by simp [Fits, hnone], rfl, rfl,
      Numeral.floatOfInt?_of_endless (Nat.le_refl _)⟩
  have hescapes : Escapes Json.mostOpen endless.pretty.toUTF8.toList :=
    ⟨endless.pretty, Source.decode_toUTF8 (Json.arePlain_pretty fits_endless),
      .inr ⟨_, Json.read_pretty fits_endless (by decide), hoverflows⟩⟩
  obtain ⟨f, hload, hf⟩ := Settings.exists_fault_of_escapes hfile hescapes
  refine ⟨f, hload, ?_⟩
  rintro ⟨r, behind, rfl, -⟩
  exact hf r behind rfl

end CommandLine

end RouteAtlas
