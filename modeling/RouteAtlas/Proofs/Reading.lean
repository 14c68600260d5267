import RouteAtlas.Proofs.Newline
import RouteAtlas.Proofs.Refresh
import RouteAtlas.Proofs.Reordering

/-!
# What is read from a file

Whatever the bytes of a file are, it is said what reading it gives (`Source.read_bytes`): a report if
there are too many of them, the text with its line ends unified if they are the bytes of a text, and
else a fault that names the bytes after the longest good part. A rescan makes one failure of the fault.
-/

namespace RouteAtlas

open RouteAtlas.Tree (Location)

/-- A file that cannot be read has one failure. -/
theorem Scan.filter_failures_found {extract : String → Urlconf} {previous : Snapshot}
    {read : String → Except Fault String} {paths : List String} {path : String} {f : Fault}
    (hpath : path ∈ paths) (hread : read path = .error f) :
    (found extract previous read paths).failures.filter (fun failure => failure.path = path) =
      [Failure.ofFault path f] := by
  have hname : (fun path' => (failureOf read path').filter fun failure =>
      decide (failure.path = path)) =
      fun path' => if decide (path' = path) then failureOf read path' else none := by
    funext path'
    cases hfailure : failureOf read path' with
    | none => simp
    | some failure =>
      obtain ⟨f', -, rfl⟩ := failureOf_eq_some_iff.mp hfailure
      by_cases h : path' = path <;> simp [Failure.ofFault, h]
  have honce : paths.eraseDups.filter (fun path' => decide (path' = path)) = [path] := by
    rw [List.filter_eq, List.count_eq_one_of_mem (nodup_eraseDups paths)
      (List.mem_eraseDups.mpr hpath), List.replicate_one]
  show (failuresOf (readings read paths)).filter _ = _
  rw [failuresOf_readings, List.filter_filterMap, hname, ← List.filterMap_filter, honce]
  simp [failureOf_eq_some_iff.mpr ⟨f, hread, rfl⟩]

namespace Source

variable {fs : Tree} {here : Location} {path : String} {bytes : List UInt8}

theorem read_of_file (h : fs.get here (toString (Path.ofString path)) = .ok (.file bytes)) :
    read fs here path =
      if largest < bytes.length then .error (.report (tooLarge path bytes.length) none)
      else decode bytes := by
  simp only [read, h, bind, Except.bind]

/-- Bytes of no text are refused. -/
theorem decode_of_ne (h : ∀ s : String, bytes ≠ s.toUTF8.toList) :
    ∃ r : Text.Utf8.Refusal, r.Faults bytes ∧ decode bytes = .error (.ofRefusal bytes r) := by
  cases hdecode : Text.Utf8.decode bytes with
  | ok s =>
    refine absurd (Text.Utf8.decode_eq_ok_iff.mp hdecode) ?_
    have hne := h (String.ofList s)
    rwa [Text.Utf8.toList_toUTF8, String.toList_ofList] at hne
  | error r =>
    refine ⟨r, Text.Utf8.faults_of_decode hdecode, ?_⟩
    rw [decode, hdecode]

/-- Reading is exact, whatever the bytes of the file are. -/
theorem read_bytes (h : fs.get here (toString (Path.ofString path)) = .ok (.file bytes)) :
    (largest < bytes.length →
      read fs here path = .error (.report (tooLarge path bytes.length) none) ∧
        (tooLarge path bytes.length).kind.name = "FileReadError" ∧
        (tooLarge path bytes.length).code = .fileTooLarge) ∧
    (bytes.length ≤ largest →
      (∀ s : String, bytes = s.toUTF8.toList →
        (∀ s' : String, bytes = s'.toUTF8.toList → s' = s) ∧
        ∃ text : String, read fs here path = .ok text ∧
          text.toList = Text.withoutReturns (Text.withoutPairs s.toList) ∧ '\r' ∉ text.toList ∧
          ∀ rest, s.toList = '\uFEFF' :: rest → ∃ rest', text.toList = '\uFEFF' :: rest') ∧
      (∀ (text : String) (ending : List Char), '\r' ∉ text.toList →
        ending ∈ [['\n'], ['\r', '\n'], ['\r']] →
        bytes = (String.ofList (Text.withLineEnd ending text.toList)).toUTF8.toList →
        read fs here path = .ok text) ∧
      ((∀ s : String, bytes ≠ s.toUTF8.toList) →
        ∃ r : Text.Utf8.Refusal, r.Faults bytes ∧
          let f : Fault := .undecodable bytes r.start (r.start + r.width) r.reason.text
          read fs here path = .error f ∧
          ∀ {σ ω : Type} [DecidableEq ω] (w : World σ ω) (m : Machine σ ω) (paths : List String),
            w.read m.world = read fs here → path ∈ paths →
            ∃ scan, m.Gives w paths scan ∧ path ∉ scan.snapshot.records.keys ∧
              scan.failures.filter (fun failure => failure.path = path) =
                [⟨path, f.titled, .encoding, false⟩])) := by
  have hread := read_of_file h
  refine ⟨fun hlarge => ?_, fun hsmall => ⟨fun s hs => ⟨fun s' hs' => ?_, ?_⟩,
    fun text ending htext hending hbytes => ?_, fun hnone => ?_⟩⟩
  · rw [if_pos hlarge] at hread
    exact ⟨hread, rfl, rfl⟩
  all_goals rw [if_neg (Nat.not_lt.mpr hsmall)] at hread
  · rw [hs, Text.Utf8.toList_toUTF8, Text.Utf8.toList_toUTF8] at hs'
    exact (String.toList_inj.mp (Text.Utf8.encode_injective hs')).symm
  · rw [hs, decode_bytes] at hread
    refine ⟨_, hread, ?_, ?_, fun rest hrest => ⟨Text.unifyNewlines rest, ?_⟩⟩
    · rw [String.toList_ofList, Text.unifyNewlines_eq]
    · rw [String.toList_ofList, Text.unifyNewlines_eq]
      exact Text.notMem_withoutReturns _
    · rw [String.toList_ofList, hrest, Text.unifyNewlines_cons (by decide)]
  · rw [hread, hbytes, decode_bytes, String.toList_ofList,
      Text.unifyNewlines_withLineEnd hending htext, String.ofList_toList]
  · obtain ⟨r, hfaults, hdecode⟩ := decode_of_ne hnone
    rw [hdecode] at hread
    refine ⟨r, hfaults, hread, fun w m paths hw hpath => ⟨_, Machine.gives_found ?_, ?_, ?_⟩⟩
    · intro path' hpath' f hf
      rw [hw] at hf
      exact not_fatal_of_read hf
    · rw [Scan.mem_keys_found, hw]
      rintro ⟨-, text, htext, -⟩
      rw [hread] at htext
      cases htext
    · rw [hw]
      exact Scan.filter_failures_found hpath hread

/-- A tree with one file: a line, and then the half of a surrogate pair. -/
def halved : Tree := .folder [("urls.py", .file [0x61, 0x0D, 0x0A, 0xED, 0xA0, 0x80])]

/-- A world that reads the files of the tree. -/
def halvedWorld : World Unit Unit where
  extract := Urlconf.read false
  read _ := read halved []
  respond _ _ _ := []
  describe _ := "observer"
  requestId n := toString n

theorem read_bytes_halved :
    let bytes : List UInt8 := [0x61, 0x0D, 0x0A, 0xED, 0xA0, 0x80]
    halved.get [] (toString (Path.ofString "/urls.py")) = .ok (.file bytes) ∧
      bytes.length ≤ largest ∧ (∀ s : String, bytes ≠ s.toUTF8.toList) ∧
      ∃ r : Text.Utf8.Refusal, r.Faults bytes ∧ r.start = 3 ∧
        ∃ scan, ({ index := {}, world := () } : Machine Unit Unit).Gives halvedWorld
            ["/urls.py", "/urls.py"] scan ∧
          (scan.failures.filter fun failure => failure.path = "/urls.py").map Failure.category =
            [.encoding] := by
  intro bytes
  have hfile : halved.get [] (toString (Path.ofString "/urls.py")) = .ok (.file bytes) := by rfl
  have hsmall : bytes.length ≤ largest := by decide
  have hdecode : Text.Utf8.decode bytes = .error ⟨3, 1, .invalidContinuation⟩ := by rfl
  have hnone : ∀ s : String, bytes ≠ s.toUTF8.toList := by
    intro s hs
    rw [Text.Utf8.toList_toUTF8, ← Text.Utf8.decode_eq_ok_iff, hdecode] at hs
    cases hs
  obtain ⟨r, hfaults, hread, hscan⟩ := ((read_bytes hfile).2 hsmall).2.2 hnone
  obtain ⟨scan, hgives, -, hfailures⟩ := hscan halvedWorld { index := {}, world := () }
    ["/urls.py", "/urls.py"] rfl (by decide)
  refine ⟨hfile, hsmall, hnone, r, hfaults, ?_, scan, hgives, ?_⟩
  · have hrun : read halved [] "/urls.py" =
        .error (.undecodable bytes 3 4 "invalid continuation byte") := by rfl
    rw [hrun] at hread
    injection hread with hfault
    injection hfault with _ hstart
    exact Int.ofNat_inj.mp hstart.symm
  · rw [hfailures]
    rfl

end Source

end RouteAtlas
