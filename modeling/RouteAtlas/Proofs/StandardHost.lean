import Mathlib.Data.List.TakeWhile
import RouteAtlas.CommandLine.Standard
import RouteAtlas.Proofs.Hosts

/-!
# The standard host is lawful

The standard host reads options that are spelled out, whatever a program declares
(`CommandLine.read_spelled`), and drops nothing from text without an escape character
(`Text.withoutControls_of_notMem`). So it is lawful (`CommandLine.Host.lawful_standard`).
-/

namespace RouteAtlas

namespace CommandLine

variable {known : List Switch} {words : List String} {given : List Given} {o : Switch}

/-! ## Names -/

/-- Where keys are distinct, an item is found by its key. -/
theorem find?_key {α : Type} {key : α → String} {l : List α} (h : (l.map key).Nodup) {a : α}
    (ha : a ∈ l) (more : List α) : (l ++ more).find? (key · == key a) = some a := by
  induction l with
  | nil => exact absurd ha List.not_mem_nil
  | cons b l ih =>
    rw [List.map_cons, List.nodup_cons] at h
    rcases List.mem_cons.mp ha with rfl | ha
    · simp
    · have hne : key b ≠ key a := fun heq => h.1 (heq ▸ List.mem_map_of_mem ha)
      rw [List.cons_append, List.find?_cons_of_neg (by simpa using hne)]
      exact ih h.2 ha

/-- A long name is read as an option, and its value is not part of it. -/
theorem reads_long {name : String} (h : isLongName name = true) :
    looksLikeOption name = true ∧ name ≠ "--" ∧ nameAndValue name.toList = (name, none) := by
  unfold isLongName at h
  split at h
  · rename_i c rest hname
    have hequals : '=' ∉ name.toList := by
      rw [hname]
      intro hmem
      have hlower : '=' ∈ c :: rest := by simpa using hmem
      exact absurd (List.all_eq_true.mp h _ hlower) (by decide)
    refine ⟨?_, ?_, ?_⟩
    · rw [looksLikeOption, hname]
      rfl
    · rintro rfl
      cases hname
    · have hall : ∀ c ∈ name.toList, (decide (c ≠ '=')) = true := by
        intro c hc
        simp only [decide_eq_true_eq]
        rintro rfl
        exact hequals hc
      rw [nameAndValue, List.takeWhile_eq_self_iff.mpr hall, List.dropWhile_eq_nil_iff.mpr hall]
      simp
  · exact absurd h (by simp)

/-! ## Options -/

/-- What is read of a long name comes before what is read of the words after it. -/
theorem readWords_long {r : Reading} {a : Arguments} (hname : isLongName o.long = true)
    (hread : readOption known o.long = .ok r) (h : readWords known true r.waiting words = .ok a) :
    readWords known true none (o.long :: words) = .ok { a with given := r.given ++ a.given } := by
  obtain ⟨hoption, hdashes, -⟩ := reads_long hname
  rw [readWords, if_neg hdashes, if_pos hoption]
  simp only [hread, bind, Except.bind, h]
  rfl

theorem readWords_flag (hname : isLongName o.long = true)
    (hknown : known.find? (·.long == o.long) = some o) (hflag : o.takesValue = false)
    (h : readWords known true none words = .ok ⟨given, []⟩) :
    readWords known true none (o.long :: words) = .ok ⟨⟨o.long, none⟩ :: given, []⟩ := by
  obtain ⟨-, -, hpair⟩ := reads_long hname
  have hread : readOption known o.long = .ok { given := [⟨o.long, none⟩] } := by
    simp [readOption, hpair, hknown, hflag]
  exact readWords_long hname hread h

/-- An option with a value takes the next word, whatever it is. -/
theorem readWords_value (hname : isLongName o.long = true)
    (hknown : known.find? (·.long == o.long) = some o) (hvalue : o.takesValue = true) (v : String)
    (h : readWords known true none words = .ok ⟨given, []⟩) :
    readWords known true none (o.long :: v :: words) = .ok ⟨⟨o.long, some v⟩ :: given, []⟩ := by
  obtain ⟨-, -, hpair⟩ := reads_long hname
  have hread : readOption known o.long = .ok { waiting := some o } := by
    simp [readOption, hpair, hknown, hvalue]
  have hnext : readWords known true (some o) (v :: words) = .ok ⟨⟨o.long, some v⟩ :: given, []⟩ := by
    rw [readWords]
    simp only [h, bind, Except.bind]
    rfl
  exact readWords_long hname hread hnext

/-- Options that are spelled out are read as they are given. -/
theorem readWords_spelled {switches : List Switch} (hnames : (switches.map Switch.long).Nodup)
    (hlongs : ∀ o ∈ switches, isLongName o.long = true ∧ o.long ≠ "--help")
    (h : Spells switches words given) :
    readWords (switches ++ [helpSwitch]) true none words = .ok ⟨given, []⟩ := by
  induction h with
  | nil => rfl
  | flag ho hflag _ ih =>
    have hknown := find?_key hnames ho [helpSwitch]
    exact readWords_flag (hlongs _ ho).1 hknown hflag ih
  | value ho hvalue v _ ih =>
    have hknown := find?_key hnames ho [helpSwitch]
    exact readWords_value (hlongs _ ho).1 hknown hvalue v ih

theorem Spells.exists_switch (h : Spells known words given) {g : Given} (hg : g ∈ given) :
    ∃ o ∈ known, g.long = o.long := by
  induction h with
  | nil => exact absurd hg List.not_mem_nil
  | flag ho _ _ ih | value ho _ _ _ ih =>
    rcases List.mem_cons.mp hg with rfl | hg
    · exact ⟨_, ho, rfl⟩
    · exact ih hg

/-! ## Words -/

theorem readWords_word {word : String} {a : Arguments} (hword : looksLikeOption word = false)
    (h : readWords known true none words = .ok a) :
    readWords known true none (word :: words) = .ok { a with words := word :: a.words } := by
  have hdashes : word ≠ "--" := by
    rintro rfl
    exact absurd hword (by decide)
  rw [readWords, if_neg hdashes, hword]
  simp only [bind, Except.bind, h]
  rfl

variable {i : Interface} {e : Entry} {place : List String} {path : String}

/-- A directory may be named before the options. -/
theorem readWords_place (hplace : Directs place path)
    (h : readWords known true none words = .ok ⟨given, []⟩) :
    ∃ named, readWords known true none (place ++ words) = .ok ⟨given, named⟩ ∧
      named.head?.getD "." = path ∧ named.drop 1 = [] := by
  cases hplace with
  | here => exact ⟨[], h, rfl, rfl⟩
  | named hpath => exact ⟨[path], readWords_word hpath h, rfl, rfl⟩

/-- The words after the name of a command are read by the options of the command. -/
theorem read_entry (hi : i.WellFormed) (he : e ∈ i.entries) (words : List String) :
    Asked.read i (e.name :: words) = readCommand i e words := by
  have hname := hi.commands e he
  have hdashes : e.name ≠ "--" := by
    intro heq
    rw [heq] at hname
    exact absurd hname (by decide)
  have hleading : readArguments i.known false (e.name :: words) = .ok { words := e.name :: words } := by
    rw [readArguments, readWords, if_neg hdashes, hname]
    rfl
  have hentry := find?_key hi.names he []
  rw [List.append_nil] at hentry
  rw [Asked.read, hleading]
  simp only [bind, Except.bind, askedFirst, Arguments.firstOf, List.find?_nil, Option.map_none, hentry]

/-- Words that name a directory and spell options out ask for the command with these options. -/
theorem read_spelled (hi : i.WellFormed) (he : e ∈ i.entries) (hplace : Directs place path)
    (hwords : Spells e.switches words given)
    (hrequired : ∀ o ∈ e.switches, o.required = true → isGiven given o.long = true) :
    Asked.read i (e.name :: (place ++ words)) = .ok (.onPath path (.ok (e.command given))) := by
  obtain ⟨named, hread, hhead, htail⟩ := readWords_place hplace
    (readWords_spelled (hi.longs e he) (hi.switches e he) hwords)
  have hhelp : isGiven given "--help" = false := by
    rw [isGiven, List.any_eq_false]
    intro g hg
    obtain ⟨o, ho, hlong⟩ := hwords.exists_switch hg
    simpa [hlong] using (hi.switches e he o ho).2
  have hmissing : (e.switches.find? fun o => o.required && !isGiven given o.long) = none := by
    rw [List.find?_eq_none]
    intro o ho
    cases hmust : o.required with
    | false => simp
    | true => simp [hrequired o ho hmust]
  rw [read_entry hi he, readCommand, readArguments, Entry.known, hread]
  simp only [bind, Except.bind, hhelp, hhead, Entry.commandOf, hmissing, htail]
  rfl

theorem Host.read_standard {fs : Tree} {here : Standpoint} {c : Command}
    (hread : Asked.read i words = .ok (.onPath path (.ok c))) (hsees : here.Sees fs path) :
    Host.standard.read i fs here words = .ok (.onPath path c) := by
  obtain ⟨haddress, hnear, es, hfolder⟩ := hsees
  have hthere : isDirectory fs here.location path = true := by
    rw [isDirectory, hfolder]
    rfl
  simp [Host.standard, hread, Asked.settle, haddress, hnear, hthere]

end CommandLine

/-! ## Written text -/

namespace Text

variable {before code : List Char}

/-- Characters before an escape character are kept. -/
theorem dropControlsOnto_append (h : escapeCharacter ∉ before) (done rest : List Char) :
    dropControlsOnto done .outside [] (before ++ rest) =
      dropControlsOnto (before.reverse ++ done) .outside [] rest := by
  induction before generalizing done with
  | nil => rfl
  | cons c before ih =>
    obtain ⟨hc, hbefore⟩ := List.ne_and_not_mem_of_not_mem_cons h
    rw [List.cons_append, dropControlsOnto, ControlStage.next?, if_neg (Ne.symm hc)]
    simp only [if_neg (Ne.symm hc), List.nil_append]
    rw [ih hbefore, List.reverse_cons, List.append_assoc, List.singleton_append]

/-- Text without an escape character has no control sequences. -/
theorem withoutControls_of_notMem {s : String} (h : escapeCharacter ∉ s.toList) :
    withoutControls s = s := by
  have hkept := dropControlsOnto_append h [] []
  rw [List.append_nil, List.append_nil] at hkept
  rw [withoutControls, hkept, dropControlsOnto]
  simp

/-- Parameters and the final character after them are dropped. -/
theorem dropControlsOnto_parameters (h : ∀ c ∈ code, isParameter c = true)
    (done held rest : List Char) :
    dropControlsOnto done .parameters held (code ++ 'm' :: rest) =
      dropControlsOnto done .outside [] rest := by
  induction code generalizing held with
  | nil => rfl
  | cons c code ih =>
    obtain ⟨hc, hcode⟩ := List.forall_mem_cons.mp h
    rw [List.cons_append, dropControlsOnto, ControlStage.next?, if_pos hc]
    exact ih hcode (c :: held)

theorem isParameter_of_colour {c : Char} (h : c.isDigit ∨ c = ';') : isParameter c = true := by
  rcases h with h | rfl
  · simp only [Char.isDigit, Bool.and_eq_true, decide_eq_true_eq] at h
    simp only [isParameter, Bool.and_eq_true, decide_eq_true_eq]
    exact ⟨h.1, Char.le_trans (b := '9') h.2 (by decide)⟩
  · decide

end Text

namespace CommandLine

theorem Host.plain_standard : Host.standard.Plain := fun _ h => Text.withoutControls_of_notMem h

theorem Host.lawful_standard : Host.standard.Lawful where
  reads hi he hplace hwords _ hrequired hsees :=
    read_standard (read_spelled hi he hplace hwords hrequired) hsees
  plain := plain_standard
  exit_done := rfl
  exit_failed := rfl

theorem Host.colourless_standard : Host.standard.Colourless := by
  intro before code after hbefore hcode
  have hparameters : ∀ c ∈ code.toList, Text.isParameter c = true :=
    fun c hc => Text.isParameter_of_colour (hcode c hc)
  have hdropped := Text.dropControlsOnto_parameters hparameters (before.toList.reverse ++ [])
    ['[', '\x1b'] after.toList
  have hchars : (before ++ "\x1b[" ++ code ++ "m" ++ after).toList =
      before.toList ++ ('\x1b' :: '[' :: (code.toList ++ 'm' :: after.toList)) := by
    simp [String.toList_append]
  show Text.withoutControls _ = Text.withoutControls _
  rw [Text.withoutControls, Text.withoutControls, hchars, String.toList_append,
    Text.dropControlsOnto_append hbefore, Text.dropControlsOnto_append hbefore]
  exact congrArg String.ofList hdropped

end CommandLine

end RouteAtlas
